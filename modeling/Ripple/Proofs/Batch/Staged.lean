import Ripple.Batch
import Ripple.Proofs.Staging.Files
import Mathlib.Data.List.Nodup
import Mathlib.Data.List.Perm.Subperm

/-!
# The staged files of a batch

A batch makes its directory and then puts staged files into it and takes them away. `Holding` says
that a tree is the one with the directory, together with the staged files of some items and nothing
else; writing, reading and removing a staged file are described by what they do to those items. For
that the staged files need names of their own (`Desk`), which new names have (`Fresh.desk`). An item
is refused if its name is too long or its content cannot be written in full (`refusal?`), and then a
part of it may have been written.
-/

namespace Ripple

open Text

/-- Nothing stands at the path, not even a link that leads nowhere. -/
def FileTree.Vacant (t : FileTree) (path : String) : Prop :=
  ∀ location entry, t.walk .name (bytesOf path) ≠ .ok (.taken location entry)

/-- What cannot be removed, and is not a directory, is not there. -/
theorem FileTree.vacant_of_remove {t : FileTree} {path : String} {fault : Fault}
    (h : (t.remove (bytesOf path)).2 = .error fault) (hfault : fault ≠ .isDirectory) :
    t.Vacant path := by
  intro location entry hwalk
  rw [FileTree.remove, hwalk] at h
  cases entry with
  | directory => exact hfault (Except.error.inj h).symm
  | file | link => cases h

/-- A source of a batch and its place. -/
abbrev Item := Source × Nat

namespace Workbench

variable {ε : Type} (w : Workbench ε)

/-- The path of the staged file. -/
def itemPath (x : Item) : String := Staging.path w.directory (w.stamps x.2) x.1.name

/-- The name of the staged file in its directory. -/
def itemName (x : Item) : FileName := Staging.entryName (w.stamps x.2) x.1.name

/-- The staged file has a name and a path that are not too long. -/
def ItemFits (x : Item) : Prop := Staging.Fits w.directory (w.stamps x.2) x.1.name

instance instDecidableItemFits (x : Item) : Decidable (w.ItemFits x) :=
  Staging.instDecidableFits ..

/-- Why an item cannot be staged in a directory that is there, if it cannot: the name of its file is
too long, or the file cannot be written in full. -/
def refusal? (base : FileTree) (location : Location) (x : Item) : Option Fault :=
  if w.ItemFits x then base.shortfall? (w.itemName x :: location) (bytesOf x.1.content)
  else some .nameTooLong

/-- What is written of the content of an item. -/
def itemContent (base : FileTree) (location : Location) (x : Item) : Bytes :=
  base.kept (w.itemName x :: location) (bytesOf x.1.content)

/-- The stamps are new: no two staged files of the batch have the same path, and once their
directory has been made nothing stands at any of those paths. -/
structure Fresh (t : FileTree) (batch : List Source) : Prop where
  nodup : (batch.zipIdx.map w.itemPath).Nodup
  vacant : ∀ x ∈ batch.zipIdx, (t.makeDirectories w.directory).1.Vacant (w.itemPath x)

/-- The directory for the staged files of the items is there, and their names are not taken. -/
structure Desk (base : FileTree) (location : Location) (items : List Item) : Prop where
  opens : base.Opens w.directory location
  nodup : (items.map w.itemName).Nodup
  vacant : ∀ x ∈ items, w.ItemFits x → base.entries[w.itemName x :: location]? = none

/-- The tree is the base tree with the staged files of the held items, as far as they can be
written. -/
structure Holding (base : FileTree) (location : Location) (held : List Item) (t : FileTree) :
    Prop where
  workingDirectory : t.workingDirectory = base.workingDirectory
  limits : t.limits = base.limits
  file : ∀ x ∈ held,
    t.entries[w.itemName x :: location]? = some (.file (w.itemContent base location x))
  other : ∀ place : Location, (∀ x ∈ held, place ≠ w.itemName x :: location) →
    t.entries[place]? = base.entries[place]?

variable {w} {t base : FileTree} {location : Location} {items held : List Item} {x : Item}
  {batch : List Source}

/-- Items with the same name in the directory have the same path. -/
theorem itemPath_eq {x y : Item} (h : w.itemName x = w.itemName y) :
    w.itemPath x = w.itemPath y := by
  have hname : Staging.fileName (w.stamps x.2) x.1.name =
      Staging.fileName (w.stamps y.2) y.1.name := String.toList_inj.mp (encode_injective h)
  rw [itemPath, itemPath, Staging.path, Staging.path, hname]

/-- A place at which nothing stands when it is looked up by its path is vacant. -/
theorem getElem?_of_vacant (hopens : base.Opens w.directory location)
    (hvacant : base.Vacant (w.itemPath x)) (hfits : w.ItemFits x) :
    base.entries[w.itemName x :: location]? = none := by
  -- the walk of the path ends at the name in the directory
  obtain ⟨left, hwalk⟩ := hopens.walk_path hfits
  have hlast := hwalk .name
  rw [FileTree.walkFrom_last hfits.nameLength] at hlast
  cases hget : base.entries[w.itemName x :: location]? with
  | none => rfl
  | some entry =>
    rw [itemName] at hget
    rw [hget] at hlast
    cases entry <;> exact absurd hlast (hvacant _ _)

/-- **New stamps give the staged files names of their own.** -/
theorem Fresh.desk (h : w.Fresh t batch) (hmade : t.makeDirectories w.directory = (base, .ok ()))
    (hopens : base.Opens w.directory location) : w.Desk base location batch.zipIdx where
  opens := hopens
  nodup := by
    refine List.pairwise_map.mpr ((List.pairwise_map.mp h.nodup).imp ?_)
    exact fun hpath hname => hpath (itemPath_eq hname)
  vacant x hx hfits := by
    have hvacant := h.vacant x hx
    rw [hmade] at hvacant
    exact getElem?_of_vacant hopens hvacant hfits

/-! ## Items that are accepted -/

theorem fits_of_accepted (h : w.refusal? base location x = none) : w.ItemFits x := by
  by_contra hfits
  rw [refusal?, if_neg hfits] at h
  cases h

theorem refusal?_of_fits (h : w.ItemFits x) :
    w.refusal? base location x =
      base.shortfall? (w.itemName x :: location) (bytesOf x.1.content) := if_pos h

theorem refusal?_of_not_fits (h : ¬w.ItemFits x) :
    w.refusal? base location x = some .nameTooLong := if_neg h

/-- The staged file of an item that is accepted has the whole content. -/
theorem itemContent_of_accepted (h : w.refusal? base location x = none) :
    w.itemContent base location x = bytesOf x.1.content := by
  rw [refusal?_of_fits (fits_of_accepted h)] at h
  exact FileTree.kept_of_shortfall?_eq_none h

/-! ## What a tree holds -/

namespace Holding

theorem start : w.Holding base location [] base := ⟨rfl, rfl, by simp, fun _ _ => rfl⟩

theorem eq_base (h : w.Holding base location [] t) : t = base :=
  FileTree.ext_getElem? h.workingDirectory h.limits fun place => h.other place (by simp)

theorem congr {held' : List Item} (h : w.Holding base location held t)
    (hheld : ∀ x, x ∈ held' ↔ x ∈ held) : w.Holding base location held' t where
  workingDirectory := h.workingDirectory
  limits := h.limits
  file x hx := h.file x ((hheld x).mp hx)
  other place hplace := h.other place fun x hx => hplace x ((hheld x).mpr hx)

theorem keptIn (h : w.Holding base location held t)
    (hvacant : ∀ x ∈ held, base.entries[w.itemName x :: location]? = none) :
    FileTree.KeptIn base t where
  workingDirectory := h.workingDirectory
  limits := h.limits
  entries {place entry} hget := by
    rw [h.other place]
    · exact hget
    · rintro x hx rfl
      simp [hvacant x hx] at hget

theorem put (h : w.Holding base location held t)
    (hname : ∀ y ∈ held, w.itemName y ≠ w.itemName x) :
    w.Holding base location (x :: held)
      (t.put (w.itemName x :: location) (.file (w.itemContent base location x))) where
  workingDirectory := h.workingDirectory
  limits := h.limits
  file y hy := by
    rw [FileTree.getElem?_put]
    rcases List.mem_cons.mp hy with rfl | hy
    · rw [if_pos rfl]
    · rw [if_neg fun heq => hname y hy (List.cons.inj heq).1.symm]
      exact h.file y hy
  other place hplace := by
    rw [FileTree.getElem?_put, if_neg fun heq => hplace x List.mem_cons_self heq.symm]
    exact h.other place fun y hy => hplace y (List.mem_cons_of_mem _ hy)

theorem erase (h : w.Holding base location (x :: held) t)
    (hname : ∀ y ∈ held, w.itemName y ≠ w.itemName x)
    (hvacant : base.entries[w.itemName x :: location]? = none) :
    w.Holding base location held (t.erase (w.itemName x :: location)) where
  workingDirectory := h.workingDirectory
  limits := h.limits
  file y hy := by
    rw [FileTree.getElem?_erase, if_neg fun heq => hname y hy (List.cons.inj heq).1.symm]
    exact h.file y (List.mem_cons_of_mem _ hy)
  other place hplace := by
    rw [FileTree.getElem?_erase]
    split
    · next heq => rw [← heq, hvacant]
    · next hne =>
      refine h.other place fun y hy => ?_
      rcases List.mem_cons.mp hy with rfl | hy
      · exact fun heq => hne heq.symm
      · exact hplace y hy

end Holding

/-! ## What is done to staged files -/

/-- Where a staged file is there, so is its directory. -/
theorem opens_of_exists (h : t.exists? (bytesOf (w.itemPath x)) = true) :
    ∃ location, t.Opens w.directory location := by
  rw [FileTree.exists?, FileTree.lookUp] at h
  split at h
  · next hwalk => exact FileTree.opens_of_walk_path hwalk
  · cases h
  · cases h

namespace Desk

/-- Different items have different names. -/
theorem itemName_ne (d : w.Desk base location items) {x y : Item} (hx : x ∈ items)
    (hy : y ∈ items) (hne : y ≠ x) : w.itemName y ≠ w.itemName x :=
  fun heq => hne (List.inj_on_of_nodup_map d.nodup hy hx heq)

variable (d : w.Desk base location items) (h : w.Holding base location held t)
  (hheld : ∀ y ∈ held, y ∈ items ∧ w.ItemFits y)

include d h hheld

theorem opens_of_holding : t.Opens w.directory location :=
  d.opens.mono (h.keptIn fun x hx => d.vacant x (hheld x hx).1 (hheld x hx).2)

/-- The name of an item that is not held is not taken. -/
theorem vacant_of_holding (hx : x ∈ items) (hnot : x ∉ held) (hfits : w.ItemFits x) :
    t.entries[w.itemName x :: location]? = none := by
  rw [h.other, d.vacant x hx hfits]
  intro y hy heq
  have hne : y ≠ x := fun hyx => hnot (hyx ▸ hy)
  exact d.itemName_ne hx (hheld y hy).1 hne (List.cons.inj heq).1.symm

/-- Writing a staged file adds the item unless its name is too long, even if the write breaks
off. -/
theorem write (hx : x ∈ items) (hnot : x ∉ held) :
    ∃ t', t.write (bytesOf (w.itemPath x)) (bytesOf x.1.content) =
        (t', match w.refusal? base location x with
          | none => .ok ()
          | some reason => .error reason) ∧
      w.Holding base location (if w.ItemFits x then x :: held else held) t' := by
  have hopens := d.opens_of_holding h hheld
  by_cases hfits : w.ItemFits x
  · have hwrite : t.write (bytesOf (w.itemPath x)) (bytesOf x.1.content) =
        t.fill (w.itemName x :: location) (bytesOf x.1.content) :=
      hopens.write_path hfits (d.vacant_of_holding h hheld hx hnot hfits)
    rw [FileTree.fill, FileTree.kept_congr h.limits, FileTree.shortfall?_congr h.limits,
      ← refusal?_of_fits hfits] at hwrite
    refine ⟨_, hwrite, ?_⟩
    rw [if_pos hfits]
    exact h.put fun y hy => d.itemName_ne hx (hheld y hy).1 fun heq => hnot (heq ▸ hy)
  · refine ⟨t, ?_, by rwa [if_neg hfits]⟩
    rw [refusal?_of_not_fits hfits]
    exact hopens.write_path_too_long hfits

theorem write_accepted (hx : x ∈ items) (hnot : x ∉ held)
    (haccepted : w.refusal? base location x = none) :
    ∃ t', t.write (bytesOf (w.itemPath x)) (bytesOf x.1.content) = (t', .ok ()) ∧
      w.Holding base location (x :: held) t' := by
  obtain ⟨t', hwrite, hholding⟩ := d.write h hheld hx hnot
  rw [haccepted] at hwrite
  rw [if_pos (fits_of_accepted haccepted)] at hholding
  exact ⟨t', hwrite, hholding⟩

/-- Removing the staged file of an item that is not held changes nothing. -/
theorem unstage_vacant (hx : x ∈ items) (hnot : x ∉ held) : t.unstage (w.itemPath x) = t :=
  (d.opens_of_holding h hheld).unstage_path_vacant fun hfits =>
    d.vacant_of_holding h hheld hx hnot hfits

/-- The staged file of a held item is read as far as it could be written. -/
theorem readBytes (hx : x ∈ held) :
    t.readBytes (bytesOf (w.itemPath x)) = .ok (w.itemContent base location x) :=
  (d.opens_of_holding h hheld).readBytes_path (hheld x hx).2 (h.file x hx)

/-- Only held items have a staged file. -/
theorem mem_held_of_exists (hx : x ∈ items)
    (hexists : t.exists? (bytesOf (w.itemPath x)) = true) : x ∈ held := by
  by_cases hnot : x ∈ held
  · exact hnot
  have hopens := d.opens_of_holding h hheld
  have hmissing : t.exists? (bytesOf (w.itemPath x)) = false := by
    by_cases hfits : w.ItemFits x
    · obtain ⟨left, hwalk⟩ := hopens.walk_path hfits
      have hvacant := d.vacant_of_holding h hheld hx hnot hfits
      rw [itemName] at hvacant
      rw [FileTree.exists?, FileTree.lookUp, itemPath, hwalk,
        FileTree.walkFrom_last hfits.nameLength, hvacant]
      rfl
    · rw [FileTree.exists?, FileTree.lookUp, itemPath, hopens.walk_path_too_long hfits]
      rfl
  rw [hmissing] at hexists
  cases hexists

/-- Held items have a staged file, and other items have none. -/
theorem exists?_iff (hx : x ∈ items) :
    t.exists? (bytesOf (w.itemPath x)) = true ↔ x ∈ held :=
  ⟨d.mem_held_of_exists h hheld hx, fun hmem =>
    FileTree.exists?_of_readBytes (d.readBytes h hheld hmem)⟩

/-- **There are no more staged files than held items.** -/
theorem countP_exists_le :
    items.countP (fun x => t.exists? (bytesOf (w.itemPath x))) ≤ held.length := by
  rw [List.countP_eq_length_filter]
  have hnodup : (items.filter fun x => t.exists? (bytesOf (w.itemPath x))).Nodup :=
    d.nodup.of_map.filter _
  refine (List.subperm_of_subset hnodup fun x hx => ?_).length_le
  obtain ⟨hx, hexists⟩ := List.mem_filter.mp hx
  exact d.mem_held_of_exists h hheld hx hexists

omit h hheld in
/-- Before the directory has been made there are none. -/
theorem countP_exists_eq_zero (hmake : t.makeDirectories w.directory = (base, .ok ())) :
    items.countP (fun x => t.exists? (bytesOf (w.itemPath x))) = 0 := by
  rw [List.countP_eq_zero]
  intro x hx hexists
  -- where a file is there, so is its directory, and making that has changed nothing
  obtain ⟨location', hopens⟩ := opens_of_exists hexists
  rw [hopens.makeDirectories] at hmake
  obtain rfl := (Prod.mk.inj hmake).1
  exact absurd (d.mem_held_of_exists .start (by simp) hx hexists) (by simp)

omit h hheld in
/-- Removing the staged file of a held item takes the item away. -/
theorem unstage (h : w.Holding base location (x :: held) t)
    (hheld : ∀ y ∈ x :: held, y ∈ items ∧ w.ItemFits y) (hnot : x ∉ held) :
    w.Holding base location held (t.unstage (w.itemPath x)) := by
  obtain ⟨hx, hfits⟩ := hheld x List.mem_cons_self
  have hget := h.file x List.mem_cons_self
  rw [itemPath, (d.opens_of_holding h hheld).unstage_path hfits hget]
  refine h.erase (fun y hy => ?_) (d.vacant x hx hfits)
  exact d.itemName_ne hx (hheld y (List.mem_cons_of_mem _ hy)).1 fun heq => hnot (heq ▸ hy)

omit h hheld in
/-- **What a write leaves is removed with the file**, whether the write has broken off or not. -/
theorem unstage_written (hheld : ∀ y ∈ held, y ∈ items ∧ w.ItemFits y) (hx : x ∈ items)
    (hnot : x ∉ held)
    (h : w.Holding base location (if w.ItemFits x then x :: held else held) t) :
    w.Holding base location held (t.unstage (w.itemPath x)) := by
  split at h
  · next hfits => exact d.unstage h (List.forall_mem_cons.mpr ⟨⟨hx, hfits⟩, hheld⟩) hnot
  · rwa [d.unstage_vacant h hheld hx hnot]

theorem write_refused (hx : x ∈ items) (hnot : x ∉ held) {fault : Fault}
    (hrefused : w.refusal? base location x = some fault) :
    ∃ t', t.write (bytesOf (w.itemPath x)) (bytesOf x.1.content) = (t', .error fault) ∧
      w.Holding base location held (t'.unstage (w.itemPath x)) := by
  obtain ⟨t', hwrite, hholding⟩ := d.write h hheld hx hnot
  rw [hrefused] at hwrite
  exact ⟨t', hwrite, d.unstage_written hheld hx hnot hholding⟩

end Desk

end Workbench

end Ripple
