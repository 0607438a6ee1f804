import Ripple.Proofs.Files.Directories

/-!
# The places of files

`PlaceAt` says at which place a path ends, a file standing there or not. What is written to the path
stands at that place (`write_ok`, `PlaceAt.write`), the path ends at the same place afterwards
(`PlaceAt.ways`), and what was written is read from it (`readBytes_of_write`).
-/

namespace Ripple.FileTree

open Text

/-! ## Walks that end at a name -/

/-- The pieces lead to a directory and a last name in it, and at most `links` links are followed.
What stands there is left open. -/
inductive Ends (t : FileTree) : Nat → Location → List Piece → Location → FileName → Prop
  | last {links : Nat} {location : Location} {name : FileName}
    (hlength : name.length ≤ maxNameLength) : Ends t links location [.name name] location name
  | here {links : Nat} {location goal : Location} {name : FileName} {rest : List Piece} :
    Ends t links location rest goal name → Ends t links location (.here :: rest) goal name
  | close {links : Nat} {location goal : Location} {name : FileName} {rest : List Piece} :
    Ends t links location rest goal name → Ends t links location (.close :: rest) goal name
  | up {links : Nat} {location goal : Location} {name : FileName} {rest : List Piece} :
    Ends t links location.tail rest goal name → Ends t links location (.up :: rest) goal name
  | enter {links : Nat} {location goal : Location} {name next : FileName} {rest : List Piece}
    (hlength : next.length ≤ maxNameLength)
    (hget : t.entries[next :: location]? = some .directory) :
    Ends t links (next :: location) rest goal name →
      Ends t links location (.name next :: rest) goal name
  | follow {links : Nat} {location goal : Location} {name next : FileName} {target : Bytes}
    {rest : List Piece} (hlength : next.length ≤ maxNameLength) (hrest : rest ≠ [.close])
    (hget : t.entries[next :: location]? = some (.link target)) (htarget : target ≠ []) :
    Ends t links (linkStart location target) (piecesOf target ++ rest) goal name →
      Ends t (links + 1) location (.name next :: rest) goal name

variable {t t' : FileTree} {purpose : Purpose} {links : Nat} {location goal : Location}
  {name : FileName} {pieces : List Piece} {spot : Spot} {path content : Bytes}

theorem Ends.ways (hways : WaysKept t t') (h : Ends t links location pieces goal name) :
    Ends t' links location pieces goal name := by
  induction h with
  | last hlength => exact .last hlength
  | here _ ih => exact .here ih
  | close _ ih => exact .close ih
  | up _ ih => exact .up ih
  | enter hlength hget _ ih => exact .enter hlength (hways.entries nofun hget) ih
  | follow hlength hrest hget htarget _ ih =>
    exact .follow hlength hrest (hways.entries nofun hget) htarget ih

/-- A piece that asks for a directory is no last name. -/
theorem Ends.ne_close (h : Ends t links location pieces goal name) : pieces ≠ [.close] := by
  rintro rfl
  cases h with
  | close hnil => cases hnil

/-- What a walk finds under a name in a directory. -/
def spotAt (t : FileTree) (directory : Location) (name : FileName) : Spot :=
  match t.entries[name :: directory]? with
  | none => .vacant directory name
  | some entry => .taken (name :: directory) entry

/-- A walk that follows links finds what stands under the last name, if that is not a link to follow
or a directory to enter. -/
theorem Ends.walkFrom (h : Ends t links location pieces goal name)
    (htakes : t.TakesFile (name :: goal)) (hpurpose : purpose ≠ .name) :
    t.walkFrom purpose links location pieces = .ok (t.spotAt goal name) := by
  induction h with
  | last hlength =>
    rw [walkFrom_last hlength, spotAt]
    rcases htakes.cases with hget | ⟨content, hget⟩ <;> rw [hget]
  | here _ ih => rw [walkFrom_here, ih htakes]
  | close _ ih => rw [walkFrom_close, ih htakes]
  | up _ ih => rw [walkFrom_up, ih htakes]
  | enter hlength hget hends ih =>
    rw [walkFrom_name, if_neg (fun h => hends.ne_close h.2), if_neg (Nat.not_lt.mpr hlength), hget]
    exact ih htakes
  | follow hlength hrest hget htarget _ ih =>
    rw [walkFrom_name, if_neg (fun h => hrest h.2), if_neg (Nat.not_lt.mpr hlength), hget]
    simp only [hpurpose, and_false, ↓reduceIte]
    rw [walkOn, if_neg htarget, ih htakes]

/-- A walk for writing ends at a directory or at a last name under which a file can stand. -/
theorem ends_of_walkFrom (h : t.walkFrom .fill links location pieces = .ok spot)
    (hspot : ∀ directory, spot ≠ .taken directory .directory) :
    ∃ goal name, Ends t links location pieces goal name ∧ t.TakesFile (name :: goal) := by
  -- a link uses up one of `links` and puts its own pieces in front, all other pieces get shorter
  induction links using Nat.strongRecOn generalizing location pieces with
  | ind links ihLinks =>
  induction pieces generalizing location with
  | nil =>
    rw [walkFrom_nil] at h
    exact absurd (Except.ok.inj h).symm (hspot location)
  | cons piece rest ih =>
    cases piece with
    | here =>
      obtain ⟨goal, name, hends, htakes⟩ := ih (walkFrom_here .. ▸ h)
      exact ⟨goal, name, .here hends, htakes⟩
    | close =>
      obtain ⟨goal, name, hends, htakes⟩ := ih (walkFrom_close .. ▸ h)
      exact ⟨goal, name, .close hends, htakes⟩
    | up =>
      obtain ⟨goal, name, hends, htakes⟩ := ih (walkFrom_up .. ▸ h)
      exact ⟨goal, name, .up hends, htakes⟩
    | name next =>
      rw [walkFrom_name] at h
      split at h
      · cases h
      next hfill =>
      split at h
      · cases h
      next hlong =>
      have hlength := Nat.not_lt.mp hlong
      split at h
      · next hget =>
        split at h
        · next hrest =>
          obtain rfl := Except.ok.inj h
          rw [hrest]
          exact ⟨location, next, .last hlength, by simp [TakesFile, hget]⟩
        · cases h
      · next hget =>
        obtain ⟨goal, name, hends, htakes⟩ := ih h
        exact ⟨goal, name, .enter hlength hget hends, htakes⟩
      · next content hget =>
        split at h
        · next hrest =>
          obtain rfl := Except.ok.inj h
          rw [hrest]
          exact ⟨location, next, .last hlength, by simp [TakesFile, hget]⟩
        · cases h
      · next target hget =>
        rw [if_neg (by simp)] at h
        cases links with
        | zero => cases h
        | succ left =>
          rw [walkOn] at h
          split at h
          · cases h
          next htarget =>
          obtain ⟨goal, name, hends, htakes⟩ := ihLinks left (Nat.lt_succ_self left) h
          exact ⟨goal, name, .follow hlength (fun hrest => hfill ⟨rfl, hrest⟩) hget htarget hends,
            htakes⟩

/-! ## Paths that end at a name -/

/-- The path ends at the place. -/
structure PlaceAt (t : FileTree) (path : Bytes) (directory : Location) (name : FileName) :
    Prop where
  nul : 0 ∉ path
  ne_nil : path ≠ []
  length : path.length < pathLimit
  ends : Ends t maxLinks (t.start path) (piecesOf path) directory name

theorem PlaceAt.ways (hways : WaysKept t t') (h : t.PlaceAt path goal name) :
    t'.PlaceAt path goal name where
  nul := h.nul
  ne_nil := h.ne_nil
  length := h.length
  ends := by
    rw [hways.start]
    exact h.ends.ways hways

theorem PlaceAt.walk (h : t.PlaceAt path goal name) (htakes : t.TakesFile (name :: goal))
    (hpurpose : purpose ≠ .name) : t.walk purpose path = .ok (t.spotAt goal name) := by
  rw [FileTree.walk, walkPieces_eq h.nul h.ne_nil h.length]
  exact h.ends.walkFrom htakes hpurpose

theorem PlaceAt.write (h : t.PlaceAt path goal name) (htakes : t.TakesFile (name :: goal)) :
    t.write path content = t.fill (name :: goal) content := by
  have hwalk : t.walk .fill path = .ok (t.spotAt goal name) := h.walk htakes nofun
  rw [FileTree.write, hwalk, spotAt]
  rcases htakes.cases with hget | ⟨content, hget⟩ <;> rw [hget]

theorem PlaceAt.lookUp (h : t.PlaceAt path goal name)
    (hget : t.entries[name :: goal]? = some (.file content)) :
    t.lookUp path = .ok (.file content) := by
  have hwalk : t.walk .reach path = .ok (t.spotAt goal name) :=
    h.walk (by simp [TakesFile, hget]) nofun
  rw [FileTree.lookUp, hwalk, spotAt, hget]

/-- What has been written stands at the place at which the path ends. -/
theorem write_ok (h : t.write path content = (t', .ok ())) :
    ∃ goal name, t.PlaceAt path goal name ∧ t.TakesFile (name :: goal) ∧
      t.shortfall? (name :: goal) content = none ∧ t' = t.put (name :: goal) (.file content) := by
  have hwalk : ∃ spot, t.walk .fill path = .ok spot ∧
      ∀ directory, spot ≠ .taken directory .directory := by
    unfold write at h
    split at h
    · next hwalk => exact ⟨_, hwalk, nofun⟩
    · next hwalk => exact ⟨_, hwalk, nofun⟩
    · cases (Prod.mk.inj h).2
    · cases (Prod.mk.inj h).2
    · cases (Prod.mk.inj h).2
  obtain ⟨spot, hwalk, hspot⟩ := hwalk
  obtain ⟨hnul, hempty, hlength, hwalk⟩ := walkPieces_eq_ok hwalk
  obtain ⟨goal, name, hends, htakes⟩ := ends_of_walkFrom hwalk hspot
  have hplace : t.PlaceAt path goal name := ⟨hnul, hempty, hlength, hends⟩
  rw [hplace.write htakes] at h
  exact ⟨goal, name, hplace, htakes, fill_eq_ok h⟩

theorem readBytes_of_write (h : t.write path content = (t', .ok ())) :
    t'.readBytes path = .ok content := by
  obtain ⟨goal, name, hplace, htakes, -, rfl⟩ := write_ok h
  have hways : WaysKept t (t.put (name :: goal) (.file content)) := htakes.put
  rw [readBytes, (hplace.ways hways).lookUp getElem?_put_self]

/-! ## Files with the directories above them -/

/-- The path of the directory that a file stands in. -/
def folderOf (path : String) : String := String.ofList ((Path.parent? path.toList).getD [])

/-- Any file can be written at the path once the directories above it have been made, and they can
be made. -/
def Fillable (t : FileTree) (path : String) : Prop :=
  ∃ t₁, t.makeDirectories (folderOf path) = (t₁, .ok ()) ∧
    ∀ content, ∃ t₂, t₁.write (bytesOf path) content = (t₂, .ok ())

/-- **Where any file can be written, another one can be written afterwards.** -/
theorem Fillable.fill {path : String} (h : t.Fillable path) :
    ∃ t₁, t.makeDirectories (folderOf path) = (t₁, .ok ()) ∧
      ∀ content, ∃ t₂, t₁.write (bytesOf path) content = (t₂, .ok ()) ∧ t₂.Fillable path := by
  obtain ⟨t₁, hmake, hwrite⟩ := h
  obtain ⟨location, hopens⟩ := makeDirectories_ok hmake
  refine ⟨t₁, hmake, fun content => ?_⟩
  obtain ⟨t₂, hwritten⟩ := hwrite content
  obtain ⟨goal, name, hplace, htakes, -, rfl⟩ := write_ok hwritten
  have hways : WaysKept t₁ (t₁.put (name :: goal) (.file content)) := htakes.put
  have hagain := hplace.ways hways
  have htakes' : (t₁.put (name :: goal) (.file content)).TakesFile (name :: goal) := by
    simp [TakesFile]
  refine ⟨_, hwritten, _, (hopens.ways hways).makeDirectories, fun other => ?_⟩
  -- what could be written in full before still can
  obtain ⟨t₃, hother⟩ := hwrite other
  rw [hplace.write htakes] at hother
  obtain ⟨hfull, -⟩ := fill_eq_ok hother
  rw [← shortfall?_congr hways.limits] at hfull
  exact ⟨_, (hagain.write htakes').trans (fill_of_shortfall?_eq_none hfull)⟩

end Ripple.FileTree
