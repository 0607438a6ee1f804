import Ripple.Proofs.Files.Entries

/-!
# Where pieces of a path lead

A walk gets from directory to directory, through names, links and steps upwards, until it comes to
the last piece. `Leads` is that part of a walk as a relation. A walk that ends somewhere comes by a
directory before every piece but the first (`leads_of_walkFrom_append`), from there it depends on
the remaining pieces only (`Leads.walkFrom_append`), and what leads to a directory still does so
after more entries have been made (`Leads.mono`).
-/

namespace Ripple.FileTree

open Text

/-! ## One piece at a time -/

/-- Where a link that is met in a directory starts from. -/
def linkStart (location : Location) (target : Bytes) : Location :=
  if isAbsolute target then [] else location

/-- The rest of a walk that has come to a link. -/
def walkOn (t : FileTree) (purpose : Purpose) :
    Nat → Location → Bytes → List Piece → Except Fault Spot
  | 0, _, _, _ => .error .tooManyLinks
  | links + 1, location, target, rest =>
    if target = [] then .error .notFound
    else t.walkFrom purpose links (linkStart location target) (piecesOf target ++ rest)

section Pieces

variable (t : FileTree) (purpose : Purpose) (links : Nat) (location : Location) (rest : List Piece)

theorem walkFrom_nil : t.walkFrom purpose links location [] = .ok (.taken location .directory) := by
  cases links <;> rw [walkFrom, walkWith]

theorem walkFrom_here :
    t.walkFrom purpose links location (.here :: rest) = t.walkFrom purpose links location rest := by
  cases links <;> rw [walkFrom, walkWith]

theorem walkFrom_close :
    t.walkFrom purpose links location (.close :: rest) =
      t.walkFrom purpose links location rest := by
  cases links <;> rw [walkFrom, walkWith]

theorem walkFrom_up :
    t.walkFrom purpose links location (.up :: rest) =
      t.walkFrom purpose links location.tail rest := by
  cases links <;> rw [walkFrom, walkWith]

theorem walkFrom_name (name : FileName) :
    t.walkFrom purpose links location (.name name :: rest) =
      if purpose = .fill ∧ rest = [.close] then .error .isDirectory
      else if maxNameLength < name.length then .error .nameTooLong
      else match t.entries[name :: location]? with
        | none => if rest = [] then .ok (.vacant location name) else .error .notFound
        | some .directory => t.walkFrom purpose links (name :: location) rest
        | some (.file content) =>
          if rest = [] then .ok (.taken (name :: location) (.file content))
          else .error .notDirectory
        | some (.link target) =>
          if rest = [] ∧ purpose = .name then .ok (.taken (name :: location) (.link target))
          else t.walkOn purpose links location target rest := by
  cases links <;> rw [walkFrom, walkWith] <;> rfl

end Pieces

/-! ## From directory to directory -/

/-- The pieces lead from one directory to another, and at most `links` links are followed. -/
inductive Leads (t : FileTree) : Nat → Location → List Piece → Location → Prop
  | stay {links : Nat} {location : Location} : Leads t links location [] location
  | here {links : Nat} {location goal : Location} {rest : List Piece} :
    Leads t links location rest goal → Leads t links location (.here :: rest) goal
  | close {links : Nat} {location goal : Location} {rest : List Piece} :
    Leads t links location rest goal → Leads t links location (.close :: rest) goal
  | up {links : Nat} {location goal : Location} {rest : List Piece} :
    Leads t links location.tail rest goal → Leads t links location (.up :: rest) goal
  | enter {links : Nat} {location goal : Location} {name : FileName} {rest : List Piece}
    (hlength : name.length ≤ maxNameLength)
    (hget : t.entries[name :: location]? = some .directory) :
    Leads t links (name :: location) rest goal → Leads t links location (.name name :: rest) goal
  | follow {links : Nat} {location goal : Location} {name : FileName} {target : Bytes}
    {rest : List Piece} (hlength : name.length ≤ maxNameLength)
    (hget : t.entries[name :: location]? = some (.link target)) (htarget : target ≠ []) :
    Leads t links (linkStart location target) (piecesOf target ++ rest) goal →
      Leads t (links + 1) location (.name name :: rest) goal

variable {t t' : FileTree} {purpose : Purpose} {links : Nat} {location goal : Location}
  {pieces rest : List Piece} {spot : Spot}

/-- What leads to a directory is walked to that directory. -/
theorem Leads.walkFrom_reach (h : Leads t links location pieces goal) :
    t.walkFrom .reach links location pieces = .ok (.taken goal .directory) := by
  induction h with
  | stay => exact walkFrom_nil ..
  | here _ ih => rw [walkFrom_here, ih]
  | close _ ih => rw [walkFrom_close, ih]
  | up _ ih => rw [walkFrom_up, ih]
  | enter hlength hget _ ih =>
    rw [walkFrom_name, if_neg (by simp), if_neg (Nat.not_lt.mpr hlength), hget]
    exact ih
  | follow hlength hget htarget _ ih =>
    rw [walkFrom_name, if_neg (by simp), if_neg (Nat.not_lt.mpr hlength), hget]
    simp only [reduceCtorEq, and_false, ↓reduceIte]
    rw [walkOn, if_neg htarget]
    exact ih

/-- A walk with pieces left after those that lead to a directory goes on there. How many links it
may still follow does not depend on what it is for. -/
theorem Leads.walkFrom_append (h : Leads t links location pieces goal) (hrest : rest ≠ []) :
    ∃ left, ∀ purpose, (purpose = .fill → rest ≠ [.close]) →
      t.walkFrom purpose links location (pieces ++ rest) = t.walkFrom purpose left goal rest := by
  -- with `rest` behind it no name is the last one, where the purpose would make a difference
  have hlast (after : List Piece) (hclose : rest ≠ [.close]) : after ++ rest ≠ [.close] := by
    cases after <;> simp [hclose, hrest]
  induction h with
  | @stay links _ => exact ⟨links, fun _ _ => rfl⟩
  | here _ ih =>
    obtain ⟨left, ih⟩ := ih
    exact ⟨left, fun purpose hfill => by rw [List.cons_append, walkFrom_here, ih purpose hfill]⟩
  | close _ ih =>
    obtain ⟨left, ih⟩ := ih
    exact ⟨left, fun purpose hfill => by rw [List.cons_append, walkFrom_close, ih purpose hfill]⟩
  | up _ ih =>
    obtain ⟨left, ih⟩ := ih
    exact ⟨left, fun purpose hfill => by rw [List.cons_append, walkFrom_up, ih purpose hfill]⟩
  | @enter _ _ _ _ after hlength hget _ ih =>
    obtain ⟨left, ih⟩ := ih
    refine ⟨left, fun purpose hfill => ?_⟩
    rw [List.cons_append, walkFrom_name, if_neg (fun h => hlast after (hfill h.1) h.2),
      if_neg (Nat.not_lt.mpr hlength), hget]
    exact ih purpose hfill
  | @follow _ _ _ _ _ after hlength hget htarget _ ih =>
    obtain ⟨left, ih⟩ := ih
    refine ⟨left, fun purpose hfill => ?_⟩
    rw [List.cons_append, walkFrom_name, if_neg (fun h => hlast after (hfill h.1) h.2),
      if_neg (Nat.not_lt.mpr hlength), hget]
    simp only [List.append_eq_nil_iff, hrest, and_false, false_and, ↓reduceIte]
    rw [walkOn, if_neg htarget, ← List.append_assoc]
    exact ih purpose hfill

/-- How a walk that ends somewhere gets past a name: it ends there, enters a directory or follows a
link. -/
theorem walkFrom_name_eq_ok {name : FileName}
    (h : t.walkFrom purpose links location (.name name :: rest) = .ok spot) :
    name.length ≤ maxNameLength ∧
      (rest = [] ∧ spot = .vacant location name ∨
        rest = [] ∧ (∃ entry, entry ≠ .directory ∧ spot = .taken (name :: location) entry) ∨
        t.entries[name :: location]? = some .directory ∧
          t.walkFrom purpose links (name :: location) rest = .ok spot ∨
        ∃ target left, t.entries[name :: location]? = some (.link target) ∧ target ≠ [] ∧
          links = left + 1 ∧
          t.walkFrom purpose left (linkStart location target) (piecesOf target ++ rest) =
            .ok spot) := by
  rw [walkFrom_name] at h
  split at h
  · cases h
  split at h
  · cases h
  next hlength =>
  refine ⟨Nat.not_lt.mp hlength, ?_⟩
  split at h
  · split at h
    · next hrest => exact .inl ⟨hrest, (Except.ok.inj h).symm⟩
    · cases h
  · next hget => exact .inr (.inr (.inl ⟨hget, h⟩))
  · next content _ =>
    split at h
    · next hrest =>
      exact .inr (.inl ⟨hrest, .file content, by simp, (Except.ok.inj h).symm⟩)
    · cases h
  · next target hget =>
    split at h
    · next hrest =>
      exact .inr (.inl ⟨hrest.1, .link target, by simp, (Except.ok.inj h).symm⟩)
    · cases links with
      | zero => cases h
      | succ left =>
        rw [walkOn] at h
        split at h
        · cases h
        next htarget => exact .inr (.inr (.inr ⟨target, left, hget, htarget, rfl, h⟩))

/-- A walk that ends somewhere comes by a directory before each of its pieces, and it has led to one
if it ends at one. -/
theorem leads_of_walkFrom_append (hend : rest = [] → ∃ goal, spot = .taken goal .directory)
    (h : t.walkFrom purpose links location (pieces ++ rest) = .ok spot) :
    ∃ goal, Leads t links location pieces goal ∧
      (rest = [] → spot = .taken goal .directory) := by
  -- a link uses up one of `links` and puts its own pieces in front, all other pieces get shorter
  induction links using Nat.strongRecOn generalizing location pieces with
  | ind links ihLinks =>
  induction pieces generalizing location with
  | nil =>
    refine ⟨location, .stay, fun hrest => ?_⟩
    rw [hrest, List.append_nil, walkFrom_nil] at h
    exact (Except.ok.inj h).symm
  | cons piece after ih =>
    rw [List.cons_append] at h
    cases piece with
    | here => exact (ih (walkFrom_here .. ▸ h)).imp fun _ hl => ⟨.here hl.1, hl.2⟩
    | close => exact (ih (walkFrom_close .. ▸ h)).imp fun _ hl => ⟨.close hl.1, hl.2⟩
    | up => exact (ih (walkFrom_up .. ▸ h)).imp fun _ hl => ⟨.up hl.1, hl.2⟩
    | name name =>
      obtain ⟨hlength, ⟨hlast, hspot⟩ | ⟨hlast, entry, hentry, hspot⟩ | ⟨hget, h⟩ |
        ⟨target, left, hget, htarget, rfl, hon⟩⟩ := walkFrom_name_eq_ok h
      · obtain ⟨goal, hgoal⟩ := hend (List.append_eq_nil_iff.mp hlast).2
        simp [hgoal] at hspot
      · obtain ⟨goal, hgoal⟩ := hend (List.append_eq_nil_iff.mp hlast).2
        rw [hgoal] at hspot
        exact absurd (Spot.taken.inj hspot).2.symm hentry
      · exact (ih h).imp fun _ hl => ⟨.enter hlength hget hl.1, hl.2⟩
      · rw [← List.append_assoc] at hon
        obtain ⟨goal, hl, hspot⟩ := ihLinks left (Nat.lt_succ_self left) hon
        exact ⟨goal, .follow hlength hget htarget hl, hspot⟩

/-- A walk that ends at a directory, whatever it is for, has been led there. -/
theorem leads_of_walkFrom
    (h : t.walkFrom purpose links location pieces = .ok (.taken goal .directory)) :
    Leads t links location pieces goal := by
  rw [← List.append_nil pieces] at h
  obtain ⟨goal', hl, hspot⟩ := leads_of_walkFrom_append (fun _ => ⟨goal, rfl⟩) h
  rwa [(Spot.taken.inj (hspot rfl)).1]

/-! ## The last name -/

/-- The walk for the last name, from the directory in which the name is looked up. -/
theorem walkFrom_last {name : FileName} (hlength : name.length ≤ maxNameLength) :
    t.walkFrom purpose links location [.name name] =
      match t.entries[name :: location]? with
      | none => .ok (.vacant location name)
      | some .directory => .ok (.taken (name :: location) .directory)
      | some (.file content) => .ok (.taken (name :: location) (.file content))
      | some (.link target) =>
        if purpose = .name then .ok (.taken (name :: location) (.link target))
        else t.walkOn purpose links location target [] := by
  rw [walkFrom_name, if_neg (by simp), if_neg (Nat.not_lt.mpr hlength)]
  simp only [walkFrom_nil, ↓reduceIte, true_and]

theorem walkFrom_last_too_long {name : FileName} (hlength : maxNameLength < name.length) :
    t.walkFrom purpose links location [.name name] = .error .nameTooLong := by
  rw [walkFrom_name, if_neg (by simp), if_pos hlength]

/-- A walk to the last name itself that ends at a vacant place has found that nothing has the name
in the directory before it. -/
theorem leads_of_walkFrom_vacant {directory : Location} {name : FileName}
    (h : t.walkFrom .name links location pieces = .ok (.vacant directory name)) :
    ∃ before, pieces = before ++ [.name name] ∧ Leads t links location before directory ∧
      name.length ≤ maxNameLength ∧ t.entries[name :: directory]? = none := by
  rcases List.eq_nil_or_concat pieces with rfl | ⟨before, last, rfl⟩
  · rw [walkFrom_nil] at h
    simp at h
  · rw [List.concat_eq_append] at h ⊢
    obtain ⟨goal, hleads, -⟩ := leads_of_walkFrom_append (by simp) h
    obtain ⟨left, hwalk⟩ := hleads.walkFrom_append (List.cons_ne_nil last [])
    rw [hwalk .name nofun] at h
    cases last with
    | here => rw [walkFrom_here, walkFrom_nil] at h; simp at h
    | close => rw [walkFrom_close, walkFrom_nil] at h; simp at h
    | up => rw [walkFrom_up, walkFrom_nil] at h; simp at h
    | name last =>
      have hlength := (walkFrom_name_eq_ok h).1
      rw [walkFrom_last hlength] at h
      split at h
      · next hget =>
        obtain ⟨rfl, rfl⟩ := Spot.vacant.inj (Except.ok.inj h)
        exact ⟨before, rfl, hleads, hlength, hget⟩
      · simp at h
      · simp at h
      · simp at h

/-! ## More entries, fewer idle pieces -/

/-- Files have no part in what leads to a directory. -/
theorem Leads.ways (hways : WaysKept t t') (h : Leads t links location pieces goal) :
    Leads t' links location pieces goal := by
  induction h with
  | stay => exact .stay
  | here _ ih => exact .here ih
  | close _ ih => exact .close ih
  | up _ ih => exact .up ih
  | enter hlength hget _ ih => exact .enter hlength (hways.entries nofun hget) ih
  | follow hlength hget htarget _ ih =>
    exact .follow hlength (hways.entries nofun hget) htarget ih

/-- What leads to a directory still does so in a tree with more entries. -/
theorem Leads.mono (hkept : KeptIn t t') (h : Leads t links location pieces goal) :
    Leads t' links location pieces goal :=
  h.ways hkept.ways

/-- What leads to a directory leads on to a directory that stands in it. -/
theorem Leads.append_name {name : FileName} (h : Leads t links location pieces goal)
    (hlength : name.length ≤ maxNameLength)
    (hget : t.entries[name :: goal]? = some .directory) :
    Leads t links location (pieces ++ [.name name]) (name :: goal) := by
  obtain ⟨left, hwalk⟩ := h.walkFrom_append (List.cons_ne_nil (.name name) [])
  refine leads_of_walkFrom (hwalk .reach nofun |>.trans ?_)
  rw [walkFrom_last hlength, hget]

/-- The last name of a path to a directory is taken, by the directory or by a link. -/
theorem Leads.walkFrom_name (h : Leads t links location pieces goal) :
    ∃ location' entry, t.walkFrom .name links location pieces = .ok (.taken location' entry) := by
  rcases List.eq_nil_or_concat pieces with rfl | ⟨before, last, rfl⟩
  · exact ⟨location, .directory, walkFrom_nil ..⟩
  · rw [List.concat_eq_append] at h ⊢
    have hreach := h.walkFrom_reach
    obtain ⟨upper, hleads, -⟩ := leads_of_walkFrom_append (by simp) hreach
    obtain ⟨left, hwalk⟩ := hleads.walkFrom_append (List.cons_ne_nil last [])
    rw [hwalk .reach nofun] at hreach
    rw [hwalk .name nofun]
    cases last with
    | here => exact ⟨upper, .directory, by rw [walkFrom_here, walkFrom_nil]⟩
    | close => exact ⟨upper, .directory, by rw [walkFrom_close, walkFrom_nil]⟩
    | up => exact ⟨upper.tail, .directory, by rw [walkFrom_up, walkFrom_nil]⟩
    | name name =>
      have hlength := (walkFrom_name_eq_ok hreach).1
      rw [walkFrom_last hlength] at hreach ⊢
      split at hreach
      · simp at hreach
      · next hget => exact ⟨_, _, rfl⟩
      · simp at hreach
      · next target hget => exact ⟨_, _, rfl⟩

/-- A piece that leads elsewhere. -/
def Piece.isStep : Piece → Bool
  | .up | .name _ => true
  | .here | .close => false

theorem Leads.append_idle {idle : List Piece} (hidle : ∀ piece ∈ idle, piece.isStep = false)
    (h : Leads t links location rest goal) : Leads t links location (idle ++ rest) goal := by
  induction idle with
  | nil => exact h
  | cons piece idle ih =>
    have hrest := ih fun p hp => hidle p (List.mem_cons_of_mem _ hp)
    have hpiece := hidle piece List.mem_cons_self
    cases piece with
    | here => exact .here hrest
    | close => exact .close hrest
    | up => cases hpiece
    | name name => cases hpiece

/-- Only the steps among the pieces matter for where they lead. -/
theorem Leads.congr {others : List Piece} (h : Leads t links location pieces goal)
    (hsteps : others.filter (·.isStep) = pieces.filter (·.isStep)) :
    Leads t links location others goal := by
  -- `others` walks over the idle pieces in front of each step before it takes the step
  induction h generalizing others with
  | stay =>
    have hidle := List.filter_eq_nil_iff.mp hsteps
    simpa using Leads.append_idle (fun p hp => by simpa using hidle p hp) .stay
  | here _ ih => exact ih hsteps
  | close _ ih => exact ih hsteps
  | up _ ih =>
    obtain ⟨idle, after, rfl, hidle, -, hafter⟩ := List.filter_eq_cons_iff.mp hsteps
    exact Leads.append_idle (fun p hp => by simpa using hidle p hp) (.up (ih hafter))
  | enter hlength hget _ ih =>
    obtain ⟨idle, after, rfl, hidle, -, hafter⟩ := List.filter_eq_cons_iff.mp hsteps
    exact Leads.append_idle (fun p hp => by simpa using hidle p hp)
      (.enter hlength hget (ih hafter))
  | follow hlength hget htarget _ ih =>
    obtain ⟨idle, after, rfl, hidle, -, hafter⟩ := List.filter_eq_cons_iff.mp hsteps
    refine Leads.append_idle (fun p hp => by simpa using hidle p hp)
      (.follow hlength hget htarget (ih ?_))
    rw [List.filter_append, List.filter_append, hafter]

end Ripple.FileTree
