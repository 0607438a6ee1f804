import Ripple.Json.Fields
import Ripple.Proofs.Json.Numeral
import Ripple.Proofs.MapM
import Ripple.Proofs.Names

/-!
# Taking apart what was put together

Each way to take JSON apart gives back what the matching way to put it together was given. A record
gives back its fields if no two of its members have the same key (`fields?_record`), and a map its
entries in order (`toMap?_record`).
-/

namespace Ripple.Json

variable {α : Type}

@[simp] theorem toText?_text (s : String) : toText? (.text s) = some s := rfl

@[simp] theorem toBool?_bool (b : Bool) : toBool? (.bool b) = some b := rfl

theorem toNat?_nat {n bound : Nat} (h : n < bound) : toNat? bound (.nat n) = some n := by
  simp [nat, toNat?, h]

theorem toList?_array {read : Json → Option α} {write : α → Json} {xs : List α}
    (h : ∀ x ∈ xs, read (write x) = some x) : toList? read (.array (xs.map write)) = some xs :=
  mapM_map_eq_some h

theorem toMap?_record {read : Json → Option α} {write : α → Json} {entries : List (String × α)}
    (h : ∀ entry ∈ entries, read (write entry.2) = some entry.2) :
    toMap? read (.record (entries.map fun (key, x) => (key, write x))) =
      some (NameTable.ofList entries) := by
  have hentries : (entries.map fun (key, x) => ((some key : LiteralText), write x)).mapM
      (toKeyed? read) = some entries := by
    refine mapM_map_eq_some fun entry hentry => ?_
    rw [toKeyed?, h entry hentry, Option.map_some]
  rw [record, List.map_map, toMap?]
  exact congrArg (Option.map NameTable.ofList) hentries

/-- A map has no other keys than the object it is read from. -/
theorem exists_member_of_toMap? {read : Json → Option α} {members : List (LiteralText × Json)}
    {table : NameTable α} (h : toMap? read (.object members) = some table) {name : String}
    (hname : name ∈ table) : ∃ m ∈ members, m.1 = some name := by
  obtain ⟨entries, hentries, rfl⟩ := Option.map_eq_some_iff.mp h
  obtain ⟨entry, hentry, rfl⟩ := List.mem_map.mp (NameTable.mem_ofList.mp hname)
  obtain ⟨⟨key, value⟩, hm, hkeyed⟩ := exists_of_mem_mapM hentries hentry
  refine ⟨_, hm, ?_⟩
  cases key with
  | none => cases hkeyed
  | some key =>
    obtain ⟨x, -, rfl⟩ := Option.map_eq_some_iff.mp hkeyed
    rfl

/-! ## Records -/

variable {members : List (String × Json)} {names : List String}

theorem member?_record (name : String) :
    member? name (members.map fun (key, value) => (some key, value)) =
      List.lookup name members := by
  induction members with
  | nil => rfl
  | cons member rest ih =>
    obtain ⟨key, value⟩ := member
    rw [member?, List.map_cons, List.find?_cons, List.lookup_cons]
    by_cases hkey : name = key
    · simp [hkey]
    · have hother : (name == key) = false := by simpa using hkey
      have hmember : ((some key : LiteralText) == some name) = false := by simpa using Ne.symm hkey
      simp only [hother, hmember]
      exact ih

/-- The fields of a record are found by their keys. -/
theorem fields?_record (h : (members.map (·.1)).Nodup) :
    (record members).fields? names = some (names.map (List.lookup · members)) := by
  have hcount (name : String) :
      (members.map fun (key, value) => ((some key : LiteralText), value)).countP
        (·.1 == some name) ≤ 1 := by
    have hkeys := List.nodup_iff_count.mp h name
    rw [List.count, List.countP_map] at hkeys
    rw [List.countP_map]
    simpa [Function.comp_def] using hkeys
  have hrecord : isRecord names (members.map fun (key, value) => (some key, value)) = true := by
    rw [isRecord, Bool.and_eq_true, List.all_eq_true, List.all_eq_true]
    refine ⟨fun m hm => ?_, fun name _ => decide_eq_true (hcount name)⟩
    obtain ⟨member, -, rfl⟩ := List.mem_map.mp hm
    rfl
  rw [record, fields?, if_pos hrecord]
  simp only [Option.some.injEq]
  exact List.map_congr_left fun name _ => member?_record name

/-! ## Nesting -/

theorem plain_array_iff {items : List Json} :
    (array items).plain = true ↔ ∀ item ∈ items, item.plain = true := by
  have hitems : plainItems items = true ↔ ∀ item ∈ items, item.plain = true := by
    induction items with
    | nil => simp [plainItems]
    | cons item rest ih => rw [plainItems, Bool.and_eq_true, ih, List.forall_mem_cons]
  rw [plain, hitems]

theorem plain_record_iff : (record members).plain = true ↔ ∀ m ∈ members, m.2.plain = true := by
  have hmembers : plainMembers (members.map fun (key, value) => (some key, value)) = true ↔
      ∀ m ∈ members, m.2.plain = true := by
    induction members with
    | nil => simp [plainMembers]
    | cons member rest ih =>
      rw [List.map_cons, plainMembers, Bool.and_eq_true, Bool.and_eq_true, ih, List.forall_mem_cons]
      simp
  rw [record, plain, hmembers]

theorem depth_array_le {items : List Json} {d : Nat} (h : ∀ item ∈ items, item.depth ≤ d) :
    (array items).depth ≤ d + 1 := by
  have hitems : depthItems items ≤ d := by
    induction items with
    | nil => exact Nat.zero_le d
    | cons item rest ih =>
      obtain ⟨hitem, hrest⟩ := List.forall_mem_cons.mp h
      exact Nat.max_le.mpr ⟨hitem, ih hrest⟩
  exact Nat.succ_le_succ hitems

theorem depth_record_le {d : Nat} (h : ∀ m ∈ members, m.2.depth ≤ d) :
    (record members).depth ≤ d + 1 := by
  have hmembers : depthMembers (members.map fun (key, value) => (some key, value)) ≤ d := by
    induction members with
    | nil => exact Nat.zero_le d
    | cons member rest ih =>
      obtain ⟨hmember, hrest⟩ := List.forall_mem_cons.mp h
      exact Nat.max_le.mpr ⟨hmember, ih hrest⟩
  exact Nat.succ_le_succ hmembers

end Ripple.Json
