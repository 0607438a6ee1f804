import Ripple.Names
import Mathlib.Data.List.Dedup
import Mathlib.Data.List.Induction

/-!
# Sets and tables from lists

A set is that of its list, and a table that of its list. In a table of listed entries the last entry
for a name has the say (`NameTable.getElem?_ofList`).
-/

namespace Ripple

@[simp] theorem Names.ofList_toList (names : Names) : Names.ofList names.toList = names := by
  refine Std.ExtTreeSet.ext_mem fun name => ?_
  rw [Names.mem_ofList, Std.ExtTreeSet.mem_toList]

namespace NameTable

variable {α : Type}

/-- In a table of listed entries, the last entry for a name has the say. -/
theorem getElem?_ofList (entries : List (String × α)) (name : String) :
    (NameTable.ofList entries)[name]? =
      ((entries.filter fun entry => entry.1 == name).getLast?).map (·.2) := by
  induction entries using List.reverseRecOn with
  | nil => simp [ofList]
  | append_singleton entries entry ih =>
    obtain ⟨other, value⟩ := entry
    have hfold : ofList (entries ++ [(other, value)]) = (ofList entries).insert other value := by
      rw [ofList, List.foldl_append]
      rfl
    rw [hfold, Std.ExtTreeMap.getElem?_insert, List.filter_append]
    by_cases hname : other = name
    · simp [hname]
    · simp [hname, ih]

theorem mem_ofList {entries : List (String × α)} {name : String} :
    name ∈ ofList entries ↔ name ∈ entries.map (·.1) := by
  rw [Std.ExtTreeMap.mem_iff_isSome_getElem?, getElem?_ofList, Option.isSome_map,
    List.getLast?_isSome, ne_eq, List.filter_eq_nil_iff]
  simp

/-- What a table of listed entries has under a name has been listed. -/
theorem mem_of_getElem?_ofList {entries : List (String × α)} {name : String} {value : α}
    (h : (ofList entries)[name]? = some value) : (name, value) ∈ entries := by
  rw [getElem?_ofList] at h
  obtain ⟨⟨other, found⟩, hlast, rfl⟩ := Option.map_eq_some_iff.mp h
  obtain ⟨hmem, hname⟩ := List.mem_filter.mp (List.mem_of_getLast? hlast)
  obtain rfl : other = name := by simpa using hname
  exact hmem

/-- If no name is listed twice, a table has every listed entry. -/
theorem getElem?_ofList_of_mem {entries : List (String × α)} {name : String} {value : α}
    (hnodup : (entries.map (·.1)).Nodup) (h : (name, value) ∈ entries) :
    (ofList entries)[name]? = some value := by
  have hsome : ((ofList entries)[name]?).isSome = true :=
    Std.ExtTreeMap.mem_iff_isSome_getElem?.mp (mem_ofList.mpr (List.mem_map_of_mem h))
  obtain ⟨found, hfound⟩ := Option.isSome_iff_exists.mp hsome
  have heq := List.inj_on_of_nodup_map hnodup (mem_of_getElem?_ofList hfound) h rfl
  rw [hfound, (Prod.mk.inj heq).2]

/-- A table of listed entries has each name once. -/
theorem keys_ofList_perm (entries : List (String × α)) :
    (ofList entries).keys.Perm (entries.map (·.1)).dedup := by
  refine (List.perm_ext_iff_of_nodup Std.ExtTreeMap.nodup_keys (List.nodup_dedup _)).mpr ?_
  intro name
  rw [Std.ExtTreeMap.mem_keys, mem_ofList, List.mem_dedup]

/-- **A table is that of its list.** -/
@[simp] theorem ofList_toList (table : NameTable α) : ofList table.toList = table := by
  refine Std.ExtTreeMap.ext_getElem? fun name => ?_
  have hentry {value : α} :
      (name, value) ∈ table.toList.filter (·.1 == name) ↔ table[name]? = some value := by
    rw [List.mem_filter, Std.ExtTreeMap.mem_toList_iff_getElem?_eq_some]
    exact and_iff_left (beq_self_eq_true name)
  rw [getElem?_ofList]
  cases hlast : (table.toList.filter (·.1 == name)).getLast? with
  | none =>
    rw [Option.map_none, eq_comm, Option.eq_none_iff_forall_ne_some]
    intro value hvalue
    rw [List.getLast?_eq_none_iff.mp hlast] at hentry
    simpa using hentry.mpr hvalue
  | some entry =>
    obtain ⟨other, value⟩ := entry
    have hmem := List.mem_of_getLast? hlast
    obtain rfl : other = name := by simpa using (List.mem_filter.mp hmem).2
    exact (hentry.mp hmem).symm

end NameTable

end Ripple
