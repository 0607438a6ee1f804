import Ripple.Graph.Directory
import Ripple.Proofs.Files.Directories
import Ripple.Proofs.Names
import Ripple.Proofs.Path
import Ripple.Proofs.Text.Decode
import Mathlib.Data.List.Sort

/-!
# Which records make the graph of a directory

However the entries of a directory are listed, sorting them by name gives the same list
(`Enumerates.mergeSort_eq`), so only what stands in the directory matters. A target has the
dependencies that the last of the files declares which hold a record for it, and all other entries
might as well not be there (`ofDirectory?_last_wins`).
-/

namespace Ripple

open Text

namespace FileTree

variable {t : FileTree} {location : Location} {entries : List (FileName × Entry)}

/-! ## The entries of a directory -/

/-- All entries of the directory at a location, each listed once, in whatever order. -/
structure Enumerates (t : FileTree) (location : Location) (entries : List (FileName × Entry)) :
    Prop where
  mem (name : FileName) (entry : Entry) :
    (name, entry) ∈ entries ↔ t.entries[name :: location]? = some entry
  nodup : (entries.map (·.1)).Nodup

/-- A list in ascending order of names is determined by its members. -/
theorem eq_of_pairwise_of_mem_iff {α : Type} {found found' : List (FileName × α)}
    (h : found.Pairwise fun a b => a.1 < b.1) (h' : found'.Pairwise fun a b => a.1 < b.1)
    (hmem : ∀ item, item ∈ found ↔ item ∈ found') : found = found' := by
  have hirrefl : Std.Irrefl fun a b : FileName × α => a.1 < b.1 := ⟨fun _ => List.lt_irrefl _⟩
  have hantisymm : Std.Antisymm fun a b : FileName × α => a.1 < b.1 :=
    ⟨fun _ _ hlt hgt => absurd (List.lt_trans hlt hgt) (List.lt_irrefl _)⟩
  exact h.eq_of_mem_iff h' hmem

/-- The order in which entries are looked at. -/
def byName (a b : FileName × Entry) : Bool := decide (a.1 ≤ b.1)

theorem lt_of_compare_eq_lt {a b : Bytes} (h : compare a b = .lt) : a < b := by
  induction a generalizing b with
  | nil =>
    cases b with
    | nil => cases h
    | cons y b => exact List.nil_lt_cons y b
  | cons x a ih =>
    cases b with
    | nil => cases h
    | cons y b =>
      rw [List.compare_cons_cons, Ordering.then_eq_lt, Std.compare_eq_lt,
        Std.compare_eq_iff_eq] at h
      exact List.cons_lt_cons_iff.mpr (h.imp_right fun ⟨heq, hlt⟩ => ⟨heq, ih hlt⟩)

theorem childOf?_eq_some {place : Location} {entry entry' : Entry} {name : FileName} :
    childOf? location (place, entry) = some (name, entry') ↔
      place = name :: location ∧ entry = entry' := by
  unfold childOf?
  cases place with
  | nil => simp
  | cons first parent =>
    by_cases hparent : parent = location
    · simp [hparent]
    · simp [hparent]

/-- The children of a directory come in ascending order of their names. -/
theorem pairwise_children (t : FileTree) (location : Location) :
    (t.children location).Pairwise fun a b => a.1 < b.1 := by
  refine List.Pairwise.filterMap _ ?_ Std.ExtTreeMap.ordered_keys_toList
  rintro ⟨place, entry⟩ ⟨place', entry'⟩ hlt ⟨name, _⟩ hchild ⟨name', _⟩ hchild'
  obtain ⟨rfl, rfl⟩ := childOf?_eq_some.mp hchild
  obtain ⟨rfl, rfl⟩ := childOf?_eq_some.mp hchild'
  rw [List.compare_cons_cons, Ordering.then_eq_lt] at hlt
  refine lt_of_compare_eq_lt (hlt.resolve_right ?_)
  rintro ⟨-, hself⟩
  simp [Std.ReflCmp.compare_self] at hself

theorem enumerates_children (t : FileTree) (location : Location) :
    t.Enumerates location (t.children location) where
  mem name entry := by
    unfold children
    rw [List.mem_filterMap]
    constructor
    · rintro ⟨⟨place, entry'⟩, hmem, hchild⟩
      obtain ⟨rfl, rfl⟩ := childOf?_eq_some.mp hchild
      exact Std.ExtTreeMap.mem_toList_iff_getElem?_eq_some.mp hmem
    · intro hget
      exact ⟨_, Std.ExtTreeMap.mem_toList_iff_getElem?_eq_some.mpr hget,
        childOf?_eq_some.mpr ⟨rfl, rfl⟩⟩
  nodup := by
    rw [List.Nodup, List.pairwise_map]
    refine (pairwise_children t location).imp ?_
    rintro ⟨name, _⟩ ⟨_, _⟩ hlt rfl
    exact List.lt_irrefl _ hlt

/-- **Sorted by name, the entries of a directory are its children**, in whatever order they are
listed. -/
theorem Enumerates.mergeSort_eq (h : t.Enumerates location entries) :
    entries.mergeSort byName = t.children location := by
  have hperm := List.mergeSort_perm entries byName
  have hle : (entries.mergeSort byName).Pairwise fun a b => a.1 ≤ b.1 := by
    have hsorted : (entries.mergeSort byName).Pairwise fun a b => byName a b = true := by
      apply List.pairwise_mergeSort
      · intro a b c hab hbc
        exact decide_eq_true (List.le_trans (of_decide_eq_true hab) (of_decide_eq_true hbc))
      · intro a b
        simpa [byName] using List.le_total a.1 b.1
    exact hsorted.imp of_decide_eq_true
  have hne : (entries.mergeSort byName).Pairwise fun a b => a.1 ≠ b.1 :=
    List.pairwise_map.mp ((hperm.map Prod.fst).nodup_iff.mpr h.nodup)
  refine eq_of_pairwise_of_mem_iff ?_ (pairwise_children t location) fun (name, entry) => ?_
  · exact hle.imp₂ (fun _ _ hle hne => Std.lt_of_le_of_ne hle hne) hne
  · rw [hperm.mem_iff, h.mem, (enumerates_children t location).mem]

end FileTree

/-! ## The records in a directory -/

namespace Depfile

open FileTree (entryPath pathLimit)

variable {t : FileTree} {path : Bytes} {location : Location} {name : FileName} {entry : Entry}
  {record : DependencyRecord}

/-- The directory at the location has a regular file of that name that holds the record and can be
opened by the path of the directory and its name. -/
structure Holds (t : FileTree) (path : Bytes) (location : Location) (name : FileName)
    (record : DependencyRecord) : Prop where
  extension : ∃ stem, stem ≠ [] ∧ name = stem ++ bytesOf ".d"
  length : (entryPath path name).length < pathLimit
  content : ∃ text, t.entries[name :: location]? = some (.file (encode text)) ∧
    parse? text = some record

theorem isRecordName_iff :
    isRecordName name = true ↔ ∃ stem, stem ≠ [] ∧ name = stem ++ bytesOf ".d" := by
  have hbytes : bytesOf ".d" = [FileTree.dot, 0x64] := by decide
  have hdot : FileTree.dot ∉ [(0x64 : UInt8)] := by decide
  rw [isRecordName, beq_iff_eq, hbytes, Path.extensionOf_eq_some_iff]
  simp only [hdot, not_false_eq_true, and_true]

theorem length_entryPath (directory : Bytes) (name : FileName) :
    directory.length + name.length ≤ (entryPath directory name).length := by
  unfold entryPath
  split <;> simp

theorem recordIn?_eq_some_iff :
    recordIn? path (name, entry) = some record ↔
      (∃ stem, stem ≠ [] ∧ name = stem ++ bytesOf ".d") ∧
        (entryPath path name).length < pathLimit ∧
        ∃ text, entry = .file (encode text) ∧ parse? text = some record := by
  cases entry with
  | directory | link => simp [recordIn?]
  | file content =>
    rw [recordIn?, ← isRecordName_iff]
    split
    · next h =>
      simp [h, Option.bind_eq_some_iff, decode?_eq_some_iff]
    · next h =>
      simp only [reduceCtorEq, false_iff]
      exact fun hall => h ⟨hall.1, hall.2.1⟩

/-- The records in a directory with the names of their files, in ascending order of the names. -/
def recordsIn (t : FileTree) (path : Bytes) (location : Location) :
    List (FileName × DependencyRecord) :=
  (t.children location).filterMap fun child => (recordIn? path child).map (child.1, ·)

theorem mem_recordsIn : (name, record) ∈ recordsIn t path location ↔
    Holds t path location name record := by
  have hholds : Holds t path location name record ↔
      ∃ entry, t.entries[name :: location]? = some entry ∧
        recordIn? path (name, entry) = some record := by
    simp only [recordIn?_eq_some_iff]
    constructor
    · rintro ⟨hext, hlength, text, hget, hparse⟩
      exact ⟨_, hget, hext, hlength, text, rfl, hparse⟩
    · rintro ⟨_, hget, hext, hlength, text, rfl, hparse⟩
      exact ⟨hext, hlength, text, hget, hparse⟩
  simp only [recordsIn, List.mem_filterMap, hholds, Prod.exists, Option.map_eq_some_iff,
    Prod.mk.injEq, FileTree.enumerates_children t location |>.mem]
  constructor
  · rintro ⟨_, entry, hget, _, hrecord, rfl, rfl⟩
    exact ⟨entry, hget, hrecord⟩
  · rintro ⟨entry, hget, hrecord⟩
    exact ⟨name, entry, hget, record, hrecord, rfl, rfl⟩

theorem pairwise_recordsIn (t : FileTree) (path : Bytes) (location : Location) :
    (recordsIn t path location).Pairwise fun a b => a.1 < b.1 := by
  refine (FileTree.pairwise_children t location).filterMap _ ?_
  rintro a b hlt found hfound found' hfound'
  obtain ⟨record, -, rfl⟩ := Option.map_eq_some_iff.mp hfound
  obtain ⟨record', -, rfl⟩ := Option.map_eq_some_iff.mp hfound'
  exact hlt

theorem map_recordsIn (t : FileTree) (path : Bytes) (location : Location) :
    (recordsIn t path location).map (·.2) = (t.children location).filterMap (recordIn? path) := by
  rw [recordsIn, List.map_filterMap]
  refine List.filterMap_congr fun child _ => ?_
  rw [Option.map_map]
  exact Option.map_id'

end Depfile

namespace DependencyGraph

open FileTree (Enumerates byName)
open Depfile (Holds recordIn? recordsIn)

variable {t : FileTree} {path : String} {location : Location}

/-- A graph is built exactly where there is a directory. -/
theorem exists_ofDirectory?_iff :
    (∃ g, ofDirectory? t path = some g) ↔ t.isDirectory (bytesOf path) = true := by
  rw [FileTree.isDirectory_iff]
  constructor
  · rintro ⟨g, hg⟩
    unfold ofDirectory? FileTree.list? at hg
    split at hg
    · next location hwalk => exact ⟨location, FileTree.walk_reach_iff.mp hwalk⟩
    · cases hg
  · rintro ⟨location, h⟩
    refine ⟨ofEntries (bytesOf path) (t.children location), ?_⟩
    rw [ofDirectory?, FileTree.list?, FileTree.walk_reach_iff.mpr h]
    rfl

theorem ofDirectory?_eq (h : t.DirectoryAt (bytesOf path) location) :
    ofDirectory? t path =
      some (ofRecords ((recordsIn t (bytesOf path) location).map (·.2))) := by
  rw [ofDirectory?, FileTree.list?, FileTree.walk_reach_iff.mpr h, Depfile.map_recordsIn]
  rfl

/-- The last record for a target has the say. -/
theorem get?_ofRecords (records : List DependencyRecord) (target : String) :
    (ofRecords records).get? target =
      ((records.filter (·.target == target)).getLast?).map (·.dependencies) := by
  have hfold (g : DependencyGraph) : (records.foldl insert g).records =
      records.foldl (fun table r => table.insert r.target r.dependencies) g.records := by
    induction records generalizing g with
    | nil => rfl
    | cons record rest ih => exact ih (g.insert record)
  have htable : (ofRecords records).records =
      NameTable.ofList (records.map fun r => (r.target, r.dependencies)) := by
    rw [NameTable.ofList, List.foldl_map]
    exact hfold .empty
  rw [get?, htable, NameTable.getElem?_ofList, List.filter_map, List.getLast?_map, Option.map_map]
  rfl

/-- In a list in ascending order of names, the last one has the greatest name. -/
theorem getLast?_eq_some_iff_of_pairwise {found : List (FileName × DependencyRecord)}
    (h : found.Pairwise fun a b => a.1 < b.1) {last : FileName × DependencyRecord} :
    found.getLast? = some last ↔ last ∈ found ∧ ∀ other ∈ found, other.1 ≤ last.1 := by
  have hlast {last : FileName × DependencyRecord} (hget : found.getLast? = some last) :
      ∀ other ∈ found, other = last ∨ other.1 < last.1 := by
    obtain ⟨before, rfl⟩ := List.getLast?_eq_some_iff.mp hget
    intro other hother
    rcases List.mem_append.mp hother with hbefore | hself
    · exact .inr ((List.pairwise_append.mp h).2.2 other hbefore last (List.mem_singleton_self last))
    · exact .inl (List.mem_singleton.mp hself)
  constructor
  · intro hget
    refine ⟨List.mem_of_getLast? hget, fun other hother => ?_⟩
    rcases hlast hget other hother with rfl | hlt
    · exact List.le_refl other.1
    · exact List.le_of_lt hlt
  · rintro ⟨hmem, hgreatest⟩
    have hget := List.getLast?_eq_getLast_of_ne_nil (List.ne_nil_of_mem hmem)
    rcases hlast hget last hmem with heq | hlt
    · rw [heq, hget]
    · exact absurd (hgreatest _ (List.getLast_mem _)) (List.not_le.mpr hlt)

variable {found : List (FileName × DependencyRecord)} {target : String} {dependencies : Names}

/-- A target has the dependencies that the record with the greatest name declares for it. -/
theorem get?_ofRecords_eq_some_iff (h : found.Pairwise fun a b => a.1 < b.1) :
    (ofRecords (found.map (·.2))).get? target = some dependencies ↔
      ∃ name, (name, ⟨target, dependencies⟩) ∈ found ∧
        ∀ other others, (other, ⟨target, others⟩) ∈ found → other ≤ name := by
  rw [get?_ofRecords, List.filter_map, List.getLast?_map, Option.map_map,
    Option.map_eq_some_iff]
  simp only [getLast?_eq_some_iff_of_pairwise (h.filter _), List.mem_filter, Function.comp_apply,
    beq_iff_eq]
  constructor
  · rintro ⟨⟨name, record⟩, ⟨⟨hmem, rfl⟩, hgreatest⟩, rfl⟩
    exact ⟨name, hmem, fun other others hother => hgreatest _ ⟨hother, rfl⟩⟩
  · rintro ⟨name, hmem, hgreatest⟩
    refine ⟨_, ⟨⟨hmem, rfl⟩, ?_⟩, rfl⟩
    rintro ⟨other, record⟩ ⟨hother, rfl⟩
    exact hgreatest other record.dependencies hother

theorem get?_ofRecords_eq_none_iff :
    (ofRecords (found.map (·.2))).get? target = none ↔
      ∀ name others, (name, ⟨target, others⟩) ∉ found := by
  rw [get?_ofRecords, Option.map_eq_none_iff, List.getLast?_eq_none_iff, List.filter_eq_nil_iff]
  simp only [List.mem_map, beq_iff_eq]
  constructor
  · exact fun h name others hmem => h _ ⟨_, hmem, rfl⟩ rfl
  · rintro h _ ⟨⟨name, record⟩, hmem, rfl⟩ rfl
    exact h name record.dependencies hmem

/-! ## The graph of a directory -/

/-- **The last file has the say.** A graph is built if and only if the path leads to a directory.
It is the graph of the records of the files that hold one, in ascending order of the files' names,
however the entries are listed. A target has the dependencies that the file with the greatest name
declares, of those that hold a record for it, and no other entry has a part in that: any other
directory with the same files of records makes the same graph. -/
theorem ofDirectory?_last_wins (t : FileTree) (path : String) :
    (ofDirectory? t path = none ↔ t.isDirectory (bytesOf path) = false) ∧
      ∀ location, t.DirectoryAt (bytesOf path) location →
        ∃ g, ofDirectory? t path = some g ∧
          (∀ entries, t.Enumerates location entries →
            g = ofRecords ((entries.mergeSort byName).filterMap (recordIn? (bytesOf path)))) ∧
          (∃ found : List (FileName × DependencyRecord),
            found.Pairwise (fun a b => a.1 < b.1) ∧
              (∀ name record, (name, record) ∈ found ↔
                Holds t (bytesOf path) location name record) ∧
              g = ofRecords (found.map (·.2))) ∧
          (∀ target dependencies, g.get? target = some dependencies ↔
            ∃ name, Holds t (bytesOf path) location name ⟨target, dependencies⟩ ∧
              ∀ other others, Holds t (bytesOf path) location other ⟨target, others⟩ →
                other ≤ name) ∧
          (∀ target, g.get? target = none ↔
            ∀ name others, ¬ Holds t (bytesOf path) location name ⟨target, others⟩) ∧
          ∀ t' location', t'.DirectoryAt (bytesOf path) location' →
            (∀ name record, Holds t' (bytesOf path) location' name record ↔
              Holds t (bytesOf path) location name record) →
            ofDirectory? t' path = some g := by
  refine ⟨?_, fun location h => ⟨_, ofDirectory?_eq h, ?_, ?_, ?_, ?_, ?_⟩⟩
  · rw [← Bool.not_eq_true, ← exists_ofDirectory?_iff, Option.eq_none_iff_forall_ne_some,
      not_exists]
  · intro entries hentries
    rw [hentries.mergeSort_eq, Depfile.map_recordsIn]
  · exact ⟨_, Depfile.pairwise_recordsIn .., fun _ _ => Depfile.mem_recordsIn, rfl⟩
  · intro target dependencies
    rw [get?_ofRecords_eq_some_iff (Depfile.pairwise_recordsIn ..)]
    simp only [Depfile.mem_recordsIn]
  · intro target
    rw [get?_ofRecords_eq_none_iff]
    simp only [Depfile.mem_recordsIn]
  · intro t' location' h' hsame
    have heq : recordsIn t' (bytesOf path) location' = recordsIn t (bytesOf path) location := by
      refine FileTree.eq_of_pairwise_of_mem_iff (Depfile.pairwise_recordsIn ..)
        (Depfile.pairwise_recordsIn ..) fun (name, record) => ?_
      rw [Depfile.mem_recordsIn, Depfile.mem_recordsIn, hsame]
    rw [ofDirectory?_eq h', heq]

/-- Two files with a record for one target, and a third that is a link to such a file. -/
def rivalTree : FileTree where
  entries := Std.ExtTreeMap.ofList [
    ([bytesOf "b"], Entry.directory),
    ([bytesOf "1.d", bytesOf "b"], Entry.file (bytesOf "t: x")),
    ([bytesOf "2.d", bytesOf "b"], Entry.file (bytesOf "t: y z")),
    ([bytesOf "3.d", bytesOf "b"], Entry.link (bytesOf "1.d"))]
  workingDirectory := []

/-- The second file has the say, and no file has one about another target. -/
theorem ofDirectory?_last_wins_rivalTree :
    ∃ g, ofDirectory? rivalTree "b" = some g ∧ g.get? "t" = some (Names.ofList ["y", "z"]) ∧
      ∀ target, target ≠ "t" → g.get? target = none := by
  have hb : rivalTree.DirectoryAt (bytesOf "b") [bytesOf "b"] := FileTree.walk_reach_iff.mp rfl
  obtain ⟨g, hg, -, ⟨found, hfound, hmem, heq⟩, hsome, hnone, -⟩ :=
    (ofDirectory?_last_wins rivalTree "b").2 _ hb
  refine ⟨g, hg, ?_⟩
  have hrecords : recordsIn rivalTree (bytesOf "b") [bytesOf "b"] =
      [(bytesOf "1.d", ⟨"t", Names.ofList ["x"]⟩),
        (bytesOf "2.d", ⟨"t", Names.ofList ["y", "z"]⟩)] := by
    decide +kernel
  simp only [← Depfile.mem_recordsIn, hrecords] at hsome hnone
  refine ⟨(hsome _ _).mpr ⟨bytesOf "2.d", by simp, ?_⟩, fun target hne => (hnone target).mpr ?_⟩
  · have hle : bytesOf "1.d" ≤ bytesOf "2.d" := by decide
    simpa using fun other others => by
      rintro (⟨rfl, -⟩ | ⟨rfl, -⟩)
      · exact hle
      · exact List.le_refl _
  · simp [hne]

/-! ## Paths that are too long -/

/-- A directory with one file that holds a record. -/
def loneTree : FileTree where
  entries := Std.ExtTreeMap.ofList [
    ([bytesOf "b"], Entry.directory),
    ([bytesOf "a.d", bytesOf "b"], Entry.file (bytesOf "t: x"))]
  workingDirectory := []

/-- A long way to write the path of the directory. -/
def longPath (slashes : Nat) : String := String.ofList (List.replicate slashes '/' ++ ['b'])

theorem bytesOf_longPath (slashes : Nat) :
    bytesOf (longPath slashes) = List.replicate slashes FileTree.slash ++ bytesOf "b" := by
  rw [bytesOf, longPath, String.toList_ofList, encode, List.flatMap_append, List.flatMap_replicate,
    FileTree.encodeChar_slash, List.flatten_replicate_singleton]
  rfl

theorem directoryAt_longPath {slashes : Nat} (h : slashes + 1 < FileTree.pathLimit) :
    loneTree.DirectoryAt (bytesOf (longPath slashes)) [bytesOf "b"] := by
  have hpieces : FileTree.barePieces (bytesOf "b") = [.name (bytesOf "b")] :=
    FileTree.barePieces_name (by decide) (by decide) (by decide) (by decide)
  have hb : bytesOf "b" = [0x62] := by decide
  have hleads : FileTree.Leads loneTree FileTree.maxLinks [] [.name (bytesOf "b")] [bytesOf "b"] :=
    .enter (by decide) (by decide +kernel) .stay
  rw [bytesOf_longPath]
  refine ⟨?_, ?_, ?_, ?_⟩
  · simp [hb, FileTree.slash]
  · simp [hb]
  · simpa [hb] using h
  · rw [FileTree.barePieces_replicate_slash, hpieces, FileTree.start]
    split <;> exact hleads

/-- The path leads to the directory, but with the file's name behind it the path is too long for the
file to be opened, and its record is passed over. -/
theorem skips_record_behind_longPath :
    loneTree.DirectoryAt (bytesOf (longPath 4092)) [bytesOf "b"] ∧
      loneTree.entries[[bytesOf "a.d", bytesOf "b"]]? = some (.file (encode "t: x".toList)) ∧
      Depfile.parse? "t: x".toList = some ⟨"t", Names.ofList ["x"]⟩ ∧
      ∃ g, ofDirectory? loneTree (longPath 4092) = some g ∧ g.get? "t" = none := by
  have h : loneTree.DirectoryAt (bytesOf (longPath 4092)) [bytesOf "b"] :=
    directoryAt_longPath (by decide)
  refine ⟨h, by decide +kernel, by decide +kernel, _, ofDirectory?_eq h, ?_⟩
  rw [get?_ofRecords_eq_none_iff]
  intro name others hmem
  obtain ⟨⟨stem, hstem, rfl⟩, hlength, -⟩ := Depfile.mem_recordsIn.mp hmem
  have hle := Depfile.length_entryPath (bytesOf (longPath 4092)) (stem ++ bytesOf ".d")
  rw [bytesOf_longPath, List.length_append, List.length_append, List.length_replicate] at hle
  rw [bytesOf_longPath] at hlength
  have hpos := List.length_pos_iff.mpr hstem
  have hd : (bytesOf ".d").length = 2 := by decide
  have hb : (bytesOf "b").length = 1 := by decide
  have hlimit : FileTree.pathLimit = 4096 := rfl
  omega

end DependencyGraph

end Ripple
