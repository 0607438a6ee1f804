import Ripple.Exchange.Results
import Ripple.Json.Reader
import Ripple.Proofs.Json.Fields
import Ripple.Proofs.Json.RoundTrip
import Ripple.Proofs.Names

/-!
# Reports that are written and read

The members of a file report are the file's name, under the key `file`, and the tools. So a tool
whose name is that key makes a report that cannot be read, and no report that is read has such a
tool. Every other report is read as it was written (`parse?_write`).
-/

namespace Ripple

open Json (Legible)

/-! ## Findings and verdicts -/

namespace Finding

variable (f : Finding)

/-- What holds of texts and of the numbers of lines and columns holds of all members. -/
theorem forall_mem_toJson {motive : Json → Prop} (htext : ∀ s, motive (.text s))
    (hplace : ∀ n : UInt32, motive (.nat n.toNat)) :
    ∀ m ∈ [("file", Json.text f.file), ("line", .nat f.line.toNat), ("column", .nat f.column.toNat),
      ("severity", .text f.severity), ("message", .text f.message), ("checker", .text f.checker)],
      motive m.2 := by
  simp [htext, hplace]

theorem legible_toJson : Legible f.toJson := .record (f.forall_mem_toJson .text fun _ => .nat _)

theorem plain_toJson : f.toJson.plain = true := by
  refine Json.plain_record_iff.mpr
    (f.forall_mem_toJson (motive := fun j => j.plain = true) (fun _ => rfl) fun n => ?_)
  have hsize : UInt32.size ≤ UInt64.size := by decide
  rw [Json.nat, Json.plain, Numeral.huge_ofNat (Nat.lt_of_lt_of_le n.toNat_lt hsize),
    Bool.not_false]

theorem depth_toJson : f.toJson.depth ≤ 1 :=
  Json.depth_record_le (f.forall_mem_toJson (motive := fun j => j.depth ≤ 0)
    (fun _ => Nat.le_refl 0) fun _ => Nat.le_refl 0)

theorem place?_nat (n : UInt32) : place? (.nat n.toNat) = some n := by
  rw [place?, Json.toNat?_nat n.toNat_lt, Option.map_some, UInt32.ofNat_toNat]

theorem ofJson?_toJson : ofJson? f.toJson = some f := by
  rw [ofJson?, toJson, Json.fields?_record (by simp)]
  simp [List.lookup_cons, Json.need, place?_nat]

end Finding

namespace Verdict

variable (v : Verdict)

theorem forall_mem_toJson {motive : Json → Prop} (htext : ∀ s, motive (.text s))
    (hbool : ∀ b, motive (.bool b)) (hfindings : motive (.array (v.findings.map Finding.toJson))) :
    ∀ m ∈ [("tool", Json.text v.tool), ("success", .bool v.success), ("output", .text v.output),
      ("issues", .array (v.findings.map Finding.toJson))], motive m.2 := by
  simp [htext, hbool, hfindings]

theorem legible_toJson : Legible v.toJson := by
  refine .record (v.forall_mem_toJson .text .bool (.array ?_))
  exact List.forall_mem_map.mpr fun f _ => f.legible_toJson

theorem plain_toJson : v.toJson.plain = true := by
  refine Json.plain_record_iff.mpr
    (v.forall_mem_toJson (motive := fun j => j.plain = true) (fun _ => rfl) (fun _ => rfl) ?_)
  exact Json.plain_array_iff.mpr (List.forall_mem_map.mpr fun f _ => f.plain_toJson)

theorem depth_toJson : v.toJson.depth ≤ 3 := by
  refine Json.depth_record_le (v.forall_mem_toJson (motive := fun j => j.depth ≤ 2)
    (fun _ => Nat.zero_le 2) (fun _ => Nat.zero_le 2) ?_)
  exact Json.depth_array_le (List.forall_mem_map.mpr fun f _ => f.depth_toJson)

theorem ofJson?_toJson : ofJson? v.toJson = some v := by
  rw [ofJson?, toJson, Json.fields?_record (by simp)]
  simp [List.lookup_cons, Json.need, Json.orElse,
    Json.toList?_array fun f (_ : f ∈ v.findings) => f.ofJson?_toJson]

end Verdict

/-! ## The reports on files -/

namespace FileReport

variable {r : FileReport} {level : Nat}

/-- The members of the tools. -/
def toolMembers (r : FileReport) : List (LiteralText × Json) :=
  r.results.toList.map fun (tool, v) => (some tool, v.toJson)

theorem toJson_eq (r : FileReport) :
    r.toJson = .object ((some fileKey, .text r.file) :: r.toolMembers) := by
  rw [toJson, Json.record, List.map_cons, List.map_map]
  rfl

theorem legible_toJson (r : FileReport) : Legible r.toJson := by
  refine .record (List.forall_mem_cons.mpr ⟨.text _, List.forall_mem_map.mpr ?_⟩)
  exact fun entry _ => entry.2.legible_toJson

theorem mem_toolMembers {m : LiteralText × Json} :
    m ∈ r.toolMembers ↔ ∃ tool v, r.results[tool]? = some v ∧ m = (some tool, v.toJson) := by
  simp only [toolMembers, List.mem_map, Prod.exists,
    Std.ExtTreeMap.mem_toList_iff_getElem?_eq_some, eq_comm]

theorem isFileMember_iff {m : LiteralText × Json} :
    isFileMember m = true ↔ m.1 = some fileKey := by
  rw [isFileMember, beq_iff_eq]

theorem toMap?_toolMembers (r : FileReport) :
    (Json.object r.toolMembers).toMap? Verdict.ofJson? = some r.results := by
  have hmap : (Json.record (r.results.toList.map fun (tool, v) => (tool, v.toJson))).toMap?
      Verdict.ofJson? = some (NameTable.ofList r.results.toList) :=
    Json.toMap?_record fun entry _ => entry.2.ofJson?_toJson
  rw [NameTable.ofList_toList, Json.record, List.map_map] at hmap
  exact hmap

theorem isKeepable_toolMembers (hlevel : level + 4 ≤ maxDepth) :
    r.toolMembers.all (isKeepable (level + 1)) = true := by
  refine List.all_eq_true.mpr fun m hm => ?_
  obtain ⟨tool, v, -, rfl⟩ := mem_toolMembers.mp hm
  have hdepth := v.depth_toJson
  rw [isKeepable, v.plain_toJson, Bool.true_and]
  exact decide_eq_true (show level + 1 + v.toJson.depth ≤ maxDepth by omega)

/-- A report without a tool of that name is read as it was written. -/
theorem ofJson?_toJson (h : fileKey ∉ r.results) (hlevel : level + 4 ≤ maxDepth) :
    ofJson? level r.toJson = some r := by
  have hother : ∀ m ∈ r.toolMembers, ¬isFileMember m = true := by
    intro m hm hfile
    obtain ⟨tool, v, hget, rfl⟩ := mem_toolMembers.mp hm
    obtain rfl : tool = fileKey := Option.some.inj (isFileMember_iff.mp hfile)
    exact h (Std.ExtTreeMap.mem_iff_isSome_getElem?.mpr (by rw [hget]; rfl))
  have hself : isFileMember (some fileKey, Json.text r.file) = true := isFileMember_iff.mpr rfl
  have hfile : ((some fileKey, Json.text r.file) :: r.toolMembers).filter isFileMember =
      [(some fileKey, .text r.file)] := by
    rw [List.filter_cons_of_pos hself, List.filter_eq_nil_iff.mpr hother]
  have htools : ((some fileKey, Json.text r.file) :: r.toolMembers).filter (!isFileMember ·) =
      r.toolMembers := by
    rw [List.filter_cons_of_neg (by simp [hself]), List.filter_eq_self]
    simpa using hother
  rw [toJson_eq, ofJson?, hfile]
  simp only [htools, isKeepable_toolMembers hlevel, if_true, toMap?_toolMembers,
    Json.toText?_text]
  rfl

/-- Two members with the key of the file's name are too many. -/
theorem ofJson?_toJson_of_mem (h : fileKey ∈ r.results) : ofJson? level r.toJson = none := by
  obtain ⟨v, hget⟩ := Option.isSome_iff_exists.mp (Std.ExtTreeMap.mem_iff_isSome_getElem?.mp h)
  have hself : isFileMember (some fileKey, Json.text r.file) = true := isFileMember_iff.mpr rfl
  have hclash : (some fileKey, v.toJson) ∈ r.toolMembers.filter isFileMember :=
    List.mem_filter.mpr ⟨mem_toolMembers.mpr ⟨_, v, hget, rfl⟩, isFileMember_iff.mpr rfl⟩
  rw [toJson_eq, ofJson?, List.filter_cons_of_pos hself]
  cases hfilter : r.toolMembers.filter isFileMember with
  | nil =>
    rw [hfilter] at hclash
    cases hclash
  | cons m rest => rfl

/-- A report that has been read has no tool of that name. -/
theorem not_mem_of_ofJson? {j : Json} (h : ofJson? level j = some r) : fileKey ∉ r.results := by
  unfold ofJson? at h
  split at h
  · next members =>
    split at h
    · next file hfile =>
      dsimp only at h
      split at h
      · simp only [bind, Option.bind_eq_some_iff, Option.some.injEq] at h
        obtain ⟨name, -, results, hresults, rfl⟩ := h
        intro hmem
        obtain ⟨m, hm, hkey⟩ := Json.exists_member_of_toMap? hresults hmem
        obtain ⟨-, hother⟩ := List.mem_filter.mp hm
        rw [isFileMember_iff.mpr hkey] at hother
        cases hother
      · cases h
    · cases h
  · cases h

end FileReport

/-! ## Reports -/

namespace Report

/-- The report that a text writes. -/
def parse? (text : List Char) : Option Report := (Json.read? text).bind (ofJson? 0)

/-- The two ways to write a report. -/
def texts (r : Report) : List (List Char) := [Json.write r.toJson, Json.writePretty r.toJson]

variable {r : Report} {text : List Char}

theorem parse?_of_mem_texts (h : text ∈ r.texts) : parse? text = ofJson? 0 r.toJson := by
  have hlegible : Legible r.toJson :=
    .array (List.forall_mem_map.mpr fun f _ => f.legible_toJson)
  have hread : Json.read? text = some r.toJson := by
    rcases List.mem_pair.mp h with rfl | rfl
    · exact Json.read?_write hlegible
    · exact Json.read?_writePretty hlegible
  rw [parse?, hread, Option.bind_some]

theorem ofJson?_toJson (h : ∀ f ∈ r.files, FileReport.fileKey ∉ f.results) :
    ofJson? 0 r.toJson = some r := by
  rw [ofJson?, toJson, Json.toList?_array fun f hf =>
    FileReport.ofJson?_toJson (h f hf) (by decide)]
  rfl

theorem ofJson?_toJson_of_mem {f : FileReport} (hf : f ∈ r.files)
    (h : FileReport.fileKey ∈ f.results) : ofJson? 0 r.toJson = none := by
  refine Option.eq_none_iff_forall_ne_some.mpr fun other hother => ?_
  obtain ⟨files, hfiles, -⟩ := Option.map_eq_some_iff.mp hother
  obtain ⟨read, -, hread⟩ := exists_mem_of_mapM hfiles (List.mem_map_of_mem hf)
  rw [FileReport.ofJson?_toJson_of_mem h] at hread
  cases hread

/-- What has been read has no tool with the key of a file's name. -/
theorem not_mem_of_parse? (h : parse? text = some r) :
    ∀ f ∈ r.files, FileReport.fileKey ∉ f.results := by
  obtain ⟨j, -, hj⟩ := Option.bind_eq_some_iff.mp h
  obtain ⟨files, hfiles, rfl⟩ := Option.map_eq_some_iff.mp hj
  intro f hf
  cases j with
  | array items =>
    obtain ⟨item, -, hitem⟩ := exists_of_mem_mapM hfiles hf
    exact FileReport.not_mem_of_ofJson? hitem
  | _ => cases hfiles

/-- **A report is read as it was written**, on one line or on several, if and only if no tool has
the key of a file's name. If one has, the text is not read as any report. And a report that has been
read, from whatever text, is read again when it is written. -/
theorem parse?_write :
    (∀ r text, text ∈ texts r →
      (parse? text = some r ↔ ∀ f ∈ r.files, FileReport.fileKey ∉ f.results) ∧
      ((∃ f ∈ r.files, FileReport.fileKey ∈ f.results) → parse? text = none)) ∧
    ∀ text r, parse? text = some r → ∀ text' ∈ texts r, parse? text' = some r := by
  refine ⟨fun r text htext => ⟨⟨not_mem_of_parse?, fun h => ?_⟩, ?_⟩,
    fun text r h text' htext' => ?_⟩
  · rw [parse?_of_mem_texts htext, ofJson?_toJson h]
  · rintro ⟨f, hf, h⟩
    rw [parse?_of_mem_texts htext, ofJson?_toJson_of_mem hf h]
  · rw [parse?_of_mem_texts htext', ofJson?_toJson (not_mem_of_parse? h)]

/-- A report on one file, for one tool of the given name. -/
def ofTool (tool : String) : Report :=
  let finding : Finding := ⟨"", 0, 4294967295, "error", "\\", ""⟩
  ⟨[⟨"a\t\"b\".c", NameTable.ofList [(tool, ⟨tool, false, "\x01\u20AC", [finding]⟩)]⟩]⟩

/-- One name for the tool is fine, and the other is the key of the file's name. -/
theorem parse?_write_ofTool :
    parse? (Json.writePretty (ofTool "cppcheck").toJson) = some (ofTool "cppcheck") ∧
      parse? (Json.write (ofTool "file").toJson) = none := by
  obtain ⟨hwrite, -⟩ := parse?_write
  constructor
  · refine (hwrite (ofTool "cppcheck") _ (by simp [texts])).1.mpr ?_
    simp [ofTool, FileReport.fileKey, NameTable.mem_ofList]
  · refine (hwrite (ofTool "file") _ (by simp [texts])).2 ?_
    simp [ofTool, FileReport.fileKey, NameTable.mem_ofList]

end Report

end Ripple
