import Mathlib.Algebra.BigOperators.Group.List.Lemmas
import Mathlib.Algebra.GroupWithZero.Nat
import Ripple.Proofs.Names
import Ripple.Report

/-!
# What a summary counts

Each number of a summary is found in a pass of its own over the report. `Summary.Describes` says
what the numbers mean for the report, file by file and tool by tool, and `Summary.IsSum` that the
numbers of two reports come together when one is put behind the other. Both rest on the table of
failures: a tool has in it the number of files that it failed on (`getElem?_toolFailures`).
-/

namespace Ripple

namespace FileReport

variable {r : FileReport} {tool : String}

/-- A report passes exactly if every verdict in its table is one of success. -/
theorem passed_iff :
    r.passed = true ↔ ∀ (tool : String) (verdict : Verdict), r.results[tool]? = some verdict →
      verdict.success = true := by
  unfold passed verdicts
  rw [List.all_map, List.all_eq_true]
  constructor
  · intro h tool verdict hget
    exact h (tool, verdict) (Std.ExtTreeMap.mem_toList_iff_getElem?_eq_some.mpr hget)
  · rintro h ⟨tool, verdict⟩ hmem
    exact h tool verdict (Std.ExtTreeMap.mem_toList_iff_getElem?_eq_some.mp hmem)

/-- The tool did not pass on the file. -/
def Fails (r : FileReport) (tool : String) : Prop :=
  ∃ verdict, r.results[tool]? = some verdict ∧ verdict.success = false

theorem mem_failedTools : tool ∈ r.failedTools ↔ r.Fails tool := by
  simp only [failedTools, Fails, List.mem_map, List.mem_filter, Prod.exists,
    Std.ExtTreeMap.mem_toList_iff_getElem?_eq_some, Bool.not_eq_true']
  constructor
  · rintro ⟨_, verdict, ⟨hget, hfailed⟩, rfl⟩
    exact ⟨verdict, hget, hfailed⟩
  · rintro ⟨verdict, hget, hfailed⟩
    exact ⟨tool, verdict, ⟨hget, hfailed⟩, rfl⟩

/-- A tool is listed once among those that failed. -/
theorem nodup_failedTools : r.failedTools.Nodup := by
  refine (List.filter_sublist.map _).nodup ?_
  rw [Std.ExtTreeMap.map_fst_toList_eq_keys]
  exact Std.ExtTreeMap.nodup_keys

theorem passed_eq_false_iff : r.passed = false ↔ ∃ tool, r.Fails tool := by
  rw [← Bool.not_eq_true, passed_iff]
  simp [Fails]

instance instDecidableFails (r : FileReport) (tool : String) : Decidable (r.Fails tool) :=
  decidable_of_iff (tool ∈ r.failedTools) mem_failedTools

instance instDecidableExistsFails (r : FileReport) : Decidable (∃ tool, r.Fails tool) :=
  decidable_of_iff (r.passed = false) passed_eq_false_iff

end FileReport

/-! ## The meaning of the numbers -/

/-- The numbers are those of the report. -/
structure Summary.Describes (s : Summary) (r : Report) : Prop where
  files : s.files = r.files.length
  parts : s.passedFiles + s.failedFiles = s.files
  /-- A file counts as failed if some tool failed on it. -/
  failed : s.failedFiles = r.files.countP fun f => ∃ tool, f.Fails tool
  /-- A tool is listed if it failed somewhere, with the number of files that it failed on. -/
  listed : ∀ (tool : String) (count : Nat), s.toolFailures[tool]? = some count ↔
    0 < count ∧ count = r.files.countP fun f => f.Fails tool
  bounds : ∀ (tool : String) (count : Nat), s.toolFailures[tool]? = some count →
    1 ≤ count ∧ count ≤ s.failedFiles
  /-- Together the counts say how often a tool failed on a file. -/
  total : (s.toolFailures.toList.map (·.2)).sum = (r.files.map (·.failedTools.length)).sum
  findings : s.findings =
    (r.files.map fun f => (f.results.toList.map (·.2.findings.length)).sum).sum

/-- The numbers are those of two summaries, added up. A tool that one of them does not list counts
as in the other. -/
structure Summary.IsSum (s first second : Summary) : Prop where
  files : s.files = first.files + second.files
  passedFiles : s.passedFiles = first.passedFiles + second.passedFiles
  failedFiles : s.failedFiles = first.failedFiles + second.failedFiles
  findings : s.findings = first.findings + second.findings
  toolFailures : ∀ tool : String, s.toolFailures[tool]? =
    Option.merge (· + ·) first.toolFailures[tool]? second.toolFailures[tool]?

namespace Report

variable {r : Report} {tool : String}

/-! ## Counting tools -/

theorem getElem?_foldl_countTool (counts : NameTable Nat) (tools : List String) (tool : String) :
    (tools.foldl countTool counts)[tool]? =
      if tool ∈ tools then some ((counts[tool]?).getD 0 + tools.count tool) else counts[tool]? := by
  induction tools generalizing counts with
  | nil => simp
  | cons first rest ih =>
    rw [List.foldl_cons, ih, countTool, Std.ExtTreeMap.getElem?_insert]
    by_cases hfirst : first = tool
    · subst hfirst
      by_cases hrest : first ∈ rest
      · simp only [Std.LawfulEqCmp.compare_eq_iff_eq, if_true, hrest, List.mem_cons_self,
          Option.getD_some, List.count_cons_self, Option.some.injEq]
        omega
      · simp [hrest, List.count_eq_zero_of_not_mem]
    · have hne : ¬tool = first := fun heq => hfirst heq.symm
      simp [hfirst, hne]

/-- A tool occurs among those that failed once for each file that it failed on. -/
theorem count_failedTools (files : List FileReport) (tool : String) :
    (files.flatMap (·.failedTools)).count tool = files.countP fun f => f.Fails tool := by
  induction files with
  | nil => rfl
  | cons f rest ih =>
    rw [List.flatMap_cons, List.count_append, ih, List.countP_cons,
      FileReport.nodup_failedTools.count, Nat.add_comm]
    simp [FileReport.mem_failedTools]

/-- **A tool is listed with the number of files that it failed on**, if there are any. -/
theorem getElem?_toolFailures (r : Report) (tool : String) :
    r.summary.toolFailures[tool]? =
      if (r.files.countP fun f => f.Fails tool) = 0 then none
      else some (r.files.countP fun f => f.Fails tool) := by
  rw [summary, getElem?_foldl_countTool, ← count_failedTools]
  by_cases hmem : tool ∈ r.files.flatMap (·.failedTools)
  · have hpos := List.count_pos_iff.mpr hmem
    rw [if_pos hmem, if_neg (by omega)]
    simp
  · rw [if_neg hmem, if_pos (List.count_eq_zero_of_not_mem hmem)]
    simp

theorem mem_toolFailures_iff :
    tool ∈ r.summary.toolFailures ↔ tool ∈ r.files.flatMap (·.failedTools) := by
  rw [Std.ExtTreeMap.mem_iff_isSome_getElem?, getElem?_toolFailures, ← count_failedTools]
  split
  · next hzero => simpa using List.count_eq_zero.mp hzero
  · next hne => simpa using List.count_pos_iff.mp (Nat.pos_of_ne_zero hne)

/-- Every failure of a tool on a file is counted once. -/
theorem sum_toolFailures (r : Report) :
    (r.summary.toolFailures.toList.map (·.2)).sum = (r.files.map (·.failedTools.length)).sum := by
  have hcount : ∀ entry ∈ r.summary.toolFailures.toList,
      entry.2 = (r.files.flatMap (·.failedTools)).count entry.1 := by
    rintro ⟨tool, count⟩ hentry
    have hget := Std.ExtTreeMap.mem_toList_iff_getElem?_eq_some.mp hentry
    rw [getElem?_toolFailures] at hget
    split at hget
    · cases hget
    · rw [count_failedTools]
      exact (Option.some.inj hget).symm
  -- the tools of the table are those that occur among the failed ones, each once
  have hkeys : r.summary.toolFailures.keys.Perm (r.files.flatMap (·.failedTools)).dedup := by
    rw [List.perm_ext_iff_of_nodup Std.ExtTreeMap.nodup_keys (List.nodup_dedup _)]
    intro tool
    rw [Std.ExtTreeMap.mem_keys, mem_toolFailures_iff, List.mem_dedup]
  calc (r.summary.toolFailures.toList.map (·.2)).sum
      = (r.summary.toolFailures.keys.map fun tool =>
          (r.files.flatMap (·.failedTools)).count tool).sum := by
        rw [← Std.ExtTreeMap.map_fst_toList_eq_keys, List.map_map, List.map_congr_left hcount]
        rfl
    _ = ((r.files.flatMap (·.failedTools)).dedup.map fun tool =>
          (r.files.flatMap (·.failedTools)).count tool).sum := (hkeys.map _).sum_eq
    _ = (r.files.flatMap (·.failedTools)).length := List.sum_map_count_dedup_eq_length _
    _ = (r.files.map (·.failedTools.length)).sum := List.length_flatMap

/-! ## Counting files and findings -/

theorem failedFiles_eq (r : Report) :
    r.summary.failedFiles = r.files.countP fun f => ∃ tool, f.Fails tool := by
  have hfailed : (r.files.countP fun f => ¬f.passed = true) =
      r.files.countP fun f => ∃ tool, f.Fails tool :=
    List.countP_congr fun f _ => by simp [← FileReport.passed_eq_false_iff]
  rw [← hfailed]
  exact Nat.sub_eq_of_eq_add' (List.length_eq_countP_add_countP FileReport.passed)

theorem findings_eq (r : Report) :
    r.summary.findings =
      (r.files.map fun f => (f.results.toList.map (·.2.findings.length)).sum).sum := by
  rw [summary, List.length_flatMap]
  simp only [FileReport.findings, FileReport.verdicts, List.length_flatMap, List.map_map]
  rfl

theorem summary_describes (r : Report) : r.summary.Describes r where
  files := rfl
  parts := Nat.add_sub_cancel' List.countP_le_length
  failed := failedFiles_eq r
  listed tool count := by
    rw [getElem?_toolFailures]
    split <;> simp <;> omega
  bounds tool count hget := by
    rw [getElem?_toolFailures] at hget
    split at hget
    · cases hget
    · next hne =>
      obtain rfl := Option.some.inj hget
      refine ⟨Nat.pos_of_ne_zero hne, ?_⟩
      rw [failedFiles_eq]
      refine List.countP_mono_left fun f _ hfails => ?_
      rw [decide_eq_true_iff] at hfails ⊢
      exact ⟨tool, hfails⟩
  total := sum_toolFailures r
  findings := findings_eq r

theorem summary_append (first second : Report) :
    (⟨first.files ++ second.files⟩ : Report).summary.IsSum first.summary second.summary where
  files := List.length_append
  passedFiles := List.countP_append
  failedFiles := by simp only [failedFiles_eq, List.countP_append]
  findings := by simp only [findings_eq, List.map_append, List.sum_append]
  toolFailures tool := by
    simp only [getElem?_toolFailures, List.countP_append]
    generalize (first.files.countP fun f => f.Fails tool) = m
    generalize (second.files.countP fun f => f.Fails tool) = n
    by_cases hm : m = 0 <;> by_cases hn : n = 0 <;> simp [hm, hn]

/-- Nothing failed exactly if no tool is listed. -/
theorem failedFiles_eq_zero_iff :
    r.summary.failedFiles = 0 ↔ r.summary.toolFailures = ∅ := by
  rw [failedFiles_eq, List.countP_eq_zero, Std.ExtTreeMap.eq_empty_iff_forall_not_mem]
  simp only [mem_toolFailures_iff, List.mem_flatMap, FileReport.mem_failedTools]
  constructor
  · rintro h tool ⟨f, hf, hfails⟩
    exact h f hf (decide_eq_true ⟨tool, hfails⟩)
  · intro h f hf hfailed
    obtain ⟨tool, hfails⟩ := of_decide_eq_true hfailed
    exact h tool ⟨f, hf, hfails⟩

theorem allPassed_iff : r.allPassed = true ↔ r.summary.failedFiles = 0 := by
  rw [failedFiles_eq, List.countP_eq_zero, allPassed, List.all_eq_true]
  refine forall₂_congr fun f _ => ?_
  rw [decide_eq_true_iff, ← FileReport.passed_eq_false_iff, Bool.not_eq_false]

/-- **A summary is consistent with its report.** It counts what is there, everything has passed
exactly if no file is counted as failed, which is so exactly if no tool is listed, and the summary
of two reports, one behind the other, is the sum of theirs. -/
theorem summary_consistent (r : Report) :
    r.summary.Describes r ∧
      (r.allPassed = true ↔ r.summary.failedFiles = 0) ∧
      (r.summary.failedFiles = 0 ↔ r.summary.toolFailures = ∅) ∧
      ∀ next : Report,
        (⟨r.files ++ next.files⟩ : Report).summary.IsSum r.summary next.summary :=
  ⟨summary_describes r, allPassed_iff, failedFiles_eq_zero_iff, summary_append r⟩

end Report

end Ripple
