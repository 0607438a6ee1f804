import Ripple.Proofs.Batch.Completion
import Ripple.Proofs.MapM
import Ripple.Proofs.Names

/-!
# The reports of a batch

Whatever order things happen in, a batch that comes to a report has an entry for each source, in
order and under its name (`names_of_run`), and in it the verdicts stand under the names of the tools
(`keys_of_run`).
-/

namespace Ripple

namespace Progress

variable {ε : Type} {w : Workbench ε} {limit : Nat} {t : FileTree} {batch : List Source}
  {p : Progress ε} {events : List Event} {report : Report}

/-- If an item comes to a report, the report bears its name, and there is one entry for each tool in
it. -/
def EntryEach (w : Workbench ε) (x : Item) (result : Except StagingFailure FileReport) : Prop :=
  ∀ file, result = .ok file → file.file = x.1.name ∧ file.results.keys.Perm w.tools.dedup

theorem entryEach_of_operation {job job' : Job} {t' : FileTree} (hslots : job.Slotted w)
    (h : job.Operation w t t' job') {result : Except StagingFailure FileReport}
    (hresult : job'.phase = .done result) : EntryEach w job.item result := by
  rintro file rfl
  cases h with
  | enter | shut | write | spoil | clear => cases hresult
  | @report path verdicts all hphase hall =>
    cases hresult
    have hlength : w.tools.length ≤ all.length := by
      rw [Workbench.tools, List.length_map, (hslots.all hphase hall).2]
    have hkeys := NameTable.keys_ofList_perm (w.tools.zip all)
    rw [List.map_fst_zip hlength] at hkeys
    exact ⟨rfl, hkeys⟩

theorem entryEach_of_run (hrun : run w limit (.start t batch) events = some p)
    (hended : p.outcome = some (.ok report)) :
    List.Forall₂ (fun x file => EntryEach w x (.ok file)) batch.zipIdx report.files := by
  have h := concluded_of_run (R := EntryEach w) (fun _ _ _ _ _ _ _ hslots hop _ result =>
    entryEach_of_operation hslots hop) hrun hended
  rcases h with h | ⟨crash, ⟨⟩⟩
  cases h with
  | complete hreports => exact hreports

/-- **A report has one entry for each source, in order and under its name.** -/
theorem names_of_run (hrun : run w limit (.start t batch) events = some p)
    (hended : p.outcome = some (.ok report)) :
    report.files.map (·.file) = batch.map (·.name) := by
  have hnames : ∀ {items : List Item} {files : List FileReport},
      List.Forall₂ (fun x file => EntryEach w x (.ok file)) items files →
        files.map (·.file) = items.map (Source.name ∘ Prod.fst) := by
    intro items files h
    induction h with
    | nil => rfl
    | cons hfile _ ih => rw [List.map_cons, List.map_cons, ih, (hfile _ rfl).1, Function.comp]
  rw [hnames (entryEach_of_run hrun hended), ← List.map_map, List.zipIdx_map_fst]

/-- **A batch with several files in flight reports one entry for each tool**, whatever order things
happen in. -/
theorem keys_of_run (hrun : run w limit (.start t batch) events = some p)
    (hended : p.outcome = some (.ok report)) :
    ∀ file ∈ report.files, file.results.keys.Perm w.tools.dedup := by
  intro file hfile
  have hreports := entryEach_of_run hrun hended
  obtain ⟨index, hindex, rfl⟩ := List.getElem_of_mem hfile
  exact (hreports.get (hreports.length_eq ▸ hindex) hindex _ rfl).2

end Progress

end Ripple
