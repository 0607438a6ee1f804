import Ripple.Proofs.Batch.Tidy

/-!
# Items that are refused

In a directory that is there, what can become of an item does not depend on the other items or on
the inspectors, as long as none of them crashes: it is reported on if it is accepted, and otherwise
it is the failure for which it is refused (`Settled`). So a batch comes to a report if every item is
accepted, and else to the failure of the first one that is not (`settled_of_run`).
-/

namespace Ripple

open Text

variable {ε : Type} {w : Workbench ε}

namespace Progress

variable {t base : FileTree} {location : Location} {items : List Item} {batch : List Source}
  {limit : Nat} {p : Progress ε} {events : List Event}

/-- What holds of a batch under way in a directory that can be made, whatever the inspectors do. -/
structure Orderly (w : Workbench ε) (t base : FileTree) (location : Location) (items : List Item)
    (limit : Nat) (p : Progress ε) : Prop where
  order : InOrder w (fun _ _ => True) items limit p
  tidy : Tidy w t base location p

/-- An item comes to a report if it is accepted and to its refusal otherwise. -/
def Settled (w : Workbench ε) (base : FileTree) (location : Location) (x : Item)
    (result : Except StagingFailure FileReport) : Prop :=
  match w.refusal? base location x with
  | none => ∃ file, result = .ok file
  | some fault => result = .error ⟨w.itemPath x, fault⟩

theorem Settled.accepted {x : Item} {file : FileReport} (h : Settled w base location x (.ok file)) :
    w.refusal? base location x = none := by
  unfold Settled at h
  split at h
  · assumption
  · cases h

theorem Settled.refused {x : Item} {failure : StagingFailure}
    (h : Settled w base location x (.error failure)) :
    ∃ fault, w.refusal? base location x = some fault ∧ failure = ⟨w.itemPath x, fault⟩ := by
  unfold Settled at h
  split at h
  · obtain ⟨file, ⟨⟩⟩ := h
  · next fault hrefused => exact ⟨fault, hrefused, Except.error.inj h⟩

/-- An item that is accepted does not come to a failure. -/
theorem not_settled_of_accepted {x : Item} (haccepted : w.refusal? base location x = none)
    (failure : StagingFailure) : ¬Settled w base location x (.error failure) := by
  intro h
  obtain ⟨fault, hrefused, -⟩ := h.refused
  cases haccepted.symm.trans hrefused

section Desk

variable (d : w.Desk base location batch.zipIdx)
  (hmake : t.makeDirectories w.directory = (base, .ok ()))

include d hmake

theorem orderly_of_run (hrun : run w limit (.start t batch) events = some p)
    (hopen : p.outcome = none) : Orderly w t base location batch.zipIdx limit p := by
  refine run_induction (I := fun p => p.outcome = none →
    Orderly w t base location batch.zipIdx limit p) ?_
    (fun _ => ⟨.start w _ limit t batch, .start w t base location batch⟩) hrun hopen
  intro q event q' _ h hstep hopen'
  have hopen := open_of_step hstep hopen'
  have h := h hopen
  have hmove := move_of_step hstep hopen
  refine ⟨?_, h.tidy.move d hmake h.order.sublist hopen' hmove⟩
  rcases h.order.move_or_crash hopen hmove fun _ _ _ _ _ _ _ _ => trivial with
    ⟨-, horder⟩ | ⟨outcome, hover, -⟩ | ⟨job, -, index, crash, -, rfl⟩
  · exact horder
  · cases hopen'.symm.trans hover
  · cases hopen'

/-- What a file operation ends with is what the item comes to. -/
theorem Orderly.settled (h : Orderly w t base location batch.zipIdx limit p) {job job' : Job}
    {t' : FileTree} (hjob : job ∈ p.jobs) (hop : job.Operation w p.tree t' job')
    {result : Except StagingFailure FileReport} (hresult : job'.phase = .done result) :
    Settled w base location job.item result := by
  unfold Settled
  cases result with
  | error failure =>
    obtain ⟨fault, hrefused, rfl⟩ := h.tidy.failure d hmake h.order.sublist hjob hop hresult
    rw [hrefused]
  | ok file =>
    cases hop with
    | enter | shut | write | spoil | clear => cases hresult
    | report hphase =>
      rw [(h.tidy.located job hjob).accepted _ _ hphase]
      exact ⟨file, rfl⟩

/-- **A batch comes to what its items come to, in order**, or an inspector has crashed. -/
theorem settled_of_run {outcome : Except (Interruption ε) Report}
    (hrun : run w limit (.start t batch) events = some p) (hended : p.outcome = some outcome) :
    Concluded (Settled w base location) batch.zipIdx outcome ∨
      ∃ crash, outcome = .error (.crashed crash) := by
  refine concluded_of_run (fun hhappens _ hopen _ _ _ hjob _ hop _ result hresult => ?_) hrun hended
  obtain ⟨past, future, -, hpast⟩ := hhappens
  exact (orderly_of_run d hmake hpast hopen).settled d hmake hjob hop hresult

end Desk

end Progress

end Ripple
