import Ripple.Batch

/-!
# Batches with several files in flight

Up to `limit` sources of a batch are under way at the same time, and at least one. Sources are taken
up in order. The file operations of those in flight, and the inspectors that look at them, go on in
any order: an order is a list of events, and `Progress.run` follows it as far as every event can
happen. Reports are handed over in order, so a report that is ready waits for those before it, and
keeps its place among the sources in flight until then.

The batch ends early when an inspector crashes or when the source whose turn it is could not be
staged. Then the files of all sources in flight are removed. A write that has been submitted cannot
be called back and is carried out nevertheless, even if the file it writes has been removed already.

Any list of events can be taken as an order: what cannot happen in its turn is passed over, and what
is left at the end is done source by source (`Progress.complete`).
-/

namespace Ripple

open Text

/-- How far the work on a source has come. -/
inductive Phase
  /-- The directory for staged files is to be made. -/
  | entering
  /-- The staged file is to be written. -/
  | writing (path : String)
  /-- The staged file could not be written. What has been written of it is to be removed. -/
  | spoilt (path : String) (reason : Fault)
  /-- The staged file is inspected; the verdict of each inspector that is done. -/
  | inspecting (path : String) (verdicts : List (Option Verdict))
  /-- The staged file is gone again. -/
  | done (result : Except StagingFailure FileReport)

/-- A source in flight. -/
structure Job where
  place : Nat
  source : Source
  phase : Phase

/-- A write that nobody waits for any more. -/
structure LateWrite where
  path : String
  content : String
  deriving DecidableEq, Repr

/-- A batch under way. -/
structure Progress (ε : Type) where
  tree : FileTree
  /-- The sources that have not been taken up, with their places. -/
  waiting : List (Source × Nat)
  jobs : List Job
  reports : List FileReport
  outcome : Option (Except (Interruption ε) Report)
  /-- The writes that are still carried out although the batch has ended. -/
  late : List LateWrite

/-- Something that happens. -/
inductive Event
  /-- The next source is taken up. -/
  | takeUp
  /-- The file operation that a source in flight waits for is carried out. -/
  | operate (job : Nat)
  /-- An inspector is done with a source in flight. -/
  | inspected (job inspector : Nat)
  /-- The first of the sources in flight is handed over, or the batch ends. -/
  | handOver
  /-- A late write is carried out. -/
  | writeLate
  deriving DecidableEq, Repr

namespace Job

/-- The staged file, as long as somebody is to remove it. -/
def path? (job : Job) : Option String :=
  match job.phase with
  | .writing path | .spoilt path _ | .inspecting path _ => some path
  | .entering | .done _ => none

/-- The write that has been submitted and not been carried out. -/
def submitted? (job : Job) : Option LateWrite :=
  match job.phase with
  | .writing path => some ⟨path, job.source.content⟩
  | _ => none

/-- Carries out the file operation that the job waits for. -/
def operate (w : Workbench ε) (t : FileTree) (job : Job) : Option (FileTree × Job) :=
  match job.phase with
  | .entering =>
    match t.makeDirectories w.directory with
    | (t, .ok ()) =>
      let path := Staging.path w.directory (w.stamps job.place) job.source.name
      some (t, { job with phase := .writing path })
    | (t, .error reason) => some (t, { job with phase := .done (.error ⟨w.directory, reason⟩) })
  | .writing path =>
    match t.write (bytesOf path) (bytesOf job.source.content) with
    | (t, .ok ()) =>
      some (t, { job with phase := .inspecting path (w.inspectors.map fun _ => none) })
    | (t, .error reason) => some (t, { job with phase := .spoilt path reason })
  | .spoilt path reason =>
    some (t.unstage path, { job with phase := .done (.error ⟨path, reason⟩) })
  | .inspecting path verdicts =>
    (verdicts.mapM id).map fun all =>
      let results := NameTable.ofList (w.tools.zip all)
      (t.unstage path, { job with phase := .done (.ok ⟨job.source.name, results⟩) })
  | .done _ => none

/-- Lets an inspector that is not done look at the staged file. -/
def inspected (w : Workbench ε) (t : FileTree) (job : Job) (inspector : Nat) :
    Option (Except ε Job) :=
  match job.phase, w.inspectors[inspector]? with
  | .inspecting path verdicts, some i =>
    if verdicts[inspector]? = some none then
      some <| (i.inspect t ⟨path, job.source.language⟩).map fun verdict =>
        { job with phase := .inspecting path (verdicts.set inspector (some verdict)) }
    else none
  | _, _ => none

end Job

namespace Progress

def start (t : FileTree) (batch : List Source) : Progress ε :=
  ⟨t, batch.zipIdx, [], [], none, []⟩

/-- Ends the batch. The files of the sources in flight are removed. -/
def finish (p : Progress ε) (outcome : Except (Interruption ε) Report) : Progress ε :=
  { p with
    tree := (p.jobs.filterMap (·.path?)).foldl FileTree.unstage p.tree
    jobs := []
    outcome := some outcome
    late := p.jobs.filterMap (·.submitted?) }

/-- Takes up the next source if there is room for it. -/
def takeUp (limit : Nat) (p : Progress ε) : Option (Progress ε) :=
  match p.waiting with
  | [] => none
  | (source, place) :: rest =>
    if p.jobs.length < max limit 1 then
      some { p with waiting := rest, jobs := p.jobs ++ [⟨place, source, .entering⟩] }
    else none

def operate (w : Workbench ε) (p : Progress ε) (index : Nat) : Option (Progress ε) := do
  let job ← p.jobs[index]?
  let (t, job) ← job.operate w p.tree
  some { p with tree := t, jobs := p.jobs.set index job }

/-- Lets an inspector look at a staged file. A crash ends the batch. -/
def inspected (w : Workbench ε) (p : Progress ε) (index inspector : Nat) : Option (Progress ε) := do
  let job ← p.jobs[index]?
  match ← job.inspected w p.tree inspector with
  | .ok job => some { p with jobs := p.jobs.set index job }
  | .error crash => some (p.finish (.error (.crashed crash)))

/-- Hands over the first of the sources in flight, or ends the batch when there is no source
left. -/
def handOver (p : Progress ε) : Option (Progress ε) :=
  match p.jobs, p.waiting with
  | [], [] => some (p.finish (.ok ⟨p.reports⟩))
  | [], _ :: _ => none
  | job :: rest, _ =>
    match job.phase with
    | .done (.ok report) => some { p with jobs := rest, reports := p.reports ++ [report] }
    | .done (.error failure) => some (p.finish (.error (.unstaged failure)))
    | _ => none

def writeLate (p : Progress ε) : Option (Progress ε) :=
  match p.late with
  | [] => none
  | write :: rest =>
    let (t, _) := p.tree.write (bytesOf write.path) (bytesOf write.content)
    some { p with tree := t, late := rest }

/-- What an event leads to, if it can happen. -/
def step (w : Workbench ε) (limit : Nat) (p : Progress ε) (event : Event) : Option (Progress ε) :=
  match p.outcome, event with
  | none, .takeUp => p.takeUp limit
  | none, .operate job => p.operate w job
  | none, .inspected job inspector => p.inspected w job inspector
  | none, .handOver => p.handOver
  | some _, .writeLate => p.writeLate
  | _, _ => none

/-- What a list of events leads to, if every one of them can happen in its turn. -/
def run (w : Workbench ε) (limit : Nat) (p : Progress ε) (events : List Event) :
    Option (Progress ε) :=
  events.foldlM (step w limit) p

/-- The batch has ended and nothing is going on any more. -/
def isOver (p : Progress ε) : Bool := p.outcome.isSome && p.late.isEmpty

/-! ## Following an order -/

/-- What is next if one source is dealt with after the other. -/
def next (p : Progress ε) : Event :=
  match p.outcome, p.jobs with
  | some _, _ => .writeLate
  | none, [] => if p.waiting.isEmpty then .handOver else .takeUp
  | none, job :: _ =>
    match job.phase with
    | .entering | .writing _ | .spoilt _ _ => .operate 0
    | .inspecting _ verdicts =>
      match verdicts.findIdx? (·.isNone) with
      | some inspector => .inspected 0 inspector
      | none => .operate 0
    | .done _ => .handOver

/-- Lets an event happen if it can. -/
def attempt (w : Workbench ε) (limit : Nat) (p : Progress ε) (event : Event) : Progress ε :=
  (p.step w limit event).getD p

/-- Goes through an order of events. -/
def follow (w : Workbench ε) (limit : Nat) (p : Progress ε) (order : List Event) : Progress ε :=
  order.foldl (attempt w limit) p

/-- Lets what is next happen, a number of times. -/
def goOn (w : Workbench ε) (limit : Nat) (p : Progress ε) : Nat → Progress ε
  | 0 => p
  | steps + 1 => (p.attempt w limit p.next).goOn w limit steps

/-- As many events as happen to a batch at most. -/
def steps (w : Workbench ε) (batch : List Source) : Nat :=
  batch.length * (w.inspectors.length + 5) + 1

/-- A whole batch: the order is gone through, and what is left is done source by source. -/
def complete (w : Workbench ε) (limit : Nat) (t : FileTree) (batch : List Source)
    (order : List Event) : Progress ε :=
  ((start t batch).follow w limit order).goOn w limit (steps w batch)

/-- What the batch has come to, the reports so far if it has not ended. -/
def result (p : Progress ε) : Except (Interruption ε) Report := p.outcome.getD (.ok ⟨p.reports⟩)

end Progress

end Ripple
