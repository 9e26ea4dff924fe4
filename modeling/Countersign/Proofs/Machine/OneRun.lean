import Countersign.Proofs.Machine.Life

/-!
# `Countersign.Proofs.Machine.OneRun`: a machine runs once

Whatever row of commands a machine is given, all that can be seen of it is settled by the first
command to execute. Before that it has done nothing, and only loads. Then it runs what was loaded,
the last script first, and ends in one of two phases. After that it still takes scripts, but no
command makes any difference to what can be seen.

`Machine.Observation` is what can be seen, `loadedFirst` is what counts of a row of commands, and
`Act.Ends` says how a row of segments ends, one segment after the other on one bench.
`Machine.runs_once` puts them together.
-/

set_option autoImplicit false

namespace Countersign

/-- What is loaded before the first command to execute, in the order in which it is loaded. -/
def loadedFirst : List Command → List Segment
  | [] => []
  | .execute :: _ => []
  | .load script role :: commands => ⟨script, role⟩ :: loadedFirst commands

/-- How several segments end that are run one after the other: each begins on the bench that the
one before it has left, and none is begun after a fault. -/
inductive Act.Ends (setting : Setting) : List Segment → Bench → Option Fault → Bench → Prop
  | done {b : Bench} : Ends setting [] b none b
  | next {segment : Segment} {segments : List Segment} {b b₁ b' : Bench} {fault : Option Fault} :
      runSegment setting segment b = .ok () b₁ → Ends setting segments b₁ fault b' →
      Ends setting (segment :: segments) b fault b'
  | stopped {segment : Segment} {segments : List Segment} {b b' : Bench} {fault : Fault} :
      runSegment setting segment b = .error fault b' →
      Ends setting (segment :: segments) b (some fault) b'

namespace Act

variable {setting : Setting} {segments : List Segment} {b b' : Bench}

/-- A row that answers was run to the end. -/
theorem ends_of_ok (h : runSegments setting segments b = .ok () b') :
    Ends setting segments b none b' := by
  induction segments generalizing b with
  | nil =>
      cases h
      exact .done
  | cons segment segments ih =>
      rw [runSegments, bind_eq_ok_iff] at h
      obtain ⟨_, b₁, hfirst, hrest⟩ := h
      exact .next hfirst (ih hrest)

/-- A row that faults was stopped by that fault. -/
theorem ends_of_error {fault : Fault} (h : runSegments setting segments b = .error fault b') :
    Ends setting segments b (some fault) b' := by
  induction segments generalizing b with
  | nil => cases h
  | cons segment segments ih =>
      rw [runSegments, bind_eq_error_iff] at h
      -- The first segment is the one that stops the row, or it is one of the others.
      rcases h with hfirst | ⟨_, b₁, hfirst, hrest⟩
      · exact .stopped hfirst
      · exact .next hfirst (ih hrest)

end Act

namespace Machine

/-- What can be seen of a machine. What it has loaded is not part of it. -/
structure Observation where
  phase : Phase
  depth : Nat
  result : Bool
  steps : Nat
  fault : Option Fault
  signatureCalls : List SignatureCall
  bodyReads : Nat
  deriving DecidableEq

/-- What can be seen of a machine now. -/
def observe (m : Machine) : Observation where
  phase := m.phase
  depth := m.depth
  result := m.result
  steps := m.bench.steps
  fault := m.fault
  signatureCalls := m.signatureCalls
  bodyReads := m.bench.bodyReads

/-- The machine as it is, but with nothing loaded. -/
def unloaded (m : Machine) : Machine :=
  { m with segments := [] }

/-- Nothing of what a machine has loaded can be seen. -/
theorem observe_unloaded (m : Machine) : m.unloaded.observe = m.observe :=
  rfl

/-- Machines that differ in nothing but what they have loaded show the same. -/
theorem same_of_unloaded {m m' : Machine} (h : m.unloaded = m'.unloaded) :
    m.phase = m'.phase ∧ m.fault = m'.fault ∧ m.bench = m'.bench := by
  have hphase := congrArg Machine.phase h
  have hfault := congrArg Machine.fault h
  have hbench := congrArg Machine.bench h
  exact ⟨hphase, hfault, hbench⟩

/-! ### Before the first run -/

/-- As long as nothing is executed, loading is all that commands do. -/
theorem after_of_not_mem {commands : List Command} (h : Command.execute ∉ commands) (m : Machine) :
    m.after commands = m.loadAll (loadedFirst commands) := by
  induction commands generalizing m with
  | nil => rfl
  | cons command commands ih =>
      rw [List.mem_cons, not_or] at h
      -- Only a script can come first, and it is loaded as the first of its row.
      cases command with
      | load script role => exact ih h.2 (m.load script role)
      | execute => exact absurd rfl h.1

/-- A machine that has only loaded shows nothing yet. -/
theorem observe_loadAll (setting : Setting) (segments : List Segment) :
    ((Machine.new setting).loadAll segments).observe = ⟨.running, 0, false, 0, none, [], 0⟩ := by
  rw [loadAll_eq]
  rfl

/-! ### After the first run -/

/-- A machine that has run is not changed by any command, but for what it has loaded. -/
theorem unloaded_after {m : Machine} (hphase : m.phase ≠ .running) (commands : List Command) :
    (m.after commands).unloaded = m.unloaded := by
  induction commands generalizing m with
  | nil => rfl
  | cons command commands ih =>
      show ((m.obey command).after commands).unloaded = _
      cases command with
      | load script role =>
          -- Loading does not make a machine run again, so the rest changes nothing either.
          have hload : (m.load script role).phase ≠ .running := hphase
          exact ih hload
      | execute =>
          show (m.execute.after commands).unloaded = _
          rw [execute_of_ne_running hphase]
          exact ih hphase

/-- The first command to execute settles what becomes of a machine, but for what it has loaded: it
runs what was loaded by then. -/
theorem unloaded_after_of_mem {commands : List Command} (h : Command.execute ∈ commands)
    {m : Machine} (hphase : m.phase = .running) :
    (m.after commands).unloaded = (m.loadAll (loadedFirst commands)).execute.unloaded := by
  induction commands generalizing m with
  | nil => cases h
  | cons command commands ih =>
      -- Scripts are loaded until the first command to execute, behind which nothing matters any
      -- more.
      cases command with
      | load script role =>
          have hmem : Command.execute ∈ commands := by simpa using h
          have hload : (m.load script role).phase = .running := hphase
          exact ih hmem hload
      | execute =>
          show (m.execute.after commands).unloaded = m.execute.unloaded
          exact unloaded_after m.phase_execute_ne_running commands

/-- A machine that has run has halted without a fault or has faulted, and its bench is what running
its segments has made of a fresh one. -/
theorem ends_execute_loadAll (setting : Setting) (segments : List Segment) :
    let m := ((Machine.new setting).loadAll segments).execute
    (m.phase = .halted ∧ m.fault = none ∨ m.phase = .faulted ∧ ∃ fault, m.fault = some fault) ∧
      Act.Ends setting segments.reverse Bench.fresh m.fault m.bench := by
  intro m
  have hm : m = _ := execute_loadAll setting segments
  cases h : Act.runSegments setting segments.reverse Bench.fresh with
  | ok _ b =>
      rw [h] at hm
      rw [hm]
      exact ⟨.inl ⟨rfl, rfl⟩, Act.ends_of_ok h⟩
  | error fault b =>
      rw [h] at hm
      rw [hm]
      exact ⟨.inr ⟨rfl, fault, rfl⟩, Act.ends_of_error h⟩

/-- A fault that a machine shows is the fault of its one run, and its bench is what that has left. -/
theorem runSegments_of_fault {setting : Setting} {commands : List Command} {fault : Fault}
    (h : ((Machine.new setting).after commands).fault = some fault) :
    Act.runSegments setting (loadedFirst commands).reverse Bench.fresh
      = .error fault ((Machine.new setting).after commands).bench := by
  by_cases hmem : Command.execute ∈ commands
  · obtain ⟨-, hfault, hbench⟩ :=
      same_of_unloaded (unloaded_after_of_mem hmem (m := Machine.new setting) rfl)
    rw [execute_loadAll] at hfault hbench
    cases hrun : Act.runSegments setting (loadedFirst commands).reverse Bench.fresh with
    | ok _ b =>
        rw [hrun] at hfault
        cases h.symm.trans hfault
    | error fault' b =>
        rw [hrun] at hfault hbench
        cases h.symm.trans hfault
        exact congrArg (EStateM.Result.error fault) hbench.symm
  · -- A machine that has only loaded has no fault.
    rw [after_of_not_mem hmem, loadAll_eq] at h
    cases h

/-- A machine that has halted has run what was loaded by then to the end. -/
theorem runSegments_of_halted {setting : Setting} {commands : List Command}
    (h : ((Machine.new setting).after commands).phase = .halted) :
    Act.runSegments setting (loadedFirst commands).reverse Bench.fresh
      = .ok () ((Machine.new setting).after commands).bench := by
  by_cases hmem : Command.execute ∈ commands
  · obtain ⟨hphase, -, hbench⟩ :=
      same_of_unloaded (unloaded_after_of_mem hmem (m := Machine.new setting) rfl)
    rw [execute_loadAll] at hphase hbench
    cases hrun : Act.runSegments setting (loadedFirst commands).reverse Bench.fresh with
    | ok _ b =>
        rw [hrun] at hbench
        exact congrArg (EStateM.Result.ok ()) hbench.symm
    | error fault b =>
        rw [hrun] at hphase
        cases h.symm.trans hphase
  · -- A machine that has only loaded is still running.
    rw [after_of_not_mem hmem, loadAll_eq] at h
    cases h

/-- The life of a machine, for any row of commands.

* Until it is told to execute, it is running, with an empty stack, the result false and no fault. It
  has counted no step, asked nothing and not read the body.
* Once it was told to execute, it has halted without a fault or has faulted with one. Its fault and
  its bench are what comes of running the scripts that were loaded before the first command to
  execute, the last one first, on one bench.
* From then on no command changes anything that can be seen. -/
theorem runs_once (setting : Setting) (commands : List Command) :
    let m := (Machine.new setting).after commands
    (Command.execute ∉ commands → m.observe = ⟨.running, 0, false, 0, none, [], 0⟩) ∧
    (Command.execute ∈ commands →
      (m.phase = .halted ∧ m.fault = none ∨ m.phase = .faulted ∧ ∃ fault, m.fault = some fault) ∧
      Act.Ends setting (loadedFirst commands).reverse Bench.fresh m.fault m.bench ∧
      ∀ later, (m.after later).observe = m.observe) := by
  intro m
  constructor
  · intro hnone
    have hm : m = _ := after_of_not_mem hnone (Machine.new setting)
    rw [hm, observe_loadAll]
  · intro hmem
    let ran := ((Machine.new setting).loadAll (loadedFirst commands)).execute
    have hm : m.unloaded = ran.unloaded := unloaded_after_of_mem hmem (m := Machine.new setting) rfl
    obtain ⟨hphase, hends⟩ := ends_execute_loadAll setting (loadedFirst commands)
    -- What is said of the run carries over, as it is not about what is loaded.
    obtain ⟨hsamePhase, hsameFault, hsameBench⟩ := same_of_unloaded hm
    rw [← hsamePhase, ← hsameFault] at hphase
    rw [← hsameFault, ← hsameBench] at hends
    refine ⟨hphase, hends, ?_⟩
    intro later
    have hstopped : m.phase ≠ .running := by
      rcases hphase with ⟨hhalted, -⟩ | ⟨hfaulted, -⟩
      · exact ne_of_eq_of_ne hhalted (by decide)
      · exact ne_of_eq_of_ne hfaulted (by decide)
    rw [← observe_unloaded, unloaded_after hstopped, observe_unloaded]

/-- A code that pushes, which is never begun, as the script loaded after it drops an item that is
not there. Loading more and executing again does not bring it back to life. -/
theorem runs_once_underflow :
    let setting : Setting := ⟨.standard, ⟨fun _ _ _ => .ok ()⟩, []⟩
    let loads : List Command := [.load [0x51] .code, .load [0x52, 0x75, 0x75, 0x53] .code]
    let m := (Machine.new setting).after (loads ++ [.execute])
    Command.execute ∉ loads ∧
      ((Machine.new setting).after loads).observe = ⟨.running, 0, false, 0, none, [], 0⟩ ∧
      Command.execute ∈ loads ++ [.execute] ∧
      m.observe = ⟨.faulted, 0, false, 3, some (.stackUnderflow 0x75), [], 0⟩ ∧
      Act.Ends setting [⟨[0x52, 0x75, 0x75, 0x53], .code⟩, ⟨[0x51], .code⟩] Bench.fresh
        (some (.stackUnderflow 0x75)) m.bench ∧
      (m.after [.load [0x51] .parameter, .execute, .execute]).observe = m.observe := by
  intro setting loads m
  have hloads : Command.execute ∉ loads := by decide
  have hexecute : Command.execute ∈ loads ++ [.execute] := by decide
  have hseen : m.observe = ⟨.faulted, 0, false, 3, some (.stackUnderflow 0x75), [], 0⟩ := by
    decide +kernel
  have hfault : m.fault = some (.stackUnderflow 0x75) := congrArg Observation.fault hseen
  obtain ⟨hbefore, -⟩ := runs_once setting loads
  obtain ⟨-, hafter⟩ := runs_once setting (loads ++ [.execute])
  obtain ⟨-, hends, hlater⟩ := hafter hexecute
  have hends' : Act.Ends setting _ Bench.fresh m.fault m.bench := hends
  rw [hfault] at hends'
  exact ⟨hloads, hbefore hloads, hexecute, hseen, hends', hlater _⟩

end Machine

end Countersign
