import Countersign.Proofs.Machine.Plan

/-!
# `Countersign.Proofs.Machine.Life`: what can be asked of a machine, and in which order

A machine is given commands: scripts are loaded, and what is loaded is executed, in any order and
as often as one likes. `Machine.after` is the machine after a row of commands, and
`Machine.points` are the benches that it passes through when it executes next, the first of them
being the bench that it has and the last the one that it is left with (`head?_points_machine`,
`getLast?_points_machine`). What every run keeps holds after any commands (`bench_after_of_runs`).
-/

set_option autoImplicit false

namespace Countersign

/-- What can be asked of a machine. -/
inductive Command where
  | load (script : Bytes) (role : Role)
  | execute
  deriving DecidableEq, Repr

/-- The segments of a row that are not begun, because one before them faults. -/
def Act.unbegun (setting : Setting) : List Segment → Bench → List Segment
  | [], _ => []
  | segment :: segments, b =>
    match runSegment setting segment b with
    | .ok _ b₁ => unbegun setting segments b₁
    | .error _ _ => segments

/-- A segment that runs alone leaves none behind it. -/
theorem Act.unbegun_singleton (setting : Setting) (segment : Segment) (b : Bench) :
    unbegun setting [segment] b = [] := by
  rw [unbegun]
  cases runSegment setting segment b <;> rfl

namespace Machine

/-- The machine after one command. -/
def obey (m : Machine) : Command → Machine
  | .load script role => m.load script role
  | .execute => m.execute

/-- The machine after several commands, one after the other. -/
def after (m : Machine) (commands : List Command) : Machine :=
  commands.foldl obey m

/-- The machine with several scripts loaded, the last one of which will run first. -/
def loadAll (m : Machine) (segments : List Segment) : Machine :=
  segments.foldl (fun m segment => m.load segment.script segment.role) m

/-- The benches that the machine passes through when it executes. It does nothing if it has run
before. -/
def points (m : Machine) : List Bench :=
  match m.phase with
  | .running => (Plan.runSegments m.segments).points m.setting m.bench
  | _ => [m.bench]

/-- The last command is obeyed by the machine that the others have made. -/
theorem after_concat (m : Machine) (commands : List Command) (command : Command) :
    m.after (commands ++ [command]) = (m.after commands).obey command := by
  rw [after, after, List.foldl_append]
  rfl

/-- What is loaded last stands first. -/
theorem loadAll_eq (m : Machine) (segments : List Segment) :
    m.loadAll segments = { m with segments := segments.reverse ++ m.segments } := by
  induction segments generalizing m with
  | nil => rfl
  | cons segment segments ih =>
      -- Each script is put in front of those before it, so the order is turned round.
      show (m.load segment.script segment.role).loadAll segments = _
      rw [ih, List.reverse_cons, List.append_assoc]
      rfl

/-! ### Executing -/

/-- A row of segments that ends well leaves nothing loaded. -/
theorem runAll_of_ok {m : Machine} {segments : List Segment} {b : Bench}
    (h : Act.runSegments m.setting segments m.bench = .ok () b) :
    m.runAll segments = { m with segments := [], bench := b, phase := .halted } := by
  -- The bench is handed on from segment to segment, so the induction is for every machine.
  induction segments generalizing m with
  | nil =>
      cases h
      rfl
  | cons segment segments ih =>
      rw [Act.runSegments, Act.bind_eq_ok_iff] at h
      obtain ⟨_, b₁, hfirst, hrest⟩ := h
      rw [runAll, hfirst]
      exact ih hrest

/-- A row of segments that faults leaves loaded what was not begun. -/
theorem runAll_of_error {m : Machine} {segments : List Segment} {fault : Fault} {b : Bench}
    (h : Act.runSegments m.setting segments m.bench = .error fault b) :
    m.runAll segments
      = { m with
          segments := Act.unbegun m.setting segments m.bench
          bench := b
          phase := .faulted
          fault := some fault } := by
  induction segments generalizing m with
  | nil => cases h
  | cons segment segments ih =>
      rw [Act.runSegments, Act.bind_eq_error_iff] at h
      -- Either the first segment faults, and the others are left, or one of the others does.
      rcases h with hfirst | ⟨_, b₁, hfirst, hrest⟩
      · rw [runAll, Act.unbegun, hfirst]
      · rw [runAll, Act.unbegun, hfirst]
        exact ih hrest

/-- A machine whose segments end well has halted. -/
theorem execute_of_ok {m : Machine} {b : Bench} (hphase : m.phase = .running)
    (h : Act.runSegments m.setting m.segments m.bench = .ok () b) :
    m.execute = { m with segments := [], bench := b, phase := .halted } := by
  rw [execute, hphase]
  exact runAll_of_ok h

/-- A machine whose segments fault keeps the fault, and the segments that it has not begun. -/
theorem execute_of_error {m : Machine} {fault : Fault} {b : Bench}
    (hphase : m.phase = .running)
    (h : Act.runSegments m.setting m.segments m.bench = .error fault b) :
    m.execute
      = { m with
          segments := Act.unbegun m.setting m.segments m.bench
          bench := b
          phase := .faulted
          fault := some fault } := by
  rw [execute, hphase]
  exact runAll_of_error h

/-- What becomes of a machine that loads several scripts and executes them. -/
theorem execute_loadAll (setting : Setting) (segments : List Segment) :
    ((Machine.new setting).loadAll segments).execute
      = match Act.runSegments setting segments.reverse Bench.fresh with
        | .ok _ b => { setting, bench := b, phase := .halted }
        | .error fault b =>
          { setting
            segments := Act.unbegun setting segments.reverse Bench.fresh
            bench := b
            phase := .faulted
            fault := some fault } := by
  have hload : (Machine.new setting).loadAll segments
      = { setting, segments := segments.reverse, bench := Bench.fresh } := by
    rw [loadAll_eq]
    exact congrArg (fun segments => ({ setting, segments } : Machine)) (List.append_nil _)
  rw [hload]
  cases h : Act.runSegments setting segments.reverse Bench.fresh with
  | ok _ b => exact execute_of_ok rfl h
  | error fault b => exact execute_of_error rfl h

/-- A machine that has loaded scripts is left with the bench of their run. -/
theorem bench_execute_loadAll (setting : Setting) (segments : List Segment) :
    ((Machine.new setting).loadAll segments).execute.bench
      = (Act.runSegments setting segments.reverse).leaves Bench.fresh := by
  rw [execute_loadAll, Act.leaves]
  cases Act.runSegments setting segments.reverse Bench.fresh <;> rfl

/-- A machine runs only once. -/
theorem execute_of_ne_running {m : Machine} (hphase : m.phase ≠ .running) : m.execute = m := by
  rw [execute]
  cases h : m.phase with
  | running => exact absurd h hphase
  | _ => rfl

/-- A running machine is left with the bench of the run of its segments. -/
theorem bench_execute {m : Machine} (hphase : m.phase = .running) :
    m.execute.bench = (Act.runSegments m.setting m.segments).leaves m.bench := by
  cases h : Act.runSegments m.setting m.segments m.bench with
  | ok _ b => rw [execute_of_ok hphase h, Act.leaves_of_ok h]
  | error fault b => rw [execute_of_error hphase h, Act.leaves_of_error h]

/-- No run changes what a machine runs under. -/
theorem setting_execute (m : Machine) : m.execute.setting = m.setting := by
  by_cases hphase : m.phase = .running
  · cases h : Act.runSegments m.setting m.segments m.bench with
    | ok _ b => rw [execute_of_ok hphase h]
    | error fault b => rw [execute_of_error hphase h]
  · rw [execute_of_ne_running hphase]

/-- No command changes what a machine runs under. -/
theorem setting_after (setting : Setting) (commands : List Command) :
    ((Machine.new setting).after commands).setting = setting := by
  induction commands using List.reverseRecOn with
  | nil => rfl
  | append_singleton commands command ih =>
      rw [after_concat]
      cases command with
      | load script role => exact ih
      | execute => exact (setting_execute _).trans ih

/-- A machine that was told to execute does not run any more. -/
theorem phase_execute_ne_running (m : Machine) : m.execute.phase ≠ .running := by
  -- A run ends in one of two phases, and without a run the phase was not that of a running machine.
  by_cases hphase : m.phase = .running
  · cases h : Act.runSegments m.setting m.segments m.bench with
    | ok _ b =>
        rw [execute_of_ok hphase h]
        exact nofun
    | error fault b =>
        rw [execute_of_error hphase h]
        exact nofun
  · rw [execute_of_ne_running hphase]
    exact hphase

/-- A running machine passes through the benches of its segments. -/
theorem points_of_running {m : Machine} (hphase : m.phase = .running) :
    m.points = (Plan.runSegments m.segments).points m.setting m.bench := by
  rw [points, hphase]

/-- A machine that has run stays where it is. -/
theorem points_of_ne_running {m : Machine} (hphase : m.phase ≠ .running) :
    m.points = [m.bench] := by
  rw [points]
  cases h : m.phase with
  | running => exact absurd h hphase
  | _ => rfl

/-- The first point of a machine is the bench that it has. -/
theorem head?_points_machine (m : Machine) : m.points.head? = some m.bench := by
  by_cases hphase : m.phase = .running
  · rw [points_of_running hphase, Plan.head?_points]
  · rw [points_of_ne_running hphase, List.head?_cons]

/-- The last point of a machine is the bench that it is left with. -/
theorem getLast?_points_machine (m : Machine) : m.points.getLast? = some m.execute.bench := by
  by_cases hphase : m.phase = .running
  · rw [points_of_running hphase, Plan.getLast?_points, Plan.act_runSegments,
      bench_execute hphase]
  · rw [points_of_ne_running hphase, execute_of_ne_running hphase, List.getLast?_singleton]

/-! ### Invariants -/

section
variable {setting : Setting} {inv post : Bench → Prop} (hfresh : inv Bench.fresh)
  (hrun : ∀ segments b, inv b → inv ((Act.runSegments setting segments).leaves b))

include hfresh hrun

/-- What holds of the fresh bench, and what every run keeps, holds whatever a machine was made to
load and to execute. -/
theorem bench_after_of_runs (commands : List Command) :
    inv ((Machine.new setting).after commands).bench := by
  -- The invariant is carried from the fresh bench to the last command, so the induction is from the
  -- end.
  induction commands using List.reverseRecOn with
  | nil => exact hfresh
  | append_singleton commands command ih =>
      rw [after_concat]
      cases command with
      | load script role => exact ih
      | execute =>
          show inv ((Machine.new setting).after commands).execute.bench
          by_cases hphase : ((Machine.new setting).after commands).phase = .running
          · rw [bench_execute hphase, setting_after]
            exact hrun _ _ ih
          · rw [execute_of_ne_running hphase]
            exact ih

/-- The same within a run, where something weaker may hold. -/
theorem points_after_of_runs (hpost : ∀ b, inv b → post b)
    (hpoints : ∀ segments b, inv b → ∀ p ∈ (Plan.runSegments segments).points setting b, post p)
    (commands : List Command) : ∀ p ∈ ((Machine.new setting).after commands).points, post p := by
  have hbench := bench_after_of_runs hfresh hrun commands
  by_cases hphase : ((Machine.new setting).after commands).phase = .running
  · rw [points_of_running hphase, setting_after]
    exact hpoints _ _ hbench
  · rw [points_of_ne_running hphase]
    exact List.forall_mem_singleton.mpr (hpost _ hbench)

end

end Machine

end Countersign
