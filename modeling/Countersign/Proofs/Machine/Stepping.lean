import Countersign.Proofs.Machine.Spending

/-!
# `Countersign.Proofs.Machine.Stepping`: runs one instruction at a time

A run goes through its segments in two nested loops. Here it is a single one: `fetch?` finds the
next instruction in what is left of the segments, `nextInstruction` executes it and says what is
left then, and `firstInstructions` does so a number of times. Continuing from there comes to what
the whole run comes to (`firstInstructions_bind_runRemainders`), so "after the first `n`
instructions" is a place in the run.

An instruction counts one step, whether it answers or faults (`steps_leaves_instruction`). A run that
faults comes to the instruction that does so when it has completed all those before it
(`exists_stopsAt`).
-/

set_option autoImplicit false

namespace Countersign

/-- What is left of a segment, which starts at `offset`. -/
structure Remainder where
  role : Role
  offset : Nat
  script : Bytes

/-- A segment that has not begun. -/
def Segment.remainder (s : Segment) : Remainder :=
  ⟨s.role, 0, s.script⟩

/-- An instruction that is about to be executed. -/
structure Fetched where
  role : Role
  offset : Nat
  op : UInt8
  /-- What follows the opcode in its segment. -/
  following : Bytes
  /-- What is left of the other segments. -/
  others : List Remainder

/-- The next instruction. Segments that have come to their end are passed over. -/
def fetch? : List Remainder → Option Fetched
  | [] => none
  | ⟨_, _, []⟩ :: others => fetch? others
  | ⟨role, offset, op :: following⟩ :: others => some ⟨role, offset, op, following, others⟩

/-- How many bytes are left. -/
def bytesLeft (remainders : List Remainder) : Nat :=
  (remainders.flatMap Remainder.script).length

/-- The bytes left of one segment are added to those left of the others. -/
theorem bytesLeft_cons (r : Remainder) (remainders : List Remainder) :
    bytesLeft (r :: remainders) = r.script.length + bytesLeft remainders := by
  rw [bytesLeft, List.flatMap_cons, List.length_append, bytesLeft]

/-- Before a run begins all bytes of its segments are left. -/
theorem bytesLeft_remainders (segments : List Segment) :
    bytesLeft (segments.map Segment.remainder) = bytesIn segments := by
  rw [bytesLeft, List.flatMap_map]
  rfl

/-- What is left is the opcode of the next instruction, what follows it, and the other segments. -/
theorem bytesLeft_of_fetch {remainders : List Remainder} {i : Fetched}
    (h : fetch? remainders = some i) :
    bytesLeft remainders = 1 + i.following.length + bytesLeft i.others := by
  fun_induction fetch? remainders with
  | case1 => cases h
  | case2 role offset others ih =>
      rw [← ih h, bytesLeft_cons, List.length_nil, Nat.zero_add]
  | case3 role offset op following others =>
      cases h
      rw [bytesLeft_cons, List.length_cons, Nat.add_comm 1]

namespace Act

/-- Executes a fetched instruction, and says what is left then. -/
def executeFetched (setting : Setting) (i : Fetched) : Act (List Remainder) := do
  let width ← instruction setting i.role i.offset i.op i.following
  return ⟨i.role, i.offset + 1 + width, i.following.drop width⟩ :: i.others

/-- Executes the next instruction, if there is one. -/
def nextInstruction (setting : Setting) (remainders : List Remainder) : Act (List Remainder) :=
  match fetch? remainders with
  | none => pure remainders
  | some i => executeFetched setting i

/-- Executes the next `n` instructions, or as many as there are. -/
def firstInstructions (setting : Setting) : (n : Nat) → List Remainder → Act (List Remainder)
  | 0, remainders => pure remainders
  | n + 1, remainders => do
    let remainders ← nextInstruction setting remainders
    firstInstructions setting n remainders

/-- Runs what is left of several segments. -/
def runRemainders (setting : Setting) : List Remainder → Act Unit
  | [] => pure ()
  | r :: remainders => do
    runFrom setting r.role r.offset r.script
    runRemainders setting remainders

variable (setting : Setting)

/-- Before it begins, what is left of a run is the whole run. -/
theorem runRemainders_remainders (segments : List Segment) :
    runRemainders setting (segments.map Segment.remainder) = runSegments setting segments := by
  induction segments with
  | nil => rfl
  | cons segment segments ih =>
      rw [List.map_cons, runRemainders, ih]
      rfl

/-- A run that finds no instruction is over. -/
theorem runRemainders_of_none {remainders : List Remainder} (h : fetch? remainders = none) :
    runRemainders setting remainders = pure () := by
  fun_induction fetch? remainders with
  | case1 => rfl
  | case2 role offset others ih => rw [runRemainders, runFrom, pure_bind, ih h]
  | case3 => cases h

/-- A run executes the next instruction, and goes on with what is left then. -/
theorem runRemainders_of_some {remainders : List Remainder} {i : Fetched}
    (h : fetch? remainders = some i) :
    runRemainders setting remainders
      = (do let remainders ← executeFetched setting i; runRemainders setting remainders) := by
  fun_induction fetch? remainders with
  | case1 => cases h
  | case2 role offset others ih => rw [runRemainders, runFrom, pure_bind, ih h]
  | case3 role offset op following others =>
      cases h
      rw [runRemainders, runFrom, executeFetched, bind_assoc, bind_assoc]
      refine bind_congr fun width => ?_
      rw [pure_bind, runRemainders]

/-- Executing the next instruction is where a run begins. -/
theorem nextInstruction_bind_runRemainders (remainders : List Remainder) :
    (do let remainders ← nextInstruction setting remainders; runRemainders setting remainders)
      = runRemainders setting remainders := by
  rw [nextInstruction]
  cases h : fetch? remainders with
  | none => exact pure_bind remainders _
  | some i => exact (runRemainders_of_some setting h).symm

/-- A run goes on from where it has come after any number of instructions. -/
theorem firstInstructions_bind_runRemainders (n : Nat) (remainders : List Remainder) :
    (do let remainders ← firstInstructions setting n remainders; runRemainders setting remainders)
      = runRemainders setting remainders := by
  induction n generalizing remainders with
  | zero => exact pure_bind remainders _
  | succ n ih =>
      rw [firstInstructions, bind_assoc, ← nextInstruction_bind_runRemainders]
      exact bind_congr ih

/-- The bench that a run leaves can be read off any place that the run comes to. -/
theorem leaves_of_firstInstructions {setting : Setting} {n : Nat} {remainders left : List Remainder}
    {b b' : Bench} (h : firstInstructions setting n remainders b = .ok left b') :
    (runRemainders setting left).leaves b' = (runRemainders setting remainders).leaves b := by
  rw [← firstInstructions_bind_runRemainders setting n remainders, leaves_bind_of_ok h]

/-- Running one segment among several is running it alone. -/
theorem runSegments_singleton (segment : Segment) :
    runSegments setting [segment] = runSegment setting segment :=
  bind_pure (runSegment setting segment)

/-- A run faults where its first instructions do. -/
theorem runSegments_of_firstInstructions {setting : Setting} {n : Nat} {segments : List Segment}
    {b b' : Bench} {fault : Fault}
    (h : firstInstructions setting n (segments.map Segment.remainder) b = .error fault b') :
    runSegments setting segments b = .error fault b' := by
  rw [← runRemainders_remainders, ← firstInstructions_bind_runRemainders setting n]
  exact bind_of_error h

/-- The next instruction is the one that is fetched. -/
theorem nextInstruction_of_some {remainders : List Remainder} {i : Fetched}
    (h : fetch? remainders = some i) :
    nextInstruction setting remainders = executeFetched setting i := by
  rw [nextInstruction, h]

/-! ### Counting steps -/

/-- Counting a step is all that an instruction does to the number of steps. -/
theorem steps_leaves_instruction (role : Role) (offset : Nat) (op : UInt8) (following : Bytes)
    (b : Bench) :
    ((instruction setting role offset op following).leaves b).steps = b.steps + 1 := by
  rcases Nat.lt_or_ge b.steps setting.limits.maxSteps.toNat with hlt | hge
  · rw [instruction, leaves_bind_of_ok (tick_of_lt hlt)]
    split
    · rfl
    · -- What comes after the tick costs no step, so no credit is needed for it.
      obtain ⟨hge, hle⟩ := Plan.steps_leaves setting
        (Plan.affordable_perform .steps 0 offset op following) b.ticked
      rw [Plan.act_perform] at hge hle
      exact Nat.le_antisymm hle hge
  · rw [instruction, leaves_bind_of_error (tick_of_le hge)]
    rfl

/-- An instruction that was fetched counts one step. -/
theorem steps_leaves_executeFetched (i : Fetched) (b : Bench) :
    ((executeFetched setting i).leaves b).steps = b.steps + 1 := by
  rw [← steps_leaves_instruction setting i.role i.offset i.op i.following b]
  cases h : instruction setting i.role i.offset i.op i.following b with
  | ok width b' =>
      rw [executeFetched, leaves_bind_of_ok h, leaves_of_ok h]
      rfl
  | error fault b' => rw [executeFetched, leaves_bind_of_error h, leaves_of_error h]

/-- It does if it is completed. -/
theorem steps_executeFetched_of_ok {setting : Setting} {i : Fetched} {b b' : Bench}
    {remainders : List Remainder} (h : executeFetched setting i b = .ok remainders b') :
    b'.steps = b.steps + 1 := by
  rw [← steps_leaves_executeFetched setting i b, leaves_of_ok h]

/-- And it does if it faults. -/
theorem steps_executeFetched_of_error {setting : Setting} {i : Fetched} {b b' : Bench}
    {fault : Fault} (h : executeFetched setting i b = .error fault b') :
    b'.steps = b.steps + 1 := by
  rw [← steps_leaves_executeFetched setting i b, leaves_of_error h]

/-- An instruction takes at least the byte of its opcode. -/
theorem bytesLeft_of_executeFetched {setting : Setting} {i : Fetched} {b b' : Bench}
    {remainders : List Remainder} (h : executeFetched setting i b = .ok remainders b') :
    bytesLeft remainders ≤ i.following.length + bytesLeft i.others := by
  rw [executeFetched, bind_eq_ok_iff] at h
  obtain ⟨width, b₁, -, hleft⟩ := h
  cases hleft
  rw [bytesLeft_cons, List.length_drop]
  omega

/-- What is left of a run takes back no step. -/
theorem steps_le_leaves_runRemainders (remainders : List Remainder) (b : Bench) :
    b.steps ≤ ((runRemainders setting remainders).leaves b).steps := by
  induction remainders generalizing b with
  | nil => exact Nat.le_refl _
  | cons r remainders ih =>
      -- A segment is a plan that is free of charge here, except for the steps that it may add.
      have hsteps := (Plan.steps_leaves setting
        (Plan.affordable_runFrom .steps 0 r.role r.offset r.script) b).1
      rw [Plan.act_runFrom] at hsteps
      cases h : runFrom setting r.role r.offset r.script b with
      | ok _ b' =>
          rw [leaves_of_ok h] at hsteps
          rw [runRemainders, leaves_bind_of_ok h]
          exact Nat.le_trans hsteps (ih b')
      | error fault b' =>
          rw [leaves_of_error h] at hsteps
          rw [runRemainders, leaves_bind_of_error h]
          exact hsteps

/-- A run that has something left counts at least one step more. -/
theorem steps_lt_leaves_runRemainders {remainders : List Remainder} {i : Fetched}
    (h : fetch? remainders = some i) (b : Bench) :
    b.steps < ((runRemainders setting remainders).leaves b).steps := by
  rw [runRemainders_of_some setting h]
  cases hi : executeFetched setting i b with
  | ok remainders' b' =>
      have hsteps := steps_executeFetched_of_ok hi
      have hrest := steps_le_leaves_runRemainders setting remainders' b'
      rw [leaves_bind_of_ok hi]
      omega
  | error fault b' =>
      rw [leaves_bind_of_error hi]
      exact Nat.le_of_eq (steps_executeFetched_of_error hi).symm

/-! ### Where a run faults -/

/-- After `n` instructions, all of which were completed, the run comes to the instruction `i`, on the
bench `b₁`. There it faults, and leaves `b'`. -/
structure StopsAt (setting : Setting) (remainders : List Remainder) (b : Bench) (n : Nat)
    (i : Fetched) (b₁ : Bench) (fault : Fault) (b' : Bench) : Prop where
  reached : ∃ left, firstInstructions setting n remainders b = .ok left b₁ ∧ fetch? left = some i
  counted : b₁.steps = b.steps + n
  faulted : instruction setting i.role i.offset i.op i.following b₁ = .error fault b'

variable {setting}

/-- A fetched instruction faults in the instruction itself, as saying what is left does not. -/
theorem instruction_of_executeFetched_error {i : Fetched} {b b' : Bench} {fault : Fault}
    (h : executeFetched setting i b = .error fault b') :
    instruction setting i.role i.offset i.op i.following b = .error fault b' := by
  rw [executeFetched, bind_eq_error_iff] at h
  rcases h with hfault | ⟨width, b₁, -, hpure⟩
  · exact hfault
  · cases hpure

/-- A run that faults does so in one of its instructions, and those before it were completed. -/
theorem exists_stopsAt {remainders : List Remainder} {b b' : Bench} {fault : Fault}
    (h : runRemainders setting remainders b = .error fault b') :
    ∃ n i b₁, StopsAt setting remainders b n i b₁ fault b' := by
  -- The induction is on the bytes that are left, as each instruction takes at least one of them.
  induction hleft : bytesLeft remainders using Nat.strongRecOn generalizing remainders b with
  | ind bytes ih =>
      subst hleft
      cases hfetch : fetch? remainders with
      | none =>
          rw [runRemainders_of_none setting hfetch] at h
          cases h
      | some i =>
          rw [runRemainders_of_some setting hfetch, bind_eq_error_iff] at h
          rcases h with hfault | ⟨left, b₁, hok, hrest⟩
          · exact ⟨0, i, b, ⟨remainders, rfl, hfetch⟩, rfl,
              instruction_of_executeFetched_error hfault⟩
          · have hshorter : bytesLeft left < bytesLeft remainders := by
              have htaken := bytesLeft_of_executeFetched hok
              rw [bytesLeft_of_fetch hfetch]
              omega
            obtain ⟨n, j, b₂, ⟨left', hfirst, hfetch'⟩, hcounted, hfaulted⟩ :=
              ih _ hshorter hrest rfl
            refine ⟨n + 1, j, b₂, ⟨left', ?_, hfetch'⟩, ?_, hfaulted⟩
            · rw [firstInstructions, nextInstruction_of_some setting hfetch, bind_of_ok hok]
              exact hfirst
            · rw [hcounted, steps_executeFetched_of_ok hok]
              omega

/-- What every instruction keeps still holds after any number of them. -/
theorem inv_of_firstInstructions {inv : Bench → Prop}
    (hkeeps : ∀ role offset op following b, inv b →
      inv ((instruction setting role offset op following).leaves b))
    {n : Nat} {remainders left : List Remainder} {b b' : Bench} (hb : inv b)
    (h : firstInstructions setting n remainders b = .ok left b') : inv b' := by
  induction n generalizing remainders b with
  | zero =>
      cases h
      exact hb
  | succ n ih =>
      -- The first instruction keeps the invariant, and so do the others, that start from what it
      -- leaves.
      obtain ⟨left₁, b₁, hnext, hrest⟩ := bind_eq_ok_iff.mp h
      refine ih ?_ hrest
      rw [nextInstruction] at hnext
      cases hfetch : fetch? remainders with
      | none =>
          rw [hfetch] at hnext
          cases hnext
          exact hb
      | some i =>
          rw [hfetch] at hnext
          obtain ⟨width, b₂, hinstruction, hpure⟩ := bind_eq_ok_iff.mp hnext
          cases hpure
          have hleaves := hkeeps i.role i.offset i.op i.following b hb
          rwa [leaves_of_ok hinstruction] at hleaves

end Act

end Countersign
