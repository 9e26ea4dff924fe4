import Countersign.Proofs.Machine.Pushing
import Countersign.Proofs.Machine.Repertoire
import Countersign.Proofs.Machine.Stepping

/-!
# `Countersign.Proofs.Machine.PushOnly`: what a parameter may do

A parameter is handed over by whoever wants to be authorized, so what it may do matters more than
what a code may do. It runs as the same script would run as a code, up to the first opcode that is
no push. There it faults, whatever that opcode would have done.

`Act.Begins` says which instructions a run comes to. An instruction is begun once a step was
counted for it, so one that the limit of steps refuses is not. `Act.Restricts` is the comparison of
the two roles, which `Act.runFrom_parameter` takes along the script.

A parameter makes `Adding` moves only: it counts steps and puts items on the stack. So nothing that
was there before is touched at any point of the run, and nothing is asked
(`Plan.uses_runFrom_parameter`).
-/

set_option autoImplicit false

namespace Countersign

open Act

/-! ### Both roles along a script -/

namespace Act

/-- After `n` instructions the run comes to the instruction `i`, on the bench `b'`, and has a step
left for it. -/
structure Begins (setting : Setting) (remainders : List Remainder) (b : Bench) (n : Nat)
    (i : Fetched) (b' : Bench) : Prop where
  reached : ∃ left, firstInstructions setting n remainders b = .ok left b' ∧ fetch? left = some i
  allowed : b'.steps < setting.limits.maxSteps.toNat

/-- Of the instructions that the run begins, `i` is the first one that is no push. -/
structure FirstOther (setting : Setting) (remainders : List Remainder) (b : Bench) (n : Nat)
    (i : Fetched) (b' : Bench) : Prop where
  begins : Begins setting remainders b n i b'
  other : isPush i.op = false
  before : ∀ k < n, ∀ j b'', Begins setting remainders b k j b'' → isPush j.op = true

variable {setting : Setting} {remainders left : List Remainder} {i : Fetched} {b b₁ b' : Bench}
  {n : Nat}

/-- The first instruction is begun where the run starts. -/
theorem begins_zero_iff :
    Begins setting remainders b 0 i b' ↔
      fetch? remainders = some i ∧ b' = b ∧ b.steps < setting.limits.maxSteps.toNat := by
  constructor
  · rintro ⟨⟨left, hleft, hfetch⟩, hallowed⟩
    cases hleft
    exact ⟨hfetch, rfl, hallowed⟩
  · rintro ⟨hfetch, rfl, hallowed⟩
    exact ⟨⟨remainders, rfl, hfetch⟩, hallowed⟩

/-- Any later one is begun in the run that goes on after the first. -/
theorem begins_succ_iff :
    Begins setting remainders b (n + 1) i b' ↔
      ∃ left b₁, nextInstruction setting remainders b = .ok left b₁ ∧
        Begins setting left b₁ n i b' := by
  constructor
  · rintro ⟨⟨left, hleft, hfetch⟩, hallowed⟩
    obtain ⟨left₁, b₁, hnext, hrest⟩ := bind_eq_ok_iff.mp hleft
    exact ⟨left₁, b₁, hnext, ⟨left, hrest, hfetch⟩, hallowed⟩
  · rintro ⟨left₁, b₁, hnext, ⟨left, hrest, hfetch⟩, hallowed⟩
    exact ⟨⟨left, bind_eq_ok_iff.mpr ⟨left₁, b₁, hnext, hrest⟩, hfetch⟩, hallowed⟩

/-- How a run ends as a parameter, beside how it ends as a code: in the same way if all opcodes push
that it begins as a code, and else with a fault at the first that does not. -/
inductive Restricts (setting : Setting) (remainders : List Remainder) (b : Bench) :
    (asParameter asCode : EStateM.Result Fault Bench Unit) → Prop
  | same {result : EStateM.Result Fault Bench Unit} :
      (∀ n i b', Begins setting remainders b n i b' → isPush i.op = true) →
      Restricts setting remainders b result result
  | stopped {asCode : EStateM.Result Fault Bench Unit} {n : Nat} {i : Fetched} {b' : Bench} :
      FirstOther setting remainders b n i b' →
      Restricts setting remainders b (.error (.nonPushParameter i.op) b'.ticked) asCode

section
variable {result asParameter asCode : EStateM.Result Fault Bench Unit}

/-- Nothing is begun where nothing is left. -/
theorem Restricts.of_over (hfetch : fetch? remainders = none) :
    Restricts setting remainders b result result := by
  refine .same ?_
  intro n
  induction n generalizing b with
  | zero =>
      intro i b' hbegins
      cases hfetch.symm.trans (begins_zero_iff.mp hbegins).1
  | succ n ih =>
      intro i b' hbegins
      obtain ⟨left, b₁, hnext, hrest⟩ := begins_succ_iff.mp hbegins
      rw [nextInstruction, hfetch] at hnext
      cases hnext
      exact ih i b' hrest

/-- Where an opcode that is no push is begun, the parameter faults. -/
theorem Restricts.of_other (hfetch : fetch? remainders = some i)
    (hlt : b.steps < setting.limits.maxSteps.toNat) (hother : isPush i.op = false) :
    Restricts setting remainders b (.error (.nonPushParameter i.op) b.ticked) asCode :=
  .stopped ⟨begins_zero_iff.mpr ⟨hfetch, rfl, hlt⟩, hother,
    fun k hk => absurd hk (Nat.not_lt_zero k)⟩

/-- Where the run faults, nothing else is begun. -/
theorem Restricts.of_fault {fault : Fault} (hfetch : fetch? remainders = some i)
    (hpush : b.steps < setting.limits.maxSteps.toNat → isPush i.op = true)
    (hnext : nextInstruction setting remainders b = .error fault b₁) :
    Restricts setting remainders b result result := by
  refine .same ?_
  intro n j b' hbegins
  cases n with
  | zero =>
      obtain ⟨hfetch', -, hlt⟩ := begins_zero_iff.mp hbegins
      cases hfetch.symm.trans hfetch'
      exact hpush hlt
  | succ n =>
      obtain ⟨left, b₁', hnext', -⟩ := begins_succ_iff.mp hbegins
      cases hnext.symm.trans hnext'

/-- An instruction that pushes leaves the roles to be compared from there. -/
theorem Restricts.of_next {i₀ : Fetched} (hfetch : fetch? remainders = some i₀)
    (hpush : isPush i₀.op = true) (hnext : nextInstruction setting remainders b = .ok left b₁)
    (hrest : Restricts setting left b₁ asParameter asCode) :
    Restricts setting remainders b asParameter asCode := by
  -- What is begun is this instruction, or what is begun from there.
  have hbegun {n : Nat} {i : Fetched} {b' : Bench} (h : Begins setting remainders b n i b') :
      isPush i.op = true ∨ ∃ k, n = k + 1 ∧ Begins setting left b₁ k i b' := by
    cases n with
    | zero =>
        obtain ⟨hfetch', -, -⟩ := begins_zero_iff.mp h
        cases hfetch.symm.trans hfetch'
        exact .inl hpush
    | succ k =>
        obtain ⟨left', b₁', hnext', hrest'⟩ := begins_succ_iff.mp h
        cases hnext.symm.trans hnext'
        exact .inr ⟨k, rfl, hrest'⟩
  cases hrest with
  | same hall =>
      refine .same ?_
      intro n i b' h
      rcases hbegun h with hpush' | ⟨k, -, hk⟩
      · exact hpush'
      · exact hall k i b' hk
  | @stopped _ n i b' hfirst =>
      refine .stopped (n := n + 1)
        ⟨begins_succ_iff.mpr ⟨left, b₁, hnext, hfirst.begins⟩, hfirst.other, ?_⟩
      intro k hk j b'' h
      rcases hbegun h with hpush' | ⟨k', rfl, hk'⟩
      · exact hpush'
      · exact hfirst.before k' (by omega) j b'' hk'

end

/-- The role makes no difference to an opcode that pushes, or that there is no step for. -/
theorem instruction_parameter {offset : Nat} {op : UInt8} {following : Bytes}
    (h : b.steps < setting.limits.maxSteps.toNat → isPush op = true) :
    instruction setting .parameter offset op following b
      = instruction setting .code offset op following b := by
  rw [instruction, instruction]
  rcases Nat.lt_or_ge b.steps setting.limits.maxSteps.toNat with hlt | hge
  · rw [if_neg (by simp [h hlt]), if_neg (by simp)]
  · rw [bind_of_error (tick_of_le hge), bind_of_error (tick_of_le hge)]

/-- From any place in a script the parameter does what the code does, or is stopped. -/
theorem runFrom_parameter (setting : Setting) (offset : Nat) (script : Bytes) (b : Bench) :
    Restricts setting [⟨.code, offset, script⟩] b (runFrom setting .parameter offset script b)
      (runFrom setting .code offset script b) := by
  -- The induction follows the run as a code, which begins what the parameter begins and maybe more.
  fun_induction runFrom setting .code offset script generalizing b with
  | case1 offset =>
      rw [runFrom]
      exact .of_over rfl
  | case2 offset op following ih =>
      have hfetch : fetch? [⟨.code, offset, op :: following⟩]
          = some ⟨.code, offset, op, following, []⟩ := rfl
      have hnext := nextInstruction_of_some setting hfetch
      rw [runFrom]
      by_cases hother : b.steps < setting.limits.maxSteps.toNat ∧ isPush op = false
      · -- The parameter faults here, and the code has not executed anything yet.
        obtain ⟨hlt, hop⟩ := hother
        have hfault : instruction setting .parameter offset op following b
            = .error (.nonPushParameter op) b.ticked := by
          rw [instruction_nonPush hop]
          exact bind_of_ok (tick_of_lt hlt)
        rw [bind_of_error hfault]
        exact .of_other hfetch hlt hop
      · have hpush : b.steps < setting.limits.maxSteps.toNat → isPush op = true := by
          intro hlt
          simpa [hlt] using hother
        have hsame : instruction setting .parameter offset op following b
            = instruction setting .code offset op following b := instruction_parameter hpush
        cases hcode : instruction setting .code offset op following b with
        | ok width b₁ =>
            have hlt : b.steps < setting.limits.maxSteps.toNat := by
              by_contra hge
              rw [instruction, bind_of_error (tick_of_le (Nat.le_of_not_lt hge))] at hcode
              cases hcode
            rw [bind_of_ok (hsame.trans hcode), bind_of_ok hcode]
            refine .of_next hfetch (hpush hlt) ?_ (ih width b₁)
            rw [hnext, executeFetched, bind_of_ok hcode]
            rfl
        | error fault b₁ =>
            rw [bind_of_error (hsame.trans hcode), bind_of_error hcode]
            have hfault : nextInstruction setting [⟨.code, offset, op :: following⟩] b
                = .error fault b₁ := by
              rw [hnext, executeFetched, bind_of_error hcode]
            exact .of_fault hfetch hpush hfault

end Act

/-! ### What a parameter leaves alone -/

namespace Move

variable {α : Type} {m : Move α}

/-- The move counts a step or puts an item on the stack. -/
def Adding : {α : Type} → Move α → Prop
  | _, .tick | _, .push _ => True
  | _, .pop _ | _, .peek _ | _, .allow _ | _, .digest | _, .ask _ _ _ => False

/-- Counting steps and pushing have nothing to do with signatures. -/
theorem Adding.quiet (h : m.Adding) : m.Quiet := by
  cases m <;> first | exact h | trivial

/-- What was on the stack is still there, in its place. -/
theorem suffix_of_adding (h : m.Adding) (setting : Setting) (b : Bench) :
    b.stack.items <:+ ((m.act setting).leaves b).stack.items := by
  rcases answers_or_refuses setting m b with ⟨answer, b', hm⟩ | ⟨fault, b', hm⟩
  · rw [Act.leaves_of_ok (act_of_answers hm)]
    cases hm with
    | tick _ => exact List.suffix_rfl
    | push _ _ => exact List.suffix_cons _ _
    | pop _ | peek _ | allow _ _ | digestFirst _ | digestAgain _ | ask => exact h.elim
  · rw [Act.leaves_of_error (act_of_refuses hm)]
    cases hm <;> exact List.suffix_rfl

end Move

/-- A fault of an operation that does more than to push. -/
def Fault.OfOperation : Fault → Prop
  | .unknownOpcode _ | .stackUnderflow _ | .invalidKeyCount _ _ | .invalidThreshold _ _ => True
  | .stepLimit _ | .stackOverflow _ | .itemTooLarge _ _ | .truncatedPush _
  | .nonPushParameter _ => False

namespace Plan

/-- What at most pushes puts nothing but an item on the stack, and has no fault of another
operation. -/
theorem uses_of_pushesAtMost {x : Plan Nat} (h : PushesAtMost x) :
    Uses Move.Adding x (fun _ => True) ∧
      GivesUpFor (fun mistake => ¬ mistake.fault.OfOperation) x := by
  rcases h with ⟨item, width, rfl⟩ | ⟨place, rfl⟩
  · exact ⟨(uses_ofMove trivial).bind fun _ _ => trivial,
      (givesUpFor_ofMove _).bind fun _ => trivial⟩
  · exact ⟨trivial, id⟩

/-- A parameter counts steps and pushes, and does nothing else. -/
theorem uses_runFrom_parameter (offset : Nat) (script : Bytes) :
    Uses Move.Adding (runFrom .parameter offset script) (fun _ => True) ∧
      GivesUpFor (fun mistake => ¬ mistake.fault.OfOperation)
        (runFrom .parameter offset script) := by
  fun_induction runFrom .parameter offset script with
  | case1 => exact ⟨trivial, trivial⟩
  | case2 offset op following ih =>
      have hinstruction : Uses Move.Adding (instruction .parameter offset op following)
            (fun _ => True) ∧
          GivesUpFor (fun mistake => ¬ mistake.fault.OfOperation)
            (instruction .parameter offset op following) := by
        rw [instruction]
        cases hop : isPush op with
        | false =>
            rw [if_pos ⟨rfl, rfl⟩]
            exact ⟨(uses_ofMove trivial).bind fun _ _ => trivial,
              (givesUpFor_ofMove _).bind fun _ => id⟩
        | true =>
            obtain ⟨huses, hgives⟩ :=
              uses_of_pushesAtMost (pushesAtMost_perform hop offset following)
            rw [if_neg (by simp)]
            exact ⟨(uses_ofMove trivial).bind fun _ _ => huses,
              (givesUpFor_ofMove _).bind fun _ => hgives⟩
      exact ⟨hinstruction.1.bind fun width _ => (ih width).1,
        hinstruction.2.bind fun width => (ih width).2⟩

end Plan

/-- A parameter does what the same script does as a code, but it may only push.

* If all opcodes push that the script begins as a code, it ends in the same way as a parameter: with
  the same answer or fault, on the same bench.
* If it begins an opcode that is no push, it faults at the first of them as a parameter. The bench
  is the one that the code has come to by then, with this opcode counted as a step. The fault names
  the opcode, whether or not it means anything.
* At every point of the run as a parameter, what was on the stack before is still there, and nothing
  was asked.
* No fault of the run as a parameter is one of an operation that does more than to push. -/
theorem runs_as_parameter (setting : Setting) (script : Bytes) (b : Bench) :
    let code : List Remainder := [⟨.code, 0, script⟩]
    let asCode := runSegment setting ⟨script, .code⟩ b
    let asParameter := runSegment setting ⟨script, .parameter⟩ b
    ((∀ n i b', Begins setting code b n i b' → isPush i.op = true) → asParameter = asCode) ∧
    ((∃ n i b', Begins setting code b n i b' ∧ isPush i.op = false) →
      ∃ n i b', FirstOther setting code b n i b' ∧
        asParameter = .error (.nonPushParameter i.op) b'.ticked) ∧
    (∀ p ∈ (Plan.runFrom .parameter 0 script).points setting b,
      b.stack.items <:+ p.stack.items ∧ p.asked = b.asked) ∧
    (∀ fault b', asParameter = .error fault b' → ¬ fault.OfOperation) := by
  intro code asCode asParameter
  have hroles : Restricts setting code b asParameter asCode := runFrom_parameter setting 0 script b
  obtain ⟨huses, hgives⟩ := Plan.uses_runFrom_parameter 0 script
  refine ⟨?_, ?_, ?_, ?_⟩
  · intro hall
    -- How the two runs came to their ends does not matter any more.
    clear_value asCode asParameter
    cases hroles with
    | same _ => rfl
    | stopped hfirst =>
        have hpush := hall _ _ _ hfirst.begins
        rw [hfirst.other] at hpush
        cases hpush
  · rintro ⟨n, i, b', hbegins, hother⟩
    clear_value asCode asParameter
    cases hroles with
    | same hall =>
        have hpush := hall n i b' hbegins
        rw [hother] at hpush
        cases hpush
    | stopped hfirst => exact ⟨_, _, _, hfirst, rfl⟩
  · refine huses.forall_points (fun p => b.stack.items <:+ p.stack.items ∧ p.asked = b.asked) ?_
      ⟨List.suffix_rfl, rfl⟩
    intro γ m p hm hp
    exact ⟨hp.1.trans (Move.suffix_of_adding hm setting p),
      (Move.asked_of_quiet hm.quiet setting p).trans hp.2⟩
  · intro fault b' herror
    have hrun : (Plan.runFrom .parameter 0 script).act setting b = .error fault b' := by
      rw [Plan.act_runFrom]
      exact herror
    rcases huses.refuses_or_mistake hgives hrun with
      ⟨γ, m, b₁, hm, hrefuses⟩ | ⟨mistake, hmistake, rfl⟩
    · cases hrefuses with
      | tick _ | pushLarge _ | pushFull _ _ => exact id
      | pop _ | peek _ | allow _ => exact hm.elim
    · exact hmistake

/-- Two scripts, on a stack of at most three items. The first one pushes two bytes that look like
opcodes and another item, and then drops that. As a parameter it faults there, with both items
pushed and the third step counted. The second one has an opcode that means nothing, behind two
pushes of which the last one finds no room. So this opcode is never begun, and the role makes no
difference. -/
theorem runs_as_parameter_drop_and_overflow :
    let setting : Setting := ⟨⟨9, 3, 9, 9⟩, ⟨fun _ _ _ => .error .mismatch⟩, []⟩
    let b : Bench := { stack := .ofItems [[7]] }
    let drops : Bytes := [2, 0xAC, 0x75, 1, 3, 0x75]
    let full : Bench := { stack := .ofItems [[8], [7]] }
    let overflows : Bytes := [0, 0, 0xFF]
    ((∃ b', Begins setting [⟨.code, 0, drops⟩] b 2 ⟨.code, 5, 0x75, [], []⟩ b' ∧
        isPush 0x75 = false) ∧
      (∃ n i b', FirstOther setting [⟨.code, 0, drops⟩] b n i b' ∧
        runSegment setting ⟨drops, .parameter⟩ b = .error (.nonPushParameter i.op) b'.ticked) ∧
      ∃ b', runSegment setting ⟨drops, .parameter⟩ b = .error (.nonPushParameter 0x75) b' ∧
        b'.stack.items = [[3], [0xAC, 0x75], [7]] ∧ b'.steps = 3 ∧
        ¬ (Fault.nonPushParameter 0x75).OfOperation) ∧
    ((∀ n i b', Begins setting [⟨.code, 0, overflows⟩] full n i b' → isPush i.op = true) ∧
      runSegment setting ⟨overflows, .parameter⟩ full
        = runSegment setting ⟨overflows, .code⟩ full ∧
      ∃ b', runSegment setting ⟨overflows, .code⟩ full = .error (.stackOverflow 3) b') := by
  intro setting b drops full overflows
  obtain ⟨-, hstops, -, hfaults⟩ := runs_as_parameter setting drops b
  obtain ⟨hequal, -, -, -⟩ := runs_as_parameter setting overflows full
  have hfirst : ∃ b₂, firstInstructions setting 2 [⟨.code, 0, drops⟩] b
      = .ok [⟨.code, 5, [0x75]⟩] b₂ ∧ b₂.steps = 2 := by
    refine ⟨_, rfl, ?_⟩
    rfl
  obtain ⟨b₂, hfirst, hsteps₂⟩ := hfirst
  have hbegins : Begins setting [⟨.code, 0, drops⟩] b 2 ⟨.code, 5, 0x75, [], []⟩ b₂ :=
    ⟨⟨_, hfirst, rfl⟩, by rw [hsteps₂]; decide⟩
  have hother : isPush 0x75 = false := rfl
  have hrun : ∃ b', runSegment setting ⟨drops, .parameter⟩ b = .error (.nonPushParameter 0x75) b' ∧
      b'.stack.items = [[3], [0xAC, 0x75], [7]] ∧ b'.steps = 3 := by
    rw [← runSegments_singleton]
    refine ⟨_, runSegments_of_firstInstructions (n := 3) rfl, ?_, ?_⟩
    · rfl
    · rfl
  have hfull : ∃ b', runSegment setting ⟨overflows, .code⟩ full = .error (.stackOverflow 3) b' := by
    rw [← runSegments_singleton]
    exact ⟨_, runSegments_of_firstInstructions (n := 2) rfl⟩
  have hpushes : ∀ n i b', Begins setting [⟨.code, 0, overflows⟩] full n i b' →
      isPush i.op = true := by
    intro n i b' hbegins
    match n with
    | 0 =>
        cases (begins_zero_iff.mp hbegins).1
        rfl
    | 1 =>
        obtain ⟨_, _, hnext, hrest⟩ := begins_succ_iff.mp hbegins
        cases hnext
        cases (begins_zero_iff.mp hrest).1
        rfl
    | n + 2 =>
        obtain ⟨_, _, hnext, hrest⟩ := begins_succ_iff.mp hbegins
        cases hnext
        obtain ⟨_, _, hnext, -⟩ := begins_succ_iff.mp hrest
        cases hnext
  obtain ⟨b', hrun, hitems, hsteps⟩ := hrun
  exact ⟨⟨⟨b₂, hbegins, hother⟩, hstops ⟨2, _, b₂, hbegins, hother⟩, b', hrun, hitems, hsteps,
    hfaults _ _ hrun⟩, hpushes, hequal hpushes, hfull⟩

end Countersign
