import Countersign.Proofs.Machine.Listing
import Countersign.Proofs.Machine.Repertoire

/-!
# `Countersign.Proofs.Machine.Concatenation`: one script behind another

A script can be split between two instructions, and the parts be run as two segments. The bench
goes from the one to the other with all that is on it, so nothing of the run shows the cut. Only
one fault names a place, and a place is counted from the beginning of its segment:
`Fault.shifted` is the difference. `Act.runFrom_add` says the same of any script that begins
elsewhere in its segment.

The cut has to be between two instructions. A push that is cut off at the end of a segment faults
there, whatever segments come after it, so it takes no bytes of theirs for its operand.

`runs_as_concatenated` has both for any two scripts in one role, and for a parameter in front of a
code.
-/

set_option autoImplicit false

namespace Countersign

open Act

/-- The fault as it reads when its script begins so many bytes later in its segment. -/
def Fault.shifted (distance : Nat) : Fault → Fault
  | truncatedPush offset => truncatedPush (offset + distance)
  | fault => fault

namespace Act

section
variable {α β : Type} {x : Act α} {b b' : Bench} {fault : Fault} {answer : α} (distance : Nat)

/-- Does the same, but for the places that its faults name. -/
def shifted (x : Act α) : Act α := fun b =>
  match x b with
  | .ok answer b' => .ok answer b'
  | .error fault b' => .error (fault.shifted distance) b'

/-- An answer names no place. -/
theorem shifted_of_ok (h : x b = .ok answer b') : x.shifted distance b = .ok answer b' := by
  rw [shifted, h]

/-- A fault names a place that is further back by the distance. -/
theorem shifted_of_error (h : x b = .error fault b') :
    x.shifted distance b = .error (fault.shifted distance) b' := by
  rw [shifted, h]

/-- Two acts, one after the other, are shifted by shifting both. -/
theorem shifted_bind (x : Act α) (f : α → Act β) :
    (x >>= f).shifted distance
      = (do let answer ← x.shifted distance; (f answer).shifted distance) := by
  funext b
  -- What comes second is not carried out when the first one faults.
  cases h : x b with
  | ok answer b' =>
      rw [bind_of_ok (shifted_of_ok distance h), shifted, bind_of_ok h, shifted]
  | error fault b' =>
      rw [bind_of_error (shifted_of_error distance h), shifted_of_error distance (bind_of_error h)]

end

/-! ### What names no place -/

variable {setting : Setting} {role : Role} (distance : Nat)

/-- What a move is refused for has nothing to do with a place. -/
@[simp] theorem shifted_move {α : Type} (m : Move α) :
    (m.act setting).shifted distance = m.act setting := by
  funext b
  rcases Move.answers_or_refuses setting m b with ⟨answer, b', hm⟩ | ⟨fault, b', hm⟩
  · have hact := Move.act_of_answers hm
    rw [shifted_of_ok distance hact, hact]
  · have hact := Move.act_of_refuses hm
    rw [shifted_of_error distance hact, hact]
    cases hm <;> rfl

/-- Counting a step names no place. -/
@[simp] theorem shifted_tick : (tick setting.limits).shifted distance = tick setting.limits :=
  shifted_move distance .tick

/-- Nor does pushing an item. -/
@[simp] theorem shifted_push (item : Bytes) :
    (push setting.limits item).shifted distance = push setting.limits item :=
  shifted_move distance (.push item)

/-- So only a plan that gives up can name one. -/
theorem shifted_plan {α : Type} {x : Plan α}
    (h : x.GivesUpFor fun mistake => mistake.fault.shifted distance = mistake.fault) :
    (x.act setting).shifted distance = x.act setting := by
  induction x with
  | done answer => rfl
  | giveUp mistake => exact funext fun b => congrArg (EStateM.Result.error · b) h
  | move m rest ih =>
      rw [Plan.act, shifted_bind, shifted_move]
      exact bind_congr fun answer => ih answer (h answer)

/-- A complete instruction names no place. -/
theorem shifted_instruction (i : Instruction) :
    (i.act setting role).shifted distance = i.act setting role := by
  cases i with
  | push code item hcode => rw [Instruction.act, shifted_bind, shifted_tick, shifted_push]
  | single op hother =>
      have hperform : (perform setting 0 op []).shifted distance = perform setting 0 op [] := by
        rw [← Plan.act_perform]
        -- A threshold that is wrong and an opcode that is unknown are told without a place.
        refine shifted_plan distance (Plan.givesUpFor_perform hother ?_ ?_ 0 [])
        · rfl
        · intro m n
          rfl
      rw [Instruction.act, shifted_bind, shifted_tick]
      refine bind_congr fun _ => ?_
      cases role with
      | parameter => rfl
      | code =>
          have hcode : Role.code ≠ .parameter := by decide
          rw [if_neg hcode]
          show ((do let _ ← perform setting 0 op []; pure ()) : Act Unit).shifted distance = _
          rw [shifted_bind, hperform]
          rfl

/-- So rows of complete instructions name none. -/
theorem shifted_executeAll (instructions : List Instruction) :
    (executeAll setting role instructions).shifted distance
      = executeAll setting role instructions := by
  induction instructions with
  | nil => rfl
  | cons i instructions ih => rw [executeAll, shifted_bind, shifted_instruction, ih]

/-- Nor do rows of items. -/
theorem shifted_pushAll (items : List Bytes) :
    (pushAll setting.limits items).shifted distance = pushAll setting.limits items := by
  induction items with
  | nil => rfl
  | cons item items ih => simp only [pushAll, shifted_bind, shifted_tick, shifted_push, ih]

/-! ### What names its place -/

/-- What is cut off names its place, and no other act does. -/
theorem shifted_tail (tail : Tail) (offset : Nat) :
    (tail.act setting offset).shifted distance = tail.act setting (offset + distance) := by
  cases tail with
  | nothing => rfl
  | cut op following place hshort =>
      rw [Tail.act, shifted_bind, shifted_tick, Tail.act, Nat.add_right_comm]
      rfl

/-- Where a script begins in its segment makes a difference only to the places that faults name. -/
theorem runFrom_add (offset : Nat) (script : Bytes) :
    runFrom setting role (offset + distance) script
      = (runFrom setting role offset script).shifted distance := by
  obtain ⟨l, rfl⟩ := Listing.exists_bytes_eq script
  rw [runFrom_listing, runFrom_listing, shifted_bind, shifted_executeAll]
  refine bind_congr fun _ => ?_
  rw [shifted_tail, Nat.add_right_comm]

/-! ### Two scripts, one behind the other -/

variable {front back : Bytes} {b b₁ : Bench}

/-- Behind a script that is run to its end another one is run from where that has come to. -/
theorem runSegment_append_of_ok (h : runSegment setting ⟨front, role⟩ b = .ok () b₁) :
    runSegment setting ⟨front ++ back, role⟩ b
      = (runSegment setting ⟨back, role⟩).shifted front.length b₁ := by
  obtain ⟨instructions, hfront, -⟩ := exists_codeOf_of_runSegment h
  dsimp only at hfront
  subst hfront
  -- A script that is run to its end is made of complete instructions, which show no end of segment.
  have hall : executeAll setting role instructions b = .ok () b₁ := by
    rw [← h, runSegment, ← List.append_nil (codeOf instructions), runFrom_codeOf, runFrom]
    exact congrFun (bind_pure _).symm b
  rw [runSegment, runFrom_codeOf, bind_of_ok hall, runFrom_add, runSegment]

/-- A script that faults does so with anything behind it, unless its last push is cut off. -/
theorem runSegment_append_of_error {fault : Fault}
    (h : runSegment setting ⟨front, role⟩ b = .error fault b₁)
    (hfault : ∀ offset, fault ≠ .truncatedPush offset) :
    runSegment setting ⟨front ++ back, role⟩ b = .error fault b₁ := by
  obtain ⟨⟨instructions, tail⟩, rfl⟩ := Listing.exists_bytes_eq front
  rw [runSegment_listing, Listing.act, bind_eq_error_iff] at h
  rw [runSegment, Listing.bytes, List.append_assoc, runFrom_codeOf]
  rcases h with hall | ⟨_, b₂, hall, htail⟩
  · exact bind_of_error hall
  · rw [bind_of_ok hall]
    cases tail with
    | nothing => cases htail
    | cut op following place hshort =>
        rcases bind_eq_error_iff.mp htail with htick | ⟨_, b₃, -, hthrow⟩
        · -- No step is left, so it makes no difference whether the operand is there.
          dsimp only [Tail.bytes]
          rw [List.cons_append, runFrom, instruction]
          exact bind_of_error (bind_of_error htick)
        · cases hthrow
          exact absurd rfl (hfault _)

/-- Pushes do the same in both roles, so a parameter may as well stand in front of the code. -/
theorem runSegment_pushes_append {parameter code : Bytes} {items : List Bytes}
    (h : Pushes parameter items) :
    runSegment setting ⟨parameter ++ code, .code⟩
      = (runSegments setting [⟨parameter, .parameter⟩, ⟨code, .code⟩]).shifted
          parameter.length := by
  rw [runSegment, runFrom_pushes h, runFrom_add, runSegments, runSegments_singleton,
    runSegment_pushes h, shifted_bind, shifted_pushAll, runSegment]

/-- A push that is cut off is where a segment ends, if it does not fault before. -/
theorem faults_of_cut {l : Listing} (h : l.tail ≠ .nothing) (b : Bench) :
    Faults (runSegment setting ⟨l.bytes, role⟩) b := by
  rw [runSegment_listing, Listing.act]
  refine faults_bind (fun _ b' => ?_) b
  cases htail : l.tail with
  | nothing => exact absurd htail h
  | cut op following place hshort => exact faults_bind (fun _ b' => faults_throw _ b') b'

end Act

/-- Two scripts make the same difference whether one is written behind the other or is loaded as a
segment of its own.

* If the first one is run to its end, both in one segment do what the two segments do, one after the
  other. A place that a fault names is further back by the length of the first one.
* If the first one faults, and not because a push is cut off, it faults in the same way with the
  other behind it.
* A parameter that is a row of complete pushes, loaded on top of a code, comes to the same as both
  written into one code: the same phase, the same bench and the same fault, but for the place. Of a
  single code nothing is left to run, while a parameter that faults leaves the code.
* A parameter that ends with a push that is cut off faults, and whatever was loaded below it makes
  no difference to that fault and to the bench. -/
theorem runs_as_concatenated (setting : Setting) :
    (∀ role front back b b₁, runSegment setting ⟨front, role⟩ b = .ok () b₁ →
      runSegment setting ⟨front ++ back, role⟩ b
        = (runSegments setting [⟨front, role⟩, ⟨back, role⟩]).shifted front.length b) ∧
    (∀ role front back b fault b₁, runSegment setting ⟨front, role⟩ b = .error fault b₁ →
      (∀ offset, fault ≠ .truncatedPush offset) →
      runSegment setting ⟨front ++ back, role⟩ b = .error fault b₁) ∧
    (∀ parameter items code, Pushes parameter items →
      let asOne := (Machine.new setting).after [.load (parameter ++ code) .code, .execute]
      let asTwo := (Machine.new setting).after
        [.load code .code, .load parameter .parameter, .execute]
      asOne = { asTwo with
        segments := []
        fault := asTwo.fault.map (Fault.shifted parameter.length) }) ∧
    (∀ l : Listing, l.tail ≠ .nothing → ∃ fault b', ∀ below,
      let m := ((Machine.new setting).loadAll (below ++ [⟨l.bytes, .parameter⟩])).execute
      m.phase = .faulted ∧ m.fault = some fault ∧ m.bench = b') := by
  refine ⟨?_, ?_, ?_, ?_⟩
  · intro role front back b b₁ hfront
    rw [runSegment_append_of_ok hfront, runSegments, runSegments_singleton, shifted_bind,
      bind_of_ok (shifted_of_ok front.length hfront)]
  · intro role front back b fault b₁ hfront hfault
    exact runSegment_append_of_error hfront hfault
  · intro parameter items code hpushes asOne asTwo
    have hone : asOne = _ := Machine.execute_loadAll setting [⟨parameter ++ code, .code⟩]
    have htwo : asTwo = _ :=
      Machine.execute_loadAll setting [⟨code, .code⟩, ⟨parameter, .parameter⟩]
    have hreverse : [Segment.mk code .code, ⟨parameter, .parameter⟩].reverse
        = [⟨parameter, .parameter⟩, ⟨code, .code⟩] := rfl
    rw [List.reverse_singleton, runSegments_singleton, runSegment_pushes_append hpushes,
      shifted, unbegun_singleton] at hone
    rw [hreverse] at htwo
    rw [hone, htwo]
    cases runSegments setting [⟨parameter, .parameter⟩, ⟨code, .code⟩] Bench.fresh <;> rfl
  · intro l htail
    have hfaults : Faults (runSegment setting ⟨l.bytes, .parameter⟩) Bench.fresh :=
      faults_of_cut htail Bench.fresh
    obtain ⟨fault, b', hfault⟩ := hfaults
    refine ⟨fault, b', ?_⟩
    intro below m
    have hm : m = _ := Machine.execute_loadAll setting (below ++ [⟨l.bytes, .parameter⟩])
    have hrun : runSegments setting (⟨l.bytes, .parameter⟩ :: below.reverse) Bench.fresh
        = .error fault b' := bind_of_error hfault
    rw [List.reverse_append, List.reverse_singleton, List.singleton_append, hrun] at hm
    rw [hm]
    exact ⟨rfl, rfl, rfl⟩

/-- The script `front` pushes an item, and `back` is a push whose item has two bytes less than its
length says. So the fault names offset 2 if `back` is a segment of its own, and offset 4 behind
`front`, be that a code or a parameter. Where a drop faults, it does not matter whether the push
after it is complete. A push of two bytes with one of them missing faults as a parameter, also with
a code below it that begins with a byte that would do. -/
theorem runs_as_concatenated_short_push :
    let setting : Setting := ⟨.standard, ⟨fun _ _ _ => .ok ()⟩, []⟩
    let front : Bytes := [1, 7]
    let back : Bytes := [0x4C, 3, 9]
    let asOne := (Machine.new setting).after [.load (front ++ back) .code, .execute]
    let asTwo := (Machine.new setting).after [.load back .code, .load front .parameter, .execute]
    let l : Listing := ⟨[], .cut 2 [9] 1 (.bytes (by decide) (by decide) (by decide))⟩
    (∃ b₁ b₂, runSegment setting ⟨front, .code⟩ Bench.fresh = .ok () b₁ ∧
      runSegments setting [⟨front, .code⟩, ⟨back, .code⟩] Bench.fresh
        = .error (.truncatedPush 2) b₂ ∧
      runSegment setting ⟨front ++ back, .code⟩ Bench.fresh = .error (.truncatedPush 4) b₂) ∧
    (∃ b₁, runSegment setting ⟨[0x75, 2, 9], .code⟩ Bench.fresh = .error (.stackUnderflow 0x75) b₁ ∧
      runSegment setting ⟨[0x75, 2, 9] ++ [8], .code⟩ Bench.fresh
        = .error (.stackUnderflow 0x75) b₁) ∧
    (Pushes front [[7]] ∧ asTwo.fault = some (.truncatedPush 2) ∧
      asOne = { asTwo with segments := [], fault := some (.truncatedPush 4) }) ∧
    (l.tail ≠ .nothing ∧ ∃ b', ∀ below,
      let m := ((Machine.new setting).loadAll (below ++ [⟨[2, 9], .parameter⟩])).execute
      m.phase = .faulted ∧ m.fault = some (.truncatedPush 1) ∧ m.bench = b') := by
  intro setting front back asOne asTwo l
  obtain ⟨happend, hstop, hparameter, hcut⟩ := runs_as_concatenated setting
  have hpushes : Pushes front [[7]] :=
    PushInstruction.pushes (@PushInstruction.bytes [7] (by decide) (by decide))
  have hfront : ∃ b₁, runSegment setting ⟨front, .code⟩ Bench.fresh = .ok () b₁ := by
    rw [runSegment_pushes hpushes]
    exact ⟨_, rfl⟩
  have hboth : ∃ b₂, runSegments setting [⟨front, .code⟩, ⟨back, .code⟩] Bench.fresh
      = .error (.truncatedPush 2) b₂ := ⟨_, runSegments_of_firstInstructions (n := 2) rfl⟩
  have hdrop : ∃ b₁, runSegment setting ⟨[0x75, 2, 9], .code⟩ Bench.fresh
      = .error (.stackUnderflow 0x75) b₁ := by
    rw [← runSegments_singleton]
    exact ⟨_, runSegments_of_firstInstructions (n := 1) rfl⟩
  have htwo : asTwo.fault = some (.truncatedPush 2) := by decide +kernel
  have htail : l.tail ≠ .nothing := nofun
  obtain ⟨b₁, hfront⟩ := hfront
  obtain ⟨b₂, hboth⟩ := hboth
  obtain ⟨b₃, hdrop⟩ := hdrop
  have hone : asOne = { asTwo with
      segments := []
      fault := asTwo.fault.map (Fault.shifted front.length) } :=
    hparameter front [[7]] back hpushes
  rw [htwo] at hone
  obtain ⟨fault, b₄, hbelow⟩ := hcut l htail
  have hfault : some fault = some (.truncatedPush 1) := by
    rw [← (hbelow []).2.1]
    decide +kernel
  rw [Option.some.inj hfault] at hbelow
  exact ⟨⟨b₁, b₂, hfront, hboth,
      (happend .code front back _ _ hfront).trans (shifted_of_error _ hboth)⟩,
    ⟨b₃, hdrop, hstop .code _ [8] _ _ _ hdrop (fun _ => nofun)⟩, ⟨hpushes, htwo, hone⟩, htail,
    b₄, hbelow⟩

end Countersign
