import Mathlib.Algebra.GroupWithZero.Nat
import Countersign.Proofs.Machine.OneRun
import Countersign.Proofs.Machine.ReadingBack
import Countersign.Proofs.Machine.Stepping
import Countersign.Proofs.Script.Listing

/-!
# `Countersign.Proofs.Machine.Listing`: running a script is executing its listing

The machine reads and executes in one pass. Each instruction says where the next one begins, and a
push that is cut off is noticed only when it is reached. `Listing.act` does the same in two passes:
the script is taken apart beforehand, and then the instructions are executed in order, without a
look at any bytes but their own. `Act.runSegment_listing` is the equation between the two, so it
covers the runs that fault on the way as well.

A script is the bytes of exactly one listing (`Listing.bytes_inj`), as an instruction is never the
beginning of another one (`Instruction.code_append_inj`).

`runs_as_listed` puts these together, and adds what follows for whole machines: one that halts has
loaded complete instructions only and has counted each of them once.
-/

set_option autoImplicit false

namespace Countersign

open Act

/-! ### A script is taken apart in one way -/

/-- Where an operand is cut off can be seen from the fault. -/
theorem TruncatedPush.inj {op : UInt8} {following : Bytes} {place place' : Nat}
    (h : TruncatedPush op following place) (h' : TruncatedPush op following place') :
    place = place' := by
  let setting : Setting := ⟨Limits.standard, ⟨fun _ _ _ => .ok ()⟩, []⟩
  have hfault := congrFun (perform_truncated h setting 0) Bench.fresh
  rw [perform_truncated h' setting 0, throw_eq, throw_eq] at hfault
  injection hfault with hplace
  simpa using (Fault.truncatedPush.inj hplace).symm

namespace Instruction

/-- No instruction is the beginning of another one. -/
theorem code_append_inj {i i' : Instruction} {rest rest' : Bytes}
    (h : i.code ++ rest = i'.code ++ rest') : i = i' ∧ rest = rest' := by
  cases i with
  | push code item hcode =>
      obtain ⟨op, operand, rfl⟩ := hcode.exists_cons
      cases i' with
      | push code' item' hcode' =>
          obtain ⟨rfl, rfl⟩ := hcode.inj hcode' h
          obtain rfl : op :: operand = code' := List.append_cancel_right h
          exact ⟨rfl, rfl⟩
      | single op' hother =>
          obtain rfl : op = op' := (List.cons.inj h).1
          rw [hcode.isPush] at hother
          cases hother
  | single op hother =>
      cases i' with
      | push code' item' hcode' =>
          obtain ⟨op', operand', rfl⟩ := hcode'.exists_cons
          obtain rfl : op = op' := (List.cons.inj h).1
          rw [hcode'.isPush] at hother
          cases hother
      | single op' hother' =>
          obtain ⟨rfl, rfl⟩ := List.cons.inj h
          exact ⟨rfl, rfl⟩

/-- No instruction is the beginning of a push that is cut off. -/
theorem code_append_ne_cut (i : Instruction) (rest : Bytes) {op : UInt8} {following : Bytes}
    {place : Nat} (h : TruncatedPush op following place) : i.code ++ rest ≠ op :: following := by
  intro heq
  cases i with
  | push code item hcode =>
      obtain ⟨op', operand, rfl⟩ := hcode.exists_cons
      obtain ⟨rfl, rfl⟩ := List.cons.inj heq
      -- With room for the item, the one pushes and the other faults.
      let setting : Setting := ⟨Limits.standard, ⟨fun _ _ _ => .ok ()⟩, []⟩
      have hread := perform_push_fresh hcode setting rfl rest
      have hfault := congrFun (perform_truncated h setting 0) Bench.fresh
      rw [throw_eq] at hfault
      cases hread.symm.trans hfault
  | single op' hother =>
      obtain rfl : op' = op := (List.cons.inj heq).1
      rw [h.isPush] at hother
      cases hother

end Instruction

/-- A script is the bytes of one listing only. -/
theorem Listing.bytes_inj {l l' : Listing} (h : l.bytes = l'.bytes) : l = l' := by
  obtain ⟨instructions, tail⟩ := l
  obtain ⟨instructions', tail'⟩ := l'
  simp only [bytes] at h
  -- The first instruction of both is the same one, or one of them has none left.
  induction instructions generalizing instructions' with
  | nil =>
      cases instructions' with
      | nil =>
          cases tail with
          | nothing =>
              cases tail' with
              | nothing => rfl
              | cut _ _ _ _ => cases h
          | cut op following place hshort =>
              cases tail' with
              | nothing => cases h
              | cut op' following' place' hshort' =>
                  obtain ⟨rfl, rfl⟩ := List.cons.inj h
                  obtain rfl := hshort.inj hshort'
                  rfl
      | cons i' instructions' =>
          rw [codeOf_cons, List.append_assoc] at h
          cases tail with
          | nothing =>
              obtain ⟨op, operand, hcode⟩ := i'.exists_code_eq
              rw [hcode] at h
              cases h
          | cut op following place hshort =>
              exact absurd h.symm (i'.code_append_ne_cut _ hshort)
  | cons i instructions ih =>
      rw [codeOf_cons, List.append_assoc] at h
      cases instructions' with
      | nil =>
          cases tail' with
          | nothing =>
              obtain ⟨op, operand, hcode⟩ := i.exists_code_eq
              rw [hcode] at h
              cases h
          | cut op following place hshort => exact absurd h (i.code_append_ne_cut _ hshort)
      | cons i' instructions' =>
          rw [codeOf_cons, List.append_assoc] at h
          obtain ⟨rfl, hrest⟩ := Instruction.code_append_inj h
          cases ih instructions' hrest
          rfl

/-! ### Executing what was taken apart -/

/-- Executes a complete instruction at the cost of a step. An instruction that is a single byte has
no operand, so it does the same whatever stands behind it. -/
def Instruction.act (setting : Setting) (role : Role) : Instruction → Act Unit
  | push _ item _ => do
    tick setting.limits
    Act.push setting.limits item
  | single op _ => do
    tick setting.limits
    if role = .parameter then
      throw (.nonPushParameter op)
    let _ ← perform setting 0 op []

/-- Faults at a push that is cut off, if there is a step left for it. It stands at `offset`. -/
def Tail.act (setting : Setting) (offset : Nat) : Tail → Act Unit
  | nothing => pure ()
  | cut _ _ place _ => do
    tick setting.limits
    throw (.truncatedPush (offset + place))

namespace Act

/-- Executes complete instructions in order. -/
def executeAll (setting : Setting) (role : Role) : List Instruction → Act Unit
  | [] => pure ()
  | i :: instructions => do
    i.act setting role
    executeAll setting role instructions

end Act

/-- Executes a script that was taken apart. -/
def Listing.act (setting : Setting) (role : Role) (l : Listing) : Act Unit := do
  executeAll setting role l.instructions
  l.tail.act setting (codeOf l.instructions).length

namespace Act

variable (setting : Setting) (role : Role)

/-- An opcode that does not push looks neither at what follows it nor at where it stands. -/
theorem perform_single {op : UInt8} (h : isPush op = false) (offset : Nat) (following : Bytes) :
    perform setting offset op following = (do let _ ← perform setting 0 op []; return 0) := by
  have hop := isPush_eq_false_iff.mp h
  simp only [List.mem_cons, List.not_mem_nil, or_false] at hop
  rcases hop with hop | hop | hop | hop | hop | hop <;>
    simp only [perform, hop, bind_assoc, pure_bind]
  · refine bind_congr fun b => ?_
    cases b.stack.top? with
    | none => rfl
    | some item => simp only [bind_assoc, pure_bind]
  · rfl

/-- The machine executes a complete instruction without a look behind it. -/
theorem exists_instruction_eq (i : Instruction) :
    ∃ op operand, i.code = op :: operand ∧ ∀ offset rest,
      instruction setting role offset op (operand ++ rest)
        = (do i.act setting role; return operand.length) := by
  cases i with
  | push code item hcode =>
      obtain ⟨op, operand, rfl⟩ := hcode.exists_cons
      refine ⟨op, operand, rfl, ?_⟩
      intro offset rest
      rw [instruction_push hcode, Instruction.act, bind_assoc]
  | single op hother =>
      refine ⟨op, [], rfl, ?_⟩
      intro offset rest
      rw [instruction, perform_single setting hother, Instruction.act, bind_assoc]
      refine bind_congr fun _ => ?_
      cases role with
      | code => simp
      | parameter => simp [hother]

/-- A run executes a complete instruction at its beginning, and goes on behind it. -/
theorem runFrom_code (i : Instruction) (offset : Nat) (rest : Bytes) :
    runFrom setting role offset (i.code ++ rest)
      = (do i.act setting role; runFrom setting role (offset + i.code.length) rest) := by
  obtain ⟨op, operand, hcode, hinstruction⟩ := exists_instruction_eq setting role i
  have hoffset : offset + 1 + operand.length = offset + (op :: operand).length := by
    rw [List.length_cons]
    omega
  rw [hcode, List.cons_append, runFrom, hinstruction, bind_assoc]
  refine bind_congr fun _ => ?_
  rw [pure_bind, List.drop_left, hoffset]

/-- Complete instructions are run as they are executed, whatever stands behind them. -/
theorem runFrom_codeOf (instructions : List Instruction) (offset : Nat) (rest : Bytes) :
    runFrom setting role offset (codeOf instructions ++ rest)
      = (do
          executeAll setting role instructions
          runFrom setting role (offset + (codeOf instructions).length) rest) := by
  induction instructions generalizing offset with
  | nil => rw [executeAll, pure_bind, codeOf_nil, List.nil_append, List.length_nil, Nat.add_zero]
  | cons i instructions ih =>
      rw [codeOf_cons, List.append_assoc, runFrom_code, executeAll, bind_assoc,
        List.length_append]
      refine bind_congr fun _ => ?_
      rw [ih, Nat.add_assoc]

/-- What a listing ends with is run as it is executed. -/
theorem runFrom_tail (tail : Tail) (offset : Nat) :
    runFrom setting role offset tail.bytes = tail.act setting offset := by
  cases tail with
  | nothing => rw [Tail.bytes, runFrom, Tail.act]
  | cut op following place hshort =>
      rw [Tail.bytes, runFrom, instruction_truncated hshort, Tail.act, bind_assoc]
      rfl

/-- What is left of a segment, which starts at `offset`, is run as it is listed. -/
theorem runFrom_listing (l : Listing) (offset : Nat) :
    runFrom setting role offset l.bytes
      = (do
          executeAll setting role l.instructions
          l.tail.act setting (offset + (codeOf l.instructions).length)) := by
  rw [Listing.bytes, runFrom_codeOf]
  exact bind_congr fun _ => runFrom_tail setting role l.tail _

/-- Running a segment is executing its listing. -/
theorem runSegment_listing (l : Listing) :
    runSegment setting ⟨l.bytes, role⟩ = l.act setting role := by
  rw [runSegment, runFrom_listing, Nat.zero_add, Listing.act]

/-! ### Counting what is executed -/

variable {setting role} {b b' : Bench}

/-- A complete instruction is one step. -/
theorem steps_of_act {i : Instruction} (h : i.act setting role b = .ok () b') :
    b'.steps = b.steps + 1 := by
  obtain ⟨op, operand, -, hinstruction⟩ := exists_instruction_eq setting role i
  have hok : instruction setting role 0 op (operand ++ []) b = .ok operand.length b' := by
    rw [hinstruction, bind_of_ok h]
    rfl
  rw [← steps_leaves_instruction setting role 0 op (operand ++ []) b, leaves_of_ok hok]

/-- A row of them is as many steps as it has instructions. -/
theorem steps_of_executeAll {instructions : List Instruction}
    (h : executeAll setting role instructions b = .ok () b') :
    b'.steps = b.steps + instructions.length := by
  induction instructions generalizing b with
  | nil =>
      cases h
      rfl
  | cons i instructions ih =>
      obtain ⟨_, b₁, hfirst, hrest⟩ := bind_eq_ok_iff.mp h
      rw [ih hrest, steps_of_act hfirst, List.length_cons]
      omega

/-- A segment that is run to its end is made of complete instructions, each of them a step. -/
theorem exists_codeOf_of_runSegment {segment : Segment}
    (h : runSegment setting segment b = .ok () b') :
    ∃ instructions, segment.script = codeOf instructions ∧
      b'.steps = b.steps + instructions.length := by
  obtain ⟨⟨instructions, tail⟩, hbytes⟩ := Listing.exists_bytes_eq segment.script
  have hlisting := runSegment_listing setting segment.role ⟨instructions, tail⟩
  rw [hbytes] at hlisting
  rw [hlisting, Listing.act, bind_eq_ok_iff] at h
  obtain ⟨_, b₁, hall, htail⟩ := h
  cases tail with
  | nothing =>
      cases htail
      exact ⟨instructions, by simpa [Listing.bytes, Tail.bytes] using hbytes.symm,
        steps_of_executeAll hall⟩
  | cut op following place hshort =>
      obtain ⟨_, _, _, hthrow⟩ := bind_eq_ok_iff.mp htail
      cases hthrow

/-- Segments that are run to their ends are made of complete instructions, each of them a step. -/
theorem exists_codeOf_of_runSegments {segments : List Segment}
    (h : runSegments setting segments b = .ok () b') :
    ∃ rows : List (List Instruction), segments.map Segment.script = rows.map codeOf ∧
      b'.steps = b.steps + (rows.map List.length).sum := by
  induction segments generalizing b with
  | nil =>
      cases h
      exact ⟨[], rfl, rfl⟩
  | cons segment segments ih =>
      obtain ⟨_, b₁, hfirst, hrest⟩ := bind_eq_ok_iff.mp h
      obtain ⟨instructions, hscript, hsteps⟩ := exists_codeOf_of_runSegment hfirst
      obtain ⟨rows, hscripts, hsteps'⟩ := ih hrest
      refine ⟨instructions :: rows, by simp [hscript, hscripts], ?_⟩
      rw [hsteps', hsteps, List.map_cons, List.sum_cons, Nat.add_assoc]

/-! ### Where a run reads -/

/-- An instruction takes no more bytes than stand behind its opcode. -/
theorem width_le_of_instruction {offset : Nat} {op : UInt8} {following : Bytes} {width : Nat}
    (h : instruction setting role offset op following b = .ok width b') :
    width ≤ following.length := by
  rcases instruction_or_truncated op following with ⟨i, rest, hscript⟩ | ⟨place, hshort⟩
  · obtain ⟨op', operand, hcode, hinstruction⟩ := exists_instruction_eq setting role i
    rw [hcode, List.cons_append] at hscript
    obtain ⟨rfl, rfl⟩ := List.cons.inj hscript
    rw [hinstruction, bind_eq_ok_iff] at h
    obtain ⟨_, _, _, hwidth⟩ := h
    cases hwidth
    simp
  · rw [instruction_truncated hshort, bind_eq_ok_iff] at h
    obtain ⟨_, _, _, hthrow⟩ := h
    cases hthrow

end Act

/-- What is left of a segment: from a place in it, or from its end, all that it has there. -/
def Remainder.LeftOf (segments : List Segment) (r : Remainder) : Prop :=
  ∃ segment ∈ segments, r.role = segment.role ∧ r.offset ≤ segment.script.length ∧
    r.script = segment.script.drop r.offset

/-- A segment that has not begun is left as a whole. -/
theorem Segment.remainder_leftOf {segments : List Segment} {segment : Segment}
    (h : segment ∈ segments) : segment.remainder.LeftOf segments :=
  ⟨segment, h, rfl, Nat.zero_le _, rfl⟩

/-- The next instruction is taken from what is left, and so are the other segments. -/
theorem mem_of_fetch {remainders : List Remainder} {i : Fetched}
    (h : fetch? remainders = some i) :
    ⟨i.role, i.offset, i.op :: i.following⟩ ∈ remainders ∧ ∀ r ∈ i.others, r ∈ remainders := by
  fun_induction fetch? remainders with
  | case1 => cases h
  | case2 role offset others ih =>
      obtain ⟨hmem, hothers⟩ := ih h
      exact ⟨List.mem_cons_of_mem _ hmem, fun r hr => List.mem_cons_of_mem _ (hothers r hr)⟩
  | case3 role offset op following others =>
      cases h
      exact ⟨List.mem_cons_self, fun r hr => List.mem_cons_of_mem _ hr⟩

namespace Act

variable {setting : Setting} {segments : List Segment} {remainders left : List Remainder}
  {b b' : Bench}

/-- What is left behind an instruction is left of its segment. -/
theorem leftOf_executeFetched {i : Fetched}
    (h : executeFetched setting i b = .ok left b')
    (hnext : Remainder.LeftOf segments ⟨i.role, i.offset, i.op :: i.following⟩)
    (hothers : ∀ r ∈ i.others, r.LeftOf segments) : ∀ r ∈ left, r.LeftOf segments := by
  obtain ⟨width, b₁, hinstruction, hleft⟩ := bind_eq_ok_iff.mp h
  cases hleft
  obtain ⟨segment, hmem, hrole, hoffset, hscript⟩ := hnext
  have hwidth := width_le_of_instruction hinstruction
  have hlength := congrArg List.length hscript
  rw [List.length_cons, List.length_drop] at hlength
  dsimp only at hoffset hscript hlength
  intro r hr
  rcases List.mem_cons.mp hr with rfl | hr
  · -- The next place is behind the operand, which the segment has to its end.
    refine ⟨segment, hmem, hrole, by dsimp only; omega, ?_⟩
    have hfollowing : i.following = segment.script.drop (i.offset + 1) := by
      rw [← List.drop_drop, ← hscript, List.drop_one, List.tail_cons]
    dsimp only
    rw [hfollowing, List.drop_drop]
  · exact hothers r hr

/-- What is left after the next instruction is left of the segments. -/
theorem leftOf_nextInstruction (h : nextInstruction setting remainders b = .ok left b')
    (hall : ∀ r ∈ remainders, r.LeftOf segments) : ∀ r ∈ left, r.LeftOf segments := by
  rw [nextInstruction] at h
  cases hfetch : fetch? remainders with
  | none =>
      rw [hfetch] at h
      cases h
      exact hall
  | some i =>
      rw [hfetch] at h
      obtain ⟨hmem, hothers⟩ := mem_of_fetch hfetch
      exact leftOf_executeFetched h (hall _ hmem) fun r hr => hall r (hothers r hr)

/-- Wherever a run has come to, it is in its segments, and what it goes on with is what they have
there. -/
theorem leftOf_firstInstructions {n : Nat}
    (h : firstInstructions setting n remainders b = .ok left b')
    (hall : ∀ r ∈ remainders, r.LeftOf segments) : ∀ r ∈ left, r.LeftOf segments := by
  induction n generalizing remainders b with
  | zero =>
      cases h
      exact hall
  | succ n ih =>
      obtain ⟨remainders', b₁, hnext, hrest⟩ := bind_eq_ok_iff.mp h
      exact ih hrest (leftOf_nextInstruction hnext hall)

end Act

/-- Reading and executing a script in one pass comes to the same as taking it apart and then
executing what it is made of.

* Every script is the bytes of exactly one listing: complete instructions, and nothing or one push
  that is cut off.
* Running a segment is executing the instructions of its listing in order, each at the cost of a
  step. If the last push is cut off and a step is left for it, the fault names the place of the
  field that is too short.
* Wherever a run has come to after some instructions, it is at a place in its segments, at their
  ends at the latest, and what it reads from there on is what they have there.
* A machine that halts has loaded complete instructions only, and has counted each of them once. -/
theorem runs_as_listed (setting : Setting) :
    (∀ script, ∃! l : Listing, l.bytes = script) ∧
    (∀ role (l : Listing), runSegment setting ⟨l.bytes, role⟩ = l.act setting role) ∧
    (∀ segments n b left b',
      firstInstructions setting n (segments.map Segment.remainder) b = .ok left b' →
      ∀ r ∈ left, r.LeftOf segments) ∧
    (∀ commands, let m := (Machine.new setting).after commands
      m.phase = .halted →
        ∃ rows : List (List Instruction),
          (loadedFirst commands).map Segment.script = rows.map codeOf ∧
          m.bench.steps = (rows.map List.length).sum) := by
  refine ⟨?_, ?_, ?_, ?_⟩
  · intro script
    obtain ⟨l, hbytes⟩ := Listing.exists_bytes_eq script
    exact ⟨l, hbytes, fun l' hbytes' => Listing.bytes_inj (hbytes'.trans hbytes.symm)⟩
  · intro role l
    exact runSegment_listing setting role l
  · intro segments n b left b' hfirst
    refine leftOf_firstInstructions hfirst ?_
    intro r hr
    obtain ⟨segment, hmem, rfl⟩ := List.mem_map.mp hr
    exact Segment.remainder_leftOf hmem
  · intro commands m hhalted
    have hrun := Machine.runSegments_of_halted hhalted
    obtain ⟨rows, hscripts, hsteps⟩ := exists_codeOf_of_runSegments hrun
    -- The segments run in the opposite order, which the sum does not show.
    refine ⟨rows.reverse, ?_, ?_⟩
    · rw [List.map_reverse, ← hscripts, List.map_reverse, List.reverse_reverse]
    · rw [List.map_reverse, List.sum_reverse]
      exact hsteps.trans (Nat.zero_add _)

/-- Operands that look like checks of signatures, and are none: the machine halts after one step for
the parameter and three for the code. After the first step it is at the end of the parameter and
the beginning of the code. A push that is cut off, at offset 1, lacks the data behind its length of
two bytes, so the fault names offset 4. -/
theorem runs_as_listed_operands :
    let setting : Setting := ⟨.standard, ⟨fun _ _ _ => .error .mismatch⟩, []⟩
    let code : Bytes := [0x76, 0x61, 0x4C, 2, 0xAC, 0x75]
    let parameter : Bytes := [2, 0xAC, 0xAE]
    let m := (Machine.new setting).after [.load code .code, .load parameter .parameter, .execute]
    let l : Listing :=
      ⟨[.push [0x51] [1] (@PushInstruction.number 1 (by decide) (by decide))],
        .cut 0x4D [5, 0, 9] 3 (.countedWide (by decide))⟩
    (m.phase = .halted ∧ ∃ rows : List (List Instruction),
      [code, parameter] = rows.map codeOf ∧ m.bench.steps = (rows.map List.length).sum ∧
      m.bench.steps = 4) ∧
    (∃ b, firstInstructions setting 1
        ([⟨parameter, .parameter⟩, ⟨code, .code⟩].map Segment.remainder) Bench.fresh
          = .ok [⟨.parameter, 3, []⟩, ⟨.code, 0, code⟩] b ∧
      ∀ r ∈ [⟨.parameter, 3, []⟩, ⟨.code, 0, code⟩],
        Remainder.LeftOf [⟨parameter, .parameter⟩, ⟨code, .code⟩] r) ∧
    (l.bytes = [0x51, 0x4D, 5, 0, 9] ∧
      ∃ b, runSegment setting ⟨[0x51, 0x4D, 5, 0, 9], .code⟩ Bench.fresh
        = .error (.truncatedPush 4) b) := by
  intro setting code parameter m l
  obtain ⟨-, hlisted, hplaces, hhalts⟩ := runs_as_listed setting
  have hhalted : m.phase = .halted := by decide +kernel
  have hsteps : m.bench.steps = 4 := by decide +kernel
  obtain ⟨rows, hscripts, hcount⟩ := hhalts _ hhalted
  have hfirst : ∃ b, firstInstructions setting 1
      ([⟨parameter, .parameter⟩, ⟨code, .code⟩].map Segment.remainder) Bench.fresh
        = .ok [⟨.parameter, 3, []⟩, ⟨.code, 0, code⟩] b := ⟨_, rfl⟩
  obtain ⟨b, hfirst⟩ := hfirst
  have hfault : ∃ b, l.act setting .code Bench.fresh = .error (.truncatedPush 4) b := ⟨_, rfl⟩
  rw [← hlisted .code l] at hfault
  exact ⟨⟨hhalted, rows, hscripts, hcount, hsteps⟩, ⟨b, hfirst, hplaces _ _ _ _ _ hfirst⟩, rfl,
    hfault⟩

end Countersign
