import Countersign.Proofs.Machine.Plan

/-!
# `Countersign.Proofs.Machine.Spending`: plans that stay within their credit

A `Tariff` says what each move costs and what it earns. A plan is `Affordable` with a credit if
nothing that it may do costs more than it has left by then, whatever the answers are. This is read
off the plan, without carrying it out. `forall_points` turns it into an invariant: if a move keeps
the invariant for the credit that it leaves, then every point of the run has it.

Two tariffs are used. With `Tariff.steps` beginning an instruction costs one, and the bytes of the
segments pay for the run (`steps_of_mem_points`). With `Tariff.work` beginning an instruction earns
one, which pays for an item on the stack or for a question to the scheme, and an item that is taken
off the stack is paid back. So the keys that a multiple check takes pay for the questions about
them, and no instruction ends in debt (`work_of_mem_points`). What a plan costs is one lemma for
both, up to `affordable_runSegments`.
-/

set_option autoImplicit false

namespace Countersign

/-- The prices by which moves are charged. -/
structure Tariff where
  /-- What it costs to begin an instruction. -/
  step : Nat
  /-- What an item on the stack costs. Beginning an instruction earns as much. -/
  item : Nat
  /-- What a question to the scheme costs. Taking an item off the stack earns as much. -/
  question : Nat

/-- Beginning an instruction costs one, and all else is free. -/
def Tariff.steps : Tariff :=
  ⟨1, 0, 0⟩

/-- An item on the stack and a question to the scheme cost one each. Beginning an instruction earns
one, and so does taking an item off the stack. -/
def Tariff.work : Tariff :=
  ⟨0, 1, 1⟩

/-- How many bytes the scripts of several segments have. -/
def bytesIn (segments : List Segment) : Nat :=
  (segments.flatMap Segment.script).length

/-- The bytes of a segment are added to those of the others. -/
theorem bytesIn_cons (segment : Segment) (segments : List Segment) :
    bytesIn (segment :: segments) = segment.script.length + bytesIn segments := by
  rw [bytesIn, List.flatMap_cons, List.length_append, bytesIn]

/-- The order of the segments is no matter. -/
theorem bytesIn_reverse (segments : List Segment) : bytesIn segments.reverse = bytesIn segments :=
  ((List.reverse_perm segments).flatMap_right Segment.script).length_eq

/-- What a move costs. -/
def Move.cost (t : Tariff) : {α : Type} → Move α → Nat
  | _, .tick => t.step
  | _, .push _ => t.item
  | _, .ask _ _ _ => t.question
  | _, .pop _ | _, .peek _ | _, .allow _ | _, .digest => 0

/-- What a move earns. -/
def Move.earn (t : Tariff) : {α : Type} → Move α → Nat
  | _, .tick => t.item
  | _, .pop _ => t.question
  | _, .push _ | _, .peek _ | _, .allow _ | _, .digest | _, .ask _ _ _ => 0

namespace Plan

variable {α β : Type} {t : Tariff}

/-- No move of the plan costs more than what is left of the credit by then, and at the end as much
is left as `left` says. -/
def Affordable (t : Tariff) : (credit : Nat) → Plan α → (left : α → Nat) → Prop
  | credit, done answer, left => left answer ≤ credit
  | _, giveUp _, _ => True
  | credit, move m rest, left =>
    m.cost t ≤ credit ∧ ∀ answer, Affordable t (credit - m.cost t + m.earn t) (rest answer) left

/-- A plan that can be afforded can be afforded with more credit. -/
theorem Affordable.mono {credit credit' : Nat} {x : Plan α} {left : α → Nat}
    (h : Affordable t credit x left) (hle : credit ≤ credit') : Affordable t credit' x left := by
  induction x generalizing credit credit' with
  | done answer => exact Nat.le_trans h hle
  | giveUp mistake => trivial
  | move m rest ih =>
      obtain ⟨hcost, hrest⟩ := h
      exact ⟨by omega, fun answer => ih answer (hrest answer) (by omega)⟩

/-- Two plans, one after the other, can be afforded if the second can be paid for by what the first
leaves. -/
theorem Affordable.bind {credit : Nat} {x : Plan α} {f : α → Plan β} {middle : α → Nat}
    {left : β → Nat} (hx : Affordable t credit x middle)
    (hf : ∀ answer, Affordable t (middle answer) (f answer) left) :
    Affordable t credit (x >>= f) left := by
  induction x generalizing credit with
  | done answer => exact (hf answer).mono hx
  | giveUp mistake => trivial
  | move m rest ih => exact ⟨hx.1, fun answer => ih answer (hx.2 answer)⟩

/-- An invariant that depends on the credit and that every affordable move keeps holds at all points
of an affordable plan. -/
theorem forall_points {setting : Setting} (inv : Nat → Bench → Prop) (post : Bench → Prop)
    (hinv : ∀ {credit b}, inv credit b → post b)
    (hanswers : ∀ {γ : Type} {m : Move γ} {credit b answer b'}, m.cost t ≤ credit → inv credit b →
      m.Answers setting b answer b' → inv (credit - m.cost t + m.earn t) b')
    (hrefuses : ∀ {γ : Type} {m : Move γ} {credit b fault b'}, m.cost t ≤ credit → inv credit b →
      m.Refuses setting b fault b' → post b')
    {credit : Nat} {x : Plan α} {left : α → Nat} {b : Bench} (hx : Affordable t credit x left)
    (hb : inv credit b) : ∀ p ∈ x.points setting b, post p := by
  induction x generalizing credit b with
  | done answer =>
      intro p hp
      rw [points, List.mem_singleton] at hp
      exact hp ▸ hinv hb
  | giveUp mistake =>
      intro p hp
      rw [points, List.mem_singleton] at hp
      exact hp ▸ hinv hb
  | move m rest ih =>
      -- The bench before the move has the invariant, and the move hands it on or ends the run.
      obtain ⟨hcost, hrest⟩ := hx
      intro p hp
      rw [points, List.mem_cons] at hp
      rcases hp with rfl | hp
      · exact hinv hb
      · cases hm : m.act setting b with
        | ok answer b' =>
            rw [hm] at hp
            exact ih answer (hrest answer) (hanswers hcost hb (Move.act_eq_ok_iff.mp hm)) p hp
        | error fault b' =>
            rw [hm, List.mem_singleton] at hp
            exact hp ▸ hrefuses hcost hb (Move.act_eq_error_iff.mp hm)

/-! ### What instructions cost -/

/-- An answer costs nothing. -/
theorem affordable_pure (t : Tariff) (k : Nat) (answer : α) :
    Affordable t k (pure answer) fun _ => k :=
  Nat.le_refl k

/-- Beginning an instruction is paid for, and earns the price of an item. -/
theorem affordable_tick (t : Tariff) (k : Nat) :
    Affordable t (k + t.step) (ofMove .tick) fun _ => k + t.item :=
  ⟨Nat.le_add_left _ _, fun _ => by simp [Affordable, Move.cost, Move.earn]⟩

/-- Putting an item on the stack costs the price of an item. -/
theorem affordable_push (t : Tariff) (k : Nat) (item : Bytes) :
    Affordable t (k + t.item) (ofMove (.push item)) fun _ => k :=
  ⟨Nat.le_add_left _ _, fun _ => by simp [Affordable, Move.cost, Move.earn]⟩

/-- Taking an item off the stack earns the price of a question. -/
theorem affordable_pop (t : Tariff) (k : Nat) (op : UInt8) :
    Affordable t k (ofMove (.pop op)) fun _ => k + t.question :=
  ⟨Nat.zero_le _, fun _ => by simp [Affordable, Move.cost, Move.earn]⟩

/-- A question costs its price. -/
theorem affordable_ask (t : Tariff) (k : Nat) (publicKey message signature : Bytes) :
    Affordable t (k + t.question) (ofMove (.ask publicKey message signature)) fun _ => k :=
  ⟨Nat.le_add_left _ _, fun _ => by simp [Affordable, Move.cost, Move.earn]⟩

/-- Looking at the top of the stack costs nothing. -/
theorem affordable_peek (t : Tariff) (k : Nat) (op : UInt8) :
    Affordable t k (ofMove (.peek op)) fun _ => k :=
  ⟨Nat.zero_le _, fun _ => by simp [Affordable, Move.cost, Move.earn]⟩

/-- Checking a number of keys costs nothing. -/
theorem affordable_allow (t : Tariff) (k : Nat) (n : Int) :
    Affordable t k (ofMove (.allow n)) fun _ => k :=
  ⟨Nat.zero_le _, fun _ => by simp [Affordable, Move.cost, Move.earn]⟩

/-- Taking the digest costs nothing. -/
theorem affordable_digest (t : Tariff) (k : Nat) :
    Affordable t k (ofMove .digest) fun _ => k :=
  ⟨Nat.zero_le _, fun _ => by simp [Affordable, Move.cost, Move.earn]⟩

/-- Every item that is taken can pay for a question. -/
theorem affordable_popMany (t : Tariff) (k : Nat) (op : UInt8) (n : Nat) (taken : List Bytes) :
    Affordable t (k + taken.length * t.question) (popMany op n taken)
      fun items => k + items.length * t.question := by
  induction n generalizing taken with
  | zero => exact Nat.le_refl _
  | succ n ih =>
      refine (affordable_pop t _ op).bind fun item => (ih (item :: taken)).mono ?_
      rw [List.length_cons, Nat.succ_mul]
      omega

/-- There are no more questions than keys. -/
theorem affordable_matchKeys (t : Tariff) (k : Nat) (digest : Bytes) (spare : Nat)
    (publicKeys signatures : List Bytes) :
    Affordable t (k + publicKeys.length * t.question) (matchKeys digest spare publicKeys signatures)
      fun _ => k := by
  induction publicKeys generalizing spare signatures with
  | nil =>
      cases signatures with
      | nil => exact (affordable_pure t k true).mono (Nat.le_add_right k _)
      | cons signature signatures => exact (affordable_pure t k false).mono (Nat.le_add_right k _)
  | cons key keys ih =>
      cases signatures with
      | nil => exact (affordable_pure t k true).mono (Nat.le_add_right k _)
      | cons signature signatures =>
          -- The question about the first key is paid with its own share, whatever the answer is.
          rw [matchKeys.eq_def, List.length_cons, Nat.succ_mul, ← Nat.add_assoc]
          refine (affordable_ask t _ key digest signature).bind fun accepted => ?_
          cases accepted with
          | true => exact ih spare signatures
          | false =>
              cases spare with
              | zero => exact (affordable_pure t k false).mono (Nat.le_add_right k _)
              | succ spare => exact ih spare (signature :: signatures)

/-- A number costs no more than the item it is read from. -/
theorem affordable_popNumber (t : Tariff) (k : Nat) : Affordable t k popNumber fun _ => k :=
  (affordable_pop t k _).bind fun _ => (affordable_pure t k _).mono (Nat.le_add_right k _)

/-- The questions of a multiple check are paid for by the items it takes. -/
theorem affordable_checkMultisig (t : Tariff) (k : Nat) :
    Affordable t k checkMultisig fun _ => k := by
  refine (affordable_popNumber t k).bind fun n => (affordable_allow t k n).bind fun _ => ?_
  refine ((affordable_popMany t k _ _ []).mono (by simp)).bind fun publicKeys => ?_
  -- The keys that were taken are the credit that the questions are paid with.
  refine (affordable_popNumber t _).bind fun m => ?_
  split
  · trivial
  · refine ((affordable_popMany t (k + publicKeys.length * t.question) _ _ []).mono
      (by simp)).bind fun signatures => ?_
    refine (affordable_digest t _).bind fun digest => ?_
    exact (affordable_matchKeys t k digest _ publicKeys signatures).mono (Nat.le_add_right _ _)

/-- Reading an operand costs nothing. -/
theorem affordable_operand (t : Tariff) (k offset n : Nat) (following : Bytes) :
    Affordable t k (operand offset n following) fun _ => k := by
  rw [operand]
  cases Bytes.splitAt? n following with
  | none => trivial
  | some cut => exact affordable_pure t k cut.1

/-- No instruction puts more than one item onto the stack that is not paid for by those it takes. -/
theorem affordable_perform (t : Tariff) (k offset : Nat) (op : UInt8) (following : Bytes) :
    Affordable t (k + t.item) (perform offset op following) fun _ => k := by
  -- Most instructions end with a push, and differ in how they come by the item.
  have hpush (item : Bytes) (width : Nat) :
      Affordable t (k + t.item) (do ofMove (.push item); return width : Plan Nat) fun _ => k :=
    (affordable_push t k item).bind fun _ => affordable_pure t k width
  rw [perform]
  cases Operation.ofByte op with
  | pushEmpty => exact hpush _ _
  | pushBytes count => exact (affordable_operand t _ _ _ _).bind fun item => hpush item _
  | pushCounted =>
      exact (affordable_operand t _ _ _ _).bind fun _ =>
        (affordable_operand t _ _ _ _).bind fun item => hpush item _
  | pushCountedWide =>
      exact (affordable_operand t _ _ _ _).bind fun _ =>
        (affordable_operand t _ _ _ _).bind fun item => hpush item _
  | pushNumber n => exact hpush _ _
  | nop => exact (affordable_pure t k 0).mono (Nat.le_add_right k _)
  | drop =>
      exact (affordable_pop t _ op).bind fun _ => (affordable_pure t k 0).mono (by omega)
  | dup => exact (affordable_peek t _ op).bind fun item => hpush item _
  | checkSignature =>
      refine (affordable_pop t _ op).bind fun publicKey => ?_
      refine (affordable_pop t _ op).bind fun signature => ?_
      refine (affordable_digest t _).bind fun digest => ?_
      refine (affordable_ask t _ publicKey digest signature).bind fun accepted => ?_
      exact (hpush _ _).mono (Nat.le_add_right _ _)
  | checkMultisig => exact (affordable_checkMultisig t _).bind fun accepted => hpush _ _
  | unknown => trivial

/-- An instruction costs the price of beginning it, and earns what it does with an item. -/
theorem affordable_instruction (t : Tariff) (k : Nat) (role : Role) (offset : Nat) (op : UInt8)
    (following : Bytes) :
    Affordable t (k + t.step) (instruction role offset op following) fun _ => k := by
  refine (affordable_tick t k).bind fun _ => ?_
  split
  · trivial
  · exact affordable_perform t k offset op following

/-- Every instruction has at least the byte of its opcode. -/
theorem affordable_runFrom (t : Tariff) (k : Nat) (role : Role) (offset : Nat) (script : Bytes) :
    Affordable t (k + script.length * t.step) (runFrom role offset script) fun _ => k := by
  fun_induction runFrom role offset script with
  | case1 => exact (affordable_pure t k ()).mono (Nat.le_add_right k _)
  | case2 offset op following ih =>
      rw [List.length_cons, Nat.succ_mul, ← Nat.add_assoc]
      refine (affordable_instruction t _ role offset op following).bind fun width => ?_
      refine (ih width).mono (Nat.add_le_add_left (Nat.mul_le_mul_right _ ?_) k)
      rw [List.length_drop]
      exact Nat.sub_le _ _

/-- A run is paid for by the bytes of its segments. -/
theorem affordable_runSegments (t : Tariff) (k : Nat) (segments : List Segment) :
    Affordable t (k + bytesIn segments * t.step) (runSegments segments) fun _ => k := by
  induction segments with
  | nil => exact (affordable_pure t k ()).mono (Nat.le_add_right k _)
  | cons segment segments ih =>
      rw [bytesIn_cons, Nat.add_comm segment.script.length, Nat.add_mul, ← Nat.add_assoc]
      exact (affordable_runFrom t _ segment.role 0 segment.script).bind fun _ => ih

/-! ### What is known at every point of a run -/

/-- Steps only go up, and not by more than the credit for them. -/
theorem steps_of_mem_points {setting : Setting} {credit : Nat} {x : Plan α} {left : α → Nat}
    (hx : Affordable .steps credit x left) {b p : Bench} (hp : p ∈ x.points setting b) :
    b.steps ≤ p.steps ∧ p.steps ≤ b.steps + credit := by
  refine forall_points (t := .steps)
    (fun k p => b.steps ≤ p.steps ∧ p.steps + k ≤ b.steps + credit)
    (fun p => b.steps ≤ p.steps ∧ p.steps ≤ b.steps + credit) ?_ ?_ ?_ hx
    ⟨Nat.le_refl _, Nat.le_refl _⟩ p hp
  · rintro k p ⟨hle, hcredit⟩
    exact ⟨hle, by omega⟩
  · rintro γ m k p answer p' hcost ⟨hle, hcredit⟩ hanswers
    cases hanswers with
    | tick =>
        have hpaid : 1 ≤ k := hcost
        simp only [Move.cost, Move.earn, Tariff.steps, Bench.steps_ticked]
        omega
    | _ => exact ⟨hle, hcredit⟩
  · rintro γ m k p fault p' hcost ⟨hle, hcredit⟩ hrefuses
    cases hrefuses with
    | tick =>
        -- A step that is refused is counted, but it was paid for like any other.
        have hpaid : 1 ≤ k := hcost
        rw [Bench.steps_ticked]
        omega
    | _ => exact ⟨hle, by omega⟩

/-- What carrying out a plan does to the number of steps. -/
theorem steps_leaves (setting : Setting) {credit : Nat} {x : Plan α} {left : α → Nat}
    (hx : Affordable .steps credit x left) (b : Bench) :
    b.steps ≤ ((x.act setting).leaves b).steps ∧
      ((x.act setting).leaves b).steps ≤ b.steps + credit :=
  steps_of_mem_points hx (List.mem_of_getLast? (getLast?_points setting x b))

/-- What lies on the stack and what was asked is paid for by steps. The step that exceeds the limit
is counted, and pays for nothing. -/
theorem work_of_mem_points {setting : Setting} {credit : Nat} {x : Plan α} {left : α → Nat}
    (hx : Affordable .work credit x left) {b p : Bench}
    (hwork : b.stack.depth + b.calls.length + credit ≤ b.steps)
    (hsteps : b.steps ≤ setting.limits.maxSteps.toNat) (hp : p ∈ x.points setting b) :
    p.stack.depth + p.calls.length ≤ min p.steps setting.limits.maxSteps.toNat ∧
      p.steps ≤ setting.limits.maxSteps.toNat + 1 := by
  refine forall_points (t := .work)
    (fun k p => p.stack.depth + p.calls.length + k ≤ p.steps ∧
      p.steps ≤ setting.limits.maxSteps.toNat)
    (fun p => p.stack.depth + p.calls.length ≤ min p.steps setting.limits.maxSteps.toNat ∧
      p.steps ≤ setting.limits.maxSteps.toNat + 1) ?_ ?_ ?_ hx ⟨hwork, hsteps⟩ p hp
  · rintro k p ⟨hwork, hsteps⟩
    omega
  · rintro γ m k p answer p' hcost ⟨hwork, hsteps⟩ hanswers
    cases hanswers with
    | tick hlt =>
        simp only [Move.cost, Move.earn, Tariff.work, Bench.steps_ticked, Bench.stack_ticked,
          Bench.calls_ticked]
        omega
    | push =>
        have hpaid : 1 ≤ k := hcost
        simp only [Move.cost, Move.earn, Tariff.work, Stack.depth_push]
        omega
    | @pop _ op item items hitems =>
        -- The item that leaves the stack is paid back, and the credit can be spent again.
        have hdepth : p.stack.depth = items.length + 1 := by
          rw [p.stack.depth_eq, hitems, List.length_cons]
        simp only [Move.cost, Move.earn, Tariff.work, Bench.depth_withItems, Bench.steps_withItems,
          Bench.calls_withItems]
        omega
    | ask =>
        have hpaid : 1 ≤ k := hcost
        simp only [Move.cost, Move.earn, Tariff.work, List.length_cons]
        omega
    | _ => exact ⟨hwork, hsteps⟩
  · rintro γ m k p fault p' hcost ⟨hwork, hsteps⟩ hrefuses
    cases hrefuses with
    | tick =>
        rw [Bench.steps_ticked, Bench.stack_ticked, Bench.calls_ticked]
        omega
    | _ => omega

end Plan

end Countersign
