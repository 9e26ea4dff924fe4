import Countersign.Proofs.Machine.Act

/-!
# `Countersign.Proofs.Machine.Move`: the seven things that can be done to a bench

Everything that a machine does to its bench is one of seven moves. `Move.Answers` and `Move.Refuses`
say all there is to say about them: when a move answers, with what, and which bench it leaves, and
when it refuses, for which fault. On every bench a move does exactly one of the two
(`Move.act_eq_ok_iff`, `Move.act_eq_error_iff`), so what is claimed of the machine is checked
on these cases and not on the opcodes.

Only three moves look at a limit. A move that refuses leaves the bench as it was, but a step that
exceeds the limit is counted.
-/

set_option autoImplicit false

namespace Countersign

namespace Bench

/-- Counting a step makes it one more. -/
@[simp] theorem steps_ticked (b : Bench) : b.ticked.steps = b.steps + 1 :=
  rfl

/-- Counting a step does not touch the stack. -/
@[simp] theorem stack_ticked (b : Bench) : b.ticked.stack = b.stack :=
  rfl

/-- Counting a step asks nothing. -/
@[simp] theorem calls_ticked (b : Bench) : b.ticked.calls = b.calls :=
  rfl

/-- Changing the stack counts no step. -/
@[simp] theorem steps_withItems (b : Bench) (items : List Bytes) :
    (b.withItems items).steps = b.steps :=
  rfl

/-- The stack is as deep as the items it was given are many. -/
@[simp] theorem depth_withItems (b : Bench) (items : List Bytes) :
    (b.withItems items).stack.depth = items.length :=
  rfl

/-- A stack with an item on top is one deeper than what lies below. -/
theorem depth_of_cons {b : Bench} {item : Bytes} {items : List Bytes}
    (h : b.stack.items = item :: items) : b.stack.depth = (b.withItems items).stack.depth + 1 := by
  rw [b.stack.depth_eq, h, List.length_cons, depth_withItems]

/-- Changing the stack asks nothing. -/
@[simp] theorem calls_withItems (b : Bench) (items : List Bytes) :
    (b.withItems items).calls = b.calls :=
  rfl

end Bench

/-- A push makes the stack one deeper. -/
@[simp] theorem Stack.depth_push (s : Stack) (item : Bytes) : (s.push item).depth = s.depth + 1 :=
  rfl

/-- Something done to a bench that is not taken apart any further, with the type of its answer. -/
inductive Move : Type → Type
  /-- Begin an instruction. -/
  | tick : Move Unit
  | push (item : Bytes) : Move Unit
  | pop (op : UInt8) : Move Bytes
  /-- Read the top item and leave it where it is. -/
  | peek (op : UInt8) : Move Bytes
  /-- Let a multiple check name this many keys. -/
  | allow (n : Int) : Move Unit
  | digest : Move Bytes
  | ask (publicKey message signature : Bytes) : Move Bool

namespace Act

/-- Reads the top item, for the instruction `op`. -/
def peek (op : UInt8) : Act Bytes := do
  match (← get).stack.top? with
  | none => throw (.stackUnderflow op)
  | some item => return item

/-- Refuses to let a multiple check name no key, or more keys than the limit. -/
def allow (limits : Limits) (n : Int) : Act Unit :=
  if n < 1 ∨ limits.maxMultisigKeys.toNat < n.toNat then
    throw (.invalidKeyCount n limits.maxMultisigKeys.toNat)
  else pure ()

/-- The top item is read and stays where it is. -/
theorem peek_of_cons {op : UInt8} {b : Bench} {item : Bytes} {items : List Bytes}
    (h : b.stack.items = item :: items) : peek op b = .ok item b := by
  have htop : b.stack.top? = some item := by rw [Stack.top?, h, List.head?_cons]
  rw [peek, bind_of_ok (get_eq b), htop]
  rfl

/-- There is nothing to read on an empty stack. -/
theorem peek_of_nil {op : UInt8} {b : Bench} (h : b.stack.items = []) :
    peek op b = .error (.stackUnderflow op) b := by
  have htop : b.stack.top? = none := by rw [Stack.top?, h, List.head?_nil]
  rw [peek, bind_of_ok (get_eq b), htop]
  rfl

/-- A digest that is there is given again, and the body is not read. -/
theorem messageDigest_of_some {body digest : Bytes} {b : Bench} (h : b.digest = some digest) :
    messageDigest body b = .ok digest b := by
  rw [messageDigest, bind_of_ok (get_eq b), h]
  rfl

end Act

namespace Move

variable {α : Type}

/-- What a move does. -/
def act (setting : Setting) : {α : Type} → Move α → Act α
  | _, .tick => Act.tick setting.limits
  | _, .push item => Act.push setting.limits item
  | _, .pop op => Act.pop op
  | _, .peek op => Act.peek op
  | _, .allow n => Act.allow setting.limits n
  | _, .digest => Act.messageDigest setting.body
  | _, .ask publicKey message signature => Act.ask setting.scheme publicKey message signature

/-- When a move answers, and the bench that it leaves then. -/
inductive Answers (setting : Setting) : {α : Type} → Move α → Bench → α → Bench → Prop
  | tick {b : Bench} : b.steps < setting.limits.maxSteps.toNat →
      Answers setting .tick b () b.ticked
  | push {b : Bench} {item : Bytes} : item.length ≤ setting.limits.maxItemSize.toNat →
      b.stack.depth < setting.limits.maxStackSize.toNat →
      Answers setting (.push item) b () { b with stack := b.stack.push item }
  | pop {b : Bench} {op : UInt8} {item : Bytes} {items : List Bytes} :
      b.stack.items = item :: items → Answers setting (.pop op) b item (b.withItems items)
  | peek {b : Bench} {op : UInt8} {item : Bytes} {items : List Bytes} :
      b.stack.items = item :: items → Answers setting (.peek op) b item b
  | allow {b : Bench} {n : Int} : 1 ≤ n → n.toNat ≤ setting.limits.maxMultisigKeys.toNat →
      Answers setting (.allow n) b () b
  | digestFirst {b : Bench} : b.digest = none →
      Answers setting .digest b (Sha256.digest setting.body)
        { b with digest := some (Sha256.digest setting.body), bodyReads := b.bodyReads + 1 }
  | digestAgain {b : Bench} {message : Bytes} : b.digest = some message →
      Answers setting .digest b message b
  | ask {b : Bench} {publicKey message signature : Bytes} :
      Answers setting (.ask publicKey message signature) b
        (setting.scheme.accepts publicKey message signature)
        { b with calls := ⟨publicKey, message, signature,
            setting.scheme.accepts publicKey message signature⟩ :: b.calls }

/-- When a move refuses, and the bench that it leaves then. -/
inductive Refuses (setting : Setting) : {α : Type} → Move α → Bench → Fault → Bench → Prop
  | tick {b : Bench} : setting.limits.maxSteps.toNat ≤ b.steps →
      Refuses setting .tick b (.stepLimit setting.limits.maxSteps.toNat) b.ticked
  | pushLarge {b : Bench} {item : Bytes} : setting.limits.maxItemSize.toNat < item.length →
      Refuses setting (.push item) b
        (.itemTooLarge item.length setting.limits.maxItemSize.toNat) b
  | pushFull {b : Bench} {item : Bytes} : item.length ≤ setting.limits.maxItemSize.toNat →
      setting.limits.maxStackSize.toNat ≤ b.stack.depth →
      Refuses setting (.push item) b (.stackOverflow setting.limits.maxStackSize.toNat) b
  | pop {b : Bench} {op : UInt8} : b.stack.items = [] →
      Refuses setting (.pop op) b (.stackUnderflow op) b
  | peek {b : Bench} {op : UInt8} : b.stack.items = [] →
      Refuses setting (.peek op) b (.stackUnderflow op) b
  | allow {b : Bench} {n : Int} : n < 1 ∨ setting.limits.maxMultisigKeys.toNat < n.toNat →
      Refuses setting (.allow n) b
        (.invalidKeyCount n setting.limits.maxMultisigKeys.toNat) b

section
variable {setting : Setting} {m : Move α} {b b' : Bench} {answer : α} {fault : Fault}

/-- A move that is listed with an answer gives that answer. -/
theorem act_of_answers (h : m.Answers setting b answer b') :
    m.act setting b = .ok answer b' := by
  cases h with
  | tick hlt => exact Act.tick_of_lt hlt
  | push hsize hdepth => exact Act.push_of_room hsize hdepth
  | pop hitems => exact Act.pop_of_cons hitems
  | peek hitems => exact Act.peek_of_cons hitems
  | allow hpos hle =>
      rw [act, Act.allow, if_neg (by omega)]
      rfl
  | digestFirst hnone => exact Act.messageDigest_of_none hnone
  | digestAgain hsome => exact Act.messageDigest_of_some hsome
  | ask => exact Act.ask_eq _ _ _ _ b

/-- A move that is listed with a fault meets that fault. -/
theorem act_of_refuses (h : m.Refuses setting b fault b') :
    m.act setting b = .error fault b' := by
  cases h with
  | tick hle => exact Act.tick_of_le hle
  | pushLarge hlarge => exact Act.push_of_tooLarge hlarge b
  | pushFull hsize hfull => exact Act.push_of_full hsize hfull
  | pop hitems => exact Act.pop_of_nil hitems
  | peek hitems => exact Act.peek_of_nil hitems
  | allow hrefused =>
      rw [act, Act.allow, if_pos hrefused]
      rfl

end

/-- There is no bench on which a move does neither. -/
theorem answers_or_refuses (setting : Setting) (m : Move α) (b : Bench) :
    (∃ answer b', m.Answers setting b answer b') ∨ ∃ fault b', m.Refuses setting b fault b' := by
  -- Each guard of a move is the negation of the others, so one of the two lists has an entry.
  cases m with
  | tick =>
      rcases Nat.lt_or_ge b.steps setting.limits.maxSteps.toNat with hlt | hge
      · exact .inl ⟨_, _, .tick hlt⟩
      · exact .inr ⟨_, _, .tick hge⟩
  | push item =>
      rcases Nat.lt_or_ge setting.limits.maxItemSize.toNat item.length with hlarge | hsize
      · exact .inr ⟨_, _, .pushLarge hlarge⟩
      · rcases Nat.lt_or_ge b.stack.depth setting.limits.maxStackSize.toNat with hroom | hfull
        · exact .inl ⟨_, _, .push hsize hroom⟩
        · exact .inr ⟨_, _, .pushFull hsize hfull⟩
  | pop op =>
      cases hitems : b.stack.items with
      | nil => exact .inr ⟨_, _, .pop hitems⟩
      | cons item items => exact .inl ⟨_, _, .pop hitems⟩
  | peek op =>
      cases hitems : b.stack.items with
      | nil => exact .inr ⟨_, _, .peek hitems⟩
      | cons item items => exact .inl ⟨_, _, .peek hitems⟩
  | allow n =>
      by_cases hrefused : n < 1 ∨ setting.limits.maxMultisigKeys.toNat < n.toNat
      · exact .inr ⟨_, _, .allow hrefused⟩
      · exact .inl ⟨_, _, .allow (by omega) (by omega)⟩
  | digest =>
      cases hdigest : b.digest with
      | none => exact .inl ⟨_, _, .digestFirst hdigest⟩
      | some message => exact .inl ⟨_, _, .digestAgain hdigest⟩
  | ask publicKey message signature => exact .inl ⟨_, _, .ask⟩

variable {setting : Setting} {m : Move α} {b b' : Bench} {answer : α} {fault : Fault}

/-- The list of answers is complete. -/
theorem act_eq_ok_iff : m.act setting b = .ok answer b' ↔ m.Answers setting b answer b' := by
  -- A move that answers cannot be on the other list, as it would have to fault.
  refine ⟨fun h => ?_, act_of_answers⟩
  rcases answers_or_refuses setting m b with ⟨answer', b'', hanswers⟩ | ⟨fault, b'', hrefuses⟩
  · rw [act_of_answers hanswers] at h
    cases h
    exact hanswers
  · rw [act_of_refuses hrefuses] at h
    cases h

/-- The list of faults is complete. -/
theorem act_eq_error_iff : m.act setting b = .error fault b' ↔ m.Refuses setting b fault b' := by
  refine ⟨fun h => ?_, act_of_refuses⟩
  rcases answers_or_refuses setting m b with ⟨answer', b'', hanswers⟩ | ⟨fault, b'', hrefuses⟩
  · rw [act_of_answers hanswers] at h
    cases h
  · rw [act_of_refuses hrefuses] at h
    cases h
    exact hrefuses

end Move

end Countersign
