import Mathlib.Data.List.Induction
import Countersign.Machine.Multisig

/-!
# `Countersign.Proofs.Machine.Act`: what each act does to the bench

An act answers or faults, and the acts of `Machine/Bench.lean` are small enough to say for each
when it does which. `bind_of_ok` and `bind_of_error` run a sequence of acts forwards. `Faults`
forgets which fault it was and what was left behind. That is all a decision shows of a run that did
not halt.

The equations name a stack by its items, top first: `Stack.ofItems items` on its own, and
`b.withItems items` on a bench.
-/

set_option autoImplicit false

namespace Countersign

namespace Stack

/-- The stack with these items, the top one first. -/
def ofItems (items : List Bytes) : Stack :=
  { items }

/-- A stack made of items has these. -/
@[simp] theorem items_ofItems (items : List Bytes) : (ofItems items).items = items :=
  rfl

/-- A stack made of items is as deep as they are many. -/
@[simp] theorem depth_ofItems (items : List Bytes) : (ofItems items).depth = items.length :=
  rfl

/-- A stack is known by its items. -/
theorem eq_ofItems {s : Stack} {items : List Bytes} (h : s.items = items) : s = ofItems items :=
  Stack.ext h

end Stack

/-- The bench with these items on the stack, the top one first. -/
def Bench.withItems (b : Bench) (items : List Bytes) : Bench :=
  { b with stack := .ofItems items }

/-- A bench given items has these on its stack. -/
@[simp] theorem Bench.items_withItems (b : Bench) (items : List Bytes) :
    (b.withItems items).stack.items = items :=
  rfl

/-- The items that were given last are the ones there are. -/
@[simp] theorem Bench.withItems_withItems (b : Bench) (items items' : List Bytes) :
    (b.withItems items).withItems items' = b.withItems items' :=
  rfl

/-- Giving a bench the items that it has changes nothing. -/
theorem Bench.withItems_of_items {b : Bench} {items : List Bytes} (h : b.stack.items = items) :
    b.withItems items = b := by
  rw [withItems, ← Stack.eq_ofItems h]

/-- The bench of a run that has not begun. -/
def Bench.fresh : Bench :=
  { stack := .ofItems [] }

/-- The bench after a step was counted. -/
def Bench.ticked (b : Bench) : Bench :=
  { b with steps := b.steps + 1 }

/-- A signature is accepted if the scheme has nothing against it. -/
theorem SignatureScheme.accepts_iff {scheme : SignatureScheme}
    {publicKey digest signature : Bytes} :
    scheme.accepts publicKey digest signature = true ↔
      scheme.verify publicKey digest signature = .ok () := by
  rw [accepts]
  cases scheme.verify publicKey digest signature with
  | error cause => simp [Except.isOk, Except.toBool]
  | ok => simp [Except.isOk, Except.toBool]

namespace Act

variable {α β : Type}

/-! ### Sequences of acts -/

/-- Where the first part answers, the sequence goes on from the bench that it leaves. -/
theorem bind_of_ok {x : Act α} {f : α → Act β} {b b' : Bench} {a : α} (h : x b = .ok a b') :
    (x >>= f) b = f a b' := by
  show EStateM.bind x f b = f a b'
  rw [EStateM.bind, h]

/-- Where the first part faults, the second one is not reached. -/
theorem bind_of_error {x : Act α} {f : α → Act β} {b b' : Bench} {fault : Fault}
    (h : x b = .error fault b') : (x >>= f) b = .error fault b' := by
  show EStateM.bind x f b = .error fault b'
  rw [EStateM.bind, h]

/-- A sequence answers if both of its parts do. -/
theorem bind_eq_ok_iff {x : Act α} {f : α → Act β} {b b' : Bench} {answer : β} :
    (x >>= f) b = .ok answer b' ↔ ∃ a b₁, x b = .ok a b₁ ∧ f a b₁ = .ok answer b' := by
  cases h : x b with
  | ok a b₁ => simp [bind_of_ok h]
  | error fault b₁ => simp [bind_of_error h]

/-- A sequence faults in its first part or in its second. -/
theorem bind_eq_error_iff {x : Act α} {f : α → Act β} {b b' : Bench} {fault : Fault} :
    (x >>= f) b = .error fault b' ↔
      x b = .error fault b' ∨ ∃ a b₁, x b = .ok a b₁ ∧ f a b₁ = .error fault b' := by
  -- Which part it was is decided by how the first one ends, on either side of the equivalence.
  cases h : x b with
  | ok a b₁ =>
      rw [bind_of_ok h]
      constructor
      · exact fun hf => .inr ⟨a, b₁, rfl, hf⟩
      · rintro (hx | ⟨a', b₁', heq, hf⟩)
        · cases hx
        · cases heq
          exact hf
  | error fault₁ b₁ =>
      rw [bind_of_error h]
      constructor
      · intro hx
        cases hx
        exact .inl rfl
      · rintro (hx | ⟨a, b₁', heq, -⟩)
        · cases hx
          rfl
        · cases heq

/-- The act meets a fault on this bench. -/
def Faults (x : Act α) (b : Bench) : Prop :=
  ∃ fault b', x b = .error fault b'

/-- A fault in the first part is one of the sequence. -/
theorem Faults.bind {x : Act α} {b : Bench} (h : Faults x b) (f : α → Act β) :
    Faults (x >>= f) b := by
  obtain ⟨fault, b', h⟩ := h
  exact ⟨fault, b', bind_of_error h⟩

/-- A fault in the second part is one of the sequence, if the first part answers. -/
theorem Faults.bind_of_ok {x : Act α} {f : α → Act β} {b b' : Bench} {a : α}
    (h : Faults (f a) b') (hx : x b = .ok a b') : Faults (x >>= f) b := by
  obtain ⟨fault, b'', h⟩ := h
  exact ⟨fault, b'', by rw [Act.bind_of_ok hx, h]⟩

/-- A sequence whose second part faults on every bench faults, whatever the first part does. -/
theorem faults_bind {x : Act α} {f : α → Act β} (h : ∀ a b', Faults (f a) b') (b : Bench) :
    Faults (x >>= f) b := by
  cases hx : x b with
  | ok a b' => exact (h a b').bind_of_ok hx
  | error fault b' => exact ⟨fault, b', bind_of_error hx⟩

/-- To throw is to fault. -/
theorem faults_throw (fault : Fault) (b : Bench) : Faults (throw fault : Act α) b :=
  ⟨fault, b, rfl⟩

/-! ### The elementary acts -/

/-- Looking at the bench leaves it as it is. -/
theorem get_eq (b : Bench) : (get : Act Bench) b = .ok b b :=
  rfl

/-- A bench that is put in place of another is what is left. -/
theorem set_eq (b' b : Bench) : (set b' : Act Unit) b = .ok () b' :=
  rfl

/-- A fault leaves the bench as it is. -/
theorem throw_eq (fault : Fault) (b : Bench) : (throw fault : Act α) b = .error fault b :=
  rfl

/-- A step below the limit is counted. -/
theorem tick_of_lt {limits : Limits} {b : Bench} (h : b.steps < limits.maxSteps.toNat) :
    tick limits b = .ok () b.ticked := by
  have hlt : ¬ limits.maxSteps.toNat < b.steps + 1 := by omega
  rw [tick, bind_of_ok (get_eq b), bind_of_ok (set_eq _ b), if_neg hlt]
  rfl

/-- The step over the limit is refused, but it is counted too. -/
theorem tick_of_le {limits : Limits} {b : Bench} (h : limits.maxSteps.toNat ≤ b.steps) :
    tick limits b = .error (.stepLimit limits.maxSteps.toNat) b.ticked := by
  have hlt : limits.maxSteps.toNat < b.steps + 1 := by omega
  rw [tick, bind_of_ok (get_eq b), bind_of_ok (set_eq _ b), if_pos hlt]
  rfl

/-- The size of an item is looked at before the room for it. -/
theorem push_of_tooLarge {limits : Limits} {item : Bytes}
    (h : limits.maxItemSize.toNat < item.length) (b : Bench) :
    push limits item b = .error (.itemTooLarge item.length limits.maxItemSize.toNat) b := by
  rw [push, if_pos h]
  exact bind_of_error (throw_eq _ b)

/-- An item that is small enough is refused if there is no room for it. -/
theorem push_of_full {limits : Limits} {item : Bytes} {b : Bench}
    (hsize : item.length ≤ limits.maxItemSize.toNat)
    (h : limits.maxStackSize.toNat ≤ b.stack.depth) :
    push limits item b = .error (.stackOverflow limits.maxStackSize.toNat) b := by
  rw [push, if_neg (Nat.not_lt_of_le hsize)]
  -- Behind the guard on the size, which does nothing here, the stack is looked at.
  show (get >>= fun _ => _ : Act Unit) b = _
  rw [bind_of_ok (get_eq b), if_pos h]
  exact bind_of_error (throw_eq _ b)

/-- An item that is small enough is put on top if there is room for it. -/
theorem push_of_room {limits : Limits} {item : Bytes} {b : Bench}
    (hsize : item.length ≤ limits.maxItemSize.toNat)
    (h : b.stack.depth < limits.maxStackSize.toNat) :
    push limits item b = .ok () { b with stack := b.stack.push item } := by
  rw [push, if_neg (Nat.not_lt_of_le hsize)]
  show (get >>= fun _ => _ : Act Unit) b = _
  rw [bind_of_ok (get_eq b), if_neg (Nat.not_le_of_lt h)]
  rfl

/-- A push that finds no place leaves the bench as it is. -/
theorem bench_of_push_error {limits : Limits} {item : Bytes} {b b' : Bench} {fault : Fault}
    (h : push limits item b = .error fault b') : b' = b := by
  -- The two guards are the only places where a push faults, and neither has changed anything by
  -- then.
  rcases Nat.lt_or_ge limits.maxItemSize.toNat item.length with hlarge | hsize
  · rw [push_of_tooLarge hlarge] at h
    cases h
    rfl
  · rcases Nat.lt_or_ge b.stack.depth limits.maxStackSize.toNat with hroom | hfull
    · rw [push_of_room hsize hroom] at h
      cases h
    · rw [push_of_full hsize hfull] at h
      cases h
      rfl

/-- The top item is what is taken off. -/
theorem pop_of_cons {op : UInt8} {b : Bench} {item : Bytes} {items : List Bytes}
    (h : b.stack.items = item :: items) :
    pop op b = .ok item (b.withItems items) := by
  have hpop : b.stack.pop? = some (item, .ofItems items) := Stack.pop?_eq_some_iff.mpr h
  rw [pop, bind_of_ok (get_eq b), hpop]
  rfl

/-- Nothing can be taken off an empty stack, and the fault names the instruction. -/
theorem pop_of_nil {op : UInt8} {b : Bench} (h : b.stack.items = []) :
    pop op b = .error (.stackUnderflow op) b := by
  have hpop : b.stack.pop? = none := Stack.pop?_eq_none_iff.mpr h
  rw [pop, bind_of_ok (get_eq b), hpop]
  rfl

/-- Taking as many items as there are in `items` gives them back in the order in which they were
pushed. -/
theorem popMany_of_append {op : UInt8} (items rest taken : List Bytes) {b : Bench}
    (h : b.stack.items = items.reverse ++ rest) :
    popMany op items.length taken b = .ok (items ++ taken) (b.withItems rest) := by
  -- The last item of `items` is on top, so the induction peels it off at the end.
  induction items using List.reverseRecOn generalizing taken b with
  | nil =>
      have hrest : b.stack.items = rest := h
      rw [List.length_nil, popMany, List.nil_append, Bench.withItems_of_items hrest]
      rfl
  | append_singleton items item ih =>
      rw [List.reverse_append, List.reverse_singleton, List.singleton_append,
        List.cons_append] at h
      rw [List.length_append, List.length_singleton, popMany, bind_of_ok (pop_of_cons h),
        ih (item :: taken) rfl, List.append_assoc, List.singleton_append,
        Bench.withItems_withItems]

/-- With fewer items than are to be taken, all of them are gone when the fault is met. -/
theorem popMany_of_lt {op : UInt8} {n : Nat} (taken : List Bytes) {b : Bench}
    (h : b.stack.items.length < n) :
    popMany op n taken b = .error (.stackUnderflow op) (b.withItems []) := by
  induction n generalizing taken b with
  | zero => omega
  | succ n ih =>
      rw [popMany]
      -- Either the stack is empty now, or an item comes off and the same is asked of what is left.
      cases hitems : b.stack.items with
      | nil => rw [bind_of_error (pop_of_nil hitems), Bench.withItems_of_items hitems]
      | cons item items =>
          rw [hitems, List.length_cons] at h
          rw [bind_of_ok (pop_of_cons hitems), ih (item :: taken) (by simpa using h),
            Bench.withItems_withItems]

/-- Taking more items than there are is a fault. -/
theorem popMany_faults {op : UInt8} {n : Nat} (taken : List Bytes) {b : Bench}
    (h : b.stack.items.length < n) : Faults (popMany op n taken) b :=
  ⟨_, _, popMany_of_lt taken h⟩

/-- The body is read for its digest when it is asked for the first time. -/
theorem messageDigest_of_none {body : Bytes} {b : Bench} (h : b.digest = none) :
    messageDigest body b = .ok (Sha256.digest body)
      { b with digest := some (Sha256.digest body), bodyReads := b.bodyReads + 1 } := by
  rw [messageDigest, bind_of_ok (get_eq b), h]
  rfl

/-- A question is always answered, and it is noted with its answer. -/
theorem ask_eq (scheme : SignatureScheme) (publicKey digest signature : Bytes) (b : Bench) :
    ask scheme publicKey digest signature b
      = .ok (scheme.accepts publicKey digest signature)
          { b with calls := ⟨publicKey, digest, signature,
              scheme.accepts publicKey digest signature⟩ :: b.calls } :=
  rfl

/-- A count that is not there is missed by the multiple check. -/
theorem popNumber_of_nil {b : Bench} (h : b.stack.items = []) :
    popNumber b = .error (.stackUnderflow Opcode.checkMultisig) b :=
  bind_of_error (pop_of_nil h)

/-- A count is whatever number the top item is read as. -/
theorem popNumber_of_cons {b : Bench} {item : Bytes} {items : List Bytes}
    (h : b.stack.items = item :: items) :
    popNumber b = .ok (Number.decode item) (b.withItems items) := by
  rw [popNumber, bind_of_ok (pop_of_cons h)]
  rfl

end Act

end Countersign
