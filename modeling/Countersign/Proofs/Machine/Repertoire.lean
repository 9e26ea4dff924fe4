import Countersign.Proofs.Machine.Plan
import Countersign.Proofs.Script.Push

/-!
# `Countersign.Proofs.Machine.Repertoire`: which moves a plan makes

`Plan.Uses allowed x post` says that a plan makes allowed moves only, and that its answers satisfy
`post`, whatever the moves answer. This is read off the plan, without carrying it out, and it is
closed under sequencing (`Uses.bind`). What each allowed move keeps is then kept at all points of
the run (`Uses.forall_points`).

Two repertoires matter. A `Quiet` move has nothing to do with signatures, so quiet plans leave alone
what was asked (`asked_leaves_of_quiet`). All instructions but the two checks are quiet
(`quiet_perform`). A `Taking` move puts nothing on the stack, so what it leaves of a stack is the
lower part of it (`suffix_leaves_of_taking`). With these moves a check gets hold of its keys and
signatures.

`Plan.GivesUpFor` does for the mistakes what `Uses` does for the moves, and both together say which
faults a run can meet (`Uses.refuses_or_mistake`). What an opcode does that pushes is known without
either: `pushesAtMost_perform`.
-/

set_option autoImplicit false

namespace Countersign

/-- What was asked of the body and of the scheme. -/
structure Asked where
  /-- The digest of the body, once it was needed. -/
  digest : Option Bytes
  /-- How often the body was asked for. -/
  bodyReads : Nat
  /-- The questions to the scheme, the latest first. -/
  calls : List SignatureCall

/-- What was asked before a bench came to look like this. -/
def Bench.asked (b : Bench) : Asked :=
  ⟨b.digest, b.bodyReads, b.calls⟩

/-- Counting a step asks nothing. -/
theorem Bench.asked_ticked (b : Bench) : b.ticked.asked = b.asked :=
  rfl

namespace Move

/-- The move has nothing to do with signatures. -/
def Quiet : {α : Type} → Move α → Prop
  | _, .digest | _, .ask _ _ _ => False
  | _, .tick | _, .push _ | _, .pop _ | _, .peek _ | _, .allow _ => True

/-- The move puts nothing on the stack, and asks nothing. -/
def Taking : {α : Type} → Move α → Prop
  | _, .pop _ | _, .peek _ | _, .allow _ => True
  | _, .tick | _, .push _ | _, .digest | _, .ask _ _ _ => False

variable {α : Type} {m : Move α}

/-- Taking items off the stack has nothing to do with signatures. -/
theorem Taking.quiet (h : m.Taking) : m.Quiet := by
  cases m <;> first | exact h | trivial

/-- A quiet move asks nothing, whether it answers or refuses. -/
theorem asked_of_quiet (h : m.Quiet) (setting : Setting) (b : Bench) :
    ((m.act setting).leaves b).asked = b.asked := by
  rcases answers_or_refuses setting m b with ⟨answer, b', hm⟩ | ⟨fault, b', hm⟩
  · rw [Act.leaves_of_ok (act_of_answers hm)]
    cases hm with
    | digestFirst _ | digestAgain _ | ask => exact h.elim
    | _ => rfl
  · rw [Act.leaves_of_error (act_of_refuses hm)]
    cases hm <;> rfl

/-- Items may be gone from the top of the stack. What is left was there before. -/
theorem suffix_of_taking (h : m.Taking) (setting : Setting) (b : Bench) :
    ((m.act setting).leaves b).stack.items <:+ b.stack.items := by
  rcases answers_or_refuses setting m b with ⟨answer, b', hm⟩ | ⟨fault, b', hm⟩
  · rw [Act.leaves_of_ok (act_of_answers hm)]
    cases hm with
    | pop hitems =>
        rw [hitems]
        exact List.suffix_cons _ _
    | peek _ | allow _ _ => exact List.suffix_rfl
    | tick _ | push _ _ | digestFirst _ | digestAgain _ | ask => exact h.elim
  · rw [Act.leaves_of_error (act_of_refuses hm)]
    cases hm <;> exact List.suffix_rfl

end Move

namespace Plan

variable {α β : Type} {allowed : {γ : Type} → Move γ → Prop}

/-- The plan makes allowed moves only, and its answers are as `post` says. -/
def Uses (allowed : {γ : Type} → Move γ → Prop) : Plan α → (post : α → Prop) → Prop
  | done answer, post => post answer
  | giveUp _, _ => True
  | move m rest, post => allowed m ∧ ∀ answer, Uses allowed (rest answer) post

section
variable {x : Plan α} {f : α → Plan β} {middle : α → Prop} {post : β → Prop}

/-- What follows a plan may rely on what is known of its answers. -/
theorem Uses.bind (hx : Uses allowed x middle) (hf : ∀ answer, middle answer →
    Uses allowed (f answer) post) : Uses allowed (x >>= f) post := by
  induction x with
  | done answer => exact hf answer hx
  | giveUp mistake => trivial
  | move m rest ih => exact ⟨hx.1, fun answer => ih answer (hx.2 answer)⟩

/-- More moves may be allowed, and less be known of the answers. -/
theorem Uses.mono {allowed' : {γ : Type} → Move γ → Prop} {middle' : α → Prop}
    (hx : Uses allowed x middle) (hmove : ∀ {γ : Type} {m : Move γ}, allowed m → allowed' m)
    (hpost : ∀ answer, middle answer → middle' answer) : Uses allowed' x middle' := by
  induction x with
  | done answer => exact hpost answer hx
  | giveUp mistake => trivial
  | move m rest ih => exact ⟨hmove hx.1, fun answer => ih answer (hx.2 answer)⟩

/-- What follows a plan need only be known for the answers that the plan gives. -/
theorem Uses.bind_congr (hx : Uses allowed x middle) {f' : α → Plan β}
    (hf : ∀ answer, middle answer → f answer = f' answer) : x >>= f = x >>= f' := by
  induction x with
  | done answer => exact hf answer hx
  | giveUp mistake => rfl
  | move m rest ih => exact congrArg (move m) (funext fun answer => ih answer (hx.2 answer))

end

/-- A single move is the only one that it makes. -/
theorem uses_ofMove {m : Move α} (h : allowed m) : Uses allowed (ofMove m) fun _ => True :=
  ⟨h, fun _ => trivial⟩

/-- Every plan makes some moves. -/
theorem uses_any (x : Plan α) : Uses (fun _ => True) x fun _ => True := by
  induction x with
  | done answer => trivial
  | giveUp mistake => trivial
  | move m rest ih => exact ⟨trivial, ih⟩

/-! ### Carrying them out -/

section
variable {setting : Setting} {x : Plan α} {post : α → Prop}

/-- What every allowed move keeps is kept at all points. -/
theorem Uses.forall_points (hx : Uses allowed x post) (inv : Bench → Prop)
    (hmove : ∀ {γ : Type} {m : Move γ} {b : Bench}, allowed m → inv b →
      inv ((m.act setting).leaves b)) {b : Bench} (hb : inv b) :
    ∀ p ∈ x.points setting b, inv p := by
  induction x generalizing b with
  | done answer =>
      intro p hp
      rw [points, List.mem_singleton] at hp
      exact hp ▸ hb
  | giveUp mistake =>
      intro p hp
      rw [points, List.mem_singleton] at hp
      exact hp ▸ hb
  | move m rest ih =>
      intro p hp
      have hleaves := hmove hx.1 hb
      cases hm : m.act setting b with
      | ok answer b' =>
          rw [points_move_of_ok hm, List.mem_cons] at hp
          rw [Act.leaves_of_ok hm] at hleaves
          rcases hp with rfl | hp
          · exact hb
          · exact ih answer (hx.2 answer) hleaves p hp
      | error fault b' =>
          -- A move that is refused may have changed the bench all the same.
          rw [points_move_of_error hm, List.mem_cons, List.mem_singleton] at hp
          rw [Act.leaves_of_error hm] at hleaves
          rcases hp with rfl | rfl
          · exact hb
          · exact hleaves

/-- What every allowed move keeps is kept by the plan. -/
theorem Uses.inv_leaves (hx : Uses allowed x post) (inv : Bench → Prop)
    (hmove : ∀ {γ : Type} {m : Move γ} {b : Bench}, allowed m → inv b →
      inv ((m.act setting).leaves b)) {b : Bench} (hb : inv b) :
    inv ((x.act setting).leaves b) :=
  hx.forall_points inv hmove hb _ (List.mem_of_getLast? (getLast?_points setting x b))

/-- The answer that a run gives is one of those that the plan has. -/
theorem Uses.post_of_ok (hx : Uses allowed x post) {b b' : Bench} {answer : α}
    (h : x.act setting b = .ok answer b') : post answer := by
  induction x generalizing b with
  | done answer =>
      cases h
      exact hx
  | giveUp mistake => cases h
  | move m rest ih =>
      rw [act, Act.bind_eq_ok_iff] at h
      obtain ⟨first, b₁, -, hrest⟩ := h
      exact ih first (hx.2 first) hrest

/-- A quiet plan asks nothing. -/
theorem asked_leaves_of_quiet (hx : Uses Move.Quiet x post) (setting : Setting) (b : Bench) :
    ((x.act setting).leaves b).asked = b.asked :=
  hx.inv_leaves (fun b' => b'.asked = b.asked)
    (fun hm hb => (Move.asked_of_quiet hm setting _).trans hb) rfl

/-- A plan that puts nothing on the stack leaves the lower part of it. -/
theorem suffix_leaves_of_taking (hx : Uses Move.Taking x post) (setting : Setting) (b : Bench) :
    ((x.act setting).leaves b).stack.items <:+ b.stack.items :=
  hx.inv_leaves (fun b' => b'.stack.items <:+ b.stack.items)
    (fun hm hb => (Move.suffix_of_taking hm setting _).trans hb) List.suffix_rfl

/-- So the stack does not grow. -/
theorem depth_leaves_of_taking (hx : Uses Move.Taking x post) (setting : Setting) (b : Bench) :
    ((x.act setting).leaves b).stack.depth ≤ b.stack.depth := by
  rw [Stack.depth_eq, b.stack.depth_eq]
  exact (suffix_leaves_of_taking hx setting b).length_le

end

/-! ### Mistakes -/

section
variable {kind : Mistake → Prop}

/-- The plan gives up for mistakes of this kind only. -/
def GivesUpFor (kind : Mistake → Prop) : Plan α → Prop
  | done _ => True
  | giveUp mistake => kind mistake
  | move _ rest => ∀ answer, GivesUpFor kind (rest answer)

/-- Plans that give up for mistakes of a kind may follow one another. -/
theorem GivesUpFor.bind {x : Plan α} {f : α → Plan β} (hx : GivesUpFor kind x)
    (hf : ∀ answer, GivesUpFor kind (f answer)) : GivesUpFor kind (x >>= f) := by
  induction x with
  | done answer => exact hf answer
  | giveUp mistake => exact hx
  | move m rest ih => exact fun answer => ih answer (hx answer)

/-- A single move is no mistake. -/
theorem givesUpFor_ofMove (m : Move α) : GivesUpFor kind (ofMove m) :=
  fun _ => trivial

/-- A run faults because an allowed move is refused, or for a mistake of the kind. -/
theorem Uses.refuses_or_mistake {x : Plan α} {post : α → Prop} (hx : Uses allowed x post)
    (hkind : GivesUpFor kind x) {setting : Setting} {b b' : Bench} {fault : Fault}
    (h : x.act setting b = .error fault b') :
    (∃ (γ : Type) (m : Move γ) (b₁ : Bench), allowed m ∧ m.Refuses setting b₁ fault b') ∨
      ∃ mistake, kind mistake ∧ fault = mistake.fault := by
  induction x generalizing b with
  | done answer => cases h
  | giveUp mistake =>
      cases h
      exact .inr ⟨mistake, hkind, rfl⟩
  | move m rest ih =>
      rw [act, Act.bind_eq_error_iff] at h
      rcases h with hm | ⟨answer, b₁, -, hrest⟩
      · exact .inl ⟨_, m, b, hx.1, Move.act_eq_error_iff.mp hm⟩
      · exact ih answer (hx.2 answer) (hkind answer) hrest

end

/-! ### The plans of the acts -/

/-- Taking several items is taking one after the other, and gives as many as were asked for. -/
theorem uses_popMany {op : UInt8} (hpop : allowed (.pop op)) (n : Nat) (taken : List Bytes) :
    Uses allowed (popMany op n taken) fun items => items.length = n + taken.length := by
  induction n generalizing taken with
  | zero => exact (Nat.zero_add _).symm
  | succ n ih =>
      refine (uses_ofMove hpop).bind fun item _ => (ih (item :: taken)).mono id fun items h => ?_
      rw [h, List.length_cons]
      omega

/-- Taking a number is taking an item. -/
theorem uses_popNumber (hpop : allowed (.pop Opcode.checkMultisig)) :
    Uses allowed popNumber fun _ => True :=
  (uses_ofMove hpop).bind fun _ _ => trivial

/-- Reading an operand takes no move at all. -/
theorem uses_operand (offset n : Nat) (following : Bytes) :
    Uses allowed (operand offset n following) fun _ => True := by
  rw [operand]
  cases Bytes.splitAt? n following <;> trivial

/-- The two checks are the only instructions that have to do with signatures. -/
theorem quiet_perform {op : UInt8} (hsignature : Operation.ofByte op ≠ .checkSignature)
    (hmultisig : Operation.ofByte op ≠ .checkMultisig) (offset : Nat) (following : Bytes) :
    Uses Move.Quiet (perform offset op following) fun _ => True := by
  have hpush (item : Bytes) (width : Nat) :
      Uses Move.Quiet (do ofMove (.push item); return width : Plan Nat) fun _ => True :=
    (uses_ofMove trivial).bind fun _ _ => trivial
  rw [perform]
  cases h : Operation.ofByte op with
  | pushEmpty => exact hpush _ _
  | pushBytes count => exact (uses_operand _ _ _).bind fun item _ => hpush item _
  | pushCounted =>
      exact (uses_operand _ _ _).bind fun _ _ =>
        (uses_operand _ _ _).bind fun item _ => hpush item _
  | pushCountedWide =>
      exact (uses_operand _ _ _).bind fun _ _ =>
        (uses_operand _ _ _).bind fun item _ => hpush item _
  | pushNumber n => exact hpush _ _
  | nop => trivial
  | drop => exact (uses_ofMove trivial).bind fun _ _ => trivial
  | dup => exact (uses_ofMove trivial).bind fun item _ => hpush item _
  | checkSignature => exact absurd h hsignature
  | checkMultisig => exact absurd h hmultisig
  | unknown => trivial

section
variable {kind : Mistake → Prop}

/-- Taking several items is no mistake. -/
theorem givesUpFor_popMany (op : UInt8) (n : Nat) (taken : List Bytes) :
    GivesUpFor kind (popMany op n taken) := by
  induction n generalizing taken with
  | zero => trivial
  | succ n ih => exact (givesUpFor_ofMove _).bind fun item => ih (item :: taken)

/-- Neither is the search for keys. -/
theorem givesUpFor_matchKeys (digest : Bytes) (spare : Nat) (publicKeys signatures : List Bytes) :
    GivesUpFor kind (matchKeys digest spare publicKeys signatures) := by
  -- The plan branches with every answer, and ends when the keys or the signatures do.
  induction publicKeys generalizing spare signatures with
  | nil => cases signatures <;> trivial
  | cons publicKey publicKeys ih =>
      cases signatures with
      | nil => trivial
      | cons signature signatures =>
          refine (givesUpFor_ofMove _).bind fun accepted => ?_
          cases accepted with
          | true => exact ih spare signatures
          | false =>
              cases spare with
              | zero => trivial
              | succ spare => exact ih spare (signature :: signatures)

/-- The one mistake of a multiple check is its threshold. -/
theorem givesUpFor_checkMultisig (h : ∀ m n, kind (.invalidThreshold m n)) :
    GivesUpFor kind checkMultisig := by
  have hnumber : GivesUpFor kind popNumber := (givesUpFor_ofMove _).bind fun _ => trivial
  refine hnumber.bind fun n => (givesUpFor_ofMove _).bind fun _ =>
    (givesUpFor_popMany _ _ _).bind fun publicKeys => hnumber.bind fun m => ?_
  by_cases hthreshold : m < 1 ∨ n < m
  · rw [if_pos hthreshold]
    exact h m n
  · rw [if_neg hthreshold]
    exact (givesUpFor_popMany _ _ _).bind fun signatures =>
      (givesUpFor_ofMove _).bind fun digest => givesUpFor_matchKeys _ _ _ _

/-- An operation that does more than to push has no operand that could be cut off. -/
theorem givesUpFor_perform {op : UInt8} (hother : isPush op = false)
    (hunknown : kind (.unknownOpcode op)) (hthreshold : ∀ m n, kind (.invalidThreshold m n))
    (offset : Nat) (following : Bytes) : GivesUpFor kind (perform offset op following) := by
  have hoperation := isPush_eq_false_iff.mp hother
  rw [perform]
  cases hop : Operation.ofByte op with
  | nop => trivial
  | drop => exact (givesUpFor_ofMove _).bind fun _ => trivial
  | dup =>
      exact (givesUpFor_ofMove _).bind fun _ => (givesUpFor_ofMove _).bind fun _ => trivial
  | checkSignature =>
      exact (givesUpFor_ofMove _).bind fun _ => (givesUpFor_ofMove _).bind fun _ =>
        (givesUpFor_ofMove _).bind fun _ => (givesUpFor_ofMove _).bind fun _ =>
          (givesUpFor_ofMove _).bind fun _ => trivial
  | checkMultisig =>
      exact (givesUpFor_checkMultisig hthreshold).bind fun _ =>
        (givesUpFor_ofMove _).bind fun _ => trivial
  | unknown => exact hunknown
  | pushEmpty | pushBytes _ | pushCounted | pushCountedWide | pushNumber _ =>
      simp [hop] at hoperation

end

/-- An operand is there in full, or its push is cut off. -/
private theorem operand_cases (offset n : Nat) (following : Bytes) :
    (∃ bytes, operand offset n following = done bytes) ∨
      operand offset n following = giveUp (.truncatedPush offset) := by
  rw [operand]
  cases Bytes.splitAt? n following with
  | none => exact .inr rfl
  | some cut => exact .inl ⟨cut.1, rfl⟩

/-- The plan makes a single move, which is to push an item, or gives up because of an operand that
is cut off. -/
def PushesAtMost (x : Plan Nat) : Prop :=
  (∃ item width, x = (do ofMove (.push item); return width)) ∨
    ∃ place, x = giveUp (.truncatedPush place)

/-- An instruction that reads one operand pushes it, or is cut off. -/
private theorem pushesAtMost_operand (offset n width : Nat) (following : Bytes) :
    PushesAtMost (do let item ← operand offset n following; ofMove (.push item); return width) := by
  rcases operand_cases offset n following with ⟨item, hitem⟩ | hcut
  · rw [hitem]
    exact .inl ⟨item, width, rfl⟩
  · rw [hcut]
    exact .inr ⟨offset, rfl⟩

/-- An opcode that pushes does nothing else. -/
theorem pushesAtMost_perform {op : UInt8} (h : isPush op = true) (offset : Nat)
    (following : Bytes) : PushesAtMost (perform offset op following) := by
  have hother : Operation.ofByte op ∉
      [.nop, .drop, .dup, .checkSignature, .checkMultisig, .unknown] := by
    rw [← isPush_eq_false_iff, h]
    decide
  -- Two of the forms read a count before the item, so they have two places to be cut off at.
  rw [perform]
  cases hop : Operation.ofByte op with
  | pushEmpty => exact .inl ⟨[], 0, rfl⟩
  | pushBytes count => exact pushesAtMost_operand (offset + 1) count count following
  | pushCounted =>
      rcases operand_cases (offset + 1) 1 following with ⟨length, hlength⟩ | hcut
      · rw [hlength]
        exact pushesAtMost_operand (offset + 2) _ _ (following.drop 1)
      · rw [hcut]
        exact .inr ⟨offset + 1, rfl⟩
  | pushCountedWide =>
      rcases operand_cases (offset + 1) 2 following with ⟨length, hlength⟩ | hcut
      · rw [hlength]
        exact pushesAtMost_operand (offset + 3) _ _ (following.drop 2)
      · rw [hcut]
        exact .inr ⟨offset + 1, rfl⟩
  | pushNumber n => exact .inl ⟨Number.encode n, 0, rfl⟩
  | nop | drop | dup | checkSignature | checkMultisig | unknown => simp [hop] at hother

end Plan

end Countersign
