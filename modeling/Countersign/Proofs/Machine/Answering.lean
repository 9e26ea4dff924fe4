import Countersign.Proofs.Machine.Capacity
import Countersign.Proofs.Machine.Checking

/-!
# `Countersign.Proofs.Machine.Answering`: what a check can still fail for

Both checks first take what they are about off the stack, then ask, then put the answer on the
stack. Asking never faults, whatever the scheme has against a key or a signature (`Act.Inquires`).
There is room for the answer, since more was taken than is put back, and the answer no is an empty
item. So an instruction that has asked something can fault in one case only: the answer is yes, and
no item may have even one byte (`Act.asked_of_instruction_error`).
-/

set_option autoImplicit false

namespace Countersign

/-- The answer to the latest question was yes. -/
def Bench.LastAccepted (b : Bench) : Prop :=
  ∃ call, b.calls.head? = some call ∧ call.accepted = true

/-- The stack of a machine is never larger than its limit, at whatever point of a run. -/
theorem Machine.depth_le_of_mem_points (setting : Setting) (commands : List Command) :
    ∀ p ∈ ((Machine.new setting).after commands).points,
      p.stack.depth ≤ setting.limits.maxStackSize.toNat :=
  fun p hp => (withinLimits_of_mem_points setting commands p hp).depth

namespace Plan

/-- A plan that takes something right away, and puts nothing back, leaves fewer items. -/
theorem depth_lt_of_pop {α : Type} {setting : Setting} {op : UInt8} {rest : Bytes → Plan α}
    {post : α → Prop} (hx : Uses Move.Taking (move (.pop op) rest) post) {b b' : Bench} {answer : α}
    (h : (move (.pop op) rest).act setting b = .ok answer b') :
    b'.stack.depth < b.stack.depth := by
  rw [act] at h
  cases hitems : b.stack.items with
  | nil =>
      have hpop : (Move.pop op).act setting b = _ := Move.act_of_refuses (.pop hitems)
      rw [Act.bind_of_error hpop] at h
      cases h
  | cons item items =>
      have hpop : (Move.pop op).act setting b = _ := Move.act_of_answers (.pop hitems)
      rw [Act.bind_of_ok hpop] at h
      have hrest := depth_leaves_of_taking (hx.2 item) setting (b.withItems items)
      rw [Act.leaves_of_ok h] at hrest
      rw [Bench.depth_of_cons hitems]
      exact Nat.lt_succ_of_le hrest

end Plan

namespace Act

/-- The act asks and answers. It leaves the stack alone, and it answers yes only if the scheme did
so in the end. -/
def Inquires (x : Act Bool) (b : Bench) : Prop :=
  ∃ accepted b', x b = .ok accepted b' ∧ b'.stack = b.stack ∧
    (accepted = true → b'.LastAccepted)

/-- A single question is answered, and the answer is the latest one. -/
theorem inquires_ask (scheme : SignatureScheme) (publicKey digest signature : Bytes) (b : Bench) :
    Inquires (ask scheme publicKey digest signature) b :=
  ⟨_, _, ask_eq scheme publicKey digest signature b, rfl, fun h => ⟨_, rfl, h⟩⟩

/-- What leaves the stack alone may come before the questions. -/
theorem Inquires.bind_of_ok {α : Type} {x : Act α} {f : α → Act Bool} {b b' : Bench} {a : α}
    (hf : Inquires (f a) b') (hx : x b = .ok a b') (hstack : b'.stack = b.stack) :
    Inquires (x >>= f) b := by
  obtain ⟨accepted, b₁, h, hstack₁, hlast⟩ := hf
  exact ⟨accepted, b₁, (Act.bind_of_ok hx).trans h, hstack₁.trans hstack, hlast⟩

/-- Taking the digest may come before the questions, whether it was taken before or not. -/
theorem inquires_messageDigest {body : Bytes} {f : Bytes → Act Bool} {b : Bench}
    (hf : ∀ digest b', Inquires (f digest) b') :
    Inquires (do let digest ← messageDigest body; f digest) b := by
  cases hdigest : b.digest with
  | none => exact (hf _ _).bind_of_ok (messageDigest_of_none hdigest) rfl
  | some digest => exact (hf _ _).bind_of_ok (messageDigest_of_some hdigest) rfl

/-- The search for keys ends with the answer yes only when the last signature is accepted. -/
theorem inquires_matchKeys (scheme : SignatureScheme) (digest : Bytes) (spare : Nat)
    (publicKeys : List Bytes) {signatures : List Bytes} (hne : signatures ≠ []) (b : Bench) :
    Inquires (matchKeys scheme digest spare publicKeys signatures) b := by
  induction publicKeys generalizing spare signatures b with
  | nil =>
      cases signatures with
      | nil => exact absurd rfl hne
      | cons signature signatures => exact ⟨false, b, rfl, rfl, nofun⟩
  | cons key keys ih =>
      cases signatures with
      | nil => exact absurd rfl hne
      | cons signature signatures =>
          rw [matchKeys.eq_def]
          refine Inquires.bind_of_ok ?_ (ask_eq scheme key digest signature b) rfl
          cases haccepts : scheme.accepts key digest signature with
          | true =>
              rw [if_pos rfl]
              cases signatures with
              | nil =>
                  -- This was the last signature, and the question about it the latest one.
                  refine ⟨true, _, ?_, rfl, fun _ => ⟨_, rfl, rfl⟩⟩
                  cases keys <;> rfl
              | cons next others => exact ih spare (List.cons_ne_nil next others) _
          | false =>
              rw [if_neg Bool.false_ne_true]
              cases spare with
              | zero => exact ⟨false, _, rfl, rfl, nofun⟩
              | succ spare => exact ih spare (List.cons_ne_nil signature signatures) _

/-- What is left to go wrong once the answer is known: there is room for it, so it is the answer yes
and may not be an item. -/
theorem push_answer_of_error {limits : Limits} {accepted : Bool} {b b' : Bench} {fault : Fault}
    (hdepth : b.stack.depth < limits.maxStackSize.toNat)
    (h : push limits (boolItem accepted) b = .error fault b') :
    accepted = true ∧ fault = .itemTooLarge 1 0 ∧ limits.maxItemSize.toNat = 0 := by
  rcases Nat.lt_or_ge limits.maxItemSize.toNat (boolItem accepted).length with hlarge | hsize
  · rw [push_of_tooLarge hlarge] at h
    cases h
    cases accepted with
    | false => exact absurd hlarge (Nat.not_lt_zero _)
    | true =>
        have hzero : limits.maxItemSize.toNat = 0 := Nat.lt_one_iff.mp hlarge
        rw [hzero]
        exact ⟨rfl, rfl, rfl⟩
  · rw [push_of_room hsize hdepth] at h
    cases h

section
variable {α : Type} {setting : Setting} {b b' : Bench} {fault : Fault}

/-- Both checks take something, ask about it, and report the answer. They fault while they take, or
because the answer finds no place on what they have left of the stack. -/
theorem refused_or_unreported {take : Plan α} {post : α → Prop}
    (htake : Plan.Uses Move.Taking take post) {inquire : α → Plan Bool}
    (hinquire : ∀ taken, post taken → ∀ b, Inquires ((inquire taken).act setting) b)
    (h : (do
        let taken ← take
        let accepted ← inquire taken
        Plan.report accepted : Plan Nat).act setting b = .error fault b') :
    take.act setting b = .error fault b' ∨
      ∃ taken b₁ accepted, take.act setting b = .ok taken b₁ ∧ b'.stack = b₁.stack ∧
        (accepted = true → b'.LastAccepted) ∧
        push setting.limits (boolItem accepted) b' = .error fault b' := by
  rw [Plan.act_bind, bind_eq_error_iff] at h
  rcases h with htaking | ⟨taken, b₁, htaken, hrest⟩
  · exact .inl htaking
  · obtain ⟨accepted, b₂, hanswer, hstack, hlast⟩ :=
      hinquire taken (htake.post_of_ok htaken) b₁
    rw [Plan.act_bind, bind_of_ok hanswer, Plan.report, Plan.act_bind, bind_eq_error_iff] at hrest
    rcases hrest with hpush | ⟨_, _, _, hpure⟩
    · rw [Plan.act_ofMove] at hpush
      obtain rfl : b' = b₂ := bench_of_push_error hpush
      exact .inr ⟨taken, b₁, accepted, htaken, hstack, hlast, hpush⟩
    · cases hpure

/-- A check that takes something right away faults before it asks, and not for want of room then, or
for the answer. -/
theorem error_of_check {take : Plan α} {post : α → Prop}
    (htake : Plan.Uses Move.Taking take post) (hpop : ∃ op rest, take = .move (.pop op) rest)
    {inquire : α → Plan Bool}
    (hinquire : ∀ taken, post taken → ∀ b, Inquires ((inquire taken).act setting) b)
    (hroom : b.stack.depth ≤ setting.limits.maxStackSize.toNat)
    (h : (do
        let taken ← take
        let accepted ← inquire taken
        Plan.report accepted : Plan Nat).act setting b = .error fault b') :
    b'.asked = b.asked ∧ ¬ fault.OfPush ∨
      fault = .itemTooLarge 1 0 ∧ setting.limits.maxItemSize.toNat = 0 ∧ b'.LastAccepted := by
  rcases refused_or_unreported htake hinquire h with
    htaking | ⟨taken, b₁, accepted, htaken, hstack, hlast, hpush⟩
  · -- Nothing is asked while items are taken.
    have hasked := Plan.asked_leaves_of_quiet (htake.mono Move.Taking.quiet fun _ => id) setting b
    rw [leaves_of_error htaking] at hasked
    exact .inl ⟨hasked, Plan.not_ofPush_of_taking htake htaking⟩
  · -- What was taken has left room for the answer, and asking puts nothing in its place.
    obtain ⟨op, rest, rfl⟩ := hpop
    have hdepth : b₁.stack.depth < b.stack.depth := Plan.depth_lt_of_pop htake htaken
    have hroom' : b'.stack.depth < setting.limits.maxStackSize.toNat :=
      hstack ▸ Nat.lt_of_lt_of_le hdepth hroom
    -- So the answer is refused for its size, and only yes has a size.
    obtain ⟨haccepted, hfault, hzero⟩ := push_answer_of_error hroom' hpush
    exact .inr ⟨hfault, hzero, hlast haccepted⟩

/-- The check of one signature asks and answers. -/
theorem inquires_askOne (taken : Bytes × Bytes) (b : Bench) :
    Inquires ((Plan.askOne taken).act setting) b := by
  rw [Plan.askOne, Plan.act_bind]
  simp only [Plan.act_ofMove]
  exact inquires_messageDigest fun digest b' => inquires_ask _ taken.1 digest taken.2 b'

/-- So does a multiple check, which is never about no signature. -/
theorem inquires_askMany {taken : List Bytes × List Bytes} (hne : taken.2 ≠ []) (b : Bench) :
    Inquires ((Plan.askMany taken).act setting) b := by
  rw [Plan.askMany, Plan.act_bind]
  simp only [Plan.act_ofMove, Plan.act_matchKeys]
  exact inquires_messageDigest fun digest b' => inquires_matchKeys _ digest _ _ hne b'

/-- What is left to go wrong in the instructions that check signatures. -/
theorem error_of_perform_check {offset : Nat} {op : UInt8} {following : Bytes}
    (hcheck : Operation.ofByte op = .checkSignature ∨ Operation.ofByte op = .checkMultisig)
    (hroom : b.stack.depth ≤ setting.limits.maxStackSize.toNat)
    (h : perform setting offset op following b = .error fault b') :
    b'.asked = b.asked ∧ ¬ fault.OfPush ∨
      fault = .itemTooLarge 1 0 ∧ setting.limits.maxItemSize.toNat = 0 ∧ b'.LastAccepted := by
  rw [← Plan.act_perform] at h
  rcases hcheck with hsignature | hmultisig
  · rw [Plan.perform_checkSignature offset following hsignature] at h
    exact error_of_check (Plan.uses_popSignature op) ⟨op, _, rfl⟩
      (fun taken _ => inquires_askOne taken) hroom h
  · rw [Plan.perform_checkMultisig offset following hmultisig] at h
    exact error_of_check Plan.uses_popMultisig ⟨_, _, rfl⟩
      (fun taken htaken => inquires_askMany (List.ne_nil_of_length_pos htaken.1)) hroom h

/-- What is left to go wrong in an instruction once it has asked something. -/
theorem asked_of_perform_error {offset : Nat} {op : UInt8} {following : Bytes}
    (hroom : b.stack.depth ≤ setting.limits.maxStackSize.toNat)
    (h : perform setting offset op following b = .error fault b') :
    b'.asked = b.asked ∨
      fault = .itemTooLarge 1 0 ∧ setting.limits.maxItemSize.toNat = 0 ∧ b'.LastAccepted := by
  -- Only the two checks ask anything.
  by_cases hcheck : Operation.ofByte op = .checkSignature ∨ Operation.ofByte op = .checkMultisig
  · rcases error_of_perform_check hcheck hroom h with ⟨hasked, -⟩ | hanswer
    · exact .inl hasked
    · exact .inr hanswer
  · rw [not_or] at hcheck
    rw [← Plan.act_perform] at h
    have hasked := Plan.asked_leaves_of_quiet
      (Plan.quiet_perform hcheck.1 hcheck.2 offset following) setting b
    rw [leaves_of_error h] at hasked
    exact .inl hasked

/-- An instruction faults because there is no step left for it, because it may not stand where it
stands, or in what it does. The step is counted in any case. -/
theorem error_of_instruction {role : Role} {offset : Nat} {op : UInt8} {following : Bytes}
    (h : instruction setting role offset op following b = .error fault b') :
    (setting.limits.maxSteps.toNat ≤ b.steps ∧ fault = .stepLimit setting.limits.maxSteps.toNat ∧
        b' = b.ticked) ∨
      (role = .parameter ∧ isPush op = false ∧ fault = .nonPushParameter op ∧ b' = b.ticked) ∨
      perform setting offset op following b.ticked = .error fault b' := by
  rw [instruction] at h
  rcases Nat.lt_or_ge b.steps setting.limits.maxSteps.toNat with hlt | hge
  · rw [bind_of_ok (tick_of_lt hlt)] at h
    split at h
    · rename_i hplace
      cases h
      exact .inr (.inl ⟨hplace.1, hplace.2, rfl, rfl⟩)
    · exact .inr (.inr h)
  · rw [bind_of_error (tick_of_le hge)] at h
    cases h
    exact .inl ⟨hge, rfl, rfl⟩

/-- An instruction that faults after it has asked something cannot put the answer yes on the
stack. -/
theorem asked_of_instruction_error {role : Role} {offset : Nat} {op : UInt8} {following : Bytes}
    (hroom : b.stack.depth ≤ setting.limits.maxStackSize.toNat)
    (h : instruction setting role offset op following b = .error fault b') :
    b'.asked = b.asked ∨
      fault = .itemTooLarge 1 0 ∧ setting.limits.maxItemSize.toNat = 0 ∧ b'.LastAccepted := by
  rcases error_of_instruction h with ⟨-, -, rfl⟩ | ⟨-, -, -, rfl⟩ | hperform
  · exact .inl b.asked_ticked
  · exact .inl b.asked_ticked
  · rw [← b.asked_ticked]
    exact asked_of_perform_error hroom hperform

end

end Act

end Countersign
