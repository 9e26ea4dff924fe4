import Countersign.Proofs.Machine.Repertoire

/-!
# `Countersign.Proofs.Machine.Checking`: what a run asks, and in which order

The body and the scheme are there for the two checks, and both checks go the same way
(`perform_checkSignature`, `perform_checkMultisig`). First they take what they are about off the
stack. Then they take the digest of the body and ask, at least once. The answer goes onto the stack.

`Plan.Alike d d'` looks at two plans at once. They are the same plan but for the digest, which is
`d` in one and `d'` in the other, and which serves no other purpose than to be asked about. The
`Stage` says where in a check the plans begin, so the relation is also about one plan: between the
digest and the first question nothing else happens. `alike_runSegments` is the main statement, that
every run is related to itself in this way.
-/

set_option autoImplicit false

namespace Countersign

/-- How far a check of signatures has come. -/
inductive Stage where
  /-- No check is going on. -/
  | idle
  /-- The digest of the body was taken, and nothing was asked about it yet. -/
  | informed
  /-- Something was asked, and more may be. -/
  | asking
  deriving DecidableEq

namespace Plan

variable {α β : Type}

/-! ### The two checks -/

/-- What a check of one signature takes off the stack: the key, and the signature below it. -/
def popSignature (op : UInt8) : Plan (Bytes × Bytes) := do
  let publicKey ← ofMove (.pop op)
  let signature ← ofMove (.pop op)
  return (publicKey, signature)

/-- What a multiple check takes off the stack: the keys, and the signatures. -/
def popMultisig : Plan (List Bytes × List Bytes) := do
  let n ← popNumber
  ofMove (.allow n)
  let publicKeys ← popMany Opcode.checkMultisig n.toNat []
  let m ← popNumber
  if m < 1 ∨ n < m then
    giveUp (.invalidThreshold m n)
  else
    let signatures ← popMany Opcode.checkMultisig m.toNat []
    return (publicKeys, signatures)

/-- Asks whether the key has signed the body. -/
def askOne (taken : Bytes × Bytes) : Plan Bool := do
  let digest ← ofMove .digest
  ofMove (.ask taken.1 digest taken.2)

/-- Asks whether the keys have signed the body, each signature with a key of its own. -/
def askMany (taken : List Bytes × List Bytes) : Plan Bool := do
  let digest ← ofMove .digest
  matchKeys digest (taken.1.length - taken.2.length) taken.1 taken.2

/-- Puts the answer to a check on the stack. -/
def report (accepted : Bool) : Plan Nat := do
  ofMove (.push (boolItem accepted))
  return 0

/-- A check of one signature begins by taking items off the stack, and nothing else. -/
theorem uses_popSignature (op : UInt8) : Uses Move.Taking (popSignature op) fun _ => True :=
  (uses_ofMove trivial).bind fun _ _ => (uses_ofMove trivial).bind fun _ _ => trivial

/-- The counts are looked at before anything is asked, so there is something to ask about. -/
theorem uses_popMultisig : Uses Move.Taking popMultisig
    fun taken => 0 < taken.2.length ∧ taken.2.length ≤ taken.1.length := by
  refine (uses_popNumber trivial).bind fun n _ => ?_
  refine (uses_ofMove (m := .allow n) trivial).bind fun _ _ => ?_
  refine (uses_popMany trivial n.toNat []).bind fun keys hkeys => ?_
  refine (uses_popNumber trivial).bind fun m _ => ?_
  rw [List.length_nil] at hkeys
  split
  · trivial
  · refine (uses_popMany trivial m.toNat []).bind fun signatures hsignatures => ?_
    rw [List.length_nil] at hsignatures
    show 0 < signatures.length ∧ signatures.length ≤ keys.length
    omega

/-- Reporting the answer asks nothing. -/
theorem quiet_report (accepted : Bool) : Uses Move.Quiet (report accepted) fun _ => True :=
  (uses_ofMove trivial).bind fun _ _ => trivial

/-- A multiple check takes all that it is about before it asks. -/
theorem checkMultisig_eq : checkMultisig = (do let taken ← popMultisig; askMany taken) := by
  have hmany (n : Nat) : Uses Move.Taking (popMany Opcode.checkMultisig n []) _ :=
    uses_popMany trivial n []
  rw [checkMultisig, popMultisig]
  -- The two plans make the same moves, down to where the signatures were taken.
  simp only [Plan.bind_assoc]
  refine congrArg _ (funext fun n => congrArg _ (funext fun _ => ?_))
  refine (hmany n.toNat).bind_congr fun keys hkeys => congrArg _ (funext fun m => ?_)
  split
  · rfl
  · -- What was taken has the lengths that were asked for, so the counts can be read off it.
    rw [Plan.bind_assoc]
    refine (hmany m.toNat).bind_congr fun signatures hsignatures => ?_
    show _ = askMany (keys, signatures)
    rw [askMany, hkeys, hsignatures]
    rfl

section
variable {op : UInt8} (offset : Nat) (following : Bytes)

/-- A check of one signature takes what it is about, asks, and reports. -/
theorem perform_checkSignature (h : Operation.ofByte op = .checkSignature) :
    perform offset op following
      = (do let taken ← popSignature op; let accepted ← askOne taken; report accepted) := by
  rw [perform, h]
  rfl

/-- A multiple check takes what it is about, asks, and reports. -/
theorem perform_checkMultisig (h : Operation.ofByte op = .checkMultisig) :
    perform offset op following
      = (do let taken ← popMultisig; let accepted ← askMany taken; report accepted) := by
  rw [perform, h]
  show (do let accepted ← checkMultisig; report accepted) = _
  rw [checkMultisig_eq, Plan.bind_assoc]

end

/-! ### Plans that differ in the digest -/

variable {d d' : Bytes} {stage : Stage}

/-- Two plans, carried out from `stage` on, that are the same but that one asks about the digest `d`
where the other asks about `d'`. A check takes the digest, asks about it at once, and does nothing
else before it has asked all that it asks. -/
inductive Alike (d d' : Bytes) : Stage → Plan α → Plan α → Prop
  | done {stage : Stage} (answer : α) : stage ≠ .informed →
      Alike d d' stage (done answer) (done answer)
  | giveUp {stage : Stage} (mistake : Mistake) : stage ≠ .informed →
      Alike d d' stage (giveUp mistake) (giveUp mistake)
  | quiet {stage : Stage} {γ : Type} {m : Move γ} {rest rest' : γ → Plan α} : stage ≠ .informed →
      m.Quiet → (∀ answer, Alike d d' .idle (rest answer) (rest' answer)) →
      Alike d d' stage (move m rest) (move m rest')
  | digest {stage : Stage} {rest rest' : Bytes → Plan α} : stage ≠ .informed →
      Alike d d' .informed (rest d) (rest' d') →
      Alike d d' stage (move .digest rest) (move .digest rest')
  | ask {stage : Stage} {publicKey signature : Bytes} {rest rest' : Bool → Plan α} :
      stage ≠ .idle → (∀ accepted, Alike d d' .asking (rest accepted) (rest' accepted)) →
      Alike d d' stage (move (.ask publicKey d signature) rest)
        (move (.ask publicKey d' signature) rest')

/-- Where something was asked already, the check may be over. -/
theorem Alike.of_idle {x x' : Plan α} (h : Alike d d' .idle x x') (hstage : stage ≠ .informed) :
    Alike d d' stage x x' := by
  cases h with
  | done answer _ => exact .done answer hstage
  | giveUp mistake _ => exact .giveUp mistake hstage
  | quiet _ hm hrest => exact .quiet hstage hm hrest
  | digest _ hrest => exact .digest hstage hrest
  | ask hidle _ => exact absurd rfl hidle

/-- Plans that are alike and are followed by such are alike. -/
theorem Alike.bind {x x' : Plan α} {f f' : α → Plan β} (hx : Alike d d' stage x x')
    (hf : ∀ answer, Alike d d' .idle (f answer) (f' answer)) :
    Alike d d' stage (x >>= f) (x' >>= f') := by
  induction hx with
  | done answer hstage => exact (hf answer).of_idle hstage
  | giveUp mistake hstage => exact .giveUp mistake hstage
  | quiet hstage hm _ ih => exact .quiet hstage hm ih
  | digest hstage _ ih => exact .digest hstage ih
  | ask hstage _ ih => exact .ask hstage ih

/-- A quiet plan gives the same answer to both, so what follows may be chosen by it. -/
theorem Uses.alike_bind {x : Plan α} {post : α → Prop} (hx : Uses Move.Quiet x post)
    {f f' : α → Plan β} (hf : ∀ answer, post answer → Alike d d' .idle (f answer) (f' answer)) :
    Alike d d' .idle (x >>= f) (x >>= f') := by
  induction x with
  | done answer => exact hf answer hx
  | giveUp mistake => exact .giveUp mistake (by decide)
  | move m rest ih => exact .quiet (by decide) hx.1 fun answer => ih answer (hx.2 answer)

/-- A plan that asks nothing is like itself. -/
theorem Uses.alike {x : Plan α} {post : α → Prop} (hx : Uses Move.Quiet x post) :
    Alike d d' .idle x x := by
  induction x with
  | done answer => exact .done answer (by decide)
  | giveUp mistake => exact .giveUp mistake (by decide)
  | move m rest ih => exact .quiet (by decide) hx.1 fun answer => ih answer (hx.2 answer)

/-! ### What is asked -/

/-- A key and a signature are asked about before it is seen how many are left. -/
private theorem alike_matchKeys_cons {keys : List Bytes} (hkeys : ∀ spare signatures,
      Alike d d' .asking (matchKeys d spare keys signatures) (matchKeys d' spare keys signatures))
    (hstage : stage ≠ .idle) (spare : Nat) (key signature : Bytes) (signatures : List Bytes) :
    Alike d d' stage (matchKeys d spare (key :: keys) (signature :: signatures))
      (matchKeys d' spare (key :: keys) (signature :: signatures)) := by
  rw [matchKeys.eq_def, matchKeys.eq_def d']
  refine .ask hstage ?_
  -- Whatever the answer is, it is the same for both, and the other keys are not asked yet.
  intro accepted
  cases accepted with
  | true => exact hkeys spare signatures
  | false =>
      cases spare with
      | zero => exact .done false (by decide)
      | succ spare => exact hkeys spare (signature :: signatures)

/-- The search for keys does nothing with the digest but to ask about it. -/
theorem alike_matchKeys (spare : Nat) (keys signatures : List Bytes) :
    Alike d d' .asking (matchKeys d spare keys signatures)
      (matchKeys d' spare keys signatures) := by
  -- The search goes through the keys, and the signatures that are left depend on the answers.
  induction keys generalizing spare signatures with
  | nil => cases signatures <;> exact .done _ (by decide)
  | cons key keys ih =>
      cases signatures with
      | nil => exact .done true (by decide)
      | cons signature signatures =>
          have hstage : Stage.asking ≠ .idle := by decide
          exact alike_matchKeys_cons ih hstage spare key signature signatures

/-- The check of one signature takes the digest only to ask about it. -/
theorem alike_askOne (taken : Bytes × Bytes) : Alike d d' .idle (askOne taken) (askOne taken) :=
  .digest (by decide) (.ask (by decide) fun accepted => .done accepted (by decide))

/-- With a key and a signature there is something to ask about once the digest is taken. -/
theorem alike_askMany {taken : List Bytes × List Bytes}
    (h : 0 < taken.2.length ∧ taken.2.length ≤ taken.1.length) :
    Alike d d' .idle (askMany taken) (askMany taken) := by
  obtain ⟨keys, signatures⟩ := taken
  refine .digest (by decide) ?_
  cases keys with
  | nil => exact absurd (Nat.lt_of_lt_of_le h.1 h.2) (Nat.lt_irrefl 0)
  | cons key keys =>
      cases signatures with
      | nil => exact absurd h.1 (Nat.lt_irrefl 0)
      | cons signature signatures =>
          have hstage : Stage.informed ≠ .idle := by decide
          exact alike_matchKeys_cons (fun spare => alike_matchKeys spare keys) hstage _ key
            signature signatures

/-! ### Runs -/

/-- Both checks are of this form: they take, ask, and report. -/
private theorem alike_check {take : Plan α} {post : α → Prop} (htake : Uses Move.Taking take post)
    {inquire : α → Plan Bool}
    (hinquire : ∀ taken, post taken → Alike d d' .idle (inquire taken) (inquire taken)) :
    Alike d d' .idle (do let taken ← take; let accepted ← inquire taken; report accepted)
      (do let taken ← take; let accepted ← inquire taken; report accepted) :=
  (htake.mono Move.Taking.quiet fun _ => id).alike_bind fun taken htaken =>
    (hinquire taken htaken).bind fun accepted => (quiet_report accepted).alike

/-- No opcode does anything with the digest but to ask about it. -/
theorem alike_perform (offset : Nat) (op : UInt8) (following : Bytes) :
    Alike d d' .idle (perform offset op following) (perform offset op following) := by
  by_cases hsignature : Operation.ofByte op = .checkSignature
  · rw [perform_checkSignature offset following hsignature]
    exact alike_check (uses_popSignature op) fun taken _ => alike_askOne taken
  · by_cases hmultisig : Operation.ofByte op = .checkMultisig
    · rw [perform_checkMultisig offset following hmultisig]
      exact alike_check uses_popMultisig fun taken => alike_askMany
    · exact (quiet_perform hsignature hmultisig offset following).alike

/-- Nor does counting a step before, or refusing the opcode for its place. -/
theorem alike_instruction (role : Role) (offset : Nat) (op : UInt8) (following : Bytes) :
    Alike d d' .idle (instruction role offset op following)
      (instruction role offset op following) := by
  refine (uses_ofMove (m := .tick) trivial).alike_bind fun _ _ => ?_
  split
  · exact .giveUp _ (by decide)
  · exact alike_perform offset op following

/-- A script does nothing with the digest but to ask about it. -/
theorem alike_runFrom (role : Role) (offset : Nat) (script : Bytes) :
    Alike d d' .idle (runFrom role offset script) (runFrom role offset script) := by
  fun_induction runFrom role offset script with
  | case1 => exact .done () (by decide)
  | case2 offset op following ih => exact (alike_instruction role offset op following).bind ih

/-- No run does anything with the digest but to ask about it. -/
theorem alike_runSegments (segments : List Segment) :
    Alike d d' .idle (runSegments segments) (runSegments segments) := by
  induction segments with
  | nil => exact .done () (by decide)
  | cons segment segments ih =>
      exact (alike_runFrom segment.role 0 segment.script).bind fun _ => ih

end Plan

end Countersign
