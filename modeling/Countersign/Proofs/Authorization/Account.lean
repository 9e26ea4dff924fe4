import Countersign.Proofs.Authorization.Witness

/-!
# `Countersign.Proofs.Authorization.Account`: scripts that push, check and answer

The scripts of the standard accounts have one shape. They push some items of their own, and their
last instruction checks what is on the stack by then and puts the answer on it. `Guards` names this
shape, with the check as a parameter.

A parameter that is a row of push instructions puts its items below those of the script. What such
an account decides is then known from three things: whether the limits `Suffice` for all items,
what the check does on them, and what it leaves below the answer. There is one theorem for each
outcome, `authorize_of_check` being the one for a check that comes to an end.
-/

set_option autoImplicit false

namespace Countersign

open Act

/-- Counts a step, checks what is on the stack, and puts the answer on it. -/
def Act.answer (limits : Limits) (check : Act Bool) : Act Unit := do
  tick limits
  let accepted ← check
  push limits (boolItem accepted)

/-- An opcode that checks and pushes the answer, as the last instruction of a script. -/
theorem runFrom_last {setting : Setting} {check : Act Bool} {op : UInt8} {offset : Nat}
    (h : perform setting offset op []
      = (do let accepted ← check; push setting.limits (boolItem accepted); return 0)) :
    runFrom setting .code offset [op] = answer setting.limits check := by
  have hrole : ¬ (Role.code = .parameter ∧ isPush op = false) := by
    rintro ⟨hrole, -⟩
    cases hrole
  rw [runFrom, instruction, if_neg hrole, h, answer]
  simp only [bind_assoc, pure_bind, List.drop_zero, runFrom_nil, bind_pure_unit]

/-- The script pushes the items `own`, and its last instruction checks and answers. -/
inductive Guards (setting : Setting) (check : Act Bool) (own : List Bytes) : (code : Bytes) → Prop
  | intro {pushes : Bytes} {op : UInt8} : Pushes pushes own →
      (∀ offset, runFrom setting .code offset [op] = answer setting.limits check) →
      Guards setting check own (pushes ++ [op])

/-- A script that checks anything is not empty. -/
theorem Guards.ne_nil {setting : Setting} {check : Act Bool} {own : List Bytes} {code : Bytes}
    (h : Guards setting check own code) : code ≠ [] := by
  cases h with
  | intro _ _ => exact List.concat_ne_nil _ _

/-- What the script pushes comes on top of what its parameter pushes, and its last instruction
comes after both. -/
theorem Guards.runWitness_eq {setting : Setting} {check : Act Bool} {own items : List Bytes}
    {code parameter : Bytes} (h : Guards setting check own code)
    (hparameter : Pushes parameter items) :
    runWitness setting ⟨code, parameter⟩
      = (do
          pushAll setting.limits (items ++ own)
          answer setting.limits check : Act Unit) Bench.fresh := by
  cases h with
  | @intro pushes op hpushes hlast =>
      -- The parameter is run first, though it was loaded last.
      have hrun := runFrom_pushes hpushes setting .code 0 [op]
      rw [hlast] at hrun
      rw [runWitness, runSegments, runSegment_pushes hparameter, runSegments, runSegments,
        runSegment, hrun, pushAll_append]
      simp only [bind_assoc, bind_pure_unit]

/-! ### Limits -/

/-- The limits suffice to push the items on an empty bench and to begin one more instruction. -/
structure Limits.Suffice (limits : Limits) (items : List Bytes) : Prop where
  steps : items.length + 1 ≤ limits.maxSteps.toNat
  depth : items.length ≤ limits.maxStackSize.toNat
  size : ∀ item ∈ items, item.length ≤ limits.maxItemSize.toNat

/-- The bench on which the last instruction checks these items. -/
def Bench.atCheck (items : List Bytes) : Bench :=
  (Bench.fresh.pushed items).ticked

/-- What was pushed last lies on top when the check begins. -/
@[simp] theorem Bench.items_atCheck (items : List Bytes) :
    (Bench.atCheck items).stack.items = items.reverse :=
  List.append_nil _

section
variable {limits : Limits} {items : List Bytes} {check : Act Bool}

/-- Limits that suffice leave room for the items. -/
theorem Limits.Suffice.hasRoom (h : limits.Suffice items) : HasRoom limits Bench.fresh items where
  steps := by
    show 0 + items.length ≤ limits.maxSteps.toNat
    have hsteps := h.steps
    omega
  depth := by
    show 0 + items.length ≤ limits.maxStackSize.toNat
    have hdepth := h.depth
    omega
  size := h.size

/-- Where the limits suffice, the run comes to the check with all items on the stack. -/
theorem answer_of_suffice (h : limits.Suffice items) :
    (do pushAll limits items; answer limits check : Act Unit) Bench.fresh
      = (do
          let accepted ← check
          push limits (boolItem accepted) : Act Unit) (Bench.atCheck items) := by
  have hstep : (Bench.fresh.pushed items).steps < limits.maxSteps.toNat := by
    show 0 + items.length < limits.maxSteps.toNat
    have hsteps := h.steps
    omega
  rw [bind_of_ok (pushAll_of_hasRoom h.hasRoom), answer, bind_of_ok (tick_of_lt hstep),
    Bench.atCheck]

/-- Where the limits do not suffice the run meets one of them, before anything is checked. -/
theorem answer_faults_of_not_suffice (hitems : items ≠ []) (h : ¬ limits.Suffice items) :
    Faults (do pushAll limits items; answer limits check : Act Unit) Bench.fresh := by
  by_cases hroom : HasRoom limits Bench.fresh items
  · -- All items fit, so it is the last instruction that there is no step for.
    have hdepth : 0 + items.length ≤ limits.maxStackSize.toNat := hroom.depth
    have hstep : limits.maxSteps.toNat ≤ (Bench.fresh.pushed items).steps := by
      show limits.maxSteps.toNat ≤ 0 + items.length
      exact Nat.le_of_not_lt fun hlt => h ⟨by omega, by omega, hroom.size⟩
    exact Faults.bind_of_ok (Faults.bind ⟨_, _, tick_of_le hstep⟩ _) (pushAll_of_hasRoom hroom)
  · exact Faults.bind (pushAll_faults hitems hroom) _

end

/-! ### Decisions -/

section
variable {limits : Limits} {scheme : SignatureScheme} {ledger : Ledger} {body : Bytes}
  {check : Act Bool} {own items : List Bytes} {code parameter : Bytes}
  (hcode : Guards ⟨limits, scheme, body⟩ check own code) (hparameter : Pushes parameter items)

include hcode hparameter

/-- The account decides by what its check makes of the items. -/
theorem authorize_of_pushes :
    (machineAuthorizer limits scheme ledger).authorizeLone body ⟨code, parameter⟩
      = decisionOfRun 0 ((do
          pushAll limits (items ++ own)
          answer limits check : Act Unit) Bench.fresh) := by
  rw [authorizeLone_eq limits scheme ledger hcode.ne_nil, hcode.runWitness_eq hparameter]

/-- Where the limits do not suffice, no parameter satisfies the account. -/
theorem authorize_of_not_suffice (hown : own ≠ []) (h : ¬ limits.Suffice (items ++ own)) :
    (machineAuthorizer limits scheme ledger).authorizeLone body ⟨code, parameter⟩
      = .error (.notHalted 0 .faulted) := by
  rw [authorize_of_pushes hcode hparameter]
  exact decisionOfRun_of_faults
    (answer_faults_of_not_suffice (List.append_ne_nil_of_right_ne_nil items hown) h) 0

/-- A check that faults on the items makes the run fault, whatever the limits are. -/
theorem authorize_of_check_faults (hown : own ≠ [])
    (h : Faults check (Bench.atCheck (items ++ own))) :
    (machineAuthorizer limits scheme ledger).authorizeLone body ⟨code, parameter⟩
      = .error (.notHalted 0 .faulted) := by
  -- Without the limits the run does not come as far as the check, and faults all the same.
  by_cases hsuffice : limits.Suffice (items ++ own)
  · rw [authorize_of_pushes hcode hparameter, answer_of_suffice hsuffice]
    exact decisionOfRun_of_faults (Faults.bind h _) 0
  · exact authorize_of_not_suffice hcode hparameter hown hsuffice

section
variable (hsuffice : limits.Suffice (items ++ own)) {accepted : Bool} {b : Bench}
  (hcheck : check (Bench.atCheck (items ++ own)) = .ok accepted b)

include hsuffice hcheck

/-- An answer that is too large an item cannot be given. -/
theorem authorize_of_large_answer (hsize : limits.maxItemSize.toNat < (boolItem accepted).length) :
    (machineAuthorizer limits scheme ledger).authorizeLone body ⟨code, parameter⟩
      = .error (.notHalted 0 .faulted) := by
  rw [authorize_of_pushes hcode hparameter, answer_of_suffice hsuffice, bind_of_ok hcheck,
    push_of_tooLarge hsize]
  rfl

/-- A check that comes to an end decides by its answer, if it left nothing else. -/
theorem authorize_of_check (hsize : (boolItem accepted).length ≤ limits.maxItemSize.toNat)
    {rest : List Bytes} (hrest : b.stack = .ofItems rest)
    (hlength : rest.length < (items ++ own).length) :
    (machineAuthorizer limits scheme ledger).authorizeLone body ⟨code, parameter⟩
      = if rest ≠ [] then .error (.stackShape 0 (rest.length + 1))
        else if accepted then .ok true else .error (.rejected 0) := by
  have hdepth : b.stack.depth < limits.maxStackSize.toNat := by
    rw [hrest, Stack.depth_ofItems]
    exact Nat.lt_of_lt_of_le hlength hsuffice.depth
  have hpushed : ({ b with stack := b.stack.push (boolItem accepted) } : Bench).stack.items
      = boolItem accepted :: rest := by
    rw [Stack.items_push, hrest, Stack.items_ofItems]
  rw [authorize_of_pushes hcode hparameter, answer_of_suffice hsuffice, bind_of_ok hcheck,
    push_of_room hsize hdepth, decisionOfRun_of_answer hpushed]

end

end

end Countersign
