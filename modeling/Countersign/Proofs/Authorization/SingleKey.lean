import Countersign.Proofs.Authorization.Account
import Countersign.Proofs.Script.Template

/-!
# `Countersign.Proofs.Authorization.SingleKey`: accounts with one key

The account with one key asks for a signature on the machine, and `Authorizer.checkSignature` asks
for one without it. `authorize_singleKey` says that the two agree for every parameter that there
is: the account is satisfied by a parameter that pushes one item, if that item is a signature that
is accepted directly, and by nothing else.

The limits have a part in this. A run takes a step for each item, one for the key and one for the
check, and the key lies on top of what the parameter pushed.
-/

set_option autoImplicit false

namespace Countersign

open Act

/-! ### The check of one signature -/

/-- Takes a key and a signature off the stack and asks about them. -/
def Act.checkOne (setting : Setting) : Act Bool := do
  let publicKey ← pop Opcode.checkSignature
  let signature ← pop Opcode.checkSignature
  let digest ← messageDigest setting.body
  ask setting.scheme publicKey digest signature

/-- The opcode of a check, as the last one of a script, checks and answers. -/
theorem runFrom_checkSignature (setting : Setting) (offset : Nat) :
    runFrom setting .code offset [Opcode.checkSignature]
      = answer setting.limits (checkOne setting) := by
  refine runFrom_last ?_
  rw [perform, show Operation.ofByte Opcode.checkSignature = .checkSignature from rfl, checkOne]
  simp only [bind_assoc]

/-- The item below the key is checked as a signature by this key over the body. -/
theorem checkOne_atCheck (setting : Setting) (publicKey signature : Bytes) (rest : List Bytes) :
    ∃ b, checkOne setting (Bench.atCheck (rest ++ [signature] ++ [publicKey]))
        = .ok (setting.scheme.accepts publicKey (Sha256.digest setting.body) signature) b ∧
      b.stack = .ofItems rest.reverse := by
  -- The code runs after the parameter, so its key lies on top of the signature.
  have hitems : (Bench.atCheck (rest ++ [signature] ++ [publicKey])).stack.items
      = publicKey :: signature :: rest.reverse := by
    rw [Bench.items_atCheck, List.reverse_concat, List.reverse_concat]
  generalize hstart : Bench.atCheck (rest ++ [signature] ++ [publicKey]) = start at hitems
  have hsignature : (start.withItems (signature :: rest.reverse)).stack.items
      = signature :: rest.reverse := Bench.items_withItems _ _
  have hdigest : ((start.withItems (signature :: rest.reverse)).withItems rest.reverse).digest
      = none := by
    rw [← hstart]
    rfl
  rw [checkOne, bind_of_ok (pop_of_cons hitems), bind_of_ok (pop_of_cons hsignature),
    bind_of_ok (messageDigest_of_none hdigest), ask_eq]
  exact ⟨_, rfl, rfl⟩

/-- Without an item below the key there is no signature to check. -/
theorem checkOne_faults {setting : Setting} {b : Bench} {publicKey : Bytes}
    (hitems : b.stack.items = [publicKey]) : Faults (checkOne setting) b := by
  have hempty : (b.withItems []).stack.items = [] := rfl
  exact Faults.bind_of_ok (Faults.bind ⟨_, _, pop_of_nil hempty⟩ _) (pop_of_cons hitems)

/-- The script of an account with one key pushes the key and checks one signature. -/
theorem guards_singleKey {publicKey code : Bytes} (h : Template.singleKey publicKey = .ok code)
    (setting : Setting) : Guards setting (checkOne setting) [publicKey] code := by
  obtain ⟨pushes, rfl, hpushes⟩ := Template.singleKey_eq h
  exact .intro hpushes (runFrom_checkSignature setting)

/-! ### What the account decides -/

section
variable {limits : Limits} {scheme : SignatureScheme} {ledger : Ledger} {publicKey code : Bytes}
  {parameter body : Bytes} (hcode : Template.singleKey publicKey = .ok code)

include hcode

/-- A parameter that pushes nothing gives the account nothing to check. -/
theorem authorize_singleKey_of_nil (hparameter : Pushes parameter []) :
    (machineAuthorizer limits scheme ledger).authorizeLone body ⟨code, parameter⟩
      = .error (.notHalted 0 .faulted) :=
  authorize_of_check_faults (guards_singleKey hcode ⟨limits, scheme, body⟩) hparameter
    (List.cons_ne_nil _ _) (checkOne_faults rfl)

section
variable {signature : Bytes} {rest : List Bytes}
  (hparameter : Pushes parameter (rest ++ [signature]))
  (hsuffice : limits.Suffice (rest ++ [signature] ++ [publicKey]))

include hparameter hsuffice

/-- The last item that a parameter pushes is the signature that is checked. -/
theorem authorize_singleKey_of_pushes
    (hsize : (boolItem (scheme.accepts publicKey (Sha256.digest body) signature)).length
      ≤ limits.maxItemSize.toNat) :
    (machineAuthorizer limits scheme ledger).authorizeLone body ⟨code, parameter⟩
      = if rest ≠ [] then .error (.stackShape 0 (rest.length + 1))
        else if scheme.accepts publicKey (Sha256.digest body) signature then .ok true
        else .error (.rejected 0) := by
  obtain ⟨b, hcheck, hstack⟩ := checkOne_atCheck ⟨limits, scheme, body⟩ publicKey signature rest
  have hlength : rest.reverse.length < (rest ++ [signature] ++ [publicKey]).length := by
    rw [List.length_append, List.length_append, List.length_reverse, List.length_singleton,
      List.length_singleton]
    omega
  rw [authorize_of_check (guards_singleKey hcode _) hparameter hsuffice hcheck hsize hstack hlength,
    List.length_reverse]
  simp only [ne_eq, List.reverse_eq_nil_iff]

/-- No room for the answer yes is no yes. -/
theorem authorize_singleKey_of_large_answer
    (hsize : limits.maxItemSize.toNat
      < (boolItem (scheme.accepts publicKey (Sha256.digest body) signature)).length) :
    (machineAuthorizer limits scheme ledger).authorizeLone body ⟨code, parameter⟩
      = .error (.notHalted 0 .faulted) := by
  obtain ⟨b, hcheck, -⟩ := checkOne_atCheck ⟨limits, scheme, body⟩ publicKey signature rest
  exact authorize_of_large_answer (guards_singleKey hcode _) hparameter hsuffice hcheck hsize

end

/-- A single item decides by whether it is accepted. -/
theorem authorize_singleKey_of_single {signature : Bytes}
    (hparameter : Pushes parameter [signature])
    (hsuffice : limits.Suffice ([signature] ++ [publicKey]))
    (hanswer : 1 ≤ limits.maxItemSize.toNat) :
    (machineAuthorizer limits scheme ledger).authorizeLone body ⟨code, parameter⟩
      = if scheme.accepts publicKey (Sha256.digest body) signature then .ok true
        else .error (.rejected 0) := by
  have hlast : Pushes parameter ([] ++ [signature]) := hparameter
  rw [authorize_singleKey_of_pushes hcode hlast hsuffice
    (Nat.le_trans (length_boolItem_le _) hanswer), if_neg (not_not_intro rfl)]

end

/-! ### Two ways to ask for a signature -/

/-- Asking directly is asking the scheme. -/
theorem checkSignature_eq_ok_iff (a : Authorizer Machine) (request : Request)
    (publicKey signature : Bytes) :
    a.checkSignature request publicKey signature = .ok true ↔
      a.scheme.accepts publicKey request.digest signature = true := by
  rw [SignatureScheme.accepts_iff, Authorizer.checkSignature]
  cases a.scheme.verify publicKey request.digest signature with
  | error cause => exact iff_of_false nofun nofun
  | ok => exact iff_of_true rfl rfl

/-- What the limits have to allow for the items of a parameter and one key. -/
theorem suffice_concat_iff {limits : Limits} {items : List Bytes} {publicKey : Bytes} :
    limits.Suffice (items ++ [publicKey]) ↔
      items.length + 2 ≤ limits.maxSteps.toNat ∧ items.length + 1 ≤ limits.maxStackSize.toNat ∧
        publicKey.length ≤ limits.maxItemSize.toNat ∧
        ∀ item ∈ items, item.length ≤ limits.maxItemSize.toNat := by
  have hlength : (items ++ [publicKey]).length = items.length + 1 := by
    rw [List.length_append, List.length_singleton]
  constructor
  · rintro ⟨hsteps, hdepth, hsize⟩
    rw [hlength] at hsteps hdepth
    exact ⟨hsteps, hdepth, hsize publicKey (by simp), fun item hi => hsize item (by simp [hi])⟩
  · rintro ⟨hsteps, hdepth, hkey, hsize⟩
    refine ⟨by rw [hlength]; exact hsteps, by rw [hlength]; exact hdepth, fun item hi => ?_⟩
    rcases List.mem_append.mp hi with hi | hi
    · exact hsize item hi
    · rw [List.mem_singleton.mp hi]
      exact hkey

/-- What satisfies the account is one item that the scheme accepts, within the limits. -/
theorem of_authorize_singleKey {limits : Limits} {scheme : SignatureScheme} {ledger : Ledger}
    {publicKey code parameter body : Bytes} (hcode : Template.singleKey publicKey = .ok code)
    (hok : (machineAuthorizer limits scheme ledger).authorizeLone body ⟨code, parameter⟩
      = .ok true) :
    ∃ signature, Pushes parameter [signature] ∧
      scheme.accepts publicKey (Sha256.digest body) signature = true ∧
      limits.Suffice ([signature] ++ [publicKey]) ∧ 1 ≤ limits.maxItemSize.toNat := by
  have hguards := guards_singleKey hcode ⟨limits, scheme, body⟩
  obtain ⟨items, hparameter⟩ := exists_pushes_of_authorize limits scheme ledger hguards.ne_nil hok
  -- The check takes the item that was pushed last, so the items are looked at from behind.
  rcases List.eq_nil_or_concat' items with rfl | ⟨rest, signature, rfl⟩
  · rw [authorize_singleKey_of_nil hcode hparameter] at hok
    cases hok
  by_cases hsuffice : limits.Suffice (rest ++ [signature] ++ [publicKey])
  · by_cases hsize : (boolItem (scheme.accepts publicKey (Sha256.digest body) signature)).length
        ≤ limits.maxItemSize.toNat
    · rw [authorize_singleKey_of_pushes hcode hparameter hsuffice hsize] at hok
      cases rest with
      | cons item rest =>
          rw [if_pos (List.cons_ne_nil item rest)] at hok
          cases hok
      | nil =>
          rw [if_neg (not_not_intro rfl)] at hok
          cases haccepts : scheme.accepts publicKey (Sha256.digest body) signature with
          | true =>
              rw [haccepts] at hsize
              exact ⟨signature, hparameter, haccepts, hsuffice, hsize⟩
          | false =>
              rw [haccepts] at hok
              cases hok
    · rw [authorize_singleKey_of_large_answer hcode hparameter hsuffice
        (Nat.lt_of_not_le hsize)] at hok
      cases hok
  · rw [authorize_of_not_suffice hguards hparameter (List.cons_ne_nil _ _) hsuffice] at hok
    cases hok

/-- The account with one key agrees with the direct check, for every parameter.

* It is satisfied exactly by a parameter that pushes one item, which is a signature that is
  accepted directly, if the limits allow for it.
* What does not satisfy it is refused. The answer no is never given.
* A parameter that is not a row of push instructions, or pushes nothing, makes the run fault.
* If the limits allow for all items, only one item may be there, and it has to be accepted.
* If they do not, the run faults. -/
theorem authorize_singleKey (limits : Limits) (scheme : SignatureScheme) (ledger : Ledger)
    {publicKey code : Bytes} (hcode : Template.singleKey publicKey = .ok code)
    (body parameter : Bytes) :
    let a := machineAuthorizer limits scheme ledger
    let request := (Envelope.ofWitnesses body [⟨code, parameter⟩]).toRequest
    (a.authorize request = .ok true ↔
      ∃ signature, Pushes parameter [signature] ∧
        a.checkSignature request publicKey signature = .ok true ∧
        3 ≤ limits.maxSteps.toNat ∧ 2 ≤ limits.maxStackSize.toNat ∧
        max 1 (max publicKey.length signature.length) ≤ limits.maxItemSize.toNat) ∧
    (a.authorize request ≠ .ok true → ∃ refusal, a.authorize request = .error refusal) ∧
    ((¬ ∃ items, Pushes parameter items) ∨ Pushes parameter [] →
      a.authorize request = .error (.notHalted 0 .faulted)) ∧
    (∀ items, Pushes parameter items → items ≠ [] →
      items.length + 2 ≤ limits.maxSteps.toNat →
      items.length + 1 ≤ limits.maxStackSize.toNat →
      1 ≤ limits.maxItemSize.toNat →
      publicKey.length ≤ limits.maxItemSize.toNat →
      (∀ item ∈ items, item.length ≤ limits.maxItemSize.toNat) →
      (2 ≤ items.length → a.authorize request = .error (.stackShape 0 items.length)) ∧
      (∀ signature, items = [signature] →
        a.checkSignature request publicKey signature ≠ .ok true →
        a.authorize request = .error (.rejected 0))) ∧
    (∀ items, Pushes parameter items →
      (limits.maxSteps.toNat < items.length + 2 ∨ limits.maxStackSize.toNat < items.length + 1 ∨
        limits.maxItemSize.toNat < publicKey.length ∨
        ∃ item ∈ items, limits.maxItemSize.toNat < item.length) →
      a.authorize request = .error (.notHalted 0 .faulted)) := by
  intro a request
  have hguards := guards_singleKey hcode ⟨limits, scheme, body⟩
  have hdirect (signature : Bytes) :
      a.checkSignature request publicKey signature = .ok true ↔
        scheme.accepts publicKey (Sha256.digest body) signature = true :=
    checkSignature_eq_ok_iff a request publicKey signature
  refine ⟨⟨?_, ?_⟩, ?_, ?_, ?_, ?_⟩
  · intro hok
    obtain ⟨signature, hparameter, haccepts, hsuffice, hanswer⟩ := of_authorize_singleKey hcode hok
    obtain ⟨hsteps, hdepth, hkey, hsize⟩ := suffice_concat_iff.mp hsuffice
    have hsignature := hsize signature (List.mem_singleton_self signature)
    refine ⟨signature, hparameter, (hdirect signature).mpr haccepts, hsteps, hdepth, ?_⟩
    exact Nat.max_le.mpr ⟨hanswer, Nat.max_le.mpr ⟨hkey, hsignature⟩⟩
  · rintro ⟨signature, hparameter, haccepts, hsteps, hdepth, hsize⟩
    obtain ⟨hanswer, hlengths⟩ := Nat.max_le.mp hsize
    obtain ⟨hkey, hsignature⟩ := Nat.max_le.mp hlengths
    have hsuffice : limits.Suffice ([signature] ++ [publicKey]) :=
      suffice_concat_iff.mpr ⟨hsteps, hdepth, hkey, fun item hi => by
        rw [List.mem_singleton.mp hi]
        exact hsignature⟩
    have hdecision : a.authorize request = _ :=
      authorize_singleKey_of_single hcode hparameter hsuffice hanswer
    rw [hdecision, if_pos ((hdirect signature).mp haccepts)]
  · -- There are two answers and refusals, and the answer no is never given.
    intro hnot
    cases hdecision : a.authorize request with
    | error refusal => exact ⟨refusal, rfl⟩
    | ok answer =>
        cases answer with
        | true => exact absurd hdecision hnot
        | false => exact absurd hdecision (a.authorize_ne_false request)
  · rintro (h | hparameter)
    · exact authorize_of_not_pushes limits scheme ledger hguards.ne_nil h body
    · exact authorize_singleKey_of_nil hcode hparameter
  · intro items hparameter hne hsteps hdepth hanswer hkey hsize
    have hsuffice := suffice_concat_iff.mpr ⟨hsteps, hdepth, hkey, hsize⟩
    refine ⟨fun hlength => ?_, ?_⟩
    · -- Only the last item is taken, and the others are in the way of the answer.
      rcases List.eq_nil_or_concat' items with rfl | ⟨rest, signature, rfl⟩
      · exact absurd rfl hne
      · rw [List.length_append, List.length_singleton] at hlength ⊢
        have hrest : rest ≠ [] := List.ne_nil_of_length_pos (by omega)
        have hdecision : a.authorize request = _ :=
          authorize_singleKey_of_pushes hcode hparameter hsuffice
            (Nat.le_trans (length_boolItem_le _) hanswer)
        rw [hdecision, if_pos hrest]
    · rintro signature rfl hrefused
      have hdecision : a.authorize request = _ :=
        authorize_singleKey_of_single hcode hparameter hsuffice hanswer
      rw [hdecision, if_neg fun h => hrefused ((hdirect signature).mpr h)]
  · intro items hparameter hshort
    -- Each limit that is too small contradicts one part of what suffices.
    refine authorize_of_not_suffice hguards hparameter (List.cons_ne_nil _ _) ?_
    rw [suffice_concat_iff]
    rintro ⟨hsteps, hdepth, hkey, hsize⟩
    rcases hshort with h | h | h | ⟨item, hi, h⟩
    · omega
    · omega
    · omega
    · have := hsize item hi
      omega

/-- With a scheme that accepts everything, one item satisfies an account and two are too many. -/
theorem authorize_singleKey_one_and_two :
    let a := machineAuthorizer Limits.standard ⟨fun _ _ _ => .ok ()⟩ Ledger.empty
    Template.singleKey [2] = .ok [1, 2, 0xAC] ∧
      a.authorize (Envelope.ofWitnesses [] [⟨[1, 2, 0xAC], [1, 3]⟩]).toRequest = .ok true ∧
      a.authorize (Envelope.ofWitnesses [] [⟨[1, 2, 0xAC], [1, 3, 0]⟩]).toRequest
        = .error (.stackShape 0 2) := by
  have hcode : Template.singleKey [2] = .ok [1, 2, 0xAC] := rfl
  have hitem : PushInstruction [1, 3] [3] := @PushInstruction.bytes [3] (by decide) (by decide)
  have hone := authorize_singleKey Limits.standard ⟨fun _ _ _ => .ok ()⟩ Ledger.empty hcode []
    [1, 3]
  have htwo := authorize_singleKey Limits.standard ⟨fun _ _ _ => .ok ()⟩ Ledger.empty hcode []
    [1, 3, 0]
  have hpushes : Pushes [1, 3, 0] [[3], []] := .cons hitem (PushInstruction.pushes .empty)
  refine ⟨hcode, hone.1.mpr ⟨[3], hitem.pushes, rfl, by decide, by decide, by decide⟩, ?_⟩
  exact (htwo.2.2.2.1 _ hpushes (by decide) (by decide) (by decide) (by decide) (by decide)
    (by decide)).1 (by decide)

end Countersign
