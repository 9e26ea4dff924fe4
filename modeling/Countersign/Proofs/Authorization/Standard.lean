import Countersign.Proofs.Authorization.MultiKey

/-!
# `Countersign.Proofs.Authorization.Standard`: the limits that a configuration starts from

`Limits.standard` allows one check to name 1024 keys and lets the stack hold 2048 items. That is
room for 1024 signatures and as many keys, but the two counts lie on the stack as well. So
`authorize_multiKey_standard` has an exception: with 1024 keys and a threshold of 1023 or 1024
signatures by keys in order do not satisfy the account. They do satisfy all other accounts with up
to 1024 keys.
-/

set_option autoImplicit false

namespace Countersign

open Act Template

/-- A count of items is written in at most nine bytes, which no standard limit forbids. -/
theorem length_encode_count_le {n : Nat} (h : n < 256 ^ 8) :
    (Number.encode n).length ≤ Limits.standard.maxItemSize.toNat :=
  Nat.le_trans (Number.length_encode_le h) (by decide)

/-- Under the standard limits only the stack can be too small for an account with as many keys as
are allowed, and only if all keys or all but one have to sign. -/
theorem suffice_standard_iff {publicKeys signatures : List Bytes}
    (hlimit : publicKeys.length ≤ Limits.standard.maxMultisigKeys.toNat)
    (hle : signatures.length ≤ publicKeys.length)
    (hkeys : ∀ key ∈ publicKeys, key.length ≤ 65535)
    (hsignatures : ∀ signature ∈ signatures, signature.length ≤ 65535) :
    Limits.standard.Suffice (signatures ++ multiKeyItems signatures.length publicKeys) ↔
      ¬ (publicKeys.length = Limits.standard.maxMultisigKeys.toNat ∧
        publicKeys.length ≤ signatures.length + 1) := by
  have hmax : Limits.standard.maxMultisigKeys.toNat = 1024 := rfl
  have hsteps : Limits.standard.maxSteps.toNat = 4096 := rfl
  have hroom : Limits.standard.maxStackSize.toNat = 2048 := rfl
  -- The two counts are items as well. With 1024 keys and 1023 signatures they are one item more
  -- than there is room for.
  rw [suffice_multiKey_iff]
  constructor
  · rintro ⟨-, hdepth, -⟩
    omega
  · intro hfits
    exact ⟨by omega, by omega, hsignatures, hkeys, length_encode_count_le (by omega),
      length_encode_count_le (by omega)⟩

/-- No parameter at all satisfies an account with as many keys as the standard limits allow, if all
keys or all but one have to sign. -/
theorem authorize_multiKey_standard_ne_true {scheme : SignatureScheme} {ledger : Ledger}
    {publicKeys : List Bytes} {threshold : Nat} {code body : Bytes}
    (hcode : multiKey threshold publicKeys = .ok code)
    (hfull : publicKeys.length = Limits.standard.maxMultisigKeys.toNat)
    (hthreshold : publicKeys.length ≤ threshold + 1) (parameter : Bytes) :
    (machineAuthorizer Limits.standard scheme ledger).authorizeLone body ⟨code, parameter⟩
      ≠ .ok true := by
  have hmax : Limits.standard.maxMultisigKeys.toNat = 1024 := rfl
  have hroom : Limits.standard.maxStackSize.toNat = 2048 := rfl
  have hcount : publicKeys.length < 2 ^ 63 := by omega
  intro hok
  obtain ⟨signatures, hparameter, hlength, -⟩ := of_authorize_multiKey hcount hcode hok
  have hshort : ¬ (Limits.standard.Suffice (signatures ++ multiKeyItems threshold publicKeys) ∧
      publicKeys.length ≤ Limits.standard.maxMultisigKeys.toNat) := by
    rintro ⟨hsuffice, -⟩
    have hdepth := (suffice_multiKey_iff.mp hsuffice).2.1
    omega
  rw [authorize_multiKey_of_short hcount hcode hparameter hshort] at hok
  cases hok

/-- Under the standard limits an account with several keys is satisfied by signatures by keys in
order. The exception are accounts with as many keys as the limits allow, if all keys or all but
one have to sign: the same signatures make their runs fault. -/
theorem authorize_multiKey_standard (scheme : SignatureScheme) (ledger : Ledger) (body : Bytes)
    {publicKeys signatures : List Bytes} (hpos : 0 < signatures.length)
    (hlimit : publicKeys.length ≤ Limits.standard.maxMultisigKeys.toNat)
    (hkeys : ∀ key ∈ publicKeys, key.length ≤ 65535)
    (hsignatures : ∀ signature ∈ signatures, signature.length ≤ 65535)
    (hsigned : SignedInOrder scheme (Sha256.digest body) publicKeys signatures) :
    ∃ code parameter, multiKey signatures.length publicKeys = .ok code ∧
      Template.signatures signatures = .ok parameter ∧
      (machineAuthorizer Limits.standard scheme ledger).authorize
          (Envelope.ofWitnesses body [⟨code, parameter⟩]).toRequest
        = if publicKeys.length = Limits.standard.maxMultisigKeys.toNat ∧
            publicKeys.length ≤ signatures.length + 1
          then .error (.notHalted 0 .faulted) else .ok true := by
  have hle := length_le_of_signedInOrder hsigned
  have hmax : Limits.standard.maxMultisigKeys.toNat = 1024 := rfl
  have hcount : publicKeys.length < 2 ^ 63 := by omega
  have hsuffice := suffice_standard_iff hlimit hle hkeys hsignatures
  obtain ⟨code, hcode⟩ := exists_multiKey hpos hle hkeys
  obtain ⟨parameter, hparameter⟩ := exists_pushItems hsignatures
  refine ⟨code, parameter, hcode, hparameter, ?_⟩
  by_cases hfull : publicKeys.length = Limits.standard.maxMultisigKeys.toNat ∧
      publicKeys.length ≤ signatures.length + 1
  · rw [if_pos hfull]
    refine authorize_multiKey_of_short hcount hcode (pushItems_pushes hparameter) ?_
    rintro ⟨hallowed, -⟩
    exact hsuffice.mp hallowed hfull
  · rw [if_neg hfull]
    show (machineAuthorizer Limits.standard scheme ledger).authorizeLone body ⟨code, parameter⟩
      = .ok true
    rw [authorize_multiKey_of_exact hcount hcode (pushItems_pushes hparameter) rfl
      (hsuffice.mpr hfull) hlimit, if_pos hsigned]

/-- One key of one satisfies its account, 1024 keys of 1024 do not, with a scheme that accepts
everything. -/
theorem authorize_multiKey_standard_one_and_full :
    let a := machineAuthorizer Limits.standard ⟨fun _ _ _ => .ok ()⟩ Ledger.empty
    (∃ code parameter, multiKey 1 [[2]] = .ok code ∧ Template.signatures [[3]] = .ok parameter ∧
      a.authorize (Envelope.ofWitnesses [] [⟨code, parameter⟩]).toRequest = .ok true) ∧
    ∃ code parameter, multiKey 1024 (List.replicate 1024 [2]) = .ok code ∧
      Template.signatures (List.replicate 1024 [3]) = .ok parameter ∧
      a.authorize (Envelope.ofWitnesses [] [⟨code, parameter⟩]).toRequest
        = .error (.notHalted 0 .faulted) := by
  have hsigned (n : Nat) : SignedInOrder ⟨fun _ _ _ => .ok ()⟩ (Sha256.digest [])
      (List.replicate n [2]) (List.replicate n [3]) :=
    ⟨Fin.cast (by rw [List.length_replicate, List.length_replicate]), fun _ _ h => h, fun _ => rfl⟩
  have hsize (n : Nat) (b : UInt8) : ∀ item ∈ List.replicate n [b], item.length ≤ 65535 := by
    intro item hi
    rw [List.eq_of_mem_replicate hi, List.length_singleton]
    decide
  have hfull := authorize_multiKey_standard ⟨fun _ _ _ => .ok ()⟩ Ledger.empty []
    (by rw [List.length_replicate]; decide) (by rw [List.length_replicate]; decide)
    (hsize 1024 2) (hsize 1024 3) (hsigned 1024)
  rw [List.length_replicate, List.length_replicate, if_pos ⟨rfl, by decide⟩] at hfull
  exact ⟨authorize_multiKey_standard ⟨fun _ _ _ => .ok ()⟩ Ledger.empty [] (by decide) (by decide)
    (hsize 1 2) (hsize 1 3) (hsigned 1), hfull⟩

end Countersign
