import Countersign.Proofs.Authorization.Account
import Countersign.Proofs.Machine.Matching
import Countersign.Proofs.Script.Template

/-!
# `Countersign.Proofs.Authorization.MultiKey`: accounts with several keys

The account with several keys asks for `threshold` signatures, which match its keys in order.
`authorize_multiKey` says what the account decides on every parameter there is, under all limits.
It is satisfied by as many items as the threshold, if they are signatures by keys in order, and by
nothing else.

The script pushes the threshold, the keys and their number on top of what its parameter pushes. The
last items of the parameter are therefore taken as signatures, and what lies below them is too many.
-/

set_option autoImplicit false

namespace Countersign

open Act Template

/-! ### The check of several signatures -/

/-- The opcode of a multiple check, as the last one of a script, checks and answers. -/
theorem runFrom_checkMultisig (setting : Setting) (offset : Nat) :
    runFrom setting .code offset [Opcode.checkMultisig]
      = answer setting.limits (checkMultisig setting) := by
  refine runFrom_last ?_
  rw [perform, show Operation.ofByte Opcode.checkMultisig = .checkMultisig from rfl]

/-- The script of an account with several keys pushes counts and keys and checks signatures. -/
theorem guards_multiKey {threshold : Nat} {publicKeys : List Bytes} {code : Bytes}
    (hkeys : publicKeys.length < 2 ^ 63) (h : multiKey threshold publicKeys = .ok code)
    (setting : Setting) :
    Guards setting (checkMultisig setting) (multiKeyItems threshold publicKeys) code := by
  obtain ⟨-, -, pushes, rfl, hpushes⟩ := multiKey_eq (by omega) h
  exact .intro hpushes (runFrom_checkMultisig setting)

/-- The account pushes its threshold at least. -/
theorem multiKeyItems_ne_nil (threshold : Nat) (publicKeys : List Bytes) :
    multiKeyItems threshold publicKeys ≠ [] :=
  List.cons_ne_nil _ _

/-- What the check finds on the stack, from the top. -/
theorem items_atCheck_multiKey (items : List Bytes) (threshold : Nat) (publicKeys : List Bytes) :
    (Bench.atCheck (items ++ multiKeyItems threshold publicKeys)).stack.items
      = Number.encode publicKeys.length ::
        (publicKeys.reverse ++ Number.encode threshold :: items.reverse) := by
  rw [Bench.items_atCheck, multiKeyItems, List.reverse_append, List.reverse_cons,
    List.reverse_concat, List.cons_append, List.cons_append, List.append_assoc,
    List.singleton_append]

/-- A number of keys is read as it was written. -/
theorem decode_encode_count {n : Nat} (h : n < 2 ^ 63) :
    Number.decode (Number.encode n) = n :=
  Number.decode_encode (by rw [Int.natAbs_natCast]; exact h)

/-- The last items of the parameter are checked as signatures, and those below them are left. -/
theorem checkMultisig_atCheck (setting : Setting) (below : List Bytes)
    {signatures publicKeys : List Bytes} (hkeys : publicKeys.length < 2 ^ 63)
    (hpos : 0 < signatures.length) (hle : signatures.length ≤ publicKeys.length)
    (hlimit : publicKeys.length ≤ setting.limits.maxMultisigKeys.toNat) :
    ∃ b, checkMultisig setting
          (Bench.atCheck (below ++ signatures ++ multiKeyItems signatures.length publicKeys))
        = .ok (matchesInOrder setting.scheme (Sha256.digest setting.body) publicKeys signatures) b ∧
      b.stack = .ofItems below.reverse := by
  have hsmall : signatures.length < 2 ^ 63 := by omega
  exact checkMultisig_of_items
    (items_atCheck_multiKey (below ++ signatures) signatures.length publicKeys)
    (decode_encode_count hkeys) (decode_encode_count hsmall) hpos hle hlimit rfl
    List.reverse_append rfl

/-- What the limits have to allow for the items of a parameter, the keys and the counts. -/
theorem suffice_multiKey_iff {limits : Limits} {items publicKeys : List Bytes} {threshold : Nat} :
    limits.Suffice (items ++ multiKeyItems threshold publicKeys) ↔
      items.length + publicKeys.length + 3 ≤ limits.maxSteps.toNat ∧
        items.length + publicKeys.length + 2 ≤ limits.maxStackSize.toNat ∧
        (∀ item ∈ items, item.length ≤ limits.maxItemSize.toNat) ∧
        (∀ key ∈ publicKeys, key.length ≤ limits.maxItemSize.toNat) ∧
        (Number.encode threshold).length ≤ limits.maxItemSize.toNat ∧
        (Number.encode publicKeys.length).length ≤ limits.maxItemSize.toNat := by
  have hlength : (items ++ multiKeyItems threshold publicKeys).length
      = items.length + publicKeys.length + 2 := by
    rw [List.length_append, length_multiKeyItems, Nat.add_assoc]
  constructor
  · rintro ⟨hsteps, hdepth, hsize⟩
    rw [hlength] at hsteps hdepth
    refine ⟨hsteps, hdepth, fun item hi => ?_, fun key hkey => ?_, ?_, ?_⟩
    · exact hsize item (List.mem_append_left _ hi)
    · exact hsize key (by simp [multiKeyItems, hkey])
    · exact hsize _ (by simp [multiKeyItems])
    · exact hsize _ (by simp [multiKeyItems])
  · rintro ⟨hsteps, hdepth, hitems, hkeys, hthreshold, hcount⟩
    refine ⟨by rw [hlength]; exact hsteps, by rw [hlength]; exact hdepth, fun item hi => ?_⟩
    rw [multiKeyItems, List.mem_append, List.mem_cons, List.mem_append, List.mem_singleton] at hi
    rcases hi with hi | rfl | hi | rfl
    · exact hitems item hi
    · exact hthreshold
    · exact hkeys item hi
    · exact hcount

/-! ### What the account decides -/

section
variable {limits : Limits} {scheme : SignatureScheme} {ledger : Ledger} {publicKeys : List Bytes}
  {threshold : Nat} {code parameter body : Bytes} {items : List Bytes}
  (hkeys : publicKeys.length < 2 ^ 63) (hcode : multiKey threshold publicKeys = .ok code)

include hkeys hcode

/-- More keys than the limit allows cannot be checked. -/
theorem authorize_multiKey_of_limit (hparameter : Pushes parameter items)
    (hlimit : limits.maxMultisigKeys.toNat < publicKeys.length) :
    (machineAuthorizer limits scheme ledger).authorizeLone body ⟨code, parameter⟩
      = .error (.notHalted 0 .faulted) :=
  authorize_of_check_faults (guards_multiKey hkeys hcode ⟨limits, scheme, body⟩) hparameter
    (multiKeyItems_ne_nil threshold publicKeys)
    (checkMultisig_faults_of_limit (items_atCheck_multiKey items threshold publicKeys)
      (decode_encode_count hkeys) hlimit)

/-- Fewer items than the threshold are not enough to take the signatures from. -/
theorem authorize_multiKey_of_few (hparameter : Pushes parameter items)
    (hfew : items.length < threshold) :
    (machineAuthorizer limits scheme ledger).authorizeLone body ⟨code, parameter⟩
      = .error (.notHalted 0 .faulted) := by
  obtain ⟨hpos, hle, -⟩ := multiKey_eq (by omega) hcode
  by_cases hlimit : publicKeys.length ≤ limits.maxMultisigKeys.toNat
  · refine authorize_of_check_faults (guards_multiKey hkeys hcode ⟨limits, scheme, body⟩)
      hparameter (multiKeyItems_ne_nil threshold publicKeys) ?_
    refine checkMultisig_faults_of_length (items_atCheck_multiKey items threshold publicKeys)
      (decode_encode_count hkeys) (decode_encode_count (by omega)) hpos hle hlimit ?_
    rw [List.length_reverse]
    exact hfew
  · exact authorize_multiKey_of_limit hkeys hcode hparameter (Nat.lt_of_not_le hlimit)

/-- Where the limits do not allow for all items or all keys, the run faults. -/
theorem authorize_multiKey_of_short (hparameter : Pushes parameter items)
    (hshort : ¬ (limits.Suffice (items ++ multiKeyItems threshold publicKeys) ∧
      publicKeys.length ≤ limits.maxMultisigKeys.toNat)) :
    (machineAuthorizer limits scheme ledger).authorizeLone body ⟨code, parameter⟩
      = .error (.notHalted 0 .faulted) := by
  by_cases hlimit : publicKeys.length ≤ limits.maxMultisigKeys.toNat
  · exact authorize_of_not_suffice (guards_multiKey hkeys hcode ⟨limits, scheme, body⟩) hparameter
      (multiKeyItems_ne_nil threshold publicKeys) fun hsuffice => hshort ⟨hsuffice, hlimit⟩
  · exact authorize_multiKey_of_limit hkeys hcode hparameter (Nat.lt_of_not_le hlimit)

/-- The last items of a parameter are the signatures, and what lies below them is too many. -/
theorem authorize_multiKey_of_pushes {below signatures : List Bytes}
    (hparameter : Pushes parameter (below ++ signatures)) (hlength : signatures.length = threshold)
    (hsuffice : limits.Suffice (below ++ signatures ++ multiKeyItems threshold publicKeys))
    (hlimit : publicKeys.length ≤ limits.maxMultisigKeys.toNat) :
    (machineAuthorizer limits scheme ledger).authorizeLone body ⟨code, parameter⟩
      = if below ≠ [] then .error (.stackShape 0 (below.length + 1))
        else if matchesInOrder scheme (Sha256.digest body) publicKeys signatures then .ok true
        else .error (.rejected 0) := by
  obtain ⟨hpos, hle, -⟩ := multiKey_eq (by omega) hcode
  subst hlength
  obtain ⟨b, hcheck, hstack⟩ :=
    checkMultisig_atCheck ⟨limits, scheme, body⟩ below hkeys hpos hle hlimit
  -- The threshold is an item of at least one byte, so the answer is not too large either.
  have hanswer : (boolItem (matchesInOrder scheme (Sha256.digest body) publicKeys
      signatures)).length ≤ limits.maxItemSize.toNat := by
    have hone := length_boolItem_le
      (matchesInOrder scheme (Sha256.digest body) publicKeys signatures)
    have hcount := List.length_pos_of_ne_nil (Number.encode_ne_nil hpos)
    have hsize := (suffice_multiKey_iff.mp hsuffice).2.2.2.2.1
    omega
  have hless : below.reverse.length
      < (below ++ signatures ++ multiKeyItems signatures.length publicKeys).length := by
    rw [List.length_append, List.length_append, List.length_reverse, length_multiKeyItems]
    omega
  rw [authorize_of_check (guards_multiKey hkeys hcode _) hparameter hsuffice hcheck hanswer hstack
    hless, List.length_reverse]
  simp only [ne_eq, List.reverse_eq_nil_iff]

/-- As many items as the threshold decide by whether they are signatures by keys in order. -/
theorem authorize_multiKey_of_exact (hparameter : Pushes parameter items)
    (hlength : items.length = threshold)
    (hsuffice : limits.Suffice (items ++ multiKeyItems threshold publicKeys))
    (hlimit : publicKeys.length ≤ limits.maxMultisigKeys.toNat) :
    (machineAuthorizer limits scheme ledger).authorizeLone body ⟨code, parameter⟩
      = if SignedInOrder scheme (Sha256.digest body) publicKeys items then .ok true
        else .error (.rejected 0) := by
  have hbare : Pushes parameter ([] ++ items) := hparameter
  rw [authorize_multiKey_of_pushes hkeys hcode hbare hlength hsuffice hlimit,
    if_neg (not_not_intro rfl)]
  simp only [matchesInOrder_iff]

end

/-- From enough items the last ones can be taken. -/
theorem exists_append_of_length_le {items : List Bytes} {n : Nat} (h : n ≤ items.length) :
    ∃ below last, items = below ++ last ∧ last.length = n := by
  obtain ⟨below, last, rfl, hlength⟩ := exists_append_of_le (Nat.sub_le items.length n)
  refine ⟨below, last, rfl, ?_⟩
  rw [List.length_append] at hlength h
  omega

/-- What satisfies the account is as many signatures as the threshold, by keys in order. -/
theorem of_authorize_multiKey {limits : Limits} {scheme : SignatureScheme} {ledger : Ledger}
    {threshold : Nat} {publicKeys : List Bytes} {code parameter body : Bytes}
    (hkeys : publicKeys.length < 2 ^ 63) (hcode : multiKey threshold publicKeys = .ok code)
    (hok : (machineAuthorizer limits scheme ledger).authorizeLone body ⟨code, parameter⟩
      = .ok true) :
    ∃ signatures, Pushes parameter signatures ∧ signatures.length = threshold ∧
      SignedInOrder scheme (Sha256.digest body) publicKeys signatures := by
  have hguards := guards_multiKey hkeys hcode ⟨limits, scheme, body⟩
  obtain ⟨items, hparameter⟩ := exists_pushes_of_authorize limits scheme ledger hguards.ne_nil hok
  -- Every other way for a run to end is excluded, as none of them is a yes.
  rcases Nat.lt_or_ge items.length threshold with hfew | henough
  · rw [authorize_multiKey_of_few hkeys hcode hparameter hfew] at hok
    cases hok
  -- The check takes from the top, so what it takes are the last items of the parameter.
  obtain ⟨below, signatures, rfl, hlength⟩ := exists_append_of_length_le henough
  by_cases hallowed : limits.Suffice (below ++ signatures ++ multiKeyItems threshold publicKeys) ∧
      publicKeys.length ≤ limits.maxMultisigKeys.toNat
  · rw [authorize_multiKey_of_pushes hkeys hcode hparameter hlength hallowed.1 hallowed.2] at hok
    cases below with
    | cons item below =>
        rw [if_pos (List.cons_ne_nil item below)] at hok
        cases hok
    | nil =>
        rw [if_neg (not_not_intro rfl)] at hok
        by_cases hmatch : matchesInOrder scheme (Sha256.digest body) publicKeys signatures = true
        · exact ⟨signatures, hparameter, hlength, matchesInOrder_iff.mp hmatch⟩
        · rw [if_neg hmatch] at hok
          cases hok
  · rw [authorize_multiKey_of_short hkeys hcode hparameter hallowed] at hok
    cases hok

/-- The account with several keys, for every parameter and under all limits.

* What satisfies it pushes as many items as the threshold, and these are signatures by keys in
  order.
* If the limits allow for all items, fewer items than the threshold make the run fault, each item
  too many stays on the stack, and as many as the threshold pass if they are signatures by keys in
  order.
* If the limits do not allow for all items, the run faults.
* It faults also on a parameter that is not a row of push instructions. -/
theorem authorize_multiKey (limits : Limits) (scheme : SignatureScheme) (ledger : Ledger)
    {threshold : Nat} {publicKeys : List Bytes} {code : Bytes}
    (hkeys : publicKeys.length < 2 ^ 63) (hcode : multiKey threshold publicKeys = .ok code)
    (body parameter : Bytes) :
    let decision := (machineAuthorizer limits scheme ledger).authorize
      (Envelope.ofWitnesses body [⟨code, parameter⟩]).toRequest
    (decision = .ok true →
      ∃ signatures, Pushes parameter signatures ∧ signatures.length = threshold ∧
        SignedInOrder scheme (Sha256.digest body) publicKeys signatures) ∧
    (∀ items, Pushes parameter items →
      items.length + publicKeys.length + 3 ≤ limits.maxSteps.toNat →
      items.length + publicKeys.length + 2 ≤ limits.maxStackSize.toNat →
      publicKeys.length ≤ limits.maxMultisigKeys.toNat →
      (∀ item ∈ items, item.length ≤ limits.maxItemSize.toNat) →
      (∀ key ∈ publicKeys, key.length ≤ limits.maxItemSize.toNat) →
      (Number.encode threshold).length ≤ limits.maxItemSize.toNat →
      (Number.encode publicKeys.length).length ≤ limits.maxItemSize.toNat →
      (items.length < threshold → decision = .error (.notHalted 0 .faulted)) ∧
      (threshold < items.length →
        decision = .error (.stackShape 0 (items.length - threshold + 1))) ∧
      (items.length = threshold →
        decision = if SignedInOrder scheme (Sha256.digest body) publicKeys items then .ok true
          else .error (.rejected 0))) ∧
    (∀ items, Pushes parameter items →
      (limits.maxSteps.toNat < items.length + publicKeys.length + 3 ∨
        limits.maxStackSize.toNat < items.length + publicKeys.length + 2 ∨
        limits.maxMultisigKeys.toNat < publicKeys.length ∨
        (∃ item ∈ items, limits.maxItemSize.toNat < item.length) ∨
        (∃ key ∈ publicKeys, limits.maxItemSize.toNat < key.length) ∨
        limits.maxItemSize.toNat < (Number.encode threshold).length ∨
        limits.maxItemSize.toNat < (Number.encode publicKeys.length).length) →
      decision = .error (.notHalted 0 .faulted)) ∧
    ((¬ ∃ items, Pushes parameter items) → decision = .error (.notHalted 0 .faulted)) := by
  intro decision
  have hguards := guards_multiKey hkeys hcode ⟨limits, scheme, body⟩
  refine ⟨of_authorize_multiKey hkeys hcode, ?_, ?_, fun hparses => ?_⟩
  · -- The limits allow for everything, so the number of items decides.
    intro items hparameter hsteps hdepth hlimit hitems hkeySizes hthreshold hcount
    have hsuffice : limits.Suffice (items ++ multiKeyItems threshold publicKeys) :=
      suffice_multiKey_iff.mpr ⟨hsteps, hdepth, hitems, hkeySizes, hthreshold, hcount⟩
    refine ⟨authorize_multiKey_of_few hkeys hcode hparameter, fun hmany => ?_, fun hexact => ?_⟩
    · obtain ⟨below, signatures, rfl, hlength⟩ := exists_append_of_length_le (Nat.le_of_lt hmany)
      have hdecision : decision = _ :=
        authorize_multiKey_of_pushes hkeys hcode hparameter hlength hsuffice hlimit
      rw [List.length_append] at hmany
      have hbelow : below ≠ [] := List.ne_nil_of_length_pos (by omega)
      have hdepth : (below ++ signatures).length - threshold = below.length := by
        rw [List.length_append]
        omega
      rw [hdecision, if_pos hbelow, hdepth]
    · exact authorize_multiKey_of_exact hkeys hcode hparameter hexact hsuffice hlimit
  · -- Each of the limits is one that `Suffice` asks for, or the one on keys.
    intro items hparameter hshort
    refine authorize_multiKey_of_short hkeys hcode hparameter ?_
    rintro ⟨hsuffice, hlimit⟩
    obtain ⟨hsteps, hdepth, hitems, hkeySizes, hthreshold, hcount⟩ :=
      suffice_multiKey_iff.mp hsuffice
    rcases hshort with h | h | h | ⟨item, hi, h⟩ | ⟨key, hkey, h⟩ | h | h
    · omega
    · omega
    · omega
    · exact absurd (hitems item hi) (Nat.not_le_of_lt h)
    · exact absurd (hkeySizes key hkey) (Nat.not_le_of_lt h)
    · omega
    · omega
  · exact authorize_of_not_pushes limits scheme ledger hguards.ne_nil hparses body

/-- With a scheme that accepts what equals the key, two of three keys satisfy an account in their
own order and not in another one. -/
theorem authorize_multiKey_two_of_three :
    let a := machineAuthorizer Limits.standard
      ⟨fun key _ signature => if key = signature then .ok () else .error .mismatch⟩ Ledger.empty
    let code := [0x52, 1, 5, 1, 6, 1, 7, 0x53, 0xAE]
    multiKey 2 [[5], [6], [7]] = .ok code ∧
      a.authorize (Envelope.ofWitnesses [] [⟨code, [1, 5, 1, 7]⟩]).toRequest = .ok true ∧
      a.authorize (Envelope.ofWitnesses [] [⟨code, [1, 7, 1, 5]⟩]).toRequest
        = .error (.rejected 0) := by
  intro a code
  have hcode : multiKey 2 [[5], [6], [7]] = .ok code := rfl
  have hitem (b : UInt8) : PushInstruction [1, b] [b] :=
    @PushInstruction.bytes [b] (Nat.zero_lt_one) (by rw [List.length_singleton]; decide)
  have hcount {n : Nat} (h : n < 256 ^ 8) : (Number.encode n).length ≤ 65535 :=
    Nat.le_trans (Number.length_encode_le h) (by decide)
  have hdecision (b c : UInt8) :
      a.authorize (Envelope.ofWitnesses [] [⟨code, [1, b, 1, c]⟩]).toRequest
        = if SignedInOrder a.scheme (Sha256.digest []) [[5], [6], [7]] [[b], [c]] then .ok true
          else .error (.rejected 0) := by
    have hpushes : Pushes [1, b, 1, c] [[b], [c]] := .cons (hitem b) (hitem c).pushes
    have hsizes : ∀ item ∈ [[b], [c]], item.length ≤ Limits.standard.maxItemSize.toNat := by
      intro item hi
      have hone : item.length = 1 := by
        rcases List.mem_cons.mp hi with rfl | hi
        · rfl
        · rw [List.mem_singleton.mp hi]
          rfl
      rw [hone]
      decide
    have h := authorize_multiKey Limits.standard a.scheme Ledger.empty (by decide) hcode []
      [1, b, 1, c]
    have hsteps : 2 + 3 + 3 ≤ Limits.standard.maxSteps.toNat := by decide
    have hdepth : 2 + 3 + 2 ≤ Limits.standard.maxStackSize.toNat := by decide
    exact (h.2.1 _ hpushes hsteps hdepth (by decide) hsizes (by decide) (hcount (by decide))
      (hcount (by decide))).2.2 rfl
  have hmatch (digest : Bytes) :
      matchesInOrder a.scheme digest [[5], [6], [7]] [[5], [7]] = true ∧
        matchesInOrder a.scheme digest [[5], [6], [7]] [[7], [5]] = false := ⟨rfl, rfl⟩
  refine ⟨hcode, ?_, ?_⟩
  · rw [hdecision, if_pos (matchesInOrder_iff.mp (hmatch _).1)]
  · rw [hdecision, if_neg]
    rw [← matchesInOrder_iff, (hmatch _).2]
    exact Bool.false_ne_true

end Countersign
