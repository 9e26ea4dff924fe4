import Countersign.Proofs.Authorization.MultiKey
import Countersign.Proofs.Authorization.SingleKey
import Countersign.Proofs.Machine.ReadingBack
import Countersign.Showcase.CommandLine

/-!
# `Countersign.Proofs.Showcase.Thresholds`: the limits that the scenarios need

The scenarios can be shown on an authorizer with any limits. Those that are expected not to pass do
not, however much the limits allow; those that are expected to pass need limits for it.
`reports_by_limits` gives the verdict on all nine cases as a table, for all limits there are.

Nothing is said about the curve but that the signatures of the cast are accepted, and that Alice's
is not for another body or with a bit turned over (`Cast.Genuine`). What keys and signatures look
like is not assumed: keys are made from secrets, and what is accepted as a signature has 64 bytes.

For most of the way any scheme will do that does its work on the signatures of the scenarios
(`Cast.Sound`), since the accounts are never handed any others. What Bob's and Mallory's signatures
are worth is not asked there. Bob's is one signature too few, which the machine finds out before it
looks at it, and Mallory's stands under a script that nobody claimed.
-/

set_option autoImplicit false

namespace Countersign

open Template

/-! ### What satisfies an account -/

section
variable {limits : Limits} {scheme : SignatureScheme} {ledger : Ledger}
  {code parameter body : Bytes}

/-- A single item satisfies an account with one key if it is a signature and the limits allow for
it. -/
theorem authorize_singleKey_iff {publicKey signature : Bytes}
    (hcode : singleKey publicKey = .ok code) (hparameter : Pushes parameter [signature]) :
    (machineAuthorizer limits scheme ledger).authorizeLone body ⟨code, parameter⟩ = .ok true ↔
      scheme.accepts publicKey (Sha256.digest body) signature = true ∧
        limits.Suffice ([signature] ++ [publicKey]) ∧ 1 ≤ limits.maxItemSize.toNat := by
  constructor
  · intro hok
    obtain ⟨signature', hpushes, hanswer⟩ := of_authorize_singleKey hcode hok
    cases hparameter.inj hpushes
    exact hanswer
  · rintro ⟨haccepts, hsuffice, hanswer⟩
    rw [authorize_singleKey_of_single hcode hparameter hsuffice hanswer, if_pos haccepts]

/-- As many items as the threshold satisfy an account with several keys if they are signatures by
keys in order and the limits allow for them. -/
theorem authorize_multiKey_iff {publicKeys items : List Bytes} {threshold : Nat}
    (hkeys : publicKeys.length < 2 ^ 63) (hcode : multiKey threshold publicKeys = .ok code)
    (hparameter : Pushes parameter items) (hlength : items.length = threshold) :
    (machineAuthorizer limits scheme ledger).authorizeLone body ⟨code, parameter⟩ = .ok true ↔
      SignedInOrder scheme (Sha256.digest body) publicKeys items ∧
        limits.Suffice (items ++ multiKeyItems threshold publicKeys) ∧
        publicKeys.length ≤ limits.maxMultisigKeys.toNat := by
  constructor
  · intro hok
    obtain ⟨signatures, hpushes, -, hsigned⟩ := of_authorize_multiKey hkeys hcode hok
    cases hparameter.inj hpushes
    refine ⟨hsigned, ?_⟩
    by_contra hshort
    rw [authorize_multiKey_of_short hkeys hcode hparameter hshort] at hok
    cases hok
  · rintro ⟨hsigned, hsuffice, hlimit⟩
    rw [authorize_multiKey_of_exact hkeys hcode hparameter hlength hsuffice hlimit, if_pos hsigned]

end

/-- A verdict passes if the decision is yes. -/
theorem Verdict.passed_ofDecision (d : Decision) :
    (Verdict.ofDecision d).passed = decide (d = .ok true) := by
  cases d with
  | error refusal => rfl
  | ok answer => cases answer <;> rfl

namespace Showcase

/-! ### Those who take part -/

/-- All who take part. -/
def Cast.signers (cast : Cast) : List Signer :=
  [cast.alice, cast.bob, cast.carol, cast.mallory]

/-- What holds of all signers holds of each by name. -/
theorem Cast.forall_signers {cast : Cast} {p : Signer → Prop} :
    (∀ s ∈ cast.signers, p s) ↔ p cast.alice ∧ p cast.bob ∧ p cast.carol ∧ p cast.mallory := by
  simp [signers]

/-- The scheme does its work for the cast: keys and signatures have their sizes, Alice and Carol
have signed the body, Alice has not signed the altered one, nor is her signature still one with a
bit turned over. The scripts for the keys of Alice and Mallory have different hashes. -/
structure Cast.Sound (cast : Cast) (scheme : SignatureScheme) : Prop where
  length_publicKey : ∀ s ∈ cast.signers, s.publicKey.length = 33
  length_signBody : ∀ s ∈ cast.signers, s.signBody.length = 64
  alice : scheme.accepts cast.alice.publicKey (Sha256.digest body) cast.alice.signBody = true
  carol : scheme.accepts cast.carol.publicKey (Sha256.digest body) cast.carol.signBody = true
  altered :
    scheme.accepts cast.alice.publicKey (Sha256.digest alteredBody) cast.alice.signBody = false
  flipped :
    scheme.accepts cast.alice.publicKey (Sha256.digest body) (flipBit cast.alice.signBody) = false
  hashes : ∀ code code', singleKey cast.alice.publicKey = .ok code →
    singleKey cast.mallory.publicKey = .ok code' → ScriptHash.ofScript code ≠ .ofScript code'

/-- The cast has keys on the curve and has signed with them: all signatures over the body are
accepted, but not the one of Alice over another body, or with a bit turned over. The scripts for the
keys of Alice and Mallory have different hashes. -/
structure Cast.Genuine (cast : Cast) : Prop where
  keys : ∀ s ∈ cast.signers, ∃ secret : Curve.SecretKey, secret.publicKey? = some s.publicKey
  signed : ∀ s ∈ cast.signers,
    SignatureScheme.secp256k1.accepts s.publicKey (Sha256.digest body) s.signBody = true
  altered : SignatureScheme.secp256k1.accepts cast.alice.publicKey (Sha256.digest alteredBody)
    cast.alice.signBody = false
  flipped : SignatureScheme.secp256k1.accepts cast.alice.publicKey (Sha256.digest body)
    (flipBit cast.alice.signBody) = false
  hashes : ∀ code code', singleKey cast.alice.publicKey = .ok code →
    singleKey cast.mallory.publicKey = .ok code' → ScriptHash.ofScript code ≠ .ofScript code'

/-- A seed whose secret has a key gives a signer with that key. -/
theorem exists_secret_ofSeed {seed : UInt8}
    (h : (Curve.SecretKey.mk (List.replicate 32 seed)).publicKey?.isSome = true) :
    ∃ secret : Curve.SecretKey, secret.publicKey? = some (Signer.ofSeed seed).publicKey := by
  obtain ⟨publicKey, hkey⟩ := Option.isSome_iff_exists.mp h
  refine ⟨_, hkey.trans ?_⟩
  rw [Signer.ofSeed, hkey, Option.getD_some]

set_option maxRecDepth 100000 in
/-- All who take part in what the program shows have keys on the curve. -/
theorem Cast.keys_standard : ∀ s ∈ Cast.standard.signers,
    ∃ secret : Curve.SecretKey, secret.publicKey? = some s.publicKey :=
  Cast.forall_signers.mpr
    ⟨exists_secret_ofSeed (by decide +kernel), exists_secret_ofSeed (by decide +kernel),
      exists_secret_ofSeed (by decide +kernel), exists_secret_ofSeed (by decide +kernel)⟩

/-- The keys that are made from secrets have one coordinate and a tag in front of it. -/
theorem length_publicKey {secret : Curve.SecretKey} {publicKey : Bytes}
    (h : secret.publicKey? = some publicKey) : publicKey.length = 33 := by
  obtain ⟨⟨x, y⟩, -, rfl⟩ := Option.map_eq_some_iff.mp h
  rw [List.length_cons, Bytes.length_ofNatBE]

/-- Whatever the curve accepts as a signature has room for two numbers. -/
theorem length_of_accepts {publicKey digest signature : Bytes}
    (h : SignatureScheme.secp256k1.accepts publicKey digest signature = true) :
    signature.length = 64 := by
  by_contra hlength
  have hdecode : Curve.Signature.decode? signature = none := if_neg hlength
  -- A key that cannot be read is an error as well, so both cases end in one.
  have hverify : ¬ (Curve.verify publicKey digest signature).isOk = true := by
    rw [Curve.verify]
    split
    · exact Bool.false_ne_true
    · rw [hdecode]
      exact Bool.false_ne_true
  exact hverify h

/-- The signatures of a genuine cast are accepted by the curve that they are made on. -/
theorem Cast.Genuine.sound {cast : Cast} (h : cast.Genuine) : cast.Sound .secp256k1 where
  length_publicKey s hs := by
    obtain ⟨secret, hkey⟩ := h.keys s hs
    exact length_publicKey hkey
  length_signBody s hs := length_of_accepts (h.signed s hs)
  alice := (Cast.forall_signers.mp h.signed).1
  carol := (Cast.forall_signers.mp h.signed).2.2.1
  altered := h.altered
  flipped := h.flipped
  hashes := h.hashes

/-- A parameter can be written for signatures of their size. -/
theorem exists_signatures {signatures : List Bytes} (h : ∀ s ∈ signatures, s.length ≤ 64) :
    ∃ parameter, Template.signatures signatures = .ok parameter ∧ Pushes parameter signatures := by
  obtain ⟨parameter, hparameter⟩ := exists_pushItems fun s hs =>
    Nat.le_trans (h s hs) (show 64 ≤ 65535 by decide)
  exact ⟨parameter, hparameter, pushItems_pushes hparameter⟩

/-- A witness can be written for every signer whose key and signature have their sizes. -/
theorem exists_witness {s : Signer} (hkey : s.publicKey.length = 33)
    (hsignature : s.signBody.length = 64) :
    ∃ code parameter, s.witness = .ok ⟨code, parameter⟩ ∧ singleKey s.publicKey = .ok code ∧
      Pushes parameter [s.signBody] := by
  obtain ⟨push, hpush⟩ := exists_pushItem (show s.publicKey.length ≤ 65535 by omega)
  have hcode : singleKey s.publicKey = .ok (push ++ [Opcode.checkSignature]) := by
    rw [singleKey, hpush]
    rfl
  obtain ⟨parameter, hparameter, hpushes⟩ := exists_signatures
    (List.forall_mem_singleton.mpr (Nat.le_of_eq hsignature))
  refine ⟨_, parameter, ?_, hcode, hpushes⟩
  rw [Signer.witness, hcode, hparameter]
  rfl

end Showcase

/-! ### What the limits have to allow -/

/-- What the limits have to allow for an account with one key. -/
def Limits.AllowSingleKey (limits : Limits) : Prop :=
  3 ≤ limits.maxSteps.toNat ∧ 2 ≤ limits.maxStackSize.toNat ∧ 64 ≤ limits.maxItemSize.toNat

instance (limits : Limits) : Decidable limits.AllowSingleKey :=
  inferInstanceAs (Decidable (_ ∧ _ ∧ _))

/-- What the limits have to allow for an account with three keys, of which two sign. -/
def Limits.AllowMultiKey (limits : Limits) : Prop :=
  8 ≤ limits.maxSteps.toNat ∧ 7 ≤ limits.maxStackSize.toNat ∧ 64 ≤ limits.maxItemSize.toNat ∧
    3 ≤ limits.maxMultisigKeys.toNat

instance (limits : Limits) : Decidable limits.AllowMultiKey :=
  inferInstanceAs (Decidable (_ ∧ _ ∧ _ ∧ _))

/-- Limits that allow for the account with three keys allow for the one with a single key. -/
theorem Limits.AllowMultiKey.allowSingleKey {limits : Limits} (h : limits.AllowMultiKey) :
    limits.AllowSingleKey := by
  rw [AllowMultiKey] at h
  rw [AllowSingleKey]
  omega

/-- Limits allow for an account of one key if they suffice for the items of this length. -/
theorem Limits.allowSingleKey_iff {limits : Limits} {publicKey signature : Bytes}
    (hkey : publicKey.length = 33) (hsignature : signature.length = 64) :
    limits.AllowSingleKey ↔
      limits.Suffice ([signature] ++ [publicKey]) ∧ 1 ≤ limits.maxItemSize.toNat := by
  rw [suffice_concat_iff, List.forall_mem_singleton, hkey, hsignature, List.length_singleton,
    AllowSingleKey]
  omega

/-- Limits allow for an account of three keys if they suffice for the items and the keys. -/
theorem Limits.allowMultiKey_iff {limits : Limits} {k₁ k₂ k₃ s₁ s₂ : Bytes}
    (hkeys : ∀ key ∈ [k₁, k₂, k₃], key.length = 33) (hs₁ : s₁.length = 64) (hs₂ : s₂.length = 64) :
    limits.AllowMultiKey ↔
      limits.Suffice ([s₁, s₂] ++ multiKeyItems 2 [k₁, k₂, k₃]) ∧
        [k₁, k₂, k₃].length ≤ limits.maxMultisigKeys.toNat := by
  -- Both counts are small numbers, with items of one byte.
  have htwo : (Number.encode (2 : Nat)).length = 1 := by
    rw [Number.encode_of_lt (by decide) (by decide)]
    rfl
  have hthree : (Number.encode [k₁, k₂, k₃].length).length = 1 := by
    show (Number.encode (3 : Nat)).length = 1
    rw [Number.encode_of_lt (by decide) (by decide)]
    rfl
  simp only [List.forall_mem_cons, List.not_mem_nil, false_imp_iff, implies_true, and_true] at hkeys
  obtain ⟨h₁, h₂, h₃⟩ := hkeys
  rw [suffice_multiKey_iff, htwo, hthree]
  simp only [List.forall_mem_cons, List.not_mem_nil, false_imp_iff, implies_true, and_true,
    List.length_cons, List.length_nil, h₁, h₂, h₃, hs₁, hs₂, AllowMultiKey]
  omega

namespace Showcase

/-! ### The scenarios -/

/-- What is said of a case: what it is, what is expected and what came out. -/
def Report.row (r : Report) : Scenario × String × Bool × Bool :=
  (r.scenario, r.case, r.expectedPass, r.verdict.passed)

section
variable {scheme : SignatureScheme} {cast : Cast} (h : cast.Sound scheme) (limits : Limits)
  (ledger : Ledger)

include h

/-- The account with one key: all of it depends on the limits. -/
theorem rows_singleKey :
    ∃ rs, Scenario.singleKey.reports (machineAuthorizer limits scheme ledger) cast = .ok rs ∧
      rs.map Report.row = [(.singleKey, "valid signer", true, decide limits.AllowSingleKey)] := by
  obtain ⟨hkey, -⟩ := Cast.forall_signers.mp h.length_publicKey
  obtain ⟨hsignature, -⟩ := Cast.forall_signers.mp h.length_signBody
  obtain ⟨code, parameter, hwitness, hcode, hparameter⟩ := exists_witness hkey hsignature
  -- The scripts can be written whatever the limits are; it is the decision that depends on them.
  have hdecision : (machineAuthorizer limits scheme ledger).authorizeLone body ⟨code, parameter⟩
      = .ok true ↔ limits.AllowSingleKey := by
    rw [authorize_singleKey_iff hcode hparameter, Limits.allowSingleKey_iff hkey hsignature]
    exact and_iff_right h.alice
  refine ⟨_, by rw [Scenario.reports, hwitness]; rfl, ?_⟩
  simp only [List.map_cons, List.map_nil, Report.row, Authorizer.verdict, Verdict.passed_ofDecision]
  rw [← Authorizer.authorizeLone, decide_eq_decide.mpr hdecision]

/-- The account with three keys. One signature is not enough, whatever it is worth. -/
theorem rows_multiKey :
    ∃ rs, Scenario.multiKey.reports (machineAuthorizer limits scheme ledger) cast = .ok rs ∧
      rs.map Report.row
        = [(.multiKey, "2 of 3 signatures", true, decide limits.AllowMultiKey),
          (.multiKey, "1 of 3 signatures", false, false)] := by
  obtain ⟨halice, hbob, hcarol, -⟩ := Cast.forall_signers.mp h.length_publicKey
  obtain ⟨hsa, hsb, hsc, -⟩ := Cast.forall_signers.mp h.length_signBody
  have hkeys : ∀ key ∈ [cast.alice.publicKey, cast.bob.publicKey, cast.carol.publicKey],
      key.length = 33 := by
    simp [halice, hbob, hcarol]
  have hcount : [cast.alice.publicKey, cast.bob.publicKey, cast.carol.publicKey].length < 2 ^ 63 := by
    simp
  have htwoLengths : ∀ s ∈ [cast.alice.signBody, cast.carol.signBody], s.length ≤ 64 := by
    simp [hsa, hsc]
  have hthreshold : 2 ≤ [cast.alice.publicKey, cast.bob.publicKey, cast.carol.publicKey].length := by
    simp
  obtain ⟨code, hcode⟩ := exists_multiKey Nat.two_pos hthreshold
    fun key hkey => Nat.le_trans (Nat.le_of_eq (hkeys key hkey)) (by decide)
  obtain ⟨two, htwo, htwoPushes⟩ := exists_signatures htwoLengths
  obtain ⟨one, hone, honePushes⟩ := exists_signatures
    (List.forall_mem_singleton.mpr (Nat.le_of_eq hsb))
  -- Bob's key stands between the two that have signed, and is passed over.
  have hsigned : SignedInOrder scheme (Sha256.digest body)
      [cast.alice.publicKey, cast.bob.publicKey, cast.carol.publicKey]
      [cast.alice.signBody, cast.carol.signBody] :=
    signedInOrder_iff_sublist.mpr
      ⟨[cast.alice.publicKey, cast.carol.publicKey], by simp, .cons h.alice (.cons h.carol .nil)⟩
  have hsatisfied : (machineAuthorizer limits scheme ledger).authorizeLone body ⟨code, two⟩
      = .ok true ↔ limits.AllowMultiKey := by
    rw [authorize_multiKey_iff hcount hcode htwoPushes rfl, Limits.allowMultiKey_iff hkeys hsa hsc]
    exact and_iff_right hsigned
  have hshort : (machineAuthorizer limits scheme ledger).authorizeLone body ⟨code, one⟩
      ≠ .ok true := by
    rw [authorize_multiKey_of_few hcount hcode honePushes Nat.one_lt_two]
    exact nofun
  refine ⟨_, by rw [Scenario.reports, Cast.sharedCode, hcode, htwo, hone]; rfl, ?_⟩
  simp only [List.map_cons, List.map_nil, Report.row, Authorizer.verdict, Verdict.passed_ofDecision]
  rw [← Authorizer.authorizeLone, ← Authorizer.authorizeLone, decide_eq_decide.mpr hsatisfied,
    decide_eq_false hshort]

/-- What was altered is refused: a witness for another account and one too few before anything is
run, an item too many as no signature at all, and another body by the scheme. -/
theorem rows_tampered :
    ∃ rs, Scenario.tampered.reports (machineAuthorizer limits scheme ledger) cast = .ok rs ∧
      rs.map Report.row
        = [(.tampered, "altered body", false, false), (.tampered, "swapped witness", false, false),
          (.tampered, "padded parameter", false, false),
          (.tampered, "missing witness", false, false)] := by
  obtain ⟨halice, -, -, hmallory⟩ := Cast.forall_signers.mp h.length_publicKey
  obtain ⟨hsa, -, -, hsm⟩ := Cast.forall_signers.mp h.length_signBody
  obtain ⟨code, parameter, hwitness, hcode, hparameter⟩ := exists_witness halice hsa
  obtain ⟨code', parameter', hwitness', hcode', -⟩ := exists_witness hmallory hsm
  have hpaddedLengths : ∀ s ∈ [[1], cast.alice.signBody], s.length ≤ 64 := by
    simp [hsa]
  obtain ⟨padded, hpadded, hpaddedPushes⟩ := exists_signatures hpaddedLengths
  have haltered : (machineAuthorizer limits scheme ledger).authorizeLone alteredBody
      ⟨code, parameter⟩ ≠ .ok true := by
    rw [Ne, authorize_singleKey_iff hcode hparameter, h.altered]
    exact fun hanswer => Bool.false_ne_true hanswer.1
  -- The claim is about Alice's code, and Mallory's has another hash.
  have hswapped : (machineAuthorizer limits scheme ledger).authorize
      (Envelope.mk body [ScriptHash.ofScript code] [⟨code', parameter'⟩]).toRequest ≠ .ok true := by
    have hclaim : ScriptHash.ofScript code' ≠ ScriptHash.ofScript code :=
      (h.hashes code code' hcode hcode').symm
    have hne : code' ≠ [] := (guards_singleKey hcode' ⟨limits, scheme, body⟩).ne_nil
    rw [Authorizer.authorize, Authorizer.inspect_of_single rfl rfl, decision_examine, if_neg hne,
      if_pos hclaim]
    exact fun heq => by cases heq
  -- What satisfies the account pushes a single item, and two were pushed.
  have hsmuggled : (machineAuthorizer limits scheme ledger).authorizeLone body ⟨code, padded⟩
      ≠ .ok true := by
    intro hok
    obtain ⟨signature, hpushes, -⟩ := of_authorize_singleKey hcode hok
    cases hpaddedPushes.inj hpushes
  -- Two claims and one witness: nothing has to be known about the scripts.
  have hmissing : (machineAuthorizer limits scheme ledger).authorize
      ((Envelope.ofWitnesses body [⟨code, parameter⟩, ⟨code', parameter'⟩]).withWitnesses
        [⟨code, parameter⟩]).toRequest ≠ .ok true := by
    intro hok
    cases hok
  refine ⟨_, by rw [Scenario.reports, hwitness, hwitness', hpadded]; rfl, ?_⟩
  simp only [List.map_cons, List.map_nil, Report.row, Authorizer.verdict, Verdict.passed_ofDecision]
  rw [← Authorizer.authorizeLone, ← Authorizer.authorizeLone, decide_eq_false haltered,
    decide_eq_false hswapped, decide_eq_false hsmuggled, decide_eq_false hmissing]

/-- Signatures that are checked directly: it is the scheme that decides. -/
theorem rows_direct :
    ∃ rs, Scenario.direct.reports (machineAuthorizer limits scheme ledger) cast = .ok rs ∧
      rs.map Report.row
        = [(.direct, "valid signature", true, true), (.direct, "one bit flipped", false, false)] := by
  have hdirect (signature : Bytes) :
      (machineAuthorizer limits scheme ledger).checkSignature
          (Envelope.ofWitnesses body []).toRequest cast.alice.publicKey signature = .ok true ↔
        scheme.accepts cast.alice.publicKey (Sha256.digest body) signature = true :=
    checkSignature_eq_ok_iff _ _ _ _
  have hvalid := (hdirect cast.alice.signBody).mpr h.alice
  have hflipped : (machineAuthorizer limits scheme ledger).checkSignature
      (Envelope.ofWitnesses body []).toRequest cast.alice.publicKey
      (flipBit cast.alice.signBody) ≠ .ok true := by
    rw [Ne, hdirect, h.flipped]
    exact Bool.false_ne_true
  refine ⟨_, by rw [Scenario.reports]; rfl, ?_⟩
  simp only [List.map_cons, List.map_nil, Report.row, Verdict.passed_ofDecision]
  rw [decide_eq_true hvalid, decide_eq_false hflipped]

end

/-- Nothing is run for the signatures that are checked directly. -/
theorem reports_direct_eq (scheme : SignatureScheme) (cast : Cast) (limits limits' : Limits)
    (ledger : Ledger) :
    Scenario.direct.reports (machineAuthorizer limits scheme ledger) cast
      = Scenario.direct.reports (machineAuthorizer limits' scheme ledger) cast :=
  rfl

/-- What is to be said of all cases, with these limits. -/
def rows (limits : Limits) : List (Scenario × String × Bool × Bool) :=
  [(.singleKey, "valid signer", true, decide limits.AllowSingleKey),
    (.multiKey, "2 of 3 signatures", true, decide limits.AllowMultiKey),
    (.multiKey, "1 of 3 signatures", false, false),
    (.tampered, "altered body", false, false),
    (.tampered, "swapped witness", false, false),
    (.tampered, "padded parameter", false, false),
    (.tampered, "missing witness", false, false),
    (.direct, "valid signature", true, true),
    (.direct, "one bit flipped", false, false)]

/-- Whether the verdicts that are expected not to pass do not can be read off what is said of the
cases. -/
theorem forall_refused_iff {rs : List Report} :
    (∀ r ∈ rs, r.expectedPass = false → r.verdict.passed = false) ↔
      ∀ row ∈ rs.map Report.row, row.2.2.1 = false → row.2.2.2 = false := by
  rw [List.forall_mem_map]
  rfl

/-- Whether all verdicts are the ones that were expected can be read off what is said of the
cases. -/
theorem forall_asExpected_iff {rs : List Report} :
    (∀ r ∈ rs, r.asExpected = true) ↔ ∀ row ∈ rs.map Report.row, row.2.2.2 = row.2.2.1 := by
  rw [List.forall_mem_map]
  exact forall₂_congr fun _ _ => beq_iff_eq

/-- All scenarios can be shown, whatever the limits. -/
theorem rows_all {scheme : SignatureScheme} {cast : Cast} (h : cast.Sound scheme) (limits : Limits)
    (ledger : Ledger) :
    ∃ rs, reports (machineAuthorizer limits scheme ledger) cast Scenario.all = .ok rs ∧
      rs.map Report.row = rows limits := by
  obtain ⟨one, hone, honeRows⟩ := rows_singleKey h limits ledger
  obtain ⟨several, hseveral, hseveralRows⟩ := rows_multiKey h limits ledger
  obtain ⟨tampered, htampered, htamperedRows⟩ := rows_tampered h limits ledger
  obtain ⟨direct, hdirect, hdirectRows⟩ := rows_direct h limits ledger
  refine ⟨one ++ (several ++ (tampered ++ (direct ++ []))), ?_, ?_⟩
  · rw [Scenario.all, reports, reports, reports, reports, reports, hone, hseveral, htampered,
      hdirect]
    rfl
  · simp only [List.map_append, List.map_nil, honeRows, hseveralRows, htamperedRows, hdirectRows]
    rfl

/-- What is said of all cases, as far as expectations go: all of them are met exactly if the limits
allow for the account with three keys. -/
theorem forall_rows_iff {limits : Limits} :
    (∀ row ∈ rows limits, row.2.2.2 = row.2.2.1) ↔ limits.AllowMultiKey := by
  simpa [rows] using Limits.AllowMultiKey.allowSingleKey

/-- The verdicts on all cases, for all limits there are.

* Every scenario can be shown, and the table has all nine cases: the scenario, the case, whether it
  is expected to pass, and whether it does.
* What is expected not to pass does not.
* The reports on signatures that are checked without running anything are the same for all limits.
* All cases come out as expected exactly if the limits allow for an account with three keys, of
  which two sign. -/
theorem reports_by_limits {cast : Cast} (h : cast.Genuine) (limits : Limits) :
    ∃ rs, reports (authorizer limits) cast Scenario.all = .ok rs ∧
      rs.map Report.row = rows limits ∧
      (∀ r ∈ rs, r.expectedPass = false → r.verdict.passed = false) ∧
      (∀ limits', Scenario.direct.reports (authorizer limits') cast
        = Scenario.direct.reports (authorizer limits) cast) ∧
      ((∀ r ∈ rs, r.asExpected = true) ↔ limits.AllowMultiKey) := by
  obtain ⟨rs, hrs, hrows⟩ := rows_all h.sound limits .empty
  refine ⟨rs, hrs, hrows, ?_, fun limits' => reports_direct_eq .secp256k1 cast limits' limits .empty,
    ?_⟩
  · rw [forall_refused_iff, hrows]
    simp [rows]
  · rw [forall_asExpected_iff, hrows, forall_rows_iff]

/-- The standard cast, with signatures over the body that were made before. -/
def Cast.recorded : Cast where
  alice := { Signer.ofSeed 1 with
    sign := fun _ =>
      [64, 125, 141, 119, 235, 211, 110, 53, 242, 59, 2, 144, 105, 213, 148, 145, 167, 191, 11, 164,
        146, 180, 88, 44, 60, 158, 243, 233, 140, 111, 54, 217, 60, 58, 175, 113, 242, 26, 253, 230,
        72, 63, 191, 226, 180, 66, 232, 223, 30, 157, 34, 65, 151, 48, 130, 197, 170, 253, 241, 197,
        148, 154, 65, 136] }
  bob := { Signer.ofSeed 2 with
    sign := fun _ =>
      [158, 171, 132, 160, 21, 87, 176, 163, 35, 27, 192, 161, 46, 73, 223, 54, 183, 146, 67, 29,
        128, 126, 85, 41, 184, 73, 252, 4, 143, 170, 236, 189, 82, 0, 40, 187, 65, 183, 238, 58, 73,
        165, 109, 88, 8, 139, 212, 201, 202, 131, 201, 31, 229, 136, 250, 31, 102, 174, 71, 189,
        191, 121, 173, 80] }
  carol := { Signer.ofSeed 3 with
    sign := fun _ =>
      [68, 176, 60, 66, 58, 215, 24, 241, 174, 191, 159, 142, 221, 36, 63, 96, 102, 16, 189, 210,
        114, 60, 117, 151, 197, 76, 57, 170, 40, 164, 203, 192, 101, 197, 81, 128, 142, 86, 119, 26,
        0, 57, 53, 133, 203, 2, 50, 88, 101, 191, 155, 209, 184, 238, 243, 32, 32, 86, 74, 150, 210,
        189, 212, 54] }
  mallory := { Signer.ofSeed 9 with
    sign := fun _ =>
      [126, 58, 182, 221, 234, 197, 138, 19, 138, 148, 253, 58, 125, 236, 45, 227, 245, 21, 53, 215,
        106, 111, 133, 101, 174, 221, 69, 203, 86, 161, 44, 96, 0, 66, 74, 54, 108, 31, 228, 93,
        118, 67, 244, 115, 46, 58, 41, 95, 54, 78, 190, 163, 49, 22, 245, 94, 22, 24, 21, 1, 153,
        35, 130, 211] }

/-- The keys of the recorded cast are those of the standard one. -/
theorem Cast.publicKeys_recorded :
    recorded.signers.map Signer.publicKey = standard.signers.map Signer.publicKey := by
  simp [signers, recorded, standard]

set_option maxRecDepth 100000 in
/-- The standard signatures, with another way to come by them, do what signatures are for. -/
theorem Cast.genuine_recorded : Cast.recorded.Genuine where
  keys s hs := by
    have hkey : s.publicKey ∈ standard.signers.map Signer.publicKey :=
      publicKeys_recorded ▸ List.mem_map_of_mem hs
    obtain ⟨s', hs', heq⟩ := List.mem_map.mp hkey
    rw [← heq]
    exact keys_standard s' hs'
  signed := Cast.forall_signers.mpr
    ⟨by decide +kernel, by decide +kernel, by decide +kernel, by decide +kernel⟩
  altered := by decide +kernel
  flipped := by decide +kernel
  hashes := by
    -- Both codes are computed here, so that no two of them are left to be looked at.
    have hcodes : (singleKey recorded.alice.publicKey).map ScriptHash.ofScript
        ≠ (singleKey recorded.mallory.publicKey).map ScriptHash.ofScript := by
      decide +kernel
    intro code code' hcode hcode' heq
    rw [hcode, hcode'] at hcodes
    exact hcodes (congrArg Except.ok heq)

/-- With the limits of a configuration that says nothing. -/
theorem reports_by_limits_recorded :
    Cast.recorded.Genuine ∧
    ∃ rs, reports (authorizer .standard) Cast.recorded Scenario.all = .ok rs ∧
      ∀ r ∈ rs, r.asExpected = true := by
  obtain ⟨rs, hrs, -, -, -, hexpected⟩ := reports_by_limits Cast.genuine_recorded .standard
  exact ⟨Cast.genuine_recorded, rs, hrs, hexpected.mpr (by decide)⟩

/-- The program that shows all scenarios ends without a complaint exactly if the limits that it
was given allow for the account with three keys. -/
theorem exitCode_run_eq_zero_iff {cast : Cast} (h : cast.Genuine) {i : Invocation}
    (hall : i.scenarios = Scenario.all) {files : String → Except ReadFailure Bytes}
    {limits : Limits} (hlimits : i.limits files = .ok limits) :
    (i.run files cast).exitCode = 0 ↔ limits.AllowMultiKey := by
  obtain ⟨rs, hrs, hrows⟩ := rows_all h.sound limits .empty
  have hreports : i.reports files cast = .ok rs := by
    simp only [Invocation.reports, hlimits, hall]
    rw [show reports (authorizer limits) cast Scenario.all = .ok rs from hrs]
  have hcount : (rs.filter fun r => !r.asExpected).length = 0 ↔ limits.AllowMultiKey := by
    rw [← forall_rows_iff, ← hrows, ← forall_asExpected_iff, List.length_eq_zero_iff,
      List.filter_eq_nil_iff]
    simp only [Bool.not_eq_true', Bool.not_eq_false]
  rw [← hcount]
  simp only [Invocation.run, hreports]
  split
  next hzero => exact iff_of_true rfl hzero
  next hsome => exact iff_of_false (show (1 : UInt8) ≠ 0 by decide) hsome

end Showcase

end Countersign
