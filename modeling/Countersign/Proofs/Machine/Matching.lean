import Mathlib.Data.List.Forall2
import Mathlib.Data.List.NodupEquivFin
import Countersign.Proofs.Machine.Act
import Countersign.Proofs.Script.Number

/-!
# `Countersign.Proofs.Machine.Matching`: signatures by keys in order

`SignedInOrder` says what a multiple check is about, without saying how it is found out: every
signature can be given a key that accepts it, and the keys stand in the order of the signatures.
So no key serves two signatures.

`matchesInOrder` is the search for such keys that never gives up early. It takes the first key
that fits, which loses nothing (`matchesInOrder_iff`). `matchKeys_eq` ties the search of the
machine to it: giving up as soon as too few keys are left changes the questions that are asked,
and not the answer. `checkMultisig_of_items` is the whole instruction on a stack that holds what
it takes.
-/

set_option autoImplicit false

namespace Countersign

/-- Each signature is accepted by a key, and the keys stand in the order of the signatures. -/
def SignedInOrder (scheme : SignatureScheme) (digest : Bytes)
    (publicKeys signatures : List Bytes) : Prop :=
  ∃ f : Fin signatures.length → Fin publicKeys.length, StrictMono f ∧
    ∀ j, scheme.verify (publicKeys.get (f j)) digest (signatures.get j) = .ok ()

/-- Gives each signature the first key that accepts it behind the key of the signature before. -/
def matchesInOrder (scheme : SignatureScheme) (digest : Bytes) :
    (publicKeys signatures : List Bytes) → Bool
  | _, [] => true
  | [], _ :: _ => false
  | publicKey :: publicKeys, signature :: signatures =>
    if scheme.accepts publicKey digest signature then
      matchesInOrder scheme digest publicKeys signatures
    else matchesInOrder scheme digest publicKeys (signature :: signatures)

section
variable {scheme : SignatureScheme} {digest : Bytes}

/-- The keys that the signatures are given form a list of their own. -/
theorem signedInOrder_iff_sublist {publicKeys signatures : List Bytes} :
    SignedInOrder scheme digest publicKeys signatures ↔
      ∃ chosen, chosen.Sublist publicKeys ∧
        List.Forall₂ (fun key signature => scheme.accepts key digest signature = true)
          chosen signatures := by
  constructor
  · rintro ⟨f, hmono, haccepts⟩
    -- Read off in the order of the signatures, the keys keep the order that they have.
    refine ⟨List.ofFn fun j => publicKeys.get (f j), ?_, ?_⟩
    · rw [List.sublist_iff_exists_fin_orderEmbedding_get_eq]
      have hlength : (List.ofFn fun j => publicKeys.get (f j)).length = signatures.length :=
        List.length_ofFn
      refine ⟨OrderEmbedding.ofStrictMono (fun j => f (j.cast hlength)) ?_, ?_⟩
      · intro i j hij
        exact hmono hij
      · intro j
        rw [List.get_ofFn]
        rfl
    · rw [List.forall₂_iff_get]
      refine ⟨List.length_ofFn, fun i h₁ h₂ => ?_⟩
      rw [SignatureScheme.accepts_iff, List.get_ofFn]
      exact haccepts ⟨i, h₂⟩
  · rintro ⟨chosen, hsub, hall⟩
    -- A sublist is a choice of rising positions.
    obtain ⟨f, hf⟩ := List.sublist_iff_exists_fin_orderEmbedding_get_eq.mp hsub
    obtain ⟨hlength, hget⟩ := List.forall₂_iff_get.mp hall
    refine ⟨fun j => f (j.cast hlength.symm), ?_, ?_⟩
    · intro i j hij
      exact f.strictMono hij
    · intro j
      rw [← SignatureScheme.accepts_iff, ← hf]
      exact hget j.val (by omega) j.isLt

/-- Where nothing was signed, no key is needed. -/
theorem signedInOrder_nil (publicKeys : List Bytes) :
    SignedInOrder scheme digest publicKeys [] := by
  rw [signedInOrder_iff_sublist]
  exact ⟨[], List.nil_sublist _, .nil⟩

/-- No two signatures are given the same key. -/
theorem length_le_of_signedInOrder {publicKeys signatures : List Bytes}
    (h : SignedInOrder scheme digest publicKeys signatures) :
    signatures.length ≤ publicKeys.length := by
  obtain ⟨chosen, hsub, hall⟩ := signedInOrder_iff_sublist.mp h
  rw [← hall.length_eq]
  exact hsub.length_le

/-- A key that accepts the first signature may be given to it: what another choice of keys gives
to the other signatures stands behind this key anyway. -/
theorem signedInOrder_cons_of_accepts {key signature : Bytes} {keys signatures : List Bytes}
    (h : scheme.accepts key digest signature = true) :
    SignedInOrder scheme digest (key :: keys) (signature :: signatures) ↔
      SignedInOrder scheme digest keys signatures := by
  simp only [signedInOrder_iff_sublist]
  constructor
  · rintro ⟨chosen, hsub, hall⟩
    -- Whichever key comes first among the chosen ones, the others stand behind `key`.
    cases hall with
    | @cons k _ rest _ _ hrest => exact ⟨rest, hsub.tail, hrest⟩
  · rintro ⟨chosen, hsub, hall⟩
    exact ⟨key :: chosen, hsub.cons_cons key, .cons h hall⟩

/-- A key that refuses the first signature is of no use to any of them. -/
theorem signedInOrder_cons_of_not_accepts {key signature : Bytes} {keys signatures : List Bytes}
    (h : scheme.accepts key digest signature = false) :
    SignedInOrder scheme digest (key :: keys) (signature :: signatures) ↔
      SignedInOrder scheme digest keys (signature :: signatures) := by
  simp only [signedInOrder_iff_sublist]
  constructor
  · rintro ⟨chosen, hsub, hall⟩
    cases hsub with
    | cons _ hsub => exact ⟨chosen, hsub, hall⟩
    | cons_cons _ hsub =>
        cases hall with
        | cons haccepts _ =>
            rw [h] at haccepts
            cases haccepts
  · rintro ⟨chosen, hsub, hall⟩
    exact ⟨chosen, hsub.cons key, hall⟩

/-- Taking the first key that fits finds keys in order whenever there are any. -/
theorem matchesInOrder_iff {publicKeys signatures : List Bytes} :
    matchesInOrder scheme digest publicKeys signatures = true ↔
      SignedInOrder scheme digest publicKeys signatures := by
  induction publicKeys generalizing signatures with
  | nil =>
      cases signatures with
      | nil =>
          rw [matchesInOrder]
          exact iff_of_true rfl (signedInOrder_nil [])
      | cons signature signatures =>
          rw [matchesInOrder]
          refine iff_of_false (by decide) fun h => ?_
          have hlength := length_le_of_signedInOrder h
          simp at hlength
  | cons key keys ih =>
      cases signatures with
      | nil =>
          rw [matchesInOrder]
          exact iff_of_true rfl (signedInOrder_nil _)
      | cons signature signatures =>
          rw [matchesInOrder]
          cases haccepts : scheme.accepts key digest signature with
          | true => rw [if_pos rfl, ih, signedInOrder_cons_of_accepts haccepts]
          | false => rw [if_neg (by decide), ih, signedInOrder_cons_of_not_accepts haccepts]

/-- Whether there are keys in order for the signatures is found out by looking for them. -/
instance SignedInOrder.instDecidable {publicKeys signatures : List Bytes} :
    Decidable (SignedInOrder scheme digest publicKeys signatures) :=
  decidable_of_iff _ matchesInOrder_iff

end

namespace Act

/-- The questions that a search for keys asks, in order. -/
def matchQuestions (scheme : SignatureScheme) (digest : Bytes) :
    (spare : Nat) → (publicKeys signatures : List Bytes) → List SignatureCall
  | _, _, [] => []
  | _, [], _ :: _ => []
  | spare, publicKey :: publicKeys, signature :: signatures =>
    ⟨publicKey, digest, signature, scheme.accepts publicKey digest signature⟩ ::
      if scheme.accepts publicKey digest signature then
        matchQuestions scheme digest spare publicKeys signatures
      else
        match spare with
        | 0 => []
        | spare + 1 => matchQuestions scheme digest spare publicKeys (signature :: signatures)

/-- The search of the machine finds what the search that never gives up finds. It gives up when no
key is left to spare, and then there are fewer keys than signatures. -/
theorem matchKeys_eq {scheme : SignatureScheme} {digest : Bytes} {spare : Nat}
    {publicKeys signatures : List Bytes} (h : publicKeys.length = signatures.length + spare)
    (b : Bench) :
    matchKeys scheme digest spare publicKeys signatures b
      = .ok (matchesInOrder scheme digest publicKeys signatures)
          { b with calls :=
              (matchQuestions scheme digest spare publicKeys signatures).reverse ++ b.calls } := by
  induction publicKeys generalizing spare signatures b with
  | nil =>
      cases signatures with
      | nil =>
          rw [matchKeys, matchesInOrder, matchQuestions]
          rfl
      | cons signature signatures =>
          rw [List.length_nil, List.length_cons] at h
          omega
  | cons key keys ih =>
      cases signatures with
      | nil =>
          rw [matchKeys, matchesInOrder, matchQuestions]
          rfl
      | cons signature signatures =>
          rw [List.length_cons, List.length_cons] at h
          rw [matchKeys.eq_def, matchQuestions.eq_def]
          dsimp only
          rw [bind_of_ok (ask_eq _ _ _ _ b), matchesInOrder]
          cases haccepts : scheme.accepts key digest signature with
          | true =>
              simp only [if_true, List.reverse_cons, List.append_assoc, List.singleton_append]
              exact ih (by omega) _
          | false =>
              simp only [Bool.false_eq_true, if_false, List.reverse_cons, List.append_assoc,
                List.singleton_append]
              cases spare with
              | zero =>
                  -- One key fewer than signatures is left.
                  have hnone : matchesInOrder scheme digest keys (signature :: signatures)
                      = false := by
                    rw [Bool.eq_false_iff]
                    intro hmatch
                    have hlength := length_le_of_signedInOrder (matchesInOrder_iff.mp hmatch)
                    rw [List.length_cons] at hlength
                    omega
                  rw [hnone]
                  rfl
              | succ spare => exact ih (by rw [List.length_cons]; omega) _

/-! ### The whole instruction -/

variable {setting : Setting} {b : Bench} {keys : List Bytes} {count threshold : Bytes}

/-- More keys than the limit are refused before any of them is taken. -/
theorem checkMultisig_faults_of_limit {below : List Bytes}
    (hitems : b.stack.items = count :: below) (hcount : Number.decode count = keys.length)
    (hlimit : setting.limits.maxMultisigKeys.toNat < keys.length) :
    Faults (checkMultisig setting) b := by
  have hrefused : (keys.length : Int) < 1 ∨
      setting.limits.maxMultisigKeys.toNat < (keys.length : Int).toNat :=
    .inr (by rwa [Int.toNat_natCast])
  rw [checkMultisig]
  refine Faults.bind_of_ok ?_ (popNumber_of_cons hitems)
  rw [hcount, if_pos hrefused]
  exact Faults.bind (faults_throw _ _) _

/-- With the number of keys in order, what is left to do is to take the keys and to go on with the
number of signatures. -/
theorem checkMultisig_of_count {n : Nat} {below : List Bytes}
    (hitems : b.stack.items = count :: below) (hcount : Number.decode count = n) (hpos : 1 ≤ n)
    (hle : n ≤ setting.limits.maxMultisigKeys.toNat) :
    checkMultisig setting b
      = (do
          let publicKeys ← popMany Opcode.checkMultisig n []
          let m ← popNumber
          if m < 1 ∨ (n : Int) < m then
            throw (.invalidThreshold m n)
          let signatures ← popMany Opcode.checkMultisig m.toNat []
          let digest ← messageDigest setting.body
          matchKeys setting.scheme digest (n - m.toNat) publicKeys signatures : Act Bool)
        (b.withItems below) := by
  have haccepted : ¬ ((n : Int) < 1 ∨
      setting.limits.maxMultisigKeys.toNat < (n : Int).toNat) := by omega
  rw [checkMultisig]
  dsimp only
  rw [bind_of_ok (popNumber_of_cons hitems), hcount, if_neg haccepted, Int.toNat_natCast]

section
variable {m : Nat} {below : List Bytes}
  (hitems : b.stack.items = count :: (keys.reverse ++ threshold :: below))
  (hcount : Number.decode count = keys.length) (hthreshold : Number.decode threshold = m)
  (hpos : 0 < m) (hle : m ≤ keys.length)
  (hlimit : keys.length ≤ setting.limits.maxMultisigKeys.toNat)

include hitems hcount hthreshold hpos hle hlimit

/-- With both counts in order, what is left to do is to take the signatures and to match them. -/
theorem checkMultisig_of_counts :
    checkMultisig setting b
      = (do
          let signatures ← popMany Opcode.checkMultisig m []
          let digest ← messageDigest setting.body
          matchKeys setting.scheme digest (keys.length - m) keys signatures)
        (b.withItems below) := by
  have hsatisfiable : ¬ ((m : Int) < 1 ∨ (keys.length : Int) < m) := by omega
  rw [checkMultisig_of_count hitems hcount (by omega) hlimit,
    bind_of_ok (popMany_of_append keys (threshold :: below) [] rfl),
    bind_of_ok (popNumber_of_cons rfl), hthreshold, if_neg hsatisfiable, Int.toNat_natCast,
    List.append_nil]
  rfl

/-- A multiple check faults where there are fewer signatures than it needs. -/
theorem checkMultisig_faults_of_length (hlength : below.length < m) :
    Faults (checkMultisig setting) b := by
  obtain ⟨fault, b', h⟩ := Faults.bind
    (popMany_faults [] (show (b.withItems below).stack.items.length < m from hlength))
    fun signatures => do
      let digest ← messageDigest setting.body
      matchKeys setting.scheme digest (keys.length - m) keys signatures
  exact ⟨fault, b', by
    rw [checkMultisig_of_counts hitems hcount hthreshold hpos hle hlimit, h]⟩

/-- The instruction takes the counts, the keys and as many signatures as are asked for, and leaves
what lies below them. -/
theorem checkMultisig_of_items {signatures rest : List Bytes} (hdigest : b.digest = none)
    (hbelow : below = signatures.reverse ++ rest) (hlength : signatures.length = m) :
    ∃ b', checkMultisig setting b
        = .ok (matchesInOrder setting.scheme (Sha256.digest setting.body) keys signatures) b' ∧
      b'.stack = .ofItems rest := by
  subst hlength
  have hspare : keys.length = signatures.length + (keys.length - signatures.length) := by omega
  rw [checkMultisig_of_counts hitems hcount hthreshold hpos hle hlimit,
    bind_of_ok (popMany_of_append signatures rest [] hbelow), List.append_nil,
    bind_of_ok (messageDigest_of_none (b := (b.withItems below).withItems rest) hdigest),
    matchKeys_eq hspare]
  exact ⟨_, rfl, rfl⟩

end

end Act

end Countersign
