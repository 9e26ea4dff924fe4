import Countersign.Proofs.Machine.Matching
import Countersign.Proofs.Machine.Move

/-!
# `Countersign.Proofs.Machine.Questions`: what a multiple check asks

What a multiple check finds on the stack is refused (`MultisigRefused`) or is a request
(`MultisigRequest`), and there is no third case (`refused_or_request`). Both are said in terms of
the items alone. A refusal names the first thing that is wrong, in the order in which the check
comes to it.

A request is answered by asking the scheme about the keys in turn (`AskedInTurn`): each key once,
each time with the first signature that has no key yet. The check asks until the answers so far
leave no doubt (`Settled`), and not once more. `Act.matchAll` is the plain search, which goes on as
long as there are keys and signatures. It comes to the same answer, and begins with the same
questions.
-/

set_option autoImplicit false

namespace Countersign

open Act

/-! ### What lies on the stack -/

/-- What a multiple check refuses, for which fault, and what it leaves on the stack. -/
inductive MultisigRefused (limit : Nat) : (items : List Bytes) → Fault → (left : List Bytes) → Prop
  | noCount : MultisigRefused limit [] (.stackUnderflow Opcode.checkMultisig) []
  | count {count : Bytes} {below : List Bytes} :
      ¬ (1 ≤ Number.decode count ∧ Number.decode count ≤ limit) →
      MultisigRefused limit (count :: below) (.invalidKeyCount (Number.decode count) limit) below
  | keys {count : Bytes} {below : List Bytes} :
      1 ≤ Number.decode count → Number.decode count ≤ limit →
      below.length < Number.decode count →
      MultisigRefused limit (count :: below) (.stackUnderflow Opcode.checkMultisig) []
  | noThreshold {count : Bytes} {keys : List Bytes} :
      Number.decode count = keys.length → 1 ≤ keys.length → keys.length ≤ limit →
      MultisigRefused limit (count :: keys.reverse) (.stackUnderflow Opcode.checkMultisig) []
  | threshold {count threshold : Bytes} {keys below : List Bytes} :
      Number.decode count = keys.length → 1 ≤ keys.length → keys.length ≤ limit →
      ¬ (1 ≤ Number.decode threshold ∧ Number.decode threshold ≤ keys.length) →
      MultisigRefused limit (count :: (keys.reverse ++ threshold :: below))
        (.invalidThreshold (Number.decode threshold) keys.length) below
  | signatures {count threshold : Bytes} {keys below : List Bytes} :
      Number.decode count = keys.length → keys.length ≤ limit →
      1 ≤ Number.decode threshold → Number.decode threshold ≤ keys.length →
      below.length < Number.decode threshold →
      MultisigRefused limit (count :: (keys.reverse ++ threshold :: below))
        (.stackUnderflow Opcode.checkMultisig) []

/-- The keys and the signatures that a multiple check takes off the stack with their counts, each
in the order in which they were pushed, and what lies below them. -/
inductive MultisigRequest (limit : Nat) :
    (items keys signatures rest : List Bytes) → Prop
  | intro {count threshold : Bytes} {keys signatures rest : List Bytes} :
      Number.decode count = keys.length → keys.length ≤ limit →
      Number.decode threshold = signatures.length → 1 ≤ signatures.length →
      signatures.length ≤ keys.length →
      MultisigRequest limit (count :: (keys.reverse ++ threshold :: (signatures.reverse ++ rest)))
        keys signatures rest

namespace MultisigRequest

variable {limit : Nat} {items keys signatures rest : List Bytes}

/-- Of a request the stack holds the keys, the signatures, both numbers and the rest. -/
theorem length_items (h : MultisigRequest limit items keys signatures rest) :
    items.length = rest.length + (keys.length + signatures.length + 2) := by
  obtain ⟨-, -, -, -, -⟩ := h
  simp only [List.length_cons, List.length_append, List.length_reverse]
  omega

/-- No more signatures are asked for than there are keys. -/
theorem length_le (h : MultisigRequest limit items keys signatures rest) :
    signatures.length ≤ keys.length := by
  obtain ⟨-, -, -, -, hle⟩ := h
  exact hle

end MultisigRequest

/-- A stack with enough items can be split behind so many of them. -/
private theorem exists_reverse_append {n : Nat} {items : List Bytes} (h : n ≤ items.length) :
    ∃ taken rest : List Bytes, items = taken.reverse ++ rest ∧ taken.length = n := by
  obtain ⟨front, rest, rfl, hlength⟩ := exists_append_of_le h
  exact ⟨front.reverse, rest, by rw [List.reverse_reverse], by rw [List.length_reverse, hlength]⟩

/-- A multiple check has something to refuse, or a request. -/
theorem refused_or_request (limit : Nat) (items : List Bytes) :
    (∃ fault left, MultisigRefused limit items fault left) ∨
      ∃ keys signatures rest, MultisigRequest limit items keys signatures rest := by
  -- The cases are split in the order of the check: each has what the ones before it made sure of.
  cases items with
  | nil => exact .inl ⟨_, _, .noCount⟩
  | cons count below =>
      by_cases hcount : 1 ≤ Number.decode count ∧ Number.decode count ≤ limit
      case neg => exact .inl ⟨_, _, .count hcount⟩
      obtain ⟨hpos, hlimit⟩ := hcount
      by_cases hkeys : below.length < Number.decode count
      case pos => exact .inl ⟨_, _, .keys hpos hlimit hkeys⟩
      have hfits : (Number.decode count).toNat ≤ below.length := by omega
      obtain ⟨keys, below, rfl, hlength⟩ := exists_reverse_append hfits
      have hcount : Number.decode count = keys.length := by omega
      cases below with
      | nil =>
          rw [List.append_nil]
          exact .inl ⟨_, _, .noThreshold hcount (by omega) (by omega)⟩
      | cons threshold below =>
          by_cases hthreshold : 1 ≤ Number.decode threshold ∧ Number.decode threshold ≤ keys.length
          case neg => exact .inl ⟨_, _, .threshold hcount (by omega) (by omega) hthreshold⟩
          obtain ⟨hneeded, hle⟩ := hthreshold
          by_cases hsignatures : below.length < Number.decode threshold
          case pos => exact .inl ⟨_, _, .signatures hcount (by omega) hneeded hle hsignatures⟩
          have hfits' : (Number.decode threshold).toNat ≤ below.length := by omega
          obtain ⟨signatures, rest, rfl, hlength'⟩ := exists_reverse_append hfits'
          exact .inr ⟨keys, signatures, rest,
            .intro hcount (by omega) (by omega) (by omega) (by omega)⟩

namespace Act

variable {setting : Setting} {b : Bench}

/-- What is refused faults as it says. -/
theorem checkMultisig_of_refused {fault : Fault} {left : List Bytes}
    (h : MultisigRefused setting.limits.maxMultisigKeys.toNat b.stack.items fault left) :
    checkMultisig setting b = .error fault (b.withItems left) := by
  generalize hitems : b.stack.items = items at h
  cases h with
  | noCount =>
      rw [Bench.withItems_of_items hitems, checkMultisig]
      exact bind_of_error (popNumber_of_nil hitems)
  | count hcount =>
      rw [checkMultisig]
      dsimp only
      rw [bind_of_ok (popNumber_of_cons hitems), if_pos (by omega)]
      exact bind_of_error (throw_eq _ _)
  | @keys count below hpos hle hlt =>
      have hn : Number.decode count = (Number.decode count).toNat := by omega
      rw [checkMultisig_of_count hitems hn (by omega) (by omega)]
      exact bind_of_error (popMany_of_lt [] (by rw [Bench.items_withItems]; omega))
  | @noThreshold count keys hcount hpos hle =>
      rw [checkMultisig_of_count hitems hcount hpos hle,
        bind_of_ok (popMany_of_append keys [] [] (List.append_nil _).symm)]
      exact bind_of_error (popNumber_of_nil rfl)
  | @threshold count threshold keys below hcount hpos hle hthreshold =>
      rw [checkMultisig_of_count hitems hcount hpos hle,
        bind_of_ok (popMany_of_append keys (threshold :: left) [] rfl),
        bind_of_ok (popNumber_of_cons rfl), if_pos (by omega)]
      exact bind_of_error (throw_eq _ _)
  | @signatures count threshold keys below hcount hle hpos hthreshold hlt =>
      have hm : Number.decode threshold = (Number.decode threshold).toNat := by omega
      rw [checkMultisig_of_counts hitems hcount hm (by omega) (by omega) hle]
      exact bind_of_error (popMany_of_lt [] (by rw [Bench.items_withItems]; omega))

end Act

/-! ### What is asked -/

section
variable {scheme : SignatureScheme} {digest : Bytes}

/-- The questions are about the keys in turn, from the first one on. Each of them is about the first
signature that has no key yet: as many signatures stand before it as were accepted before. -/
structure AskedInTurn (scheme : SignatureScheme) (digest : Bytes) (keys signatures : List Bytes)
    (asked : List SignatureCall) : Prop where
  keys : asked.map SignatureCall.publicKey = keys.take asked.length
  signature : ∀ i q, asked[i]? = some q →
    signatures[(asked.take i).countP SignatureCall.accepted]? = some q.signature
  digest : ∀ q ∈ asked, q.digest = digest
  accepted : ∀ q ∈ asked, q.accepted = scheme.accepts q.publicKey q.digest q.signature

/-- The answers leave no doubt: as many signatures were accepted as are needed, or one more key was
rejected than there are to spare. -/
def Settled (needed spare : Nat) (asked : List SignatureCall) : Prop :=
  asked.countP SignatureCall.accepted = needed ∨
    asked.countP (fun q => !q.accepted) = spare + 1

/-- The answers leave no doubt, and fewer of them would. -/
structure JustSettled (needed spare : Nat) (asked : List SignatureCall) : Prop where
  settled : Settled needed spare asked
  least : ∀ c < asked.length, ¬ Settled needed spare (asked.take c)

/-- No question is out of turn. -/
theorem askedInTurn_nil (keys signatures : List Bytes) :
    AskedInTurn scheme digest keys signatures [] :=
  ⟨rfl, nofun, nofun, nofun⟩

/-- After a question about the first key the other keys are asked about in turn, with the signatures
that have no key yet. -/
theorem AskedInTurn.cons {key signature : Bytes} {keys signatures : List Bytes}
    {asked : List SignatureCall}
    (h : AskedInTurn scheme digest keys
      (if scheme.accepts key digest signature then signatures else signature :: signatures) asked) :
    AskedInTurn scheme digest (key :: keys) (signature :: signatures)
      (⟨key, digest, signature, scheme.accepts key digest signature⟩ :: asked) := by
  refine ⟨?_, ?_, ?_, ?_⟩
  · rw [List.map_cons, h.keys, List.length_cons, List.take_succ_cons]
  · intro i q hq
    cases i with
    | zero =>
        obtain rfl := Option.some.inj hq
        rfl
    | succ i =>
        have hlater := h.signature i q hq
        rw [List.take_succ_cons, List.countP_cons]
        cases haccepts : scheme.accepts key digest signature with
        | true =>
            rw [haccepts, if_pos rfl] at hlater
            exact hlater
        | false =>
            rw [haccepts, if_neg Bool.false_ne_true] at hlater
            exact hlater
  · intro q hq
    rcases List.mem_cons.mp hq with rfl | hq
    · rfl
    · exact h.digest q hq
  · intro q hq
    rcases List.mem_cons.mp hq with rfl | hq
    · rfl
    · exact h.accepted q hq

/-- After a signature was accepted one less is needed. -/
theorem settled_cons_of_accepted {needed spare : Nat} {q : SignatureCall}
    {asked : List SignatureCall} (h : q.accepted = true) :
    Settled (needed + 1) spare (q :: asked) ↔ Settled needed spare asked := by
  simp [Settled, h]

/-- After a key was rejected one less is to spare. -/
theorem settled_cons_of_rejected {needed spare : Nat} {q : SignatureCall}
    {asked : List SignatureCall} (h : q.accepted = false) :
    Settled needed (spare + 1) (q :: asked) ↔ Settled needed spare asked := by
  simp [Settled, h]

/-- As long as a signature is needed, something has to be asked. -/
theorem not_settled_nil (needed spare : Nat) : ¬ Settled (needed + 1) spare [] := by
  simp [Settled]

/-- Where no signature is needed nothing has to be asked. -/
theorem justSettled_nil (spare : Nat) : JustSettled 0 spare [] :=
  ⟨.inl rfl, nofun⟩

/-- The questions are no more than needed if they are after the first signature was accepted. -/
theorem JustSettled.cons_of_accepted {needed spare : Nat} {q : SignatureCall}
    {asked : List SignatureCall} (h : JustSettled needed spare asked) (hq : q.accepted = true) :
    JustSettled (needed + 1) spare (q :: asked) := by
  refine ⟨(settled_cons_of_accepted hq).mpr h.settled, ?_⟩
  intro c hc
  cases c with
  | zero => exact not_settled_nil needed spare
  | succ c =>
      rw [List.take_succ_cons, settled_cons_of_accepted hq]
      exact h.least c (Nat.lt_of_succ_lt_succ hc)

/-- And if they are after the first key was rejected. -/
theorem JustSettled.cons_of_rejected {needed spare : Nat} {q : SignatureCall}
    {asked : List SignatureCall} (h : JustSettled (needed + 1) spare asked)
    (hq : q.accepted = false) : JustSettled (needed + 1) (spare + 1) (q :: asked) := by
  refine ⟨(settled_cons_of_rejected hq).mpr h.settled, ?_⟩
  intro c hc
  cases c with
  | zero => exact not_settled_nil needed (spare + 1)
  | succ c =>
      rw [List.take_succ_cons, settled_cons_of_rejected hq]
      exact h.least c (Nat.lt_of_succ_lt_succ hc)

/-- With no key to spare a single rejection settles it. -/
theorem justSettled_of_rejected {needed : Nat} {q : SignatureCall} (hq : q.accepted = false) :
    JustSettled (needed + 1) 0 [q] := by
  refine ⟨.inr (by simp [hq]), ?_⟩
  intro c hc
  obtain rfl : c = 0 := Nat.lt_one_iff.mp hc
  exact not_settled_nil needed 0

namespace Act

/-- The search asks about the keys in turn. -/
theorem matchQuestions_inTurn (spare : Nat) (keys signatures : List Bytes) :
    AskedInTurn scheme digest keys signatures
      (matchQuestions scheme digest spare keys signatures) := by
  induction keys generalizing spare signatures with
  | nil => cases signatures <;> exact askedInTurn_nil _ _
  | cons key keys ih =>
      cases signatures with
      | nil => exact askedInTurn_nil _ _
      | cons signature signatures =>
          rw [matchQuestions.eq_def]
          -- The answer about the first key says which signature the others are asked about.
          refine AskedInTurn.cons ?_
          cases haccepts : scheme.accepts key digest signature with
          | true => exact ih spare signatures
          | false =>
              cases spare with
              | zero => exact askedInTurn_nil _ _
              | succ spare => exact ih spare (signature :: signatures)

/-- The search asks until its answers leave no doubt, and stops right then. -/
theorem matchQuestions_justSettled {spare : Nat} {keys signatures : List Bytes}
    (h : keys.length = signatures.length + spare) :
    JustSettled signatures.length spare (matchQuestions scheme digest spare keys signatures) := by
  induction keys generalizing spare signatures with
  | nil =>
      -- The keys cannot run out before the signatures do, as some would be to spare.
      cases signatures with
      | nil => exact justSettled_nil spare
      | cons signature signatures =>
          rw [List.length_nil, List.length_cons] at h
          omega
  | cons key keys ih =>
      cases signatures with
      | nil => exact justSettled_nil spare
      | cons signature signatures =>
          rw [List.length_cons, List.length_cons] at h
          rw [matchQuestions.eq_def, List.length_cons]
          dsimp only
          cases haccepts : scheme.accepts key digest signature with
          | true => exact (ih (by omega)).cons_of_accepted rfl
          | false =>
              cases spare with
              | zero => exact justSettled_of_rejected rfl
              | succ spare =>
                  have hlength : keys.length = (signature :: signatures).length + spare := by
                    rw [List.length_cons]
                    omega
                  exact (ih hlength).cons_of_rejected rfl

/-! ### The plain search -/

/-- Matches the signatures without ever giving up: it goes on as long as there are keys and
signatures. -/
def matchAll (scheme : SignatureScheme) (digest : Bytes) :
    (publicKeys signatures : List Bytes) → Act Bool
  | _, [] => pure true
  | [], _ :: _ => pure false
  | publicKey :: publicKeys, signature :: signatures => do
    if ← ask scheme publicKey digest signature then
      matchAll scheme digest publicKeys signatures
    else
      matchAll scheme digest publicKeys (signature :: signatures)

/-- It finds what the search of the machine finds, and it asks the same questions first. -/
theorem matchAll_eq (scheme : SignatureScheme) (digest : Bytes) (spare : Nat)
    (keys signatures : List Bytes) (b : Bench) :
    ∃ later, matchAll scheme digest keys signatures b
      = .ok (matchesInOrder scheme digest keys signatures)
          { b with calls := later ++
              ((matchQuestions scheme digest spare keys signatures).reverse ++ b.calls) } := by
  induction keys generalizing spare signatures b with
  | nil => cases signatures <;> exact ⟨[], rfl⟩
  | cons key keys ih =>
      cases signatures with
      | nil => exact ⟨[], rfl⟩
      | cons signature signatures =>
          rw [matchAll, bind_of_ok (ask_eq _ _ _ _ b), matchesInOrder, matchQuestions.eq_def]
          dsimp only
          cases haccepts : scheme.accepts key digest signature with
          | true =>
              simp only [if_true, List.reverse_cons, List.append_assoc, List.singleton_append]
              exact ih spare signatures _
          | false =>
              simp only [Bool.false_eq_true, if_false, List.reverse_cons, List.append_assoc,
                List.singleton_append]
              cases spare with
              | zero =>
                  -- Here the machine stops, so whatever is asked from now on comes later.
                  obtain ⟨later, hlater⟩ := ih 0 (signature :: signatures) _
                  rw [← List.append_assoc] at hlater
                  exact ⟨_, hlater⟩
              | succ spare => exact ih spare (signature :: signatures) _

/-! ### The whole check -/

variable {setting : Setting} {b : Bench}

/-- Taking the digest gives what was taken before, if anything was, and leaves stack and questions
alone. -/
theorem messageDigest_eq (body : Bytes) (b : Bench) :
    ∃ b', messageDigest body b = .ok (b.digest.getD (Sha256.digest body)) b' ∧
      b'.stack = b.stack ∧ b'.calls = b.calls := by
  cases hdigest : b.digest with
  | none => exact ⟨_, messageDigest_of_none hdigest, rfl, rfl⟩
  | some known => exact ⟨b, messageDigest_of_some hdigest, rfl, rfl⟩

/-- A request is answered by the search for keys. -/
theorem checkMultisig_of_request {keys signatures rest : List Bytes}
    (h : MultisigRequest setting.limits.maxMultisigKeys.toNat b.stack.items keys signatures rest) :
    let digest := b.digest.getD (Sha256.digest setting.body)
    ∃ b', checkMultisig setting b = .ok (matchesInOrder setting.scheme digest keys signatures) b' ∧
      b'.stack = .ofItems rest ∧
      b'.calls = (matchQuestions setting.scheme digest (keys.length - signatures.length) keys
        signatures).reverse ++ b.calls := by
  intro digest
  generalize hitems : b.stack.items = items at h
  obtain ⟨hcount, hlimit, hthreshold, hpos, hle⟩ := h
  obtain ⟨b₁, hdigest, hstack, hcalls⟩ :=
    messageDigest_eq setting.body ((b.withItems (signatures.reverse ++ rest)).withItems rest)
  have hspare : keys.length = signatures.length + (keys.length - signatures.length) := by omega
  rw [checkMultisig_of_counts hitems hcount hthreshold hpos hle hlimit,
    bind_of_ok (popMany_of_append signatures rest [] rfl), List.append_nil, bind_of_ok hdigest,
    matchKeys_eq hspare]
  refine ⟨_, rfl, hstack, ?_⟩
  rw [hcalls]
  rfl

end Act

end

/-- A multiple check on any stack, with any scheme.

* It finds something to refuse, or a request.
* What it refuses is a fault: no number of keys, a number of keys that is out of bounds, too few
  items for the keys, no number of signatures, a number of signatures that is out of bounds, or too
  few items for the signatures, whichever it comes to first.
* A request is taken off the stack with both numbers, and nothing else. The answer is yes if the
  signatures can be given keys that accept them, in order. The keys are asked about in turn, until
  the answers leave no doubt, and not once more. The plain search comes to the same answer. It asks
  the same questions, and maybe others after them. -/
theorem multisig_asks_until_settled (setting : Setting) (b : Bench) :
    let limit := setting.limits.maxMultisigKeys.toNat
    let digest := b.digest.getD (Sha256.digest setting.body)
    ((∃ fault left, MultisigRefused limit b.stack.items fault left) ∨
      ∃ keys signatures rest, MultisigRequest limit b.stack.items keys signatures rest) ∧
    (∀ fault left, MultisigRefused limit b.stack.items fault left →
      checkMultisig setting b = .error fault (b.withItems left)) ∧
    (∀ keys signatures rest, MultisigRequest limit b.stack.items keys signatures rest →
      ∃ accepted b' asked,
        checkMultisig setting b = .ok accepted b' ∧
        b'.stack.items = rest ∧
        b.stack.depth = b'.stack.depth + (keys.length + signatures.length + 2) ∧
        (accepted = true ↔ SignedInOrder setting.scheme digest keys signatures) ∧
        b'.calls = asked.reverse ++ b.calls ∧
        AskedInTurn setting.scheme digest keys signatures asked ∧
        JustSettled signatures.length (keys.length - signatures.length) asked ∧
        ∃ b'' later, matchAll setting.scheme digest keys signatures b = .ok accepted b'' ∧
          b''.calls = later ++ b'.calls) := by
  intro limit digest
  refine ⟨refused_or_request limit b.stack.items, ?_, ?_⟩
  · intro fault left hrefused
    exact checkMultisig_of_refused hrefused
  · intro keys signatures rest hrequest
    obtain ⟨b', hcheck, hstack, hcalls⟩ := checkMultisig_of_request hrequest
    obtain ⟨later, hall⟩ := matchAll_eq setting.scheme digest (keys.length - signatures.length) keys
      signatures b
    have hitems : b'.stack.items = rest := by rw [hstack, Stack.items_ofItems]
    have hspare : keys.length = signatures.length + (keys.length - signatures.length) := by
      have hle := hrequest.length_le
      omega
    refine ⟨_, b', _, hcheck, hitems, ?_, matchesInOrder_iff, hcalls, matchQuestions_inTurn _ _ _,
      matchQuestions_justSettled hspare, _, later, hall, ?_⟩
    · rw [Stack.depth_eq, Stack.depth_eq, hitems, hrequest.length_items]
    · rw [hcalls]

/-- Keys that accept themselves. Of three keys two are needed, and the first signature is by none of
them. The second rejection settles it, so the third key is not asked about. The plain search asks
about it as well. On the other stack three signatures are needed of two keys, which is refused
before any signature is taken. -/
theorem multisig_asks_until_settled_rejected_twice :
    let setting : Setting := ⟨⟨9, 9, 9, 3⟩,
      ⟨fun key _ signature => if key = signature then .ok () else .error .mismatch⟩, []⟩
    let items : List Bytes := [[3], [3], [2], [1], [2], [1], [4], [9]]
    let b : Bench := { stack := .ofItems items, digest := some [5] }
    let keys : List Bytes := [[1], [2], [3]]
    let signatures : List Bytes := [[4], [1]]
    let refusing : Bench := { stack := .ofItems [[2], [2], [1], [3], [8]] }
    (MultisigRequest 3 b.stack.items keys signatures [[9]] ∧
      ∃ b' asked, checkMultisig setting b = .ok false b' ∧ b'.stack.items = [[9]] ∧
        ¬ SignedInOrder setting.scheme [5] keys signatures ∧
        b'.calls = asked.reverse ∧
        asked = [⟨[1], [5], [4], false⟩, ⟨[2], [5], [4], false⟩] ∧
        AskedInTurn setting.scheme [5] keys signatures asked ∧ JustSettled 2 1 asked ∧
        ∃ b'' later, matchAll setting.scheme [5] keys signatures b = .ok false b'' ∧
          b''.calls = later ++ b'.calls ∧ later = [⟨[3], [5], [4], false⟩]) ∧
    (MultisigRefused 3 refusing.stack.items (.invalidThreshold 3 2) [[8]] ∧
      checkMultisig setting refusing
        = .error (.invalidThreshold 3 2) (refusing.withItems [[8]])) := by
  intro setting items b keys signatures refusing
  obtain ⟨-, -, hrequest⟩ := multisig_asks_until_settled setting b
  obtain ⟨-, hrefused, -⟩ := multisig_asks_until_settled setting refusing
  have hfound : MultisigRequest 3 b.stack.items keys signatures [[9]] :=
    @MultisigRequest.intro 3 [3] [2] [[1], [2], [3]] [[4], [1]] [[9]]
      (by decide) (by decide) (by decide) (by decide) (by decide)
  have hthreshold : MultisigRefused 3 refusing.stack.items (.invalidThreshold 3 2) [[8]] :=
    @MultisigRefused.threshold 3 [2] [3] [[1], [2]] [[8]]
      (by decide) (by decide) (by decide) (by decide)
  obtain ⟨accepted, b', asked, hcheck, hitems, -, hsigned, hcalls, hturn, hsettled, b'', later,
    hall, hlater⟩ := hrequest keys signatures [[9]] hfound
  -- What both searches ask can be read off their runs.
  have hcheck' : ∃ b₁, checkMultisig setting b = .ok false b₁ ∧
      b₁.calls = [⟨[2], [5], [4], false⟩, ⟨[1], [5], [4], false⟩] := by
    refine ⟨_, rfl, ?_⟩
    rfl
  have hall' : ∃ b₁, matchAll setting.scheme [5] keys signatures b = .ok false b₁ ∧
      b₁.calls = [⟨[3], [5], [4], false⟩, ⟨[2], [5], [4], false⟩, ⟨[1], [5], [4], false⟩] := by
    refine ⟨_, rfl, ?_⟩
    rfl
  obtain ⟨b₁, hcheck', hcalls₁⟩ := hcheck'
  obtain ⟨b₂, hall', hcalls₂⟩ := hall'
  cases hcheck.symm.trans hcheck'
  cases hall.symm.trans hall'
  have hnone : asked.reverse ++ b.calls = asked.reverse := List.append_nil _
  rw [hnone] at hcalls
  have hasked : asked = [⟨[1], [5], [4], false⟩, ⟨[2], [5], [4], false⟩] := by
    rw [← asked.reverse_reverse, ← hcalls, hcalls₁]
    rfl
  refine ⟨⟨hfound, b', asked, hcheck, hitems, ?_, hcalls, hasked, hturn, hsettled, b'', later, hall,
    hlater, ?_⟩, hthreshold, hrefused _ _ hthreshold⟩
  · exact fun h => Bool.false_ne_true (hsigned.mpr h)
  · rw [hcalls₁, hcalls₂] at hlater
    have hlast : [⟨[3], [5], [4], false⟩] ++ _ = later ++ _ := hlater
    exact (List.append_cancel_right hlast).symm

end Countersign
