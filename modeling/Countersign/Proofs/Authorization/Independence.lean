import Countersign.Proofs.Authorization.Witness

/-!
# `Countersign.Proofs.Authorization.Independence`: witnesses do not see each other

What is found out about a witness depends on its claim, on itself and on the body. Where it stands
only shows in the index that a refusal gives. So deciding on a request is deciding on each of its
witnesses alone, one after the other, until one is refused (`authorize_independently`).

All that is needed of the evaluator is that it is `Oblivious`: its engines read nothing of a request
but the body. `examine_of_oblivious` moves a witness to another place of another request, and
`examineAll_of_oblivious` is the induction over the row of witnesses.
-/

set_option autoImplicit false

namespace Countersign

/-- The refusal as it reads for the witness at `index`. -/
def Refusal.about (index : Nat) : Refusal → Refusal
  | .emptyCode _ => .emptyCode index
  | .hashMismatch _ claimed actual => .hashMismatch index claimed actual
  | .notHalted _ phase => .notHalted index phase
  | .stackShape _ depth => .stackShape index depth
  | .rejected _ => .rejected index
  | refusal => refusal

/-- What was found out about a witness, as it reads for the one at `index`. -/
def Inspection.about {ε : Type} (index : Nat) (inspection : Inspection ε) : Inspection ε :=
  { inspection with decision := inspection.decision.mapError (Refusal.about index) }

/-- The questions to the scheme, the first one first. -/
def Inspection.signatureCalls (inspection : Inspection Machine) : List SignatureCall :=
  inspection.engines.flatMap Machine.signatureCalls

/-- The payload of one claim and its witness. -/
def Envelope.alone (body : Bytes) (pair : ScriptHash × Witness) : Envelope where
  body
  claims := [pair.1]
  witnesses := [pair.2]

/-- The pair at `i` is the first one that is refused, and this is why. -/
structure FirstRefused (decideOn : ScriptHash × Witness → Decision)
    (pairs : List (ScriptHash × Witness)) (i : Nat) (refusal : Refusal) : Prop where
  refused : ∃ pair, pairs[i]? = some pair ∧ decideOn pair = .error refusal
  before : ∀ j < i, ∀ pair, pairs[j]? = some pair → decideOn pair = .ok true

/-- A pair that passes may stand in front of those up to the first refusal. -/
theorem FirstRefused.cons {decideOn : ScriptHash × Witness → Decision}
    {pairs : List (ScriptHash × Witness)} {i : Nat} {refusal : Refusal}
    (h : FirstRefused decideOn pairs i refusal) {pair : ScriptHash × Witness}
    (hpair : decideOn pair = .ok true) : FirstRefused decideOn (pair :: pairs) (i + 1) refusal := by
  refine ⟨h.refused, fun j hj other hother => ?_⟩
  cases j with
  | zero =>
      cases hother
      exact hpair
  | succ j => exact h.before j (Nat.lt_of_succ_lt_succ hj) other hother

namespace Authorizer

variable {ε : Type} {a : Authorizer ε}

/-- The engines depend on the witness and on the body of the request alone. -/
def Oblivious (a : Authorizer ε) : Prop :=
  ∀ request request' : Request, request.body = request'.body →
    ∀ index index' w, a.run request index w = a.run request' index' w

/-! ### One witness -/

/-- The index of a witness shows in its judgement only as the index. -/
theorem judge_about (a : Authorizer ε) (index index' : Nat) (engine : ε) :
    a.judge index engine
      = ⟨(a.judge index' engine).value.mapError (Refusal.about index),
          (a.judge index' engine).calls⟩ := by
  rw [judge_eq, judge_eq]
  by_cases hphase : a.evaluator.phase engine = .halted
  · by_cases hdepth : a.evaluator.depth engine = 1
    · cases a.evaluator.result engine <;> simp [hphase, hdepth, Except.mapError, Refusal.about]
    · simp [hphase, hdepth, Except.mapError, Refusal.about]
  · simp [hphase, Except.mapError, Refusal.about]

/-- It does not matter where a witness stands, and in which request over the same body. -/
theorem examine_of_oblivious (ha : a.Oblivious) {request request' : Request}
    (hbody : request.body = request'.body) (index index' : Nat) (claim : ScriptHash) (w : Witness) :
    a.examine request index claim w = (a.examine request' index' claim w).about index := by
  by_cases hcode : w.code = []
  · rw [examine, examine, if_pos hcode, if_pos hcode]
    rfl
  · by_cases hclaim : ScriptHash.ofScript w.code = claim
    · -- Only here there is an engine, which is the same one for both.
      rw [examine_of_claim a request index hcode hclaim,
        examine_of_claim a request' index' hcode hclaim, ha request request' hbody index index' w,
        judge_about a index index']
      rfl
    · rw [examine, examine]
      simp only [if_neg hcode, if_pos hclaim]
      rfl

/-- A payload of one witness is decided on by examining it. -/
theorem inspect_alone (a : Authorizer ε) (body : Bytes) (pair : ScriptHash × Witness) :
    a.inspect (Envelope.alone body pair).toRequest
      = a.examine (Envelope.alone body pair).toRequest 0 pair.1 pair.2 :=
  inspect_of_single rfl rfl

/-- Examining a witness anywhere is deciding on it alone, but for the index. -/
theorem examine_eq_about_alone (ha : a.Oblivious) (request : Request) (index : Nat)
    (pair : ScriptHash × Witness) :
    a.examine request index pair.1 pair.2
      = (a.inspect (Envelope.alone request.body pair).toRequest).about index := by
  have hbody : request.body = (Envelope.alone request.body pair).toRequest.body := rfl
  rw [inspect_alone]
  exact examine_of_oblivious ha hbody index 0 pair.1 pair.2

/-- A witness that is refused alone is called the first. -/
theorem index?_of_authorize_alone {body : Bytes} {pair : ScriptHash × Witness} {refusal : Refusal}
    (h : a.authorize (Envelope.alone body pair).toRequest = .error refusal) :
    refusal.index? = some 0 := by
  rw [authorize, inspect_alone, examine_eq] at h
  cases ho : a.objection? (Envelope.alone body pair).toRequest 0 pair.1 pair.2 with
  | none =>
      rw [ho] at h
      cases h
  | some o =>
      rw [ho] at h
      cases h
      -- Every objection is made to the witness at its place, which is the first.
      have hmem : o ∈ _ := List.mem_of_find?_eq_some ho
      simp only [objections, List.mem_cons, List.not_mem_nil, or_false] at hmem
      rcases hmem with rfl | rfl | rfl | rfl | rfl <;> rfl

/-! ### Rows of witnesses -/

/-- Where the first witness is refused, no other is looked at. -/
theorem examineAll_cons_of_error {request : Request} {index : Nat} {pair : ScriptHash × Witness}
    {refusal : Refusal} (h : (a.examine request index pair.1 pair.2).decision = .error refusal)
    (pairs : List (ScriptHash × Witness)) :
    a.examineAll request index (pair :: pairs) = a.examine request index pair.1 pair.2 := by
  have hrecord : a.examine request index pair.1 pair.2
      = ⟨.error refusal, (a.examine request index pair.1 pair.2).calls,
        (a.examine request index pair.1 pair.2).engines⟩ := by
    rw [← h]
  rw [hrecord, examineAll, h]

/-- Where the first witness passes, the others decide, and its engine comes before theirs. -/
theorem examineAll_cons_of_ok {request : Request} {index : Nat} {pair : ScriptHash × Witness}
    {answer : Bool} (h : (a.examine request index pair.1 pair.2).decision = .ok answer)
    (pairs : List (ScriptHash × Witness)) :
    (a.examineAll request index (pair :: pairs)).decision
        = (a.examineAll request (index + 1) pairs).decision ∧
      (a.examineAll request index (pair :: pairs)).engines
        = (a.examine request index pair.1 pair.2).engines
          ++ (a.examineAll request (index + 1) pairs).engines := by
  rw [examineAll, h]
  exact ⟨rfl, rfl⟩

/-- A row of witnesses is decided on by deciding on each of them alone, up to the first refusal. -/
theorem examineAll_of_oblivious (ha : a.Oblivious) (request : Request) (start : Nat)
    (pairs : List (ScriptHash × Witness)) :
    let alone := fun pair => a.inspect (Envelope.alone request.body pair).toRequest
    let row := a.examineAll request start pairs
    (row.decision = .ok true ∧ row.engines = pairs.flatMap (fun pair => (alone pair).engines) ∧
        ∀ pair ∈ pairs, (alone pair).decision = .ok true) ∨
      ∃ i refusal, FirstRefused (fun pair => (alone pair).decision) pairs i refusal ∧
        row.decision = .error (refusal.about (start + i)) ∧
        row.engines = (pairs.take (i + 1)).flatMap fun pair => (alone pair).engines := by
  intro alone row
  -- The place of the first pair grows along the row, so the induction is for every start.
  induction pairs generalizing start with
  | nil => exact .inl ⟨rfl, rfl, fun pair hpair => absurd hpair List.not_mem_nil⟩
  | cons pair pairs ih =>
      have hexamine : a.examine request start pair.1 pair.2 = (alone pair).about start :=
        examine_eq_about_alone ha request start pair
      cases hdecision : (alone pair).decision with
      | error refusal =>
          -- The first pair decides, and no other is looked at.
          have hrefused : (a.examine request start pair.1 pair.2).decision
              = .error (refusal.about start) := by
            rw [hexamine, Inspection.about, hdecision]
            rfl
          have hrow : row = (alone pair).about start :=
            (examineAll_cons_of_error hrefused pairs).trans hexamine
          refine .inr ⟨0, refusal, ⟨⟨pair, rfl, hdecision⟩, fun j hj => absurd hj j.not_lt_zero⟩,
            ?_, ?_⟩
          · rw [hrow, ← hexamine, hrefused, Nat.add_zero]
          · rw [hrow, List.take_succ_cons, List.take_zero, List.flatMap_singleton, Inspection.about]
      | ok answer =>
          have hpassed : (alone pair).decision = .ok true := by
            cases answer with
            | true => exact hdecision
            | false => exact absurd hdecision (a.authorize_ne_false _)
          have hexamined : (a.examine request start pair.1 pair.2).decision = .ok true := by
            rw [hexamine, Inspection.about, hpassed]
            rfl
          -- Nothing is wrong with the first pair, so the rest decides, one place further.
          obtain ⟨hrow, hengines⟩ := examineAll_cons_of_ok hexamined pairs
          rw [hexamine] at hengines
          rcases ih (start + 1) with ⟨hall, hothers, halone⟩ | ⟨i, refusal, hfirst, herror, hothers⟩
          · refine .inl ⟨hrow.trans hall, ?_, ?_⟩
            · rw [hengines, hothers, List.flatMap_cons, Inspection.about]
            · intro other hother
              rcases List.mem_cons.mp hother with rfl | hother
              · exact hpassed
              · exact halone other hother
          · refine .inr ⟨i + 1, refusal, hfirst.cons hpassed, ?_, ?_⟩
            · rw [hrow, herror, Nat.add_assoc, Nat.add_comm 1 i]
            · rw [hengines, hothers, List.take_succ_cons, List.flatMap_cons, Inspection.about]

/-- A payload is decided on by deciding on each of its witnesses alone, up to the first refusal. -/
theorem inspect_of_oblivious (ha : a.Oblivious) (body : Bytes) {claims : List ScriptHash}
    {witnesses : List Witness} (hlength : claims.length = witnesses.length) :
    let alone := fun pair => a.inspect (Envelope.alone body pair).toRequest
    let pairs := claims.zip witnesses
    let whole := a.inspect (Envelope.mk body claims witnesses).toRequest
    (whole.decision = .ok true ∧ whole.engines = pairs.flatMap (fun pair => (alone pair).engines) ∧
        ∀ pair ∈ pairs, (alone pair).decision = .ok true) ∨
      ∃ i refusal, FirstRefused (fun pair => (alone pair).decision) pairs i refusal ∧
        whole.decision = .error (refusal.about i) ∧
        whole.engines = (pairs.take (i + 1)).flatMap fun pair => (alone pair).engines := by
  intro alone pairs whole
  have hwhole : whole = a.examineAll (Envelope.mk body claims witnesses).toRequest 0 pairs :=
    inspect_of_length_eq rfl hlength
  have hrow := examineAll_of_oblivious ha (Envelope.mk body claims witnesses).toRequest 0 pairs
  simp only [Nat.zero_add] at hrow
  rwa [hwhole]

/-- A payload is authorized if and only if each of its witnesses is alone. -/
theorem authorize_iff_of_oblivious (ha : a.Oblivious) (body : Bytes) {claims : List ScriptHash}
    {witnesses : List Witness} (hlength : claims.length = witnesses.length) :
    a.authorize (Envelope.mk body claims witnesses).toRequest = .ok true ↔
      ∀ pair ∈ claims.zip witnesses,
        a.authorize (Envelope.alone body pair).toRequest = .ok true := by
  rcases inspect_of_oblivious ha body hlength with
    ⟨hok, -, halone⟩ | ⟨i, refusal, hfirst, herror, -⟩
  · exact ⟨fun _ => halone, fun _ => hok⟩
  · obtain ⟨pair, hget, hrefused⟩ := hfirst.refused
    constructor
    · intro hok
      cases herror.symm.trans hok
    · intro halone
      cases hrefused.symm.trans (halone pair (List.mem_of_getElem? hget))

end Authorizer

/-! ### Machines -/

/-- A machine begins fresh, and its body is all that it has of the request. -/
theorem oblivious_machineAuthorizer (limits : Limits) (scheme : SignatureScheme)
    (ledger : Ledger) : (machineAuthorizer limits scheme ledger).Oblivious := by
  intro request request' hbody index index' w
  -- What is made for a witness names neither its index nor the request as a whole.
  have hrun (request : Request) (index : Nat) :
      (machineAuthorizer limits scheme ledger).run request index w
        = (loaded ⟨limits, scheme, request.body⟩ w).execute := rfl
  rw [hrun, hrun, hbody]

/-- The questions about a row of witnesses are those about each of them in turn. -/
theorem signatureCalls_of_engines {inspection : Inspection Machine}
    {pairs : List (ScriptHash × Witness)} {alone : ScriptHash × Witness → Inspection Machine}
    (h : inspection.engines = pairs.flatMap fun pair => (alone pair).engines) :
    inspection.signatureCalls = pairs.flatMap fun pair => (alone pair).signatureCalls := by
  rw [Inspection.signatureCalls, h, List.flatMap_assoc]
  rfl

/-- Witnesses are decided on independently of each other.

* A payload is authorized if and only if each of its witnesses is, alone over the same body. The
  questions to the scheme are then those of all of them.
* Else the first witness that is refused alone decides. Its refusal is the same but for the index,
  and the questions are those of the witnesses up to it.
* So the order of the witnesses, each with its claim, does not matter for the answer yes.
* What is found out about a witness is the same wherever it stands. -/
theorem authorize_independently (limits : Limits) (scheme : SignatureScheme) (ledger : Ledger)
    (body : Bytes) {claims : List ScriptHash} {witnesses : List Witness}
    (hlength : claims.length = witnesses.length) :
    let a := machineAuthorizer limits scheme ledger
    let request := (Envelope.mk body claims witnesses).toRequest
    let pairs := claims.zip witnesses
    let alone := fun pair => (Envelope.alone body pair).toRequest
    (a.authorize request = .ok true ↔ ∀ pair ∈ pairs, a.authorize (alone pair) = .ok true) ∧
    (a.authorize request = .ok true →
      (a.inspect request).signatureCalls
        = pairs.flatMap fun pair => (a.inspect (alone pair)).signatureCalls) ∧
    (a.authorize request ≠ .ok true → ∃ i refusal,
      FirstRefused (fun pair => a.authorize (alone pair)) pairs i refusal ∧
        refusal.index? = some 0 ∧ a.authorize request = .error (refusal.about i) ∧
        (a.inspect request).signatureCalls
          = (pairs.take (i + 1)).flatMap fun pair => (a.inspect (alone pair)).signatureCalls) ∧
    (∀ claims' witnesses', claims'.length = witnesses'.length →
      (claims'.zip witnesses').Perm pairs →
      (a.authorize (Envelope.mk body claims' witnesses').toRequest = .ok true ↔
        a.authorize request = .ok true)) ∧
    (∀ index pair, (a.examine request index pair.1 pair.2).decision
      = (a.authorize (alone pair)).mapError (Refusal.about index)) := by
  intro a request pairs alone
  have ha : a.Oblivious := oblivious_machineAuthorizer limits scheme ledger
  have hiff := a.authorize_iff_of_oblivious ha body hlength
  refine ⟨hiff, fun hok => ?_, fun hrefused => ?_, ?_, ?_⟩
  · rcases a.inspect_of_oblivious ha body hlength with ⟨-, hengines, -⟩ | ⟨i, refusal, -, herror, -⟩
    · exact signatureCalls_of_engines hengines
    · cases herror.symm.trans hok
  · rcases a.inspect_of_oblivious ha body hlength with
      ⟨hok, -, -⟩ | ⟨i, refusal, hfirst, herror, hengines⟩
    · exact absurd hok hrefused
    · obtain ⟨pair, -, halone⟩ := hfirst.refused
      exact ⟨i, refusal, hfirst, a.index?_of_authorize_alone halone, herror,
        signatureCalls_of_engines hengines⟩
  · intro claims' witnesses' hlength' hperm
    rw [a.authorize_iff_of_oblivious ha body hlength', hiff]
    exact forall_congr' fun pair => imp_congr_left hperm.mem_iff
  · intro index pair
    rw [a.examine_eq_about_alone ha request index pair]
    rfl

/-- Two witnesses for one account, the second one with a signature that is not accepted. It is
refused as it is alone, but for the index, and both signatures are looked at. -/
theorem authorize_independently_second_rejected :
    let scheme : SignatureScheme :=
      ⟨fun _ _ signature => if signature = [1] then .ok () else .error .mismatch⟩
    let a := machineAuthorizer .standard scheme Ledger.empty
    let code : Bytes := [0x01, 0x09, 0xAC]
    let claim := ScriptHash.ofScript code
    let first : Witness := ⟨code, [0x01, 0x01]⟩
    let second : Witness := ⟨code, [0x01, 0x02]⟩
    let request := (Envelope.mk [] [claim, claim] [first, second]).toRequest
    [claim, claim].length = [first, second].length ∧
      a.authorize (Envelope.alone [] (claim, first)).toRequest = .ok true ∧
      a.authorize (Envelope.alone [] (claim, second)).toRequest = .error (.rejected 0) ∧
      a.authorize request = .error (.rejected 1) ∧
      (a.inspect request).signatureCalls.map SignatureCall.accepted = [true, false] := by
  intro scheme a code claim first second request
  have hfirst : a.authorize (Envelope.alone [] (claim, first)).toRequest = .ok true := by
    have hlone := authorizeLone_eq .standard scheme Ledger.empty (w := first)
      (List.cons_ne_nil _ _) []
    exact hlone.trans (by decide +kernel)
  have hsecond : a.authorize (Envelope.alone [] (claim, second)).toRequest
      = .error (.rejected 0) := by
    have hlone := authorizeLone_eq .standard scheme Ledger.empty (w := second)
      (List.cons_ne_nil _ _) []
    exact hlone.trans (by decide +kernel)
  have hcalls (w : Witness) (hcode : w.code = code) :
      (a.inspect (Envelope.alone [] (claim, w)).toRequest).signatureCalls
        = (loaded ⟨.standard, scheme, []⟩ w).execute.signatureCalls := by
    have hne : w.code ≠ [] := by
      rw [hcode]
      exact List.cons_ne_nil _ _
    rw [Authorizer.inspect_alone, Inspection.signatureCalls,
      Authorizer.engines_examine_of_claim a _ 0 hne (congrArg ScriptHash.ofScript hcode),
      List.flatMap_singleton]
    rfl
  have hlength : [claim, claim].length = [first, second].length := rfl
  obtain ⟨hiff, -, hrefused, -, -⟩ :=
    authorize_independently .standard scheme Ledger.empty [] hlength
  have hne : a.authorize request ≠ .ok true := by
    intro hok
    cases hsecond.symm.trans (hiff.mp hok (claim, second) (by simp))
  obtain ⟨i, refusal, ⟨⟨pair, hget, halone⟩, -⟩, -, herror, hlog⟩ := hrefused hne
  have hi : i < 2 := (List.getElem?_eq_some_iff.mp hget).1
  match i, hi with
  | 0, _ =>
      cases hget
      cases hfirst.symm.trans halone
  | 1, _ =>
      cases hget
      cases hsecond.symm.trans halone
      refine ⟨hlength, hfirst, hsecond, herror, hlog ▸ ?_⟩
      show List.map _ (List.flatMap _ [(claim, first), (claim, second)]) = _
      rw [List.flatMap_cons, List.flatMap_singleton, hcalls first rfl, hcalls second rfl]
      decide +kernel

end Countersign
