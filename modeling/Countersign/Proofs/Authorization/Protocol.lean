import Countersign.Authorization.Authorizer

/-!
# `Countersign.Proofs.Authorization.Protocol`: the order in which witnesses are objected to

There are five objections to a witness, and they are raised in a fixed order. `objections` lists
them for whatever evaluator there is: when each applies, what it is refused with, and how many of
the seven things that can be asked about a witness have been asked by then. `questions` lists these.
Three of the objections are to an engine that was made for the witness, was given its code and then
its parameter, and has executed them.

The decision and the record of the calls come from the same run, so each call on record was made
(`recordRun_eq`, `judge_eq`).

`inspect_by_first_objection` is the whole protocol. Nothing is asked unless there is one witness
for each claim. Then the first witness that an objection applies to decides, by the first objection
that applies to it. Every witness before it has been asked about in full, no witness after it has
been asked about at all.
-/

set_option autoImplicit false

namespace Countersign.Authorizer

variable {ε : Type}

/-- A reason to refuse a witness. -/
structure Objection where
  applies : Bool
  refusal : Refusal
  /-- How many questions about the witness are asked until this one is raised. -/
  asked : Nat

/-- All that is asked about a witness that nothing is wrong with. -/
def questions (w : Witness) : List EvaluatorCall :=
  [.create, .load w.code .code, .load w.parameter .parameter, .execute, .phase, .depth, .result]

/-- The objections to the witness at `index`, in the order in which they are raised. -/
def objections (a : Authorizer ε) (request : Request) (index : Nat) (claim : ScriptHash)
    (w : Witness) : List Objection :=
  let engine := a.evaluator.execute <|
    a.evaluator.load
      (a.evaluator.load (a.evaluator.create index request a.scheme a.ledger) w.code .code)
      w.parameter .parameter
  let actual := ScriptHash.ofScript w.code
  [⟨w.code = [], .emptyCode index, 0⟩,
   ⟨actual ≠ claim, .hashMismatch index claim actual, 0⟩,
   ⟨a.evaluator.phase engine ≠ .halted, .notHalted index (a.evaluator.phase engine), 5⟩,
   ⟨a.evaluator.depth engine ≠ 1, .stackShape index (a.evaluator.depth engine), 6⟩,
   ⟨!a.evaluator.result engine, .rejected index, 7⟩]

/-- The first objection that applies to the witness at `index`. -/
def objection? (a : Authorizer ε) (request : Request) (index : Nat) (claim : ScriptHash)
    (w : Witness) : Option Objection :=
  (a.objections request index claim w).find? Objection.applies

/-! ### One witness -/

/-- The run of a witness, call by call. The record says what was done to the engine. -/
theorem recordRun_eq (a : Authorizer ε) (request : Request) (index : Nat) (w : Witness) :
    a.recordRun request index w
      = ⟨a.run request index w,
          [.create, .load w.code .code, .load w.parameter .parameter, .execute]⟩ :=
  rfl

/-- The engine of a witness is made, loaded twice and executed, and nothing else. -/
theorem run_eq (a : Authorizer ε) (request : Request) (index : Nat) (w : Witness) :
    a.run request index w
      = a.evaluator.execute (a.evaluator.load
          (a.evaluator.load (a.evaluator.create index request a.scheme a.ledger) w.code .code)
          w.parameter .parameter) :=
  rfl

/-- What is left behind is judged by at most three questions, the last of which is only asked if
the first two are answered well. -/
theorem judge_eq (a : Authorizer ε) (index : Nat) (engine : ε) :
    a.judge index engine
      = if a.evaluator.phase engine ≠ .halted then
          ⟨.error (.notHalted index (a.evaluator.phase engine)), [.phase]⟩
        else if a.evaluator.depth engine ≠ 1 then
          ⟨.error (.stackShape index (a.evaluator.depth engine)), [.phase, .depth]⟩
        else if a.evaluator.result engine then ⟨.ok true, [.phase, .depth, .result]⟩
        else ⟨.error (.rejected index), [.phase, .depth, .result]⟩ := by
  -- The record of a question does not depend on its answer, but what is asked next does.
  by_cases hphase : a.evaluator.phase engine = .halted
  · by_cases hdepth : a.evaluator.depth engine = 1
    · cases hresult : a.evaluator.result engine <;>
        simp [judge, bind, pure, Recorded.answer, Evaluator.recordPhase, Evaluator.recordDepth,
          Evaluator.recordResult, hphase, hdepth, hresult]
    · simp [judge, bind, pure, Recorded.answer, Evaluator.recordPhase, Evaluator.recordDepth,
        hphase, hdepth]
  · simp [judge, bind, pure, Recorded.answer, Evaluator.recordPhase, hphase]

/-- A witness with nothing wrong with its code is run and then judged, on one record. -/
theorem examine_of_claim (a : Authorizer ε) (request : Request) (index : Nat)
    {claim : ScriptHash} {w : Witness} (hcode : w.code ≠ [])
    (hclaim : ScriptHash.ofScript w.code = claim) :
    a.examine request index claim w
      = ⟨(a.judge index (a.run request index w)).value,
          [.create, .load w.code .code, .load w.parameter .parameter, .execute]
            ++ (a.judge index (a.run request index w)).calls,
          [a.run request index w]⟩ := by
  rw [examine, if_neg hcode]
  dsimp only
  rw [if_neg (not_not_intro hclaim), recordRun_eq]

/-- A witness is examined by its first objection. No engine is made if that comes before the run. -/
theorem examine_eq (a : Authorizer ε) (request : Request) (index : Nat) (claim : ScriptHash)
    (w : Witness) :
    a.examine request index claim w
      = match a.objection? request index claim w with
        | none => ⟨.ok true, questions w, [a.run request index w]⟩
        | some o =>
          ⟨.error o.refusal, (questions w).take o.asked,
            if o.asked = 0 then [] else [a.run request index w]⟩ := by
  rw [objection?, objections]
  by_cases hcode : w.code = []
  · simp [examine, hcode]
  · by_cases hclaim : ScriptHash.ofScript w.code = claim
    · rw [examine_of_claim a request index hcode hclaim, judge_eq, ← run_eq]
      -- One case for each of the objections to the engine, and one for none of them.
      by_cases hphase : a.evaluator.phase (a.run request index w) = .halted
      · by_cases hdepth : a.evaluator.depth (a.run request index w) = 1
        · cases a.evaluator.result (a.run request index w) <;>
            simp [hcode, hclaim, hphase, hdepth, questions]
        · simp [hcode, hclaim, hphase, hdepth, questions]
      · simp [hcode, hclaim, hphase, questions]
    · simp [examine, hcode, hclaim]

/-- A witness whose code has the claimed hash is decided on by what its run left behind. -/
theorem decision_examine_of_claim (a : Authorizer ε) (request : Request) (index : Nat)
    {claim : ScriptHash} {w : Witness} (hcode : w.code ≠ [])
    (hclaim : ScriptHash.ofScript w.code = claim) :
    (a.examine request index claim w).decision
      = (a.judge index (a.run request index w)).value := by
  rw [examine_of_claim a request index hcode hclaim]

/-- A witness whose hash is the claimed one is run on an engine of its own. -/
theorem engines_examine_of_claim (a : Authorizer ε) (request : Request) (index : Nat)
    {claim : ScriptHash} {w : Witness} (hcode : w.code ≠ [])
    (hclaim : ScriptHash.ofScript w.code = claim) :
    (a.examine request index claim w).engines = [a.run request index w] := by
  rw [examine_of_claim a request index hcode hclaim]

/-! ### Rows of witnesses -/

/-- The first witness that is refused decides, and else the others do. -/
theorem decision_examineAll_cons (a : Authorizer ε) (request : Request) (index : Nat)
    (claim : ScriptHash) (w : Witness) (rest : List (ScriptHash × Witness)) :
    (a.examineAll request index ((claim, w) :: rest)).decision
      = match (a.examine request index claim w).decision with
        | .error refusal => .error refusal
        | .ok _ => (a.examineAll request (index + 1) rest).decision := by
  rw [examineAll]
  cases (a.examine request index claim w).decision <;> rfl

/-- Witnesses that nothing is wrong with are passed over, and all is asked about each. -/
theorem examineAll_append (a : Authorizer ε) (request : Request) (start : Nat)
    (passed rest : List (ScriptHash × Witness))
    (h : ∀ i claim w, passed[i]? = some (claim, w) →
      a.objection? request (start + i) claim w = none) :
    (a.examineAll request start (passed ++ rest)).decision
        = (a.examineAll request (start + passed.length) rest).decision ∧
      (a.examineAll request start (passed ++ rest)).calls
        = passed.flatMap (fun pair => questions pair.2)
          ++ (a.examineAll request (start + passed.length) rest).calls := by
  induction passed generalizing start with
  | nil => exact ⟨rfl, rfl⟩
  | cons pair passed ih =>
      obtain ⟨claim, w⟩ := pair
      have hfirst : a.objection? request start claim w = none := h 0 claim w rfl
      have hrest : ∀ i claim w, passed[i]? = some (claim, w) →
          a.objection? request (start + 1 + i) claim w = none := by
        intro i claim w hi
        rw [Nat.add_assoc, Nat.add_comm 1 i]
        exact h (i + 1) claim w hi
      obtain ⟨hdecision, hcalls⟩ := ih (start + 1) hrest
      have hstart : start + ((claim, w) :: passed).length = start + 1 + passed.length := by
        rw [List.length_cons]
        omega
      rw [List.cons_append, examineAll, examine_eq, hfirst, hstart, List.flatMap_cons,
        List.append_assoc, ← hcalls, ← hdecision]
      exact ⟨rfl, rfl⟩

/-- An objection to the first witness decides, and nothing is asked about the others. -/
theorem examineAll_cons_of_some {a : Authorizer ε} {request : Request} {index : Nat}
    {claim : ScriptHash} {w : Witness} {o : Objection}
    (h : a.objection? request index claim w = some o) (rest : List (ScriptHash × Witness)) :
    (a.examineAll request index ((claim, w) :: rest)).decision = .error o.refusal ∧
      (a.examineAll request index ((claim, w) :: rest)).calls = (questions w).take o.asked := by
  rw [examineAll, examine_eq, h]
  exact ⟨rfl, rfl⟩

/-- Every engine that was made has run a witness. -/
theorem exists_run_of_mem_engines_examineAll {a : Authorizer ε} {request : Request} {index : Nat}
    {pairs : List (ScriptHash × Witness)} {engine : ε}
    (h : engine ∈ (a.examineAll request index pairs).engines) :
    ∃ i w, engine = a.run request i w := by
  induction pairs generalizing index with
  | nil => cases h
  | cons pair pairs ih =>
      obtain ⟨claim, w⟩ := pair
      rw [examineAll, examine_eq] at h
      cases ho : a.objection? request index claim w with
      | none =>
          rw [ho] at h
          rcases List.mem_append.mp h with hfirst | hothers
          · exact ⟨index, w, List.mem_singleton.mp hfirst⟩
          · exact ih hothers
      | some o =>
          rw [ho] at h
          dsimp only at h
          split at h
          · cases h
          · exact ⟨index, w, List.mem_singleton.mp h⟩

/-- Whatever the engines do, the answer no is never given. -/
theorem examineAll_ne_false (a : Authorizer ε) (request : Request) (index : Nat)
    (pairs : List (ScriptHash × Witness)) :
    (a.examineAll request index pairs).decision ≠ .ok false := by
  induction pairs generalizing index with
  | nil => exact nofun
  | cons pair pairs ih =>
      obtain ⟨claim, w⟩ := pair
      rw [examineAll, examine_eq]
      cases a.objection? request index claim w with
      | none => exact ih (index + 1)
      | some o => exact nofun

/-! ### The protocol -/

/-- With a witness for each claim the request is decided on by examining them in pairs. -/
theorem inspect_of_length_eq {a : Authorizer ε} {request : Request} {claims : List ScriptHash}
    (hclaims : request.claims = .ok claims) (hlength : claims.length = request.witnesses.length) :
    a.inspect request = a.examineAll request 0 (claims.zip request.witnesses) := by
  rw [inspect, hclaims]
  exact if_neg (not_not_intro hlength)

/-- Every engine was run for some witness. -/
theorem exists_run_of_mem_engines {a : Authorizer ε} {request : Request} {engine : ε}
    (h : engine ∈ (a.inspect request).engines) : ∃ index w, engine = a.run request index w := by
  rw [inspect] at h
  cases hclaims : request.claims with
  | error reason =>
      rw [hclaims] at h
      cases h
  | ok claims =>
      rw [hclaims] at h
      dsimp only at h
      split at h
      · cases h
      · exact exists_run_of_mem_engines_examineAll h

/-- A request with a single witness is decided on by examining that one. -/
theorem inspect_of_single {a : Authorizer ε} {request : Request} {claim : ScriptHash} {w : Witness}
    (hclaims : request.claims = .ok [claim]) (hwitnesses : request.witnesses = [w]) :
    a.inspect request = a.examine request 0 claim w := by
  have hlength : [claim].length = request.witnesses.length := by rw [hwitnesses]; rfl
  rw [inspect_of_length_eq hclaims hlength, hwitnesses, List.zip_cons_cons, List.zip_nil_left,
    examineAll, examine_eq]
  cases a.objection? request 0 claim w with
  | none => simp [examineAll]
  | some o => rfl

/-- The answer no is never given. What is not authorized is refused. -/
theorem authorize_ne_false (a : Authorizer ε) (request : Request) :
    a.authorize request ≠ .ok false := by
  rw [authorize]
  cases hclaims : request.claims with
  | error reason =>
      rw [inspect, hclaims]
      exact nofun
  | ok claims =>
      by_cases hlength : claims.length = request.witnesses.length
      · rw [inspect_of_length_eq hclaims hlength]
        exact examineAll_ne_false a request 0 _
      · rw [inspect, hclaims]
        dsimp only
        rw [if_pos hlength]
        exact nofun

/-- Nothing is authorized that has a first witness with something wrong with it. -/
theorem exists_unobjected_of_authorize {a : Authorizer ε} {request : Request}
    (h : a.authorize request = .ok true) (hne : request.witnesses ≠ []) :
    ∃ claim w, a.objection? request 0 claim w = none := by
  rw [authorize] at h
  cases hclaims : request.claims with
  | error reason =>
      rw [inspect, hclaims] at h
      cases h
  | ok claims =>
      by_cases hlength : claims.length = request.witnesses.length
      · rw [inspect_of_length_eq hclaims hlength] at h
        obtain ⟨w, witnesses, hwitnesses⟩ := List.exists_cons_of_ne_nil hne
        rw [hwitnesses] at h hlength
        obtain ⟨claim, claims, rfl⟩ := List.exists_cons_of_length_eq_add_one hlength
        rw [List.zip_cons_cons] at h
        cases ho : a.objection? request 0 claim w with
        | none => exact ⟨claim, w, ho⟩
        | some o =>
            rw [(examineAll_cons_of_some ho _).1] at h
            cases h
      · rw [inspect, hclaims] at h
        dsimp only at h
        rw [if_pos hlength] at h
        cases h

/-- What the engine of a witness shows that nothing is wrong with. -/
theorem engine_of_unobjected {a : Authorizer ε} {request : Request} {index : Nat}
    {claim : ScriptHash} {w : Witness} (h : a.objection? request index claim w = none) :
    a.evaluator.depth (a.run request index w) = 1 ∧
      a.evaluator.result (a.run request index w) = true := by
  rw [objection?, List.find?_eq_none] at h
  simp only [objections, List.forall_mem_cons] at h
  obtain ⟨-, -, -, hdepth, hresult, -⟩ := h
  rw [run_eq]
  constructor
  · simpa using hdepth
  · simpa using hresult

/-- Asking about the first `i` pairs is asking about the first `i` witnesses. -/
private theorem flatMap_take_zip {claims : List ScriptHash} {witnesses : List Witness}
    (h : claims.length = witnesses.length) (i : Nat) :
    ((claims.zip witnesses).take i).flatMap (fun pair => questions pair.2)
      = (witnesses.take i).flatMap questions := by
  rw [← List.flatMap_map Prod.snd questions, List.map_take,
    List.map_snd_zip (Nat.le_of_eq h.symm)]

/-- The witnesses in front of a place are passed over if there is no objection to any of them. What
stands there and behind decides. -/
theorem inspect_of_unobjected {a : Authorizer ε} {request : Request} {claims : List ScriptHash}
    (hclaims : request.claims = .ok claims) (hlength : claims.length = request.witnesses.length)
    {i : Nat} (hi : i ≤ claims.length)
    (h : ∀ j < i, ∀ claim w, claims[j]? = some claim → request.witnesses[j]? = some w →
      a.objection? request j claim w = none) :
    let others := a.examineAll request i ((claims.zip request.witnesses).drop i)
    a.authorize request = others.decision ∧
      (a.inspect request).calls
        = (request.witnesses.take i).flatMap questions ++ others.calls := by
  intro others
  have hpairs : ∀ j claim w, ((claims.zip request.witnesses).take i)[j]? = some (claim, w) →
      a.objection? request (0 + j) claim w = none := by
    intro j claim w hj
    rw [List.getElem?_take] at hj
    split at hj
    · next hlt =>
        obtain ⟨hclaim, hw⟩ := List.getElem?_zip_eq_some.mp hj
        rw [Nat.zero_add]
        exact h j hlt claim w hclaim hw
    · cases hj
  have hcount : 0 + ((claims.zip request.witnesses).take i).length = i := by
    rw [List.length_take, List.length_zip]
    omega
  obtain ⟨hdecision, hcalls⟩ := examineAll_append a request 0 _
    ((claims.zip request.witnesses).drop i) hpairs
  rw [List.take_append_drop, hcount] at hdecision hcalls
  rw [authorize, inspect_of_length_eq hclaims hlength, hdecision, hcalls, flatMap_take_zip hlength]
  exact ⟨rfl, rfl⟩

/-- The protocol of an authorization, for any evaluator.

* Without claims, or with another number of witnesses than claims, nothing is asked.
* If there is no objection to any witness, the answer is yes and all is asked about each.
* Else the first witness that there is an objection to decides, by the first objection to it. All
  is asked about the witnesses before it, and about itself what is asked until the objection is
  raised.
* The answer no is never given. -/
theorem inspect_by_first_objection (a : Authorizer ε) (request : Request) :
    (∀ reason, request.claims = .error reason →
      a.inspect request = ⟨.error (.claimsUnavailable reason), [], []⟩) ∧
    (∀ claims, request.claims = .ok claims → claims.length ≠ request.witnesses.length →
      a.inspect request
        = ⟨.error (.countMismatch claims.length request.witnesses.length), [], []⟩) ∧
    (∀ claims, request.claims = .ok claims → claims.length = request.witnesses.length →
      (∀ i claim w, claims[i]? = some claim → request.witnesses[i]? = some w →
        a.objection? request i claim w = none) →
      a.authorize request = .ok true ∧
        (a.inspect request).calls = request.witnesses.flatMap questions) ∧
    (∀ claims, request.claims = .ok claims → claims.length = request.witnesses.length →
      ∀ i claim w o, claims[i]? = some claim → request.witnesses[i]? = some w →
        a.objection? request i claim w = some o →
        (∀ j < i, ∀ claim w, claims[j]? = some claim → request.witnesses[j]? = some w →
          a.objection? request j claim w = none) →
        a.authorize request = .error o.refusal ∧
          (a.inspect request).calls
            = (request.witnesses.take i).flatMap questions ++ (questions w).take o.asked) ∧
    a.authorize request ≠ .ok false := by
  refine ⟨?_, ?_, ?_, ?_, ?_⟩
  · intro reason hclaims
    rw [inspect, hclaims]
  · intro claims hclaims hlength
    rw [inspect, hclaims]
    exact if_pos hlength
  · intro claims hclaims hlength hnone
    obtain ⟨hdecision, hcalls⟩ := inspect_of_unobjected hclaims hlength (Nat.le_refl _)
      fun j _ => hnone j
    have hnothing : (claims.zip request.witnesses).drop claims.length = [] :=
      List.drop_of_length_le (by rw [List.length_zip]; omega)
    have hall : request.witnesses.take claims.length = request.witnesses :=
      List.take_of_length_le (Nat.le_of_eq hlength.symm)
    rw [hnothing] at hdecision hcalls
    rw [hall] at hcalls
    exact ⟨hdecision, hcalls.trans (List.append_nil _)⟩
  · intro claims hclaims hlength i claim w o hclaim hw ho hbefore
    have hi : i ≤ claims.length := Nat.le_of_lt (List.getElem?_eq_some_iff.mp hclaim).1
    have hpair : (claims.zip request.witnesses)[i]? = some (claim, w) :=
      List.getElem?_zip_eq_some.mpr ⟨hclaim, hw⟩
    have hfirst : (claims.zip request.witnesses).drop i
        = (claim, w) :: (claims.zip request.witnesses).drop (i + 1) := by
      obtain ⟨hbound, hget⟩ := List.getElem?_eq_some_iff.mp hpair
      rw [List.drop_eq_getElem_cons hbound, hget]
    obtain ⟨hdecision, hcalls⟩ := inspect_of_unobjected hclaims hlength hi hbefore
    obtain ⟨hrefused, hasked⟩ := examineAll_cons_of_some ho
      ((claims.zip request.witnesses).drop (i + 1))
    rw [hfirst, hrefused] at hdecision
    rw [hfirst, hasked] at hcalls
    exact ⟨hdecision, hcalls⟩
  · exact a.authorize_ne_false request

/-- Engines that are the record of what was done to them, and of which only one does not halt: it is
the one that was made, was given the code of the second witness, then its parameter, and executed
them. So the second of three witnesses decides, and the third is not asked about. -/
theorem inspect_by_first_objection_of_second :
    let stuck : List EvaluatorCall :=
      [.create, .load [0x52] .code, .load [0x53] .parameter, .execute]
    let evaluator : Evaluator (List EvaluatorCall) :=
      { create := fun _ _ _ _ => [.create]
        load := fun done script role => done ++ [.load script role]
        execute := fun done => done ++ [.execute]
        phase := fun done =>
          if done = stuck then .aborted
          else if done.getLast? = some .execute then .halted
          else .running
        depth := fun done => done.length - 3
        result := fun done => done.contains (.load [0x51] .code) }
    let a : Authorizer (List EvaluatorCall) :=
      { evaluator, scheme := ⟨fun _ _ _ => .ok ()⟩ }
    let first : Witness := ⟨[0x51], []⟩
    let second : Witness := ⟨[0x52], [0x53]⟩
    let request := (Envelope.ofWitnesses [] [first, second, first]).toRequest
    a.authorize request = .error (.notHalted 1 .aborted) ∧
      (a.inspect request).calls
        = questions first ++ [.create, .load [0x52] .code, .load [0x53] .parameter, .execute,
          .phase] := by
  intro stuck evaluator a first second request
  have hclaims : request.claims = .ok (request.witnesses.map fun w => ScriptHash.ofScript w.code) :=
    rfl
  have hfirst : a.objection? request 0 (ScriptHash.ofScript first.code) first = none := by
    simp [objection?, objections, a, evaluator, stuck, first]
  have hsecond : a.objection? request 1 (ScriptHash.ofScript second.code) second
      = some ⟨true, .notHalted 1 .aborted, 5⟩ := by
    simp [objection?, objections, a, evaluator, stuck, second]
  have h := (inspect_by_first_objection a request).2.2.2.1 _ hclaims (List.length_map _) 1 _ second
    _ rfl rfl hsecond
  refine h fun j hj claim w hclaim hw => ?_
  have hzero : j = 0 := by omega
  subst hzero
  cases hw
  cases hclaim
  exact hfirst

end Countersign.Authorizer
