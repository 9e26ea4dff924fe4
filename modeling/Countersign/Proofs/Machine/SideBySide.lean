import Countersign.Proofs.Machine.Checking
import Countersign.Proofs.Machine.Life

/-!
# `Countersign.Proofs.Machine.SideBySide`: two machines that get the same answers

Two machines may have different bodies and different schemes. As long as the one scheme accepts
about the one body what the other accepts about the other, they get the same answers to the same
questions, and nothing else that a scheme or a body is reaches a machine. So they go through the
same states, but for the digest that they ask about. `Alike` is this relation, on what was asked, on
benches, on ends of runs and on machines.

A plan and its counterpart `Plan.Alike` lead from alike benches to alike ends (`Plan.Alike.ends`),
and any commands lead from alike machines to alike machines (`Machine.Alike.after`).
-/

set_option autoImplicit false

namespace Countersign

/-- Two settings with the same limits, whose schemes accept the same signatures, each about the body
of its own setting. -/
structure Setting.Alike (setting setting' : Setting) : Prop where
  limits : setting.limits = setting'.limits
  accepts : ∀ publicKey signature,
    setting.scheme.accepts publicKey (Sha256.digest setting.body) signature
      = setting'.scheme.accepts publicKey (Sha256.digest setting'.body) signature

/-- A question and its answer, the digest left aside. -/
def SignatureCall.undigested (call : SignatureCall) : Bytes × Bytes × Bool :=
  (call.publicKey, call.signature, call.accepted)

/-- The same was asked, once about `d` and once about `d'`. -/
structure Asked.Alike (d d' : Bytes) (k k' : Asked) : Prop where
  digest : k.digest = none ∧ k'.digest = none ∨ k.digest = some d ∧ k'.digest = some d'
  bodyReads : k.bodyReads = k'.bodyReads
  calls : k.calls.map SignatureCall.undigested = k'.calls.map SignatureCall.undigested

structure Bench.Alike (d d' : Bytes) (b b' : Bench) : Prop where
  stack : b.stack = b'.stack
  steps : b.steps = b'.steps
  asked : b.asked.Alike d d' b'.asked

/-- Two runs begin alike. -/
theorem Bench.alike_fresh (d d' : Bytes) : Bench.fresh.Alike d d' Bench.fresh :=
  ⟨rfl, rfl, .inl ⟨rfl, rfl⟩, rfl, rfl⟩

/-- Two runs end in the same way, with the same answer or with the same fault. -/
inductive AlikeEnds {α : Type} (d d' : Bytes) :
    EStateM.Result Fault Bench α → EStateM.Result Fault Bench α → Prop
  | ok (answer : α) {b b' : Bench} : b.Alike d d' b' → AlikeEnds d d' (.ok answer b) (.ok answer b')
  | error (fault : Fault) {b b' : Bench} : b.Alike d d' b' →
      AlikeEnds d d' (.error fault b) (.error fault b')

/-- If two acts come to alike ends, and so does what follows them, both together do. -/
theorem AlikeEnds.bind {α β : Type} {d d' : Bytes} {x x' : Act α} {f f' : α → Act β} {b b' : Bench}
    (hx : AlikeEnds d d' (x b) (x' b')) (hf : ∀ answer {b₁ b₁' : Bench}, b₁.Alike d d' b₁' →
      AlikeEnds d d' (f answer b₁) (f' answer b₁')) :
    AlikeEnds d d' ((x >>= f) b) ((x' >>= f') b') := by
  generalize hend : x b = r at hx
  generalize hend' : x' b' = r' at hx
  cases hx with
  | ok answer halike =>
      rw [Act.bind_of_ok hend, Act.bind_of_ok hend']
      exact hf answer halike
  | error fault halike =>
      rw [Act.bind_of_error hend, Act.bind_of_error hend']
      exact .error fault halike

/-! ### Moves -/

section
variable {limits : Limits} {scheme scheme' : SignatureScheme} {body body' : Bytes} {d d' : Bytes}
  {α : Type} {m : Move α} {b b₁ b' : Bench}

/-- A quiet move looks at the limits, the stack and the steps, which are the same. -/
theorem Move.Answers.alike {answer : α} (h : m.Answers ⟨limits, scheme, body⟩ b answer b₁)
    (hm : m.Quiet) (hb : b.Alike d d' b') :
    ∃ b₁', m.Answers ⟨limits, scheme', body'⟩ b' answer b₁' ∧ b₁.Alike d d' b₁' := by
  obtain ⟨hstack, hsteps, hasked⟩ := hb
  cases h with
  | tick hlt =>
      exact ⟨_, .tick (hsteps ▸ hlt), hstack, congrArg Nat.succ hsteps, hasked⟩
  | @push _ item hsize hdepth =>
      exact ⟨_, .push hsize (hstack ▸ hdepth), congrArg (fun s => s.push item) hstack, hsteps,
        hasked⟩
  | pop hitems => exact ⟨_, .pop (hstack ▸ hitems), rfl, hsteps, hasked⟩
  | peek hitems => exact ⟨_, .peek (hstack ▸ hitems), hstack, hsteps, hasked⟩
  | allow hpos hle => exact ⟨_, .allow hpos hle, hstack, hsteps, hasked⟩
  | digestFirst _ | digestAgain _ | ask => exact hm.elim

/-- What is refused on one bench is refused for the same reason on the other. -/
theorem Move.Refuses.alike {fault : Fault} (h : m.Refuses ⟨limits, scheme, body⟩ b fault b₁)
    (hb : b.Alike d d' b') :
    ∃ b₁', m.Refuses ⟨limits, scheme', body'⟩ b' fault b₁' ∧ b₁.Alike d d' b₁' := by
  have hsteps := hb.steps
  have hstack := hb.stack
  -- A reason is about the limits, the stack or the steps, which are the same.
  cases h with
  | tick hle => exact ⟨_, .tick (hsteps ▸ hle), hstack, congrArg Nat.succ hsteps, hb.asked⟩
  | pushLarge hlarge => exact ⟨_, .pushLarge hlarge, hb⟩
  | pushFull hsize hfull => exact ⟨_, .pushFull hsize (hstack ▸ hfull), hb⟩
  | pop hitems => exact ⟨_, .pop (hstack ▸ hitems), hb⟩
  | peek hitems => exact ⟨_, .peek (hstack ▸ hitems), hb⟩
  | allow hrefused => exact ⟨_, .allow hrefused, hb⟩

end

section
variable {setting setting' : Setting} (hsetting : setting.Alike setting') {d d' : Bytes}
  {b b' : Bench} (hb : b.Alike d d' b')

include hsetting hb

/-- A quiet move comes to alike ends on benches that are alike. -/
theorem Move.ends_of_quiet {α : Type} {m : Move α} (hm : m.Quiet) :
    AlikeEnds d d' (m.act setting b) (m.act setting' b') := by
  obtain ⟨limits, scheme, body⟩ := setting
  obtain ⟨limits', scheme', body'⟩ := setting'
  obtain rfl : limits = limits' := hsetting.limits
  rcases answers_or_refuses ⟨limits, scheme, body⟩ m b with ⟨answer, b₁, h⟩ | ⟨fault, b₁, h⟩
  · obtain ⟨b₁', h', hb₁⟩ : ∃ b₁', m.Answers ⟨limits, scheme', body'⟩ b' answer b₁' ∧ _ :=
      h.alike hm hb
    rw [act_of_answers h, act_of_answers h']
    exact .ok answer hb₁
  · obtain ⟨b₁', h', hb₁⟩ : ∃ b₁', m.Refuses ⟨limits, scheme', body'⟩ b' fault b₁' ∧ _ :=
      h.alike hb
    rw [act_of_refuses h, act_of_refuses h']
    exact .error fault hb₁

end

section
variable {setting setting' : Setting} {b b' : Bench}
  (hb : b.Alike (Sha256.digest setting.body) (Sha256.digest setting'.body) b')

include hb

/-- Each machine gets the digest of its own body, and the body is read by both or by neither. -/
theorem Move.digest_of_alike :
    ∃ b₁ b₁', Move.digest.act setting b = .ok (Sha256.digest setting.body) b₁ ∧
      Move.digest.act setting' b' = .ok (Sha256.digest setting'.body) b₁' ∧
      b₁.Alike (Sha256.digest setting.body) (Sha256.digest setting'.body) b₁' := by
  obtain ⟨hstack, hsteps, hdigest, hreads, hcalls⟩ := hb
  rcases hdigest with ⟨hnone, hnone'⟩ | ⟨hsome, hsome'⟩
  · exact ⟨_, _, act_of_answers (.digestFirst hnone), act_of_answers (.digestFirst hnone'), hstack,
      hsteps, .inr ⟨rfl, rfl⟩, congrArg Nat.succ hreads, hcalls⟩
  · exact ⟨_, _, act_of_answers (.digestAgain hsome), act_of_answers (.digestAgain hsome'), hstack,
      hsteps, .inr ⟨hsome, hsome'⟩, hreads, hcalls⟩

/-- A question gets the same answer from both schemes, each about its own digest. -/
theorem Move.ask_of_alike (hsetting : setting.Alike setting') (publicKey signature : Bytes) :
    ∃ accepted b₁ b₁',
      (Move.ask publicKey (Sha256.digest setting.body) signature).act setting b
        = .ok accepted b₁ ∧
      (Move.ask publicKey (Sha256.digest setting'.body) signature).act setting' b'
        = .ok accepted b₁' ∧
      b₁.Alike (Sha256.digest setting.body) (Sha256.digest setting'.body) b₁' := by
  obtain ⟨hstack, hsteps, hdigest, hreads, hcalls⟩ := hb
  have hanswers :
      (Move.ask publicKey (Sha256.digest setting'.body) signature).act setting' b' = _ :=
    act_of_answers .ask
  rw [← hsetting.accepts] at hanswers
  refine ⟨_, _, _, act_of_answers .ask, hanswers, hstack, hsteps, hdigest, hreads, ?_⟩
  show List.map _ (_ :: b.calls) = List.map _ (_ :: b'.calls)
  rw [List.map_cons, List.map_cons]
  exact congrArg (List.cons _) hcalls

/-! ### Runs -/

/-- From alike benches a plan and its counterpart come to alike ends. -/
theorem Plan.Alike.ends {α : Type} {stage : Stage} {x x' : Plan α}
    (h : Alike (Sha256.digest setting.body) (Sha256.digest setting'.body) stage x x')
    (hsetting : setting.Alike setting') :
    AlikeEnds (Sha256.digest setting.body) (Sha256.digest setting'.body) (x.act setting b)
      (x'.act setting' b') := by
  induction h generalizing b b' with
  | done answer _ => exact .ok answer hb
  | giveUp mistake _ => exact .error mistake.fault hb
  | quiet _ hm _ ih =>
      rw [act, act]
      refine (Move.ends_of_quiet hsetting hb hm).bind ?_
      intro answer b₁ b₁' hb₁
      exact ih answer hb₁
  | digest _ _ ih =>
      obtain ⟨b₁, b₁', hanswers, hanswers', hb₁⟩ := Move.digest_of_alike hb
      rw [act, act, Act.bind_of_ok hanswers, Act.bind_of_ok hanswers']
      exact ih hb₁
  | @ask stage publicKey signature rest rest' _ _ ih =>
      -- The one point where the schemes come in: they give the same answer.
      obtain ⟨accepted, b₁, b₁', hanswers, hanswers', hb₁⟩ :=
        Move.ask_of_alike hb hsetting publicKey signature
      rw [act, act, Act.bind_of_ok hanswers, Act.bind_of_ok hanswers']
      exact ih accepted hb₁

end

/-! ### Machines -/

/-- Two machines that have loaded the same and have come equally far. -/
structure Machine.Alike (m m' : Machine) : Prop where
  setting : m.setting.Alike m'.setting
  segments : m.segments = m'.segments
  phase : m.phase = m'.phase
  fault : m.fault = m'.fault
  bench : m.bench.Alike (Sha256.digest m.setting.body) (Sha256.digest m'.setting.body) m'.bench

namespace Machine

variable {m m' : Machine}

/-- Machines with settings that are alike begin alike. -/
theorem alike_new {setting setting' : Setting} (h : setting.Alike setting') :
    (Machine.new setting).Alike (Machine.new setting') :=
  ⟨h, rfl, rfl, rfl, Bench.alike_fresh _ _⟩

/-- Segment by segment, two machines that are alike come to alike ends, and the same segments are
left. -/
theorem Alike.runAll (h : m.Alike m') (segments : List Segment) :
    (m.runAll segments).Alike (m'.runAll segments) := by
  induction segments generalizing m m' with
  | nil => exact ⟨h.setting, rfl, rfl, h.fault, h.bench⟩
  | cons segment segments ih =>
      have hends :=
        (Plan.alike_runFrom segment.role 0 segment.script).ends h.bench h.setting
      rw [Plan.act_runFrom, Plan.act_runFrom] at hends
      rw [Machine.runAll, Machine.runAll, Act.runSegment, Act.runSegment]
      generalize Act.runFrom m.setting segment.role 0 segment.script m.bench = r at hends
      generalize Act.runFrom m'.setting segment.role 0 segment.script m'.bench = r' at hends
      cases hends with
      | ok answer hb =>
          -- What is loaded is not looked at before the row has come to its end.
          exact ih ⟨h.setting, h.segments, h.phase, h.fault, hb⟩
      | error fault hb => exact ⟨h.setting, rfl, rfl, rfl, hb⟩

/-- Machines that are alike are alike after a run, if they run at all. -/
theorem Alike.execute (h : m.Alike m') : m.execute.Alike m'.execute := by
  by_cases hrunning : m.phase = .running
  · have hrunning' : m'.phase = .running := h.phase ▸ hrunning
    rw [Machine.execute, Machine.execute, hrunning, hrunning', ← h.segments]
    exact h.runAll m.segments
  · -- Neither of them does anything.
    have hrunning' : m'.phase ≠ .running := h.phase ▸ hrunning
    rw [execute_of_ne_running hrunning, execute_of_ne_running hrunning']
    exact h

/-- What two machines are made to do next leaves them alike. -/
theorem Alike.obey (h : m.Alike m') (command : Command) :
    (m.obey command).Alike (m'.obey command) := by
  cases command with
  | load script role =>
      have hsegments : ⟨script, role⟩ :: m.segments = ⟨script, role⟩ :: m'.segments :=
        congrArg (List.cons _) h.segments
      exact ⟨h.setting, hsegments, h.phase, h.fault, h.bench⟩
  | execute => exact h.execute

/-- Whatever the machines are made to load and to execute, they stay alike. -/
theorem Alike.after (h : m.Alike m') (commands : List Command) :
    (m.after commands).Alike (m'.after commands) := by
  induction commands using List.reverseRecOn with
  | nil => exact h
  | append_singleton commands command ih =>
      rw [after_concat, after_concat]
      exact ih.obey command

/-- Machines that are alike have equally many items on their stacks. -/
theorem Alike.depth (h : m.Alike m') : m.depth = m'.depth := by
  rw [Machine.depth, Machine.depth, h.bench.stack]

/-- They come to the same result. -/
theorem Alike.result (h : m.Alike m') : m.result = m'.result := by
  rw [Machine.result, Machine.result, h.bench.stack]

/-- They have asked the same, the digest left aside. -/
theorem Alike.signatureCalls (h : m.Alike m') :
    m.signatureCalls.map SignatureCall.undigested
      = m'.signatureCalls.map SignatureCall.undigested := by
  have hcalls : m.bench.calls.map SignatureCall.undigested = _ := h.bench.asked.calls
  rw [Machine.signatureCalls, Machine.signatureCalls, List.map_reverse, List.map_reverse, hcalls]
  rfl

end Machine

end Countersign
