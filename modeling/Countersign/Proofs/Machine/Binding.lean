import Countersign.Proofs.Machine.Checking
import Countersign.Proofs.Machine.Life

/-!
# `Countersign.Proofs.Machine.Binding`: every question is about the body

A machine keeps the digest of its body once it has taken it, so the body is read at most once, and a
body that is never asked about is never read. `Asked.Bound` is the invariant. It comes with the
`Stage` of a check, since between taking the digest and asking the first question the body has been
read without anything having been asked. `Plan.Alike.bound` keeps it along a run, and
`Machine.bound_after` over rows of commands.
-/

set_option autoImplicit false

namespace Countersign

/-- What was asked is bound to the digest `d`: all questions were about it, and it was taken once if
it was needed. -/
inductive Asked.Bound (d : Bytes) : Stage → Asked → Prop
  | untouched : Bound d .idle ⟨none, 0, []⟩
  | informed {calls : List SignatureCall} : (∀ call ∈ calls, call.digest = d) →
      Bound d .informed ⟨some d, 1, calls⟩
  | asked {stage : Stage} {calls : List SignatureCall} : calls ≠ [] →
      (∀ call ∈ calls, call.digest = d) → Bound d stage ⟨some d, 1, calls⟩

namespace Asked.Bound

variable {d : Bytes} {stage : Stage} {k : Asked}

/-- Outside the time between taking the digest and asking, a check may as well be over. -/
theorem idle (h : Bound d stage k) (hstage : stage ≠ .informed) : Bound d .idle k := by
  cases h with
  | untouched => exact .untouched
  | informed _ => exact absurd rfl hstage
  | asked hne hcalls => exact .asked hne hcalls

/-- All questions were about the digest. -/
theorem digest_of_mem_calls (h : Bound d stage k) : ∀ call ∈ k.calls, call.digest = d := by
  cases h with
  | untouched => exact fun call hcall => absurd hcall List.not_mem_nil
  | informed hcalls | asked _ hcalls => exact hcalls

/-- The body was read at most once. -/
theorem bodyReads_le (h : Bound d stage k) : k.bodyReads ≤ 1 := by
  cases h with
  | untouched => exact Nat.zero_le 1
  | informed _ | asked _ _ => exact Nat.le_refl 1

/-- Where something was asked, the body was read. -/
theorem bodyReads_of_calls (h : Bound d stage k) (hcalls : k.calls ≠ []) : k.bodyReads = 1 := by
  cases h with
  | untouched => exact absurd rfl hcalls
  | informed _ | asked _ _ => rfl

/-- Where no check is going on, the body was read if and only if something was asked. -/
theorem bodyReads_eq (h : Bound d .idle k) : k.bodyReads = if k.calls = [] then 0 else 1 := by
  cases h with
  | untouched => rfl
  | asked hne _ => exact (if_neg hne).symm

end Asked.Bound

section
variable {setting : Setting} {b : Bench} {d : Bytes} {stage : Stage}

/-- Taking the digest gives the digest of the body, whether it was taken before or not. -/
theorem Move.digest_of_bound (hd : Sha256.digest setting.body = d) (h : b.asked.Bound d stage)
    (hstage : stage ≠ .informed) :
    ∃ b', Move.digest.act setting b = .ok d b' ∧ b'.asked.Bound d .informed := by
  -- The cases are on what was asked so far, of which the bench is a part.
  generalize hk : b.asked = k at h
  cases h with
  | untouched =>
      have hnone : b.digest = none := congrArg Asked.digest hk
      have hreads : b.bodyReads = 0 := congrArg Asked.bodyReads hk
      have hcalls : b.calls = [] := congrArg Asked.calls hk
      subst hd
      refine ⟨_, act_of_answers (.digestFirst hnone), ?_⟩
      show Asked.Bound _ .informed ⟨some _, b.bodyReads + 1, b.calls⟩
      rw [hreads, hcalls]
      exact .informed fun call hcall => absurd hcall List.not_mem_nil
  | informed _ => exact absurd rfl hstage
  | asked hne hcalls =>
      have hsome : b.digest = some d := congrArg Asked.digest hk
      refine ⟨b, act_of_answers (.digestAgain hsome), ?_⟩
      rw [hk]
      exact .informed hcalls

/-- A question about the digest keeps what was asked bound to it. -/
theorem Move.ask_of_bound (h : b.asked.Bound d stage) (hstage : stage ≠ .idle)
    (publicKey signature : Bytes) :
    ∃ accepted b', (Move.ask publicKey d signature).act setting b = .ok accepted b' ∧
      b'.asked.Bound d .asking := by
  refine ⟨_, _, act_of_answers .ask, ?_⟩
  show Asked.Bound d .asking ⟨b.digest, b.bodyReads, _ :: b.calls⟩
  generalize hk : b.asked = k at h
  cases h with
  | untouched => exact absurd rfl hstage
  | informed hcalls | asked _ hcalls =>
      have hsome : b.digest = some d := congrArg Asked.digest hk
      have hreads : b.bodyReads = 1 := congrArg Asked.bodyReads hk
      have hbefore : b.calls = _ := congrArg Asked.calls hk
      rw [hsome, hreads, hbefore]
      refine .asked (List.cons_ne_nil _ _) ?_
      intro call hcall
      rcases List.mem_cons.mp hcall with rfl | hcall
      · rfl
      · exact hcalls call hcall

/-- At every point of a run what was asked is bound to the digest of the body, and no run ends in
the middle of a check. -/
theorem Plan.Alike.bound {α : Type} {d' : Bytes} {x x' : Plan α} (h : Alike d d' stage x x')
    (hd : Sha256.digest setting.body = d) (hb : b.asked.Bound d stage) :
    (∀ p ∈ x.points setting b, ∃ stage, p.asked.Bound d stage) ∧
      ((x.act setting).leaves b).asked.Bound d .idle := by
  induction h generalizing b with
  | done answer hstage =>
      refine ⟨?_, hb.idle hstage⟩
      rw [points]
      exact List.forall_mem_singleton.mpr ⟨_, hb⟩
  | giveUp mistake hstage =>
      refine ⟨?_, hb.idle hstage⟩
      rw [points]
      exact List.forall_mem_singleton.mpr ⟨_, hb⟩
  | @quiet stage γ m rest rest' hstage hquiet _ ih =>
      -- The check is over if there was one, and whether the move succeeds is no matter.
      have hleaves := Move.asked_of_quiet hquiet setting b
      cases hm : m.act setting b with
      | ok answer b' =>
          rw [Act.leaves_of_ok hm] at hleaves
          have hb' : b'.asked.Bound d .idle := hleaves ▸ hb.idle hstage
          rw [points_move_of_ok hm, act, Act.leaves_bind_of_ok hm]
          obtain ⟨hpoints, hend⟩ := ih answer hb'
          exact ⟨List.forall_mem_cons.mpr ⟨⟨_, hb⟩, hpoints⟩, hend⟩
      | error fault b' =>
          rw [Act.leaves_of_error hm] at hleaves
          have hb' : b'.asked.Bound d .idle := hleaves ▸ hb.idle hstage
          rw [points_move_of_error hm, act, Act.leaves_bind_of_error hm]
          exact ⟨List.forall_mem_cons.mpr ⟨⟨_, hb⟩, List.forall_mem_singleton.mpr ⟨_, hb'⟩⟩, hb'⟩
  | digest hstage _ ih =>
      -- What the plan goes on with is known: it is the digest of the body.
      obtain ⟨b', hm, hb'⟩ := Move.digest_of_bound hd hb hstage
      rw [points_move_of_ok hm, act, Act.leaves_bind_of_ok hm]
      obtain ⟨hpoints, hend⟩ := ih hb'
      exact ⟨List.forall_mem_cons.mpr ⟨⟨_, hb⟩, hpoints⟩, hend⟩
  | @ask stage publicKey signature rest rest' hstage _ ih =>
      obtain ⟨accepted, b', hm, hb'⟩ := Move.ask_of_bound hb hstage publicKey signature
      rw [points_move_of_ok hm, act, Act.leaves_bind_of_ok hm]
      obtain ⟨hpoints, hend⟩ := ih accepted hb'
      exact ⟨List.forall_mem_cons.mpr ⟨⟨_, hb⟩, hpoints⟩, hend⟩

end

/-- The run of a machine asks about the digest of the body alone. -/
private theorem alike_self (setting : Setting) (segments : List Segment) :
    Plan.Alike (Sha256.digest setting.body) (Sha256.digest setting.body) .idle
      (Plan.runSegments segments) (Plan.runSegments segments) :=
  Plan.alike_runSegments segments

namespace Machine

/-- What a machine has asked is bound to the digest of its body. -/
def Bound (m : Machine) : Prop :=
  m.bench.asked.Bound (Sha256.digest m.setting.body) .idle

/-- All questions of a machine are about the digest of its body. -/
theorem Bound.digest_of_mem_signatureCalls {m : Machine} (h : m.Bound) :
    ∀ call ∈ m.signatureCalls, call.digest = Sha256.digest m.setting.body :=
  fun call hcall => h.digest_of_mem_calls call (List.mem_reverse.mp hcall)

/-- A machine has read its body if and only if it has asked something. -/
theorem Bound.bodyReads_eq {m : Machine} (h : m.Bound) :
    m.bench.bodyReads = if m.signatureCalls = [] then 0 else 1 := by
  have hreads : m.bench.bodyReads = if m.bench.calls = [] then 0 else 1 :=
    Asked.Bound.bodyReads_eq h
  simp only [hreads, signatureCalls, List.reverse_eq_nil_iff]

section
variable (setting : Setting) (commands : List Command)

/-- A run leaves what was asked bound to the digest of the body. -/
private theorem bound_leaves (segments : List Segment) (b : Bench)
    (hb : b.asked.Bound (Sha256.digest setting.body) .idle) :
    ((Act.runSegments setting segments).leaves b).asked.Bound (Sha256.digest setting.body)
      .idle := by
  rw [← Plan.act_runSegments]
  exact ((alike_self setting segments).bound rfl hb).2

/-- Whatever a machine was made to load and to execute. -/
theorem bound_after : ((Machine.new setting).after commands).Bound := by
  rw [Bound, setting_after]
  exact bench_after_of_runs .untouched (bound_leaves setting) commands

/-- What a machine has asked is bound to the digest of its body at every point of its run. -/
theorem bound_of_mem_points : ∀ p ∈ ((Machine.new setting).after commands).points,
    ∃ stage, p.asked.Bound (Sha256.digest setting.body) stage :=
  points_after_of_runs .untouched (bound_leaves setting) (fun _ hb => ⟨_, hb⟩)
    (fun segments _ hb => ((alike_self setting segments).bound rfl hb).1) commands

end

end Machine

end Countersign
