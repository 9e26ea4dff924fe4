import Countersign.Proofs.Machine.Life
import Countersign.Proofs.Machine.Repertoire

/-!
# `Countersign.Proofs.Machine.Capacity`: how much a stack can hold

Two limits bound the memory of a run: how many items the stack may hold, and how many bytes an item
may have. Both are looked at by the one move that puts an item on the stack, so every move keeps
them (`Move.withinLimits_leaves`), and with it every plan, at whatever point of a run
(`Machine.withinLimits_of_mem_points`). It takes no assumption on the limits, which may be zero.

`Fault.OfPush` are the faults of that one move. Taking items off the stack never ends with one of
them (`Plan.not_ofPush_of_taking`).
-/

set_option autoImplicit false

namespace Countersign

/-- The stack holds no more items than the limits allow, and none of them has more bytes. -/
structure Bench.WithinLimits (limits : Limits) (b : Bench) : Prop where
  depth : b.stack.depth ≤ limits.maxStackSize.toNat
  size : ∀ item ∈ b.stack.items, item.length ≤ limits.maxItemSize.toNat

/-- An empty stack is within any limits. -/
theorem Bench.withinLimits_fresh (limits : Limits) : Bench.fresh.WithinLimits limits :=
  ⟨Nat.zero_le _, fun _ hitem => absurd hitem List.not_mem_nil⟩

/-- What is left of a stack within the limits when its top item is gone is within them too. -/
theorem Bench.WithinLimits.withItems {limits : Limits} {b : Bench} {item : Bytes}
    {items : List Bytes} (h : b.WithinLimits limits) (hitems : b.stack.items = item :: items) :
    (b.withItems items).WithinLimits limits := by
  constructor
  · have hdepth := h.depth
    rw [Bench.depth_of_cons hitems] at hdepth
    exact Nat.le_of_succ_le hdepth
  · intro other hother
    apply h.size
    rw [hitems]
    exact List.mem_cons_of_mem item hother

/-- No move brings a stack out of its limits, whether it answers or refuses. -/
theorem Move.withinLimits_leaves {α : Type} (m : Move α) {setting : Setting} {b : Bench}
    (h : b.WithinLimits setting.limits) :
    ((m.act setting).leaves b).WithinLimits setting.limits := by
  rcases answers_or_refuses setting m b with ⟨answer, b', hm⟩ | ⟨fault, b', hm⟩
  · rw [Act.leaves_of_ok (act_of_answers hm)]
    cases hm with
    | push hsize hdepth =>
        -- The one move that adds to a stack has looked at both limits before.
        refine ⟨hdepth, ?_⟩
        intro item hitem
        rcases List.mem_cons.mp hitem with rfl | hitem
        · exact hsize
        · exact h.size item hitem
    | pop hitems => exact h.withItems hitems
    | tick _ | digestFirst _ | ask => exact ⟨h.depth, h.size⟩
    | peek _ | allow _ _ | digestAgain _ => exact h
  · rw [Act.leaves_of_error (act_of_refuses hm)]
    cases hm with
    | tick _ => exact ⟨h.depth, h.size⟩
    | _ => exact h

/-- A fault that comes only of putting an item on the stack. -/
def Fault.OfPush : Fault → Prop
  | .itemTooLarge _ _ | .stackOverflow _ => True
  | .stepLimit _ | .stackUnderflow _ | .truncatedPush _ | .nonPushParameter _ | .unknownOpcode _
  | .invalidKeyCount _ _ | .invalidThreshold _ _ => False

/-- No mistake in a script is a fault of putting an item on the stack. -/
theorem Mistake.not_ofPush (mistake : Mistake) : ¬ mistake.fault.OfPush := by
  cases mistake <;> exact id

section
variable {α : Type} {setting : Setting} {b : Bench}

/-- What puts nothing on the stack does not fault for want of room. -/
theorem Plan.not_ofPush_of_taking {x : Plan α} {post : α → Prop} (hx : Uses Move.Taking x post)
    {fault : Fault} {b' : Bench} (h : x.act setting b = .error fault b') : ¬ fault.OfPush := by
  induction x generalizing b with
  | done answer => cases h
  | giveUp mistake =>
      cases h
      exact mistake.not_ofPush
  | move m rest ih =>
      rw [act, Act.bind_eq_error_iff] at h
      rcases h with hm | ⟨answer, b₁, -, hrest⟩
      · cases Move.act_eq_error_iff.mp hm with
        | pop _ | peek _ | allow _ => exact id
        | tick _ | pushLarge _ | pushFull _ _ => exact hx.1.elim
      · exact ih answer (hx.2 answer) hrest

/-- A stack that is within its limits is so at every point of a plan. -/
theorem Plan.withinLimits_of_mem_points (x : Plan α) (h : b.WithinLimits setting.limits) :
    ∀ p ∈ x.points setting b, p.WithinLimits setting.limits :=
  (uses_any x).forall_points _ (fun {_ m _} _ => m.withinLimits_leaves) h

/-- A plan leaves the stack within its limits. -/
theorem Plan.withinLimits_leaves (x : Plan α) (h : b.WithinLimits setting.limits) :
    ((x.act setting).leaves b).WithinLimits setting.limits :=
  x.withinLimits_of_mem_points h _ (List.mem_of_getLast? (getLast?_points setting x b))

/-- An instruction leaves the stack within its limits. -/
theorem Act.withinLimits_instruction (h : b.WithinLimits setting.limits) (role : Role)
    (offset : Nat) (op : UInt8) (following : Bytes) :
    ((instruction setting role offset op following).leaves b).WithinLimits setting.limits := by
  rw [← Plan.act_instruction]
  exact Plan.withinLimits_leaves _ h

end

namespace Machine

variable (setting : Setting) (commands : List Command)

/-- Whatever a machine is made to load and to execute, its stack is within its limits at every point
of its run. -/
theorem withinLimits_of_mem_points : ∀ p ∈ ((Machine.new setting).after commands).points,
    p.WithinLimits setting.limits := by
  refine points_after_of_runs (Bench.withinLimits_fresh _) ?_ (fun _ => id)
    (fun segments _ h => (Plan.runSegments segments).withinLimits_of_mem_points h) commands
  intro segments b h
  rw [← Plan.act_runSegments]
  exact Plan.withinLimits_leaves _ h

/-- What a machine was made to load and to execute has left its stack within its limits. -/
theorem withinLimits_after :
    ((Machine.new setting).after commands).bench.WithinLimits setting.limits :=
  withinLimits_of_mem_points setting commands _
    (List.mem_of_head? (head?_points_machine ((Machine.new setting).after commands)))

end Machine

end Countersign
