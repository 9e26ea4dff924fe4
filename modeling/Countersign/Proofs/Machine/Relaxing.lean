import Countersign.Proofs.Machine.Plan

/-!
# `Countersign.Proofs.Machine.Relaxing`: the same run under larger limits

Limits only ever stop a run. A move that answers under some limits does the same under larger ones
(`Move.Answers.of_le`), and a move that refuses for another reason than a limit refuses again
(`Move.Refuses.of_permanent`). As a plan has the same moves whatever the limits are, this carries
over to all plans: `Plan.act_of_ok_of_le` for runs that come to an end, `Plan.act_of_error_of_le`
for runs that meet a `Permanent` fault.
-/

set_option autoImplicit false

namespace Countersign

/-- Limits are at most others if each of them is. -/
instance : LE Limits :=
  ⟨fun limits limits' => ∀ k, limits.get k ≤ limits'.get k⟩

instance (limits limits' : Limits) : Decidable (limits ≤ limits') :=
  decidable_of_iff (∀ k ∈ Limit.all, limits.get k ≤ limits'.get k)
    ⟨fun h k => h k (by cases k <;> decide), fun h k _ => h k⟩

section
variable {limits limits' : Limits} (hle : limits ≤ limits')

include hle

/-- Larger limits allow at least as many steps. -/
theorem Limits.maxSteps_le : limits.maxSteps.toNat ≤ limits'.maxSteps.toNat :=
  UInt64.le_iff_toNat_le.mp (hle .steps)

/-- They allow a stack that is at least as large. -/
theorem Limits.maxStackSize_le : limits.maxStackSize.toNat ≤ limits'.maxStackSize.toNat :=
  UInt64.le_iff_toNat_le.mp (hle .stackSize)

/-- They allow items that are at least as large. -/
theorem Limits.maxItemSize_le : limits.maxItemSize.toNat ≤ limits'.maxItemSize.toNat :=
  UInt64.le_iff_toNat_le.mp (hle .itemSize)

/-- They allow at least as many keys in a multiple check. -/
theorem Limits.maxMultisigKeys_le :
    limits.maxMultisigKeys.toNat ≤ limits'.maxMultisigKeys.toNat :=
  UInt64.le_iff_toNat_le.mp (hle .multisigKeys)

end

/-- A fault that no larger limits would have prevented. -/
def Fault.Permanent : Fault → Prop
  | .stackUnderflow _ | .truncatedPush _ | .nonPushParameter _ | .unknownOpcode _
  | .invalidThreshold _ _ => True
  | .invalidKeyCount n _ => n < 1
  | .stepLimit _ | .stackOverflow _ | .itemTooLarge _ _ => False

/-- The fault as it is reported under these limits. Only a number of keys is reported with the
limit that it is compared with although the limit may not be to blame. -/
def Fault.under (limits : Limits) : Fault → Fault
  | .invalidKeyCount n _ => .invalidKeyCount n limits.maxMultisigKeys.toNat
  | fault => fault

/-- A mistake in the script is described without any limit. -/
theorem Mistake.under_fault (limits : Limits) (mistake : Mistake) :
    mistake.fault.under limits = mistake.fault := by
  cases mistake <;> rfl

section
variable {limits limits' : Limits} {scheme : SignatureScheme} {body : Bytes} {α : Type}

/-- A move that answers under some limits gives the same answer under larger ones. -/
theorem Move.Answers.of_le (hle : limits ≤ limits') {m : Move α} {b b' : Bench} {answer : α}
    (h : m.Answers ⟨limits, scheme, body⟩ b answer b') :
    m.Answers ⟨limits', scheme, body⟩ b answer b' := by
  cases h with
  | tick hlt => exact .tick (Nat.lt_of_lt_of_le hlt (Limits.maxSteps_le hle))
  | push hsize hdepth =>
      exact .push (Nat.le_trans hsize (Limits.maxItemSize_le hle))
        (Nat.lt_of_lt_of_le hdepth (Limits.maxStackSize_le hle))
  | pop hitems => exact .pop hitems
  | peek hitems => exact .peek hitems
  | allow hpos hkeys => exact .allow hpos (Nat.le_trans hkeys (Limits.maxMultisigKeys_le hle))
  | digestFirst hnone => exact .digestFirst hnone
  | digestAgain hsome => exact .digestAgain hsome
  | ask => exact .ask

/-- A move that refuses for a permanent fault looks at no limit. -/
theorem Move.Refuses.of_permanent {m : Move α} {b b' : Bench} {fault : Fault}
    (h : m.Refuses ⟨limits, scheme, body⟩ b fault b') (hfault : fault.Permanent)
    (limits' : Limits) : m.Refuses ⟨limits', scheme, body⟩ b (fault.under limits') b' := by
  cases h with
  | tick _ | pushLarge _ | pushFull _ _ => exact hfault.elim
  -- A number of keys is refused for its limit or for being below one. Only the latter is permanent.
  | pop hitems => exact .pop hitems
  | peek hitems => exact .peek hitems
  | allow _ => exact .allow (.inl hfault)

/-- A run that comes to an end ends in the same way under larger limits. -/
theorem Plan.act_of_ok_of_le (hle : limits ≤ limits') {x : Plan α} {b b' : Bench} {answer : α}
    (h : x.act ⟨limits, scheme, body⟩ b = .ok answer b') :
    x.act ⟨limits', scheme, body⟩ b = .ok answer b' := by
  induction x generalizing b with
  | done answer => exact h
  | giveUp mistake => cases h
  | move m rest ih =>
      rw [act, Act.bind_eq_ok_iff] at h
      obtain ⟨first, b₁, hm, hrest⟩ := h
      have hm' := Move.act_of_answers ((Move.act_eq_ok_iff.mp hm).of_le hle)
      rw [act, Act.bind_of_ok hm']
      exact ih first hrest

/-- A run that meets a permanent fault meets it again under larger limits, at the same place. -/
theorem Plan.act_of_error_of_le (hle : limits ≤ limits') {x : Plan α} {b b' : Bench} {fault : Fault}
    (h : x.act ⟨limits, scheme, body⟩ b = .error fault b') (hfault : fault.Permanent) :
    x.act ⟨limits', scheme, body⟩ b = .error (fault.under limits') b' := by
  induction x generalizing b with
  | done answer => cases h
  | giveUp mistake =>
      cases h
      rw [Mistake.under_fault]
      rfl
  | move m rest ih =>
      rw [act, Act.bind_eq_error_iff] at h
      rw [act]
      rcases h with hm | ⟨first, b₁, hm, hrest⟩
      · have hm' := (Move.act_eq_error_iff.mp hm).of_permanent hfault limits'
        exact Act.bind_of_error (Move.act_of_refuses hm')
      · have hm' := Move.act_of_answers ((Move.act_eq_ok_iff.mp hm).of_le hle)
        rw [Act.bind_of_ok hm']
        exact ih first hrest

end

end Countersign
