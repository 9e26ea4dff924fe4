import Countersign.Proofs.Machine.Answering
import Countersign.Proofs.Machine.OneRun
import Countersign.Proofs.Machine.Pushing
import Countersign.Proofs.Machine.Stepping

/-!
# `Countersign.Proofs.Machine.Oversize`: where an item can be too large

Items come from scripts, from the stack, or from checks. What a script spells out has no more bytes
than two bytes can count. What is on the stack was put there before, so it was small enough. And the
answer to a check has one byte at most. So `Act.itemTooLarge_of_instruction` leaves two kinds of
instructions that can find an item too large: a push, of no more than 65535 bytes, and a check,
where no item may have even one byte.

`Act.meets_of_runSegments_error` traces the fault of a run back to the instruction that met it, so
the same holds of runs (`Machine.itemTooLarge_of_fault`).
-/

set_option autoImplicit false

namespace Countersign

namespace Act

section
variable {setting : Setting} {b b' : Bench}

/-- What is found too large is the item that was to be pushed, and it is. -/
theorem itemTooLarge_of_push {limits : Limits} {item : Bytes} {length limit : Nat}
    (h : push limits item b = .error (.itemTooLarge length limit) b') :
    length = item.length ∧ limits.maxItemSize.toNat < length := by
  rcases Nat.lt_or_ge limits.maxItemSize.toNat item.length with hlarge | hsize
  · rw [push_of_tooLarge hlarge] at h
    cases h
    exact ⟨rfl, hlarge⟩
  · rcases Nat.lt_or_ge b.stack.depth limits.maxStackSize.toNat with hroom | hfull
    · rw [push_of_room hsize hroom] at h
      cases h
    · rw [push_of_full hsize hfull] at h
      cases h

/-- An item that lies on the stack can be pushed again, as far as its size goes. -/
theorem itemTooLarge_of_dup {op : UInt8} (hop : Operation.ofByte op = .dup)
    (hb : b.WithinLimits setting.limits) {offset : Nat} {following : Bytes} {length limit : Nat} :
    perform setting offset op following b ≠ .error (.itemTooLarge length limit) b' := by
  intro h
  rw [← Plan.act_perform, Plan.perform, hop] at h
  simp only [Plan.act_bind, Plan.act_ofMove, Move.act] at h
  cases hitems : b.stack.items with
  | nil =>
      rw [bind_of_error (peek_of_nil hitems)] at h
      cases h
  | cons item items =>
      rw [bind_of_ok (peek_of_cons hitems), bind_eq_error_iff] at h
      rcases h with hpush | ⟨_, _, -, hpure⟩
      · obtain ⟨rfl, hlarge⟩ := itemTooLarge_of_push hpush
        -- The copy is as long as the item, which was pushed under the same limits.
        have hsize : item.length ≤ setting.limits.maxItemSize.toNat := by
          apply hb.size
          simp [hitems]
        exact absurd hlarge (Nat.not_lt_of_le hsize)
      · cases hpure

/-- What is found too large by an instruction that pushes is what the script spells out. -/
theorem itemTooLarge_of_isPush {op : UInt8} (hop : isPush op = true) {offset : Nat}
    {following : Bytes} {length limit : Nat}
    (h : perform setting offset op following b = .error (.itemTooLarge length limit) b') :
    setting.limits.maxItemSize.toNat < length ∧ length ≤ 65535 := by
  rcases push_or_truncated hop following with
    ⟨tail, rest, item, rfl, hcode⟩ | ⟨place, htruncated⟩
  · rw [perform_push hcode, bind_eq_error_iff] at h
    rcases h with hpush | ⟨_, _, -, hpure⟩
    · obtain ⟨rfl, hlarge⟩ := itemTooLarge_of_push hpush
      exact ⟨hlarge, hcode.length_le⟩
    · cases hpure
  · rw [perform_truncated htruncated] at h
    cases h

/-- A check finds no room for an item only where items may have no bytes at all. -/
theorem maxItemSize_of_perform_check {offset : Nat} {op : UInt8} {following : Bytes}
    (hcheck : Operation.ofByte op = .checkSignature ∨ Operation.ofByte op = .checkMultisig)
    (hroom : b.stack.depth ≤ setting.limits.maxStackSize.toNat) {fault : Fault}
    (h : perform setting offset op following b = .error fault b') (hfault : fault.OfPush) :
    setting.limits.maxItemSize.toNat = 0 := by
  rcases error_of_perform_check hcheck hroom h with ⟨-, hother⟩ | ⟨-, hzero, -⟩
  · exact absurd hfault hother
  · exact hzero

/-- An instruction finds an item too large only if it is a push that spells it out, or a check where
items may have no bytes at all. -/
theorem itemTooLarge_of_instruction {role : Role} {offset : Nat} {op : UInt8} {following : Bytes}
    {length limit : Nat} (hb : b.WithinLimits setting.limits)
    (h : instruction setting role offset op following b = .error (.itemTooLarge length limit) b') :
    isPush op = true ∧ setting.limits.maxItemSize.toNat < length ∧ length ≤ 65535 ∨
      (Operation.ofByte op = .checkSignature ∨ Operation.ofByte op = .checkMultisig) ∧
        setting.limits.maxItemSize.toNat = 0 := by
  have hticked : b.ticked.WithinLimits setting.limits := ⟨hb.depth, hb.size⟩
  rcases error_of_instruction h with ⟨-, hfault, -⟩ | ⟨-, -, hfault, -⟩ | hperform
  · cases hfault
  · cases hfault
  · cases hpush : isPush op with
    | true => exact .inl ⟨rfl, itemTooLarge_of_isPush hpush hperform⟩
    | false =>
        have hop := isPush_eq_false_iff.mp hpush
        simp only [List.mem_cons, List.not_mem_nil, or_false] at hop
        rcases hop with hop | hop | hop | hop | hop | hop
        · rw [perform, hop] at hperform
          cases hperform
        · -- Dropping an item that is not there is another fault.
          rw [← Plan.act_perform, Plan.perform, hop] at hperform
          have htaking : Plan.Uses Move.Taking (do let _ ← Plan.ofMove (.pop op); return 0)
              fun _ : Nat => True :=
            (Plan.uses_ofMove trivial).bind fun _ _ => trivial
          exact absurd trivial (Plan.not_ofPush_of_taking htaking hperform)
        · exact absurd hperform (itemTooLarge_of_dup hop hticked)
        · refine .inr ⟨.inl hop, ?_⟩
          exact maxItemSize_of_perform_check (.inl hop) hticked.depth hperform trivial
        · refine .inr ⟨.inr hop, ?_⟩
          exact maxItemSize_of_perform_check (.inr hop) hticked.depth hperform trivial
        · rw [perform, hop] at hperform
          cases hperform

/-- The answer to a check is put on the stack, whatever it is, if an item may have a byte. -/
theorem not_ofPush_of_check {role : Role} {offset : Nat} {op : UInt8} {following : Bytes}
    (hcheck : Operation.ofByte op = .checkSignature ∨ Operation.ofByte op = .checkMultisig)
    (hb : b.WithinLimits setting.limits) (hsize : 1 ≤ setting.limits.maxItemSize.toNat)
    {fault : Fault} (h : instruction setting role offset op following b = .error fault b') :
    ¬ fault.OfPush := by
  rcases error_of_instruction h with ⟨-, rfl, -⟩ | ⟨-, -, rfl, -⟩ | hperform
  · exact id
  · exact id
  · intro hfault
    have hzero := maxItemSize_of_perform_check (b := b.ticked) hcheck hb.depth hperform hfault
    omega

end

/-! ### The fault of a run -/

/-- Some instruction meets this fault on a bench where `inv` holds. -/
def Meets (setting : Setting) (inv : Bench → Prop) (fault : Fault) : Prop :=
  ∃ role offset op following b b',
    inv b ∧ instruction setting role offset op following b = .error fault b'

section
variable {setting : Setting} {inv : Bench → Prop}
  (hkeeps : ∀ role offset op following b, inv b →
    inv ((instruction setting role offset op following).leaves b))

include hkeeps

/-- A run that faults does so in one of its instructions, on a bench with what every instruction
keeps. -/
theorem meets_of_runSegments_error {segments : List Segment} {b b' : Bench} {fault : Fault}
    (hb : inv b) (h : runSegments setting segments b = .error fault b') :
    Meets setting inv fault := by
  rw [← runRemainders_remainders] at h
  obtain ⟨n, i, b₁, ⟨left, hfirst, -⟩, -, hfaulted⟩ := exists_stopsAt h
  have hb₁ : inv b₁ := inv_of_firstInstructions hkeeps hb hfirst
  exact ⟨i.role, i.offset, i.op, i.following, b₁, b', hb₁, hfaulted⟩

end

end Act

namespace Machine

/-- The fault of a machine is that of one instruction, begun on a stack within its limits. -/
theorem meets_of_fault {setting : Setting} {commands : List Command} {fault : Fault}
    (h : ((Machine.new setting).after commands).fault = some fault) :
    Act.Meets setting (Bench.WithinLimits setting.limits) fault := by
  refine Act.meets_of_runSegments_error ?_ (Bench.withinLimits_fresh _) (runSegments_of_fault h)
  intro role offset op following b hb
  exact Act.withinLimits_instruction hb role offset op following

/-- No script can spell out an item that is too large if all that it can spell out is allowed. -/
theorem itemTooLarge_of_fault {setting : Setting} {commands : List Command} {length limit : Nat}
    (h : ((Machine.new setting).after commands).fault = some (.itemTooLarge length limit)) :
    setting.limits.maxItemSize.toNat < 65535 := by
  obtain ⟨role, offset, op, following, b, b', hb, hfault⟩ := meets_of_fault h
  rcases Act.itemTooLarge_of_instruction hb hfault with ⟨-, hlarge, hlength⟩ | ⟨-, hzero⟩
  · exact Nat.lt_of_lt_of_le hlarge hlength
  · rw [hzero]
    exact Nat.zero_lt_succ _

end Machine

end Countersign
