import Countersign.Proofs.Script.Number
import Countersign.Proofs.Script.Push

/-!
# `Countersign.Proofs.Script.Template`: what the standard scripts push

Every script of `Script/Template.lean` is a row of push instructions, with one more opcode behind
it in the scripts that guard an account. `singleKey_eq` and `multiKey_eq` say what is pushed
before that opcode. `exists_pushItems` and `exists_multiKey` say when a script can be written at
all.
-/

set_option autoImplicit false

namespace Countersign.Template

/-! ### Single pushes -/

/-- What is written to push an item is one instruction that pushes it. -/
theorem pushItem_pushInstruction {item code : Bytes} (h : pushItem item = .ok code) :
    PushInstruction code item := by
  rw [pushItem] at h
  -- The branches are the ways to say a length, from the shortest to none at all.
  split at h
  · rename_i hbytes
    cases h
    cases item with
    | nil => exact .empty
    | cons b bs => exact .bytes (by simp) hbytes
  · split at h
    · rename_i hcounted
      cases h
      exact .counted hcounted
    · split at h
      · rename_i hwide
        cases h
        exact .countedWide hwide
      · cases h

/-- Every item that two bytes can count can be pushed. -/
theorem exists_pushItem {item : Bytes} (h : item.length ≤ 65535) :
    ∃ code, pushItem item = .ok code := by
  rw [pushItem]
  split
  · exact ⟨_, rfl⟩
  · split
    · exact ⟨_, rfl⟩
    · exact ⟨_, rfl⟩

/-- The number comes onto the stack as `Number.encode` writes it. -/
theorem pushNumber_pushInstruction (n : UInt64) :
    PushInstruction (pushNumber n) (Number.encode n.toNat) := by
  have hlt := n.toNat_lt
  rw [pushNumber]
  by_cases hzero : n = 0
  · rw [if_pos hzero, hzero]
    show PushInstruction _ (Number.encode 0)
    rw [Number.encode_zero]
    exact .empty
  · have hpos : 0 < n.toNat := by
      rw [Nat.pos_iff_ne_zero, ← UInt64.toNat_zero]
      exact fun h => hzero (UInt64.toNat_inj.mp h)
    rw [if_neg hzero]
    by_cases hsmall : n ≤ 16
    · -- The opcode counts up from the one that pushes 1.
      have hle : n.toNat ≤ 16 := UInt64.le_iff_toNat_le.mp hsmall
      have hopcode : Opcode.pushOne + (n.toUInt8 - 1) = UInt8.ofNat (0x50 + n.toNat) := by
        have key : ∀ k : Nat, k < 17 → 0 < k →
            Opcode.pushOne + ((UInt64.ofNat k).toUInt8 - 1) = UInt8.ofNat (0x50 + k) := by
          decide
        have hk := key n.toNat (by omega) hpos
        rwa [UInt64.ofNat_toNat] at hk
      rw [if_pos hsmall, hopcode, Number.encode_of_lt hpos (by omega)]
      exact .number hpos hle
    · have hlength : (Number.encode n.toNat).length ≤ 9 := Number.length_encode_le hlt
      have hne := List.length_pos_of_ne_nil (Number.encode_ne_nil hpos)
      rw [if_neg hsmall, Number.positiveItem_eq_encode]
      exact .bytes hne (by omega)

/-! ### Rows of pushes -/

/-- A row that can be pushed begins with an item that can be pushed. -/
theorem exists_of_pushItems_cons {item : Bytes} {items : List Bytes} {script : Bytes}
    (h : pushItems (item :: items) = .ok script) :
    ∃ first rest, pushItem item = .ok first ∧ pushItems items = .ok rest ∧
      script = first ++ rest := by
  rw [pushItems] at h
  cases hfirst : pushItem item with
  | error e =>
      rw [hfirst] at h
      cases h
  | ok first =>
      cases hrest : pushItems items with
      | error e =>
          rw [hfirst, hrest] at h
          cases h
      | ok rest =>
          rw [hfirst, hrest] at h
          cases h
          exact ⟨first, rest, rfl, rfl, rfl⟩

/-- What is written to push several items is a row of pushes. -/
theorem pushItems_pushes {items : List Bytes} {script : Bytes} (h : pushItems items = .ok script) :
    Pushes script items := by
  induction items generalizing script with
  | nil =>
      cases h
      exact .nil
  | cons item items ih =>
      obtain ⟨first, rest, hfirst, hrest, rfl⟩ := exists_of_pushItems_cons h
      exact .cons (pushItem_pushInstruction hfirst) (ih hrest)

/-- Several items can be pushed if each of them can. -/
theorem exists_pushItems {items : List Bytes} (h : ∀ item ∈ items, item.length ≤ 65535) :
    ∃ script, pushItems items = .ok script := by
  induction items with
  | nil => exact ⟨[], rfl⟩
  | cons item items ih =>
      obtain ⟨first, hfirst⟩ := exists_pushItem (h item List.mem_cons_self)
      obtain ⟨rest, hrest⟩ := ih fun i hi => h i (List.mem_cons_of_mem item hi)
      refine ⟨first ++ rest, ?_⟩
      rw [pushItems, hfirst, hrest]
      rfl

/-! ### The scripts of accounts -/

/-- An account with one key pushes the key and checks a signature. -/
theorem singleKey_eq {publicKey code : Bytes} (h : singleKey publicKey = .ok code) :
    ∃ pushes, code = pushes ++ [Opcode.checkSignature] ∧ Pushes pushes [publicKey] := by
  rw [singleKey] at h
  cases hpush : pushItem publicKey with
  | error e =>
      rw [hpush] at h
      cases h
  | ok push =>
      rw [hpush] at h
      cases h
      exact ⟨push, rfl, (pushItem_pushInstruction hpush).pushes⟩

/-- What the script of an account with several keys pushes, in order. -/
def multiKeyItems (threshold : Nat) (publicKeys : List Bytes) : List Bytes :=
  Number.encode threshold :: (publicKeys ++ [Number.encode publicKeys.length])

/-- The account pushes its keys and two counts. -/
@[simp] theorem length_multiKeyItems (threshold : Nat) (publicKeys : List Bytes) :
    (multiKeyItems threshold publicKeys).length = publicKeys.length + 2 := by
  simp [multiKeyItems]

/-- An account with several keys can be met, pushes its counts and keys, and checks signatures.
No list in memory is as long as the bound on the number of keys. -/
theorem multiKey_eq {threshold : Nat} {publicKeys : List Bytes} {code : Bytes}
    (hkeys : publicKeys.length < 2 ^ 64) (h : multiKey threshold publicKeys = .ok code) :
    0 < threshold ∧ threshold ≤ publicKeys.length ∧
      ∃ pushes, code = pushes ++ [Opcode.checkMultisig] ∧
        Pushes pushes (multiKeyItems threshold publicKeys) := by
  rw [multiKey] at h
  split at h
  · cases h
  · rename_i hmet
    have hthreshold : (UInt64.ofNat threshold).toNat = threshold :=
      UInt64.toNat_ofNat_of_lt' (show threshold < 2 ^ 64 from by omega)
    have hcount : (UInt64.ofNat publicKeys.length).toNat = publicKeys.length :=
      UInt64.toNat_ofNat_of_lt' (show publicKeys.length < 2 ^ 64 from hkeys)
    cases hpush : pushItems publicKeys with
    | error e =>
        rw [hpush] at h
        cases h
    | ok keys =>
        rw [hpush] at h
        cases h
        have hfirst := pushNumber_pushInstruction (UInt64.ofNat threshold)
        have hlast := pushNumber_pushInstruction (UInt64.ofNat publicKeys.length)
        rw [hthreshold] at hfirst
        rw [hcount] at hlast
        refine ⟨by omega, by omega, _, rfl, ?_⟩
        rw [List.append_assoc]
        exact .cons hfirst ((pushItems_pushes hpush).append hlast.pushes)

/-- There is an account for every threshold that its keys can meet. -/
theorem exists_multiKey {threshold : Nat} {publicKeys : List Bytes} (hpos : 0 < threshold)
    (hle : threshold ≤ publicKeys.length) (h : ∀ key ∈ publicKeys, key.length ≤ 65535) :
    ∃ code, multiKey threshold publicKeys = .ok code := by
  obtain ⟨keys, hkeys⟩ := exists_pushItems h
  have hmet : ¬ (threshold = 0 ∨ publicKeys.length < threshold) := by omega
  rw [multiKey, if_neg hmet, hkeys]
  exact ⟨_, rfl⟩

end Countersign.Template
