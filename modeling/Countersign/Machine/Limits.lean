/-!
# `Countersign.Machine.Limits`: what a run may use up

Four limits bound a run. A limit of zero is a mistake in a configuration, but the machine itself
takes any limits.
-/

set_option autoImplicit false

namespace Countersign

/-- The bounds of a run. -/
structure Limits where
  /-- How many instructions all segments together may execute. -/
  maxSteps : UInt64
  /-- How many items the stack may hold. -/
  maxStackSize : UInt64
  /-- How many bytes an item may have. -/
  maxItemSize : UInt64
  /-- How many keys one multiple check may name. -/
  maxMultisigKeys : UInt64
  deriving DecidableEq, Repr

/-- The limits of a configuration that says nothing. -/
def Limits.standard : Limits where
  maxSteps := 4096
  maxStackSize := 2048
  maxItemSize := 65535
  maxMultisigKeys := 1024

/-- The names of the four limits. -/
inductive Limit where
  | steps
  | stackSize
  | itemSize
  | multisigKeys
  deriving DecidableEq, Repr

namespace Limit

/-- The limits in the order in which they are declared. -/
def all : List Limit :=
  [.steps, .stackSize, .itemSize, .multisigKeys]

/-- The name of a limit in a configuration. -/
def name : Limit → String
  | .steps => "max_steps"
  | .stackSize => "max_stack_size"
  | .itemSize => "max_item_size"
  | .multisigKeys => "max_multisig_keys"

/-- What a configuration calls the values that a limit takes. -/
def valueName : Limit → String
  | .steps => "u64"
  | .stackSize | .itemSize | .multisigKeys => "usize"

/-- The limit with a name. -/
def ofName? (s : String) : Option Limit :=
  all.find? fun k => k.name == s

/-- The four names, in the order in which the limits are declared. -/
theorem names_all :
    all.map name = ["max_steps", "max_stack_size", "max_item_size", "max_multisig_keys"] :=
  rfl

/-- Every limit is found by its name. -/
theorem ofName?_name (k : Limit) : ofName? k.name = some k := by
  cases k <;> decide

/-- Nothing but the four names is the name of a limit. -/
theorem ofName?_eq_none_iff {s : String} :
    ofName? s = none
      ↔ s ∉ ["max_steps", "max_stack_size", "max_item_size", "max_multisig_keys"] := by
  rw [ofName?, List.find?_eq_none, ← names_all, List.mem_map, not_exists]
  simp only [beq_iff_eq, not_and]

end Limit

/-- The value of a limit. -/
def Limits.get (l : Limits) : Limit → UInt64
  | .steps => l.maxSteps
  | .stackSize => l.maxStackSize
  | .itemSize => l.maxItemSize
  | .multisigKeys => l.maxMultisigKeys

/-- The limits with one of them replaced. -/
def Limits.set (l : Limits) (k : Limit) (v : UInt64) : Limits :=
  match k with
  | .steps => { l with maxSteps := v }
  | .stackSize => { l with maxStackSize := v }
  | .itemSize => { l with maxItemSize := v }
  | .multisigKeys => { l with maxMultisigKeys := v }

/-- The first limit, as they are declared, that is zero. -/
def Limits.firstZero? (l : Limits) : Option Limit :=
  Limit.all.find? fun k => l.get k == 0

end Countersign
