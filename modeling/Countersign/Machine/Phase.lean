/-!
# `Countersign.Machine.Phase`: how far a run has come
-/

set_option autoImplicit false

namespace Countersign

/-- How far a run has come. -/
inductive Phase where
  /-- Not started, or stopped before an end was reached. -/
  | running
  /-- Came to the end of its segments. -/
  | halted
  /-- Met an instruction that cannot be executed, or a limit. -/
  | faulted
  /-- Stopped from outside. -/
  | aborted
  deriving DecidableEq, Repr

namespace Phase

/-- All phases, in order. -/
def all : List Phase :=
  [.running, .halted, .faulted, .aborted]

/-- The word for a phase. -/
def name : Phase → String
  | .running => "running"
  | .halted => "halted"
  | .faulted => "faulted"
  | .aborted => "aborted"

/-- The phase with a name. -/
def ofName? (s : String) : Option Phase :=
  all.find? fun p => p.name == s

end Phase

end Countersign
