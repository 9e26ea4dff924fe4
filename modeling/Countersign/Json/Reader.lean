import Countersign.Json.Token
import Countersign.Schema.Mismatch

/-!
# `Countersign.Json.Reader`: reading the words of a JSON text

A reader takes words off the front and answers with a value, or stops at the first problem. A
problem is either a mistake in how the text is written or a mismatch in what it says; there is no
going on after one, so the first problem in the order of the text is the one reported.
-/

set_option autoImplicit false

namespace Countersign.Json

/-- Why reading stopped. -/
inductive Problem where
  /-- The text is not JSON, or ends too early, or goes on too long. -/
  | malformed
  /-- The text is JSON as far as it was read, but does not say what was asked for. -/
  | mismatch (cause : Mismatch)

/-- Takes words off the front. -/
abbrev Reader := StateT (List Token) (Except Problem)

/-- Binary fractions in messages: scientific below 10⁻⁵ and from 10¹⁶ on, there with a plus before
the power, and with an even last digit where two are equally near. -/
def fractionStyle : Decimal.FractionStyle :=
  ⟨.even, some ⟨-4, 16, true⟩⟩

namespace Reader

variable {α : Type}

/-- Stops because of how the text is written. -/
def malformed : Reader α :=
  throw .malformed

/-- Stops because of what the text says. -/
def mismatch (cause : Mismatch) : Reader α :=
  throw (.mismatch cause)

/-- The next word, which stays where it is. Beyond the end everything is bad. -/
def peek : Reader Token := do
  match ← get with
  | [] => return .bad
  | token :: _ => return token

/-- How many words are left. -/
def remaining : Reader Nat := do
  return (← get).length

/-- Takes the next word. -/
def take : Reader Token := do
  match ← get with
  | [] => malformed
  | token :: tokens =>
    set tokens
    return token

/-- Takes the next word, which has to be this one. -/
def expect (token : Token) : Reader Unit := do
  if (← take) = token then return ()
  malformed

/-- The string that pieces make. -/
def text (pieces : List Piece) : Reader String :=
  match Piece.chars? pieces with
  | some cs => return String.ofList cs
  | none => malformed

/-- What the value is that a word begins. -/
def found (token : Token) : Reader Found := do
  match token with
  | .null => return .null
  | .bool b => return .bool b
  | .number n =>
    match n.number? with
    | some (.integer i) => return .integer i
    | some (.fraction x) => return .fraction x
    | none => malformed
  | .string pieces => return .string (← text pieces)
  | .openArray => return .sequence
  | .openObject => return .map
  | .closeArray | .closeObject | .comma | .colon | .bad => malformed

/-- Stops at a value of the wrong type. -/
def wrongType (token : Token) (expected : String) : Reader α := do
  mismatch (.wrongType (← found token) expected)

/-- Reads a string. -/
def string (expected : String) : Reader String := do
  match ← take with
  | .string pieces => text pieces
  | token => wrongType token expected

/-- Reads a whole number from 0 to `greatest`. -/
def natural (greatest : Nat) (expected : String) : Reader Nat := do
  match ← take with
  | .number n =>
    match n.number? with
    | some (.integer i) =>
      if 0 ≤ i ∧ i ≤ greatest then return i.toNat
      mismatch (.wrongValue (.integer i) expected)
    | some (.fraction x) => mismatch (.wrongType (.fraction x) expected)
    | none => malformed
  | token => wrongType token expected

/-- Reads the name of a field. Nothing but a string may stand in its place. -/
def name : Reader String := do
  match ← take with
  | .string pieces => text pieces
  | _ => malformed

/-- Whether another element follows in an array. The comma in front of it is taken, but the end
of the array is not. -/
def moreElements (first : Bool) : Reader Bool := do
  match ← peek with
  | .closeArray => return false
  | token =>
    if first then return true
    if token ≠ .comma then malformed
    expect .comma
    -- A comma promises another element.
    if (← peek) = .closeArray then malformed
    return true

/-- The name of the next field of an object, if there is another. The comma in front of it is
taken, but the end of the object is not. -/
def nextName (first : Bool) : Reader (Option String) := do
  match ← peek with
  | .closeObject => return none
  | _ =>
    unless first do expect .comma
    return some (← name)

/-- Reads elements up to the end of an array, which stays. There are no more of them than `size`,
the number of words that are left. -/
def elements (element : Reader α) : (size : Nat) → (first : Bool) → Reader (List α)
  | 0, _ => malformed
  | size + 1, first => do
    if ← moreElements first then
      let x ← element
      let xs ← elements element size false
      return x :: xs
    return []

/-- Reads an array. -/
def array (element : Reader α) : Reader (List α) := do
  match ← take with
  | .openArray =>
    let xs ← elements element (← remaining) true
    expect .closeArray
    return xs
  | token => wrongType token "a sequence"

/-- Skips the rest of a value, given what is open around it: `true` for an object, `false` for an
array. `fresh` says that an array or an object was just opened. Strings and numbers need not make
sense, but all has to be written correctly. -/
def skipRest : (size : Nat) → (opened : List Bool) → (fresh : Bool) → Reader Unit
  | _, [], _ => return ()
  | 0, _ :: _, _ => malformed
  | size + 1, inObject :: outer, fresh => do
    if (← peek) = (if inObject then .closeObject else .closeArray) then
      let _ ← take
      skipRest size outer false
    else
      unless fresh do expect .comma
      -- Inside an object a name and a colon come before each value.
      if inObject then
        match ← take with
        | .string _ => expect .colon
        | _ => malformed
      match ← take with
      | .null | .bool _ | .number _ | .string _ => skipRest size (inObject :: outer) false
      | .openArray => skipRest size (false :: inObject :: outer) true
      | .openObject => skipRest size (true :: inObject :: outer) true
      | _ => malformed

/-- Skips a value. -/
def skip : Reader Unit := do
  match ← take with
  | .null | .bool _ | .number _ | .string _ => return ()
  | .openArray => skipRest (← remaining) [false] true
  | .openObject => skipRest (← remaining) [true] true
  | _ => malformed

/-- Reads the fields of an object up to its end, which stays. `field` is given the name of each
field and reads the rest of it, from the colon on. -/
def fields {σ : Type} (field : σ → String → Reader σ) :
    (size : Nat) → (first : Bool) → σ → Reader σ
  | 0, _, _ => malformed
  | size + 1, first, s => do
    match ← nextName first with
    | none => return s
    | some name => fields field size false (← field s name)

/-- Reads a whole text. Nothing but blanks may follow. -/
def run (reader : Reader α) (input : String) : Except Problem α := do
  let (a, rest) ← StateT.run reader (Token.scan input)
  if rest = [] then return a
  throw .malformed

end Reader

end Countersign.Json
