import Countersign.Machine.Limits
import Countersign.Toml.Document

/-!
# `Countersign.Settings.Load`: limits from a settings file

A settings file is a TOML document that names limits; those it does not name are the standard
ones. The document has to be written correctly as a whole before any name in it is looked at, the
names are then looked at in their order, and a limit of zero is refused at the very end, whatever
else the document says. So limits that were loaded are never zero.
-/

set_option autoImplicit false

namespace Countersign

/-- Why a file cannot be read. -/
inductive ReadFailure where
  | notFound
  | isDirectory
  /-- The bytes of the file are no text. -/
  | notText
  | other (reason : String)
  deriving DecidableEq, Repr

/-- The cause as a message. -/
def ReadFailure.message : ReadFailure → String
  | .notFound => "No such file or directory (os error 2)"
  | .isDirectory => "Is a directory (os error 21)"
  | .notText => "stream did not contain valid UTF-8"
  | .other reason => reason

/-- Why there are no settings. -/
inductive SettingsError where
  | unreadable (path : String) (cause : ReadFailure)
  /-- The document is not TOML. -/
  | malformed
  /-- The document is TOML, but it does not say what limits are. -/
  | mismatch (cause : Mismatch)
  /-- A limit is zero. -/
  | zero (limit : Limit)

/-- Binary fractions in messages are never written with a power of ten. Of two equally near ones
the greater is written. -/
def Settings.fractionStyle : Decimal.FractionStyle :=
  ⟨.greater, none⟩

/-- The cause, without saying what it is about. -/
def SettingsError.reason : SettingsError → String
  | .unreadable path cause =>
    "failed to read engine config '" ++ path ++ "': " ++ cause.message
  | .malformed => "failed to parse engine config TOML"
  | .mismatch cause =>
    "failed to parse engine config TOML: " ++ cause.message Settings.fractionStyle
  | .zero limit => limit.name ++ " must be greater than zero"

/-- The cause as a message. -/
def SettingsError.message (e : SettingsError) : String :=
  "configuration error: " ++ e.reason

namespace Limits

/-- Refuses limits of which one is zero, and names the first of those. -/
def check (l : Limits) : Except SettingsError Limits :=
  match l.firstZero? with
  | some k => .error (.zero k)
  | none => .ok l

/-- The value that a limit takes from what stands for it in a document. -/
def valueOf (k : Limit) : Found → Except Mismatch UInt64
  | .integer i =>
    if 0 ≤ i then .ok (UInt64.ofNat i.toNat) else .error (.wrongValue (.integer i) k.valueName)
  | found => .error (.wrongType found k.valueName)

/-- The limits with those replaced that a document names. -/
def override (l : Limits) : List (String × Found) → Except Mismatch Limits
  | [] => .ok l
  | (name, found) :: rest =>
    match Limit.ofName? name with
    | none => .error (.unknownField name (Limit.all.map Limit.name))
    | some k =>
      match valueOf k found with
      | .error cause => .error cause
      | .ok v => override (l.set k v) rest

/-- The limits that a document sets. -/
def ofToml (input : String) : Except SettingsError Limits :=
  match Toml.read? input with
  | none => .error .malformed
  | some entries =>
    match standard.override entries with
    | .error cause => .error (.mismatch cause)
    | .ok l => l.check

/-- The limits that the file at a path sets, given what reading it gave. -/
def ofFile (path : String) (content : Except ReadFailure Bytes) : Except SettingsError Limits :=
  match content with
  | .error cause => .error (.unreadable path cause)
  | .ok bytes =>
    match String.fromUTF8? ⟨bytes.toArray⟩ with
    | none => .error (.unreadable path .notText)
    | some input => ofToml input

end Limits

end Countersign
