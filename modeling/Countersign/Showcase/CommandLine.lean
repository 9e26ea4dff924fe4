import Countersign.Settings.Load
import Countersign.Showcase.Scenario

/-!
# `Countersign.Showcase.CommandLine`: the scenarios as a program

The program is told which scenarios to show, with which settings, and whether as JSON. Arguments
are read one after the other and the first one that makes no sense ends the reading. An option
may be given once before the name of the scenario and once more behind it, and then the later one
counts.

What the program does is a function of its arguments and of what the files contain.
-/

set_option autoImplicit false

namespace Countersign.Showcase

/-- What the program is told to do. -/
structure Invocation where
  scenarios : List Scenario
  settingsPath : Option String
  asJson : Bool
  deriving DecidableEq, Repr

/-- Why there is nothing to do. -/
inductive NoInvocation where
  /-- Help is asked for. -/
  | help
  /-- The arguments make no sense. -/
  | usage
  deriving DecidableEq, Repr

/-- The options that are given at one place. -/
structure Options where
  settingsPath : Option String := none
  asJson : Bool := false

/-- The scenarios that a command shows. -/
def scenariosOf? (command : String) : Option (List Scenario) :=
  if command = "run-all" then some Scenario.all
  else (Scenario.ofName? command).map fun scenario => [scenario]

/-- Whether an argument is taken for an option. A single dash is not. -/
def looksLikeOption (arg : String) : Bool :=
  arg.startsWith "-" && arg != "-"

/-- What stands behind the options at one place: nothing, or an argument that is no option and
those that follow it. -/
inductive Rest where
  | nothing
  /-- Two dashes end the options. -/
  | dashes (args : List String)
  | argument (arg : String) (args : List String)

namespace Options

/-- The options with a path for the settings. It may be given once, and may not be empty. -/
def withPath (o : Options) (path : String) : Except NoInvocation Options :=
  if o.settingsPath.isSome ∨ path = "" then .error .usage
  else .ok { o with settingsPath := some path }

/-- The text behind an equals sign, if the argument gives the option of this name a value. -/
def assigned? (option arg : String) : Option String :=
  if arg.startsWith (option ++ "=") then
    some (String.ofList (arg.toList.drop (option.length + 1)))
  else none

/-- Reads options, up to an argument that is none. -/
def read (o : Options) : List String → Except NoInvocation (Options × Rest)
  | [] => .ok (o, .nothing)
  | "--" :: args => .ok (o, .dashes args)
  -- Help is given at once, whatever is wrong with the arguments behind.
  | "--help" :: _ => .error .help
  | "--json" :: args => if o.asJson then .error .usage else read { o with asJson := true } args
  | ["--config"] => .error .usage
  | "--config" :: path :: args =>
    if looksLikeOption path then .error .usage
    else
      match o.withPath path with
      | .ok o => read o args
      | .error e => .error e
  | arg :: args =>
    match assigned? "--config" arg with
    | some path =>
      match o.withPath path with
      | .ok o => read o args
      | .error e => .error e
    | none =>
      -- The short name of an option may have others joined to it, which are not looked at.
      if arg.startsWith "-h" then .error .help
      else if looksLikeOption arg then .error .usage
      else .ok (o, .argument arg args)

end Options

/-- What comes of asking for help on commands. There is help on one command at a time. -/
def helpOn : List String → NoInvocation
  | [] => .help
  | [command] => if (scenariosOf? command).isSome ∨ command = "help" then .help else .usage
  | _ => .usage

/-- Reads the arguments of the program. -/
def Invocation.ofArgs (args : List String) : Except NoInvocation Invocation := do
  let (before, rest) ← Options.read {} args
  match rest with
  | .nothing | .dashes _ => .error .usage
  | .argument "help" commands => .error (helpOn commands)
  | .argument command args =>
    match scenariosOf? command with
    | none => .error .usage
    | some scenarios =>
      let (behind, rest) ← Options.read {} args
      match rest with
      | .nothing | .dashes [] =>
        -- An option counts on either side of the command. If there are two paths the later one is
        -- used.
        return { scenarios
                 settingsPath := behind.settingsPath.or before.settingsPath
                 asJson := behind.asJson || before.asJson }
      | .dashes (_ :: _) | .argument _ _ => .error .usage

/-- Text filled up with blanks to a width. -/
def padded (width : Nat) (s : String) : String :=
  s ++ String.ofList (List.replicate (width - s.length) ' ')

/-- The lines for a report. -/
def Report.lines (asJson : Bool) (r : Report) : List String :=
  if asJson then [r.toJson.render]
  else
    let mark := if r.asExpected then "ok" else "UNEXPECTED"
    let answer := if r.verdict.passed then "AUTHORIZED" else "REJECTED"
    ("[" ++ mark ++ "] " ++ padded 18 r.scenario.name ++ " " ++ padded 20 r.case ++ " " ++ answer)
      :: (match r.verdict.refusal with
        | some refusal => ["       " ++ refusal.message]
        | none => [])

/-- Why the program cannot show anything. -/
inductive ShowError where
  | settings (cause : SettingsError)
  | template (cause : TemplateError)

/-- The cause as a message. -/
def ShowError.message : ShowError → String
  | .settings cause => cause.message
  | .template cause => "could not build contract: " ++ cause.message

/-- What the program answers. -/
structure Transcript where
  output : List String
  errors : List String
  exitCode : UInt8

/-- The settings of an invocation. `files` gives the contents of the file at a path. -/
def Invocation.limits (i : Invocation) (files : String → Except ReadFailure Bytes) :
    Except SettingsError Limits :=
  match i.settingsPath with
  | none => .ok Limits.standard
  | some path => Limits.ofFile path (files path)

/-- The reports that an invocation asks for. -/
def Invocation.reports (i : Invocation) (files : String → Except ReadFailure Bytes) (cast : Cast) :
    Except ShowError (List Report) :=
  match i.limits files with
  | .error cause => .error (.settings cause)
  | .ok limits =>
    match Showcase.reports (authorizer limits) cast i.scenarios with
    | .error cause => .error (.template cause)
    | .ok rs => .ok rs

/-- Does what an invocation asks for. The program fails if a verdict is not the expected one. -/
def Invocation.run (i : Invocation) (files : String → Except ReadFailure Bytes) (cast : Cast) :
    Transcript :=
  match i.reports files cast with
  | .error e => ⟨[], ["Demo error: " ++ e.message], 1⟩
  | .ok rs =>
    let output := rs.flatMap (Report.lines i.asJson)
    let unexpected := (rs.filter fun r => !r.asExpected).length
    if unexpected = 0 then ⟨output, [], 0⟩
    else
      ⟨output, [Decimal.ofNat unexpected ++ " case(s) did not match the expected outcome"], 1⟩

/-- How the program is used. -/
def usage : List String :=
  ["Usage: demo [--config <FILE>] [--json] <COMMAND>",
   "Commands: run-all, single-sig, multi-sig, tampered, direct-signature, help"]

/-- The program: what it answers to its arguments, given what the files contain. -/
def respond (files : String → Except ReadFailure Bytes) (args : List String) : Transcript :=
  match Invocation.ofArgs args with
  | .ok i => i.run files Cast.standard
  | .error .help => ⟨usage, [], 0⟩
  | .error .usage => ⟨[], usage, 2⟩

end Countersign.Showcase
