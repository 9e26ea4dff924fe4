import Countersign.Showcase.CommandLine

/-!
# `Countersign.Main`: the program itself

Reads the settings file that the arguments name, if they name one, and prints what the program
answers.
-/

set_option autoImplicit false

open Countersign Countersign.Showcase

/-- The contents of a file. -/
def readContent (path : String) : IO (Except ReadFailure Bytes) := do
  try
    let content ← IO.FS.readBinFile path
    return .ok content.data.toList
  catch
    | .noFileOrDirectory .. => return .error .notFound
    | .inappropriateType .. => return .error .isDirectory
    | e => return .error (.other (toString e))

def main (args : List String) : IO UInt32 := do
  let content ← match Invocation.ofArgs args with
    | .ok { settingsPath := some path, .. } => readContent path
    | _ => pure (.error .notFound)
  let answer := respond (fun _ => content) args
  for line in answer.output do IO.println line
  for line in answer.errors do IO.eprintln line
  return answer.exitCode.toUInt32
