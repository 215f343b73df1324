import Workflow.CommandLine.Outcome

/-!
The command line program: the arguments, the files and the terminal of the system.
-/

namespace Workflow.CommandLine

/-- what the system says of a file that cannot be read -/
def FileError.ofIO : IO.Error → FileError
  | .noFileOrDirectory .. => .system 2 "No such file or directory"
  | .permissionDenied .. => .system 13 "Permission denied"
  | .inappropriateType _ code details => .system code.toNat details
  | .otherError code details => .system code.toNat details
  | e => .system 5 (toString e)

/-- the bytes of a file, or why it cannot be read -/
def readBytes (file : String) : IO (Except FileError ByteArray) := do
  try
    return .ok (← IO.FS.readBinFile file)
  catch e => return .error (.ofIO e)

/-- the text of a file -/
def readText (file : String) : IO (Except FileError String) := do
  return (← readBytes file).bind fun bytes =>
    match String.fromUTF8? bytes with
    | some text => .ok text
    | none => .error .notText

/-- the language settings ask for a text encoding that has pictures -/
def hasPictures : IO Bool := do
  for name in ["LC_ALL", "LC_CTYPE", "LANG"] do
    match ← IO.getEnv name with
    | some "" | none => continue
    | some value => return value.toUpper.endsWith "UTF-8"
  return false

end Workflow.CommandLine

open Workflow.CommandLine in
def main (args : List String) : IO UInt32 := do
  let out ← IO.getStdout
  let terminal : Terminal := ⟨← hasPictures, ← out.isTty⟩
  let content ← match Invocation.ofArguments args with
    | .ok i => readText i.command.file
    | .error _ => pure (.error .notText)
  let outcome := run terminal (fun _ => content) args
  out.putStr outcome.output
  (← IO.getStderr).putStr outcome.complaint
  return outcome.exitCode.toUInt32
