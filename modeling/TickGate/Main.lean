import TickGate.CommandLine.Response

/-!
# The program

Runs the window scenario from the command line and prints its records.  Nothing is printed of the
log, for a run has nothing to show there: `Response.log_ofArguments`.
-/

namespace TickGate
namespace CommandLine

/-- The operating system's text for a failure, with its number. -/
def systemText : IO.Error → String
  | .alreadyExists _ code details | .interrupted _ code details
  | .noFileOrDirectory _ code details | .invalidArgument _ code details
  | .permissionDenied _ code details | .resourceExhausted _ code details
  | .inappropriateType _ code details | .noSuchThing _ code details
  | .otherError code details | .resourceBusy code details | .resourceVanished code details
  | .unsupportedOperation code details | .hardwareFault code details
  | .unsatisfiedConstraints code details | .illegalOperation code details
  | .protocolError code details | .timeExpired code details => s!"{details} (os error {code})"
  | error => toString error

/-- Runs an action and gives the operating system's text where it fails. -/
def failureOf (action : IO Unit) : IO (Option String) := do
  try
    action
    return none
  catch error => return some (systemText error)

/-- How this program is compiled.  It answers alike in all builds:
`Response.ofArguments_eq_of_build`. -/
def build : Build := .debug

/-- Empties the output file, if there is one, and gives the reason where that fails. -/
def openOutput (arguments : List String) : IO (Option String) :=
  match Request.parse build arguments with
  | .ok (.run { output := some path, .. }) => failureOf (IO.FS.writeBinFile path .empty)
  | _ => return none

/-- Writes the lines to the output file, if there is one, and gives the reason where that
fails. -/
def Response.writeFile (response : Response) : IO (Option String) :=
  match response.file with
  | some (path, bytes) => failureOf do
    let handle ← IO.FS.Handle.mk path .write
    handle.write bytes
    handle.flush
  | none => return none

/-- Writes an answer to the world. -/
def Response.perform (response : Response) : IO UInt32 := do
  let stdout ← IO.getStdout
  let stderr ← IO.getStderr
  match ← response.writeFile with
  | some reason =>
    stderr.putStr (Response.unwritten reason)
    return 1
  | none =>
    stdout.write response.stdout
    stdout.flush
    stderr.write response.stderr
    return response.exit

end CommandLine
end TickGate

/-- Answers the arguments and exits with the answer's code. -/
def main (arguments : List String) : IO UInt32 := do
  let outlet : Except String TickGate.Device :=
    match ← TickGate.CommandLine.openOutput arguments with
    | some reason => .error reason
    | none => .ok {}
  let response := TickGate.CommandLine.Response.ofArguments TickGate.CommandLine.build
    (fun _ => outlet) arguments
  response.perform
