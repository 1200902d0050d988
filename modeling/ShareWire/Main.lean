import ShareWire.Inspect.Run

/-!
# The command line

Reads the environment, the file or the standard input, runs the inspection, and writes its result.
-/

namespace ShareWire.Inspect

def readEnvironment : IO (String → Option Bytes) := do
  let level ← IO.getEnv "LOG_LEVEL"
  let finer ← IO.getEnv "RUST_LOG"
  return fun name =>
    if name = "LOG_LEVEL" then level.map Text.encode
    else if name = "RUST_LOG" then finer.map Text.encode
    else none

def ReadFault.ofError : IO.Error → ReadFault
  | .noFileOrDirectory _ code description
  | .interrupted _ code description
  | .inappropriateType _ code description
  | .permissionDenied _ code description
  | .invalidArgument _ code description
  | .resourceExhausted _ code description
  | .noSuchThing _ code description
  | .alreadyExists _ code description
  | .otherError code description
  | .resourceBusy code description
  | .resourceVanished code description
  | .unsupportedOperation code description
  | .hardwareFault code description
  | .unsatisfiedConstraints code description
  | .illegalOperation code description
  | .protocolError code description
  | .timeExpired code description => ⟨description, code.toNat⟩
  | error => ⟨toString error, 0⟩

def readContent (path : Option String) : IO (Except ReadFault Bytes) := do
  try
    let content ←
      match path with
      | some path => do (← IO.FS.Handle.mk path .read).readBinToEnd
      | none => do (← IO.getStdin).readBinToEnd
    return .ok content.toList
  catch error =>
    return .error (.ofError error)

end ShareWire.Inspect

open ShareWire.Inspect in
def main (arguments : List String) : IO UInt32 := do
  let exit ←
    match Task.ofArguments (← readEnvironment) arguments with
    | .ok task => pure (task.exit (← readContent task.path) .kept)
    | .error exit => pure exit
  IO.print exit.output
  IO.eprint exit.errors
  return exit.code
