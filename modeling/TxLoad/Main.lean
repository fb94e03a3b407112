import TxLoad.Program

/-!
# Running the program

Reads the file that the command line names, runs the mode, writes the file that the run leaves, and
ends with the exit code.
-/

namespace TxLoad.Main

/-- The text of a file, or why it cannot be read. -/
def readFile (path : String) : IO (Except String String) := do
  try return .ok (← IO.FS.readFile path)
  catch e => return .error (toString e)

/-- Writes the file that a run leaves. -/
def writeFile : Option (String × String) → IO (Except Error Unit)
  | none => return .ok ()
  | some (path, text) => do
    try
      IO.FS.writeFile path text
      return .ok ()
    catch e => return .error (.io (toString e))

/-- Runs a mode and leaves its file. -/
def runMode (mode : Mode) : IO (Except Error Unit) := do
  let outcome := Program.run Program.isolated Storage.unlimited mode
  match ← writeFile outcome.file with
  | .ok () => return outcome.result
  | .error e => return .error e

/-- What a command line comes to. -/
def runArguments (arguments : List String) :
    IO (Except CommandLine.Fault (Except ConfigError (Except Error Unit))) := do
  match CommandLine.read arguments with
  | .error fault => return .error fault
  | .ok request =>
    let text ← match request.configPath? with
      | some path => readFile path
      | none => pure (.error "no file is named")
    match CommandLine.modeOf (fun _ => text) request.name request.given with
    | .error e => return .ok (.error e)
    | .ok mode => return .ok (.ok (← runMode mode))

end TxLoad.Main

open TxLoad in
def main (arguments : List String) : IO UInt32 := do
  let outcome ← Main.runArguments arguments
  match outcome with
  | .error fault => if fault.isAnswer then IO.println fault.message else IO.eprintln fault.message
  | .ok r =>
    match Program.complaint r with
    | some text => IO.eprintln (Program.complaintLine text)
    | none => pure ()
  return UInt32.ofNat (Program.exitCode outcome)
