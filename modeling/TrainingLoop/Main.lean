import TrainingLoop.Command.Run
/-!
# The command line

The outer layer: it reads the configuration file, hands it to `Command.Invocation.run`, and prints
and appends what comes back. All decisions are made there.
-/

namespace TrainingLoop

/-- Why the system refused a file. -/
def IoFault.ofSystem : IO.Error → IoFault
  | .noFileOrDirectory _ _ _ => .notFound
  | .inappropriateType _ _ details =>
    if details == "Is a directory" then .isADirectory else .notADirectory
  | .invalidArgument _ _ details =>
    if details == "File name too long" then .nameTooLong else .stated details
  | e => .stated (toString e)

def readFile (path : String) : IO (Except IoFault ByteArray) := do
  match ← (IO.FS.readBinFile path).toBaseIO with
  | .ok bytes => pure (.ok bytes)
  | .error e => pure (.error (.ofSystem e))

/-- Lines appended to a file; the fault if that is refused. -/
def appendTo (path text : String) : IO (Option IoFault) := do
  let append : IO Unit := do
    let handle ← IO.FS.Handle.mk path .append
    handle.putStr text
    handle.flush
  match ← append.toBaseIO with
  | .ok () => pure none
  | .error e => pure (some (.ofSystem e))

/-- The lines of a run appended to its metrics file, if it opened that. -/
def storeMetrics (outcome : Command.Outcome) : IO (Option IoFault) :=
  match outcome.metricsFile with
  | some (path, file) => if file.opens = 0 then pure none else appendTo path (file.text.getD "")
  | none => pure none

/-- A command carried out. If its metrics file is refused, what it prints is what it prints when
every attempt to open that file fails. -/
def perform (invocation : Command.Invocation) : IO Command.Outcome := do
  let content ← readFile invocation.command.path
  let filesWith (fault : Option IoFault) : FileAccess :=
    { read := fun _ => content, logFile := fun _ => { faultAt := fun _ => fault } }
  let outcome := invocation.run (filesWith none)
  match ← storeMetrics outcome with
  | none => pure outcome
  | some fault => pure (invocation.run (filesWith (some fault)))

def seconds (nanoseconds : Nat) : Command.Elapsed :=
  .seconds (Float.ofNat nanoseconds / 1000000000.0)

end TrainingLoop

open TrainingLoop in
def main (words : List String) : IO UInt32 := do
  let start ← IO.monoNanosNow
  let (outcome, verbosity) ← match Command.parse words with
    | .error fault => pure (Command.Outcome.ofUsage fault, Command.Verbosity.normal)
    | .ok invocation => do pure (← perform invocation, invocation.verbosity)
  let stop ← IO.monoNanosNow
  for line in outcome.errorLines verbosity do
    IO.eprintln line
  IO.print (outcome.outputText (seconds (stop - start)))
  return UInt32.ofNat outcome.exitCode
