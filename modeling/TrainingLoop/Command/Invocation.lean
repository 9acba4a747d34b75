import TrainingLoop.Command.Arguments
import TrainingLoop.Spec.Basic
import TrainingLoop.Text.Lowercase
/-!
# Invocations

The commands of the command line and their arguments: `simulate`, `validate` and `info` with a
configuration file, and two flags that every command takes.
-/

namespace TrainingLoop.Command

inductive OutputFormat where
  | text
  | json
  | yaml
  deriving DecidableEq, Repr

namespace OutputFormat

def name : OutputFormat → String
  | text => "text"
  | json => "json"
  | yaml => "yaml"

/-- The format of a name, which may be written in any case of letters. -/
def ofName? (s : String) : Option OutputFormat :=
  match lowercase s with
  | "text" => some text
  | "json" => some json
  | "yaml" => some yaml
  | _ => none

end OutputFormat

inductive Subcommand where
  | simulate (path : String) (overrides : LoopSpec.Overrides) (json : Bool)
  | validate (path : String) (detailed : Bool)
  | info (path : String) (format : OutputFormat)
  deriving DecidableEq

def Subcommand.path : Subcommand → String
  | .simulate path _ _ => path
  | .validate path _ => path
  | .info path _ => path

structure Invocation where
  command : Subcommand
  verbose : Bool
  quiet : Bool
  deriving DecidableEq

/-- A natural number of 64 bits, which may have a plus sign. -/
def count? (s : String) : Option Nat :=
  let digits := match s.toList with
    | '+' :: rest => rest
    | cs => cs
  if digits.isEmpty || !digits.all NumberLiteral.isDigit then none
  else some (NumberLiteral.digitsValue digits) |>.filter (· < Nat.pow 2 64)

def checkCount (s : String) : Option UsageFault :=
  if (count? s).isSome then none else some .badValue

def checkPath (s : String) : Option UsageFault := if s.isEmpty then some .missingValue else none

def checkFormat (s : String) : Option UsageFault :=
  if (OutputFormat.ofName? s).isSome then none else some .badValue

def sharedArguments : List Argument :=
  [{ name := "verbose", short := some 'v' }, { name := "quiet", short := some 'q' },
    { name := "help", short := some 'h', kind := .request .helpRequested }]

def configArgument : Argument := { name := "config file", kind := .value checkPath }

def commandGrammar (own : List Argument) : Grammar :=
  { arguments := sharedArguments ++ own, positional := some configArgument }

def simulateGrammar : Grammar :=
  commandGrammar [
    { name := "epochs", short := some 'e', kind := .value checkCount },
    { name := "max-steps", kind := .value checkCount },
    { name := "seed", kind := .value checkCount },
    { name := "metrics-path", kind := .value checkPath },
    { name := "json" }]

def validateGrammar : Grammar := commandGrammar [{ name := "detailed", short := some 'd' }]

def infoGrammar : Grammar :=
  commandGrammar [{ name := "format", short := some 'f', kind := .value checkFormat }]

def helpCommand : String := "help"

def commandNames : List String := ["simulate", "validate", "info"]

def topGrammar : Grammar :=
  { arguments := sharedArguments ++
      [{ name := "version", short := some 'V', kind := .request .versionRequested }]
    subcommands := commandNames ++ [helpCommand] }

def readCommand (g : Grammar) (words : List String) : Except UsageFault (Matching × String) := do
  let (m, _) ← g.read false {} words
  match m.found.lookup configArgument.name with
  | none => .error .missingArgument
  | some path => .ok (m, path)

def Matching.count? (m : Matching) (name : String) : Option Nat :=
  (m.found.lookup name).bind Command.count?

def overridesOf (m : Matching) : LoopSpec.Overrides :=
  { epochs := m.count? "epochs"
    maxSteps := m.count? "max-steps"
    seed := (m.count? "seed").map UInt64.ofNat
    metricsPath := m.found.lookup "metrics-path" }

def formatOf (m : Matching) : OutputFormat :=
  ((m.found.lookup "format").bind OutputFormat.ofName?).getD .text

/-- Help is for the whole or for one command. -/
def helpFault : List String → UsageFault
  | [] => .helpRequested
  | [name] => if topGrammar.subcommands.contains name then .helpRequested else .unknownSubcommand
  | _ => .unknownSubcommand

/-- A command of a name from its words. The flags that every command takes count from here and
from before the name. -/
def commandOf (name : String) (before : Matching) (words : List String) :
    Except UsageFault Invocation := do
  let invocation (m : Matching) (command : Subcommand) : Invocation :=
    { command
      verbose := before.has "verbose" || m.has "verbose"
      quiet := before.has "quiet" || m.has "quiet" }
  match name with
  | "simulate" =>
    let (m, path) ← readCommand simulateGrammar words
    pure (invocation m (.simulate path (overridesOf m) (m.has "json")))
  | "validate" =>
    let (m, path) ← readCommand validateGrammar words
    pure (invocation m (.validate path (m.has "detailed")))
  | "info" =>
    let (m, path) ← readCommand infoGrammar words
    pure (invocation m (.info path (formatOf m)))
  | _ => .error (helpFault words)

def parse (words : List String) : Except UsageFault Invocation := do
  match ← topGrammar.read false {} words with
  | (m, some (name, rest)) => commandOf name m rest
  | (m, none) => .error (if m.found.isEmpty then .noArguments else .missingSubcommand)

end TrainingLoop.Command
