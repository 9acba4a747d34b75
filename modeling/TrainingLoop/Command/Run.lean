import TrainingLoop.Command.Invocation
import TrainingLoop.Command.Report
import TrainingLoop.Spec.Reading
/-!
# Running commands

What an invocation prints and leaves behind, given the directory in which it runs.
-/

namespace TrainingLoop.Command

/-- What an invocation leaves behind. -/
structure Outcome where
  /-- The lines on standard output; they may tell how long it took. -/
  output : Elapsed → List String := fun _ => []
  failure : Option String := none
  /-- Why it was no invocation. -/
  usage : Option UsageFault := none
  notices : List Notice := []
  /-- The metrics file of a run, by its path. -/
  metricsFile : Option (String × LogFile) := none

namespace Outcome

def failed (output : List String) (reason : String) : Outcome :=
  { output := fun _ => output, failure := some reason }

/-- Requests are no failures; all other words that are no invocation are. -/
def usageCode : UsageFault → Nat
  | .helpRequested => 0
  | .versionRequested => 0
  | _ => 2

def exitCode (o : Outcome) : Nat :=
  match o.usage, o.failure with
  | some fault, _ => usageCode fault
  | none, some _ => 1
  | none, none => 0

def outputText (o : Outcome) (elapsed : Elapsed) : String :=
  String.join ((o.output elapsed).map (· ++ "\n"))

def errorLine? (o : Outcome) : Option String := o.failure.map ("Error: " ++ ·)

end Outcome

def versionLine : String := "vuelta 0.1.0"

def usageLines : List String :=
  ["Usage: vuelta [OPTIONS] <COMMAND>", "",
    "Commands:",
    "  simulate <CONFIG>  Run the loop on its synthetic model",
    "    -e, --epochs <EPOCHS>, --max-steps <STEPS>, --seed <SEED>, --metrics-path <PATH>, --json",
    "  validate <CONFIG>  Check a configuration file",
    "    -d, --detailed",
    "  info <CONFIG>      Show a configuration file",
    "    -f, --format <text|json|yaml>", "",
    "Options:",
    "  -v, --verbose", "  -q, --quiet", "  -h, --help", "  -V, --version"]

/-- What is printed for words that are no invocation. -/
def usageOutput : UsageFault → List String
  | .helpRequested => usageLines
  | .versionRequested => [versionLine]
  | _ => []

namespace Outcome

def ofUsage (fault : UsageFault) : Outcome :=
  { output := fun _ => usageOutput fault, usage := some fault }

/-- The lines on standard error: the notices that the verbosity lets through, and what went
wrong. -/
def errorLines (o : Outcome) (v : Verbosity) : List String :=
  (o.notices.filter v.reports).map Notice.line ++
    (if o.exitCode = 2 then usageLines else []) ++ o.errorLine?.toList

end Outcome

def Invocation.verbosity (i : Invocation) : Verbosity :=
  if i.quiet then .quiet else if i.verbose then .verbose else .normal

def load (files : FileAccess) (path : String) : Except String LoopSpec :=
  (LoopSpec.load path (files.read path)).mapError fun e => "Config error: " ++ e.message

/-- A specification run, its report printed behind the heading. -/
def simulateSpec (files : FileAccess) (v : Verbosity) (heading : List String) (json : Bool)
    (s : LoopSpec) : Outcome :=
  let simulation := s.simulate files.logFile
  let metricsFile := match s.logging.metricsPath, simulation.file with
    | some path, some file => some (path, file)
    | _, _ => none
  let outcome : Outcome := match simulation.result with
    | .error e => .failed heading ("Simulation error: " ++ e.message)
    | .ok none => .failed heading "Simulation error: the run did not end"
    | .ok (some report) =>
      { output := fun elapsed => heading ++
          if json then [(report.document elapsed.document).toPrettyJson]
          else simulationLines v elapsed report }
  { outcome with notices := simulation.notices, metricsFile }

def simulate (files : FileAccess) (v : Verbosity) (path : String)
    (overrides : LoopSpec.Overrides) (json : Bool) : Outcome :=
  let heading := v.lines [simulationHeading path]
  match load files path with
  | .error reason => .failed heading reason
  | .ok s => simulateSpec files v heading json (s.override overrides)

def validate (files : FileAccess) (v : Verbosity) (path : String) (detailed : Bool) : Outcome :=
  let heading := v.lines [validationHeading path]
  match load files path with
  | .error reason => .failed heading reason
  | .ok s =>
    match s.check with
    | .error fault => .failed heading ("Validation failed: " ++ fault.message)
    | .ok () =>
      { output := fun _ => heading ++ v.lines ["Configuration is valid"] ++
          (if detailed then detailLines s else []) }

def info (files : FileAccess) (v : Verbosity) (path : String) (format : OutputFormat) : Outcome :=
  match load files path with
  | .error reason => .failed [] reason
  | .ok s =>
    { output := fun _ => match format with
        | .text => infoLines v s
        | .json => [(s.document Document.jsonNumbers).toPrettyJson]
        | .yaml => [Yaml.print (s.document Yaml.numbers)] }

def Invocation.run (files : FileAccess) (i : Invocation) : Outcome :=
  match i.command with
  | .simulate path overrides json => simulate files i.verbosity path overrides json
  | .validate path detailed => validate files i.verbosity path detailed
  | .info path format => info files i.verbosity path format

/-- The words of a command line carried out. -/
def run (files : FileAccess) (words : List String) : Outcome :=
  match parse words with
  | .error fault => .ofUsage fault
  | .ok invocation => invocation.run files

end TrainingLoop.Command
