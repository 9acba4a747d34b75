import TrainingLoop.Journal
import TrainingLoop.Metric.Record
/-!
# Metrics files

A logger that buffers records and appends them to a file when it is saved, one JSON line a record.
The file is a value: its text, if it exists, and which of the attempts to open it fail.
-/

namespace TrainingLoop

/-- A file that lines are appended to. It comes into being when it is first opened. -/
structure LogFile where
  text : Option String := none
  /-- Why the attempt of a given number fails, counted from zero. -/
  faultAt : Nat → Option IoFault := fun _ => none
  /-- Attempts so far. -/
  opens : Nat := 0

namespace LogFile

def append (f : LogFile) (text : String) : Except IoFault Unit × LogFile :=
  let opened := { f with opens := f.opens + 1 }
  match f.faultAt f.opens with
  | some fault => (.error fault, opened)
  | none => (.ok (), { opened with text := some (f.text.getD "" ++ text) })

end LogFile

structure JsonLines where
  path : String
  pending : Journal LogRecord := ∅
  file : LogFile := {}

namespace JsonLines

def log (l : JsonLines) (record : LogRecord) : JsonLines :=
  { l with pending := l.pending.push record }

def lines (records : List LogRecord) : String := String.join (records.map LogRecord.line)

/-- The buffered records written out. Nothing buffered leaves the file alone, and a file that does
not open leaves the buffer as it was. -/
def save (l : JsonLines) : Except Error Unit × JsonLines :=
  if l.pending.isEmpty then (.ok (), l)
  else
    match l.file.append (lines l.pending.toList) with
    | (.ok (), file) => (.ok (), { l with pending := ∅, file })
    | (.error fault, file) => (.error (.io fault), { l with file })

end JsonLines

end TrainingLoop
