import TrainingLoop.KeyMap
import TrainingLoop.Metric.JsonLines
/-!
# Files

What a command can do with files, and a directory as a value: regular files by name. Paths are
relative to the directory. The directories around it are there, with no more in them than was
written to them.
-/

namespace TrainingLoop

/-- The two ways in which a command uses the files at given paths. -/
structure FileAccess where
  read : String → Except IoFault ByteArray
  /-- The file as one that lines are appended to. -/
  logFile : String → LogFile

/-- The files by their paths from the directory, with its own files by their names. -/
structure Directory where
  files : KeyMap ByteArray := ∅

/-- The directory that a path stands in, by the text that its paths begin with, and the last name
of the path with the slash that may follow it. -/
structure Place where
  base : String
  name : String
  slash : Bool
  deriving DecidableEq, Repr

namespace Place

def pathLimit : Nat := 4095

def nameLimit : Nat := 255

/-- The directory around another one; the root is its own. -/
def around (base : String) : String := if base = "/" then base else base ++ "../"

def key (p : Place) : String := p.base ++ p.name

end Place

namespace Directory

def entry (d : Directory) (p : Place) : Except IoFault (Option ByteArray) :=
  if Place.nameLimit < p.name.utf8ByteSize then .error .nameTooLong
  else .ok (d.files.get? p.key)

/-- The place that names lead to from a directory, if it is not a directory itself. The path may go
on behind a name only if that is a directory. -/
def follow (d : Directory) (slash : Bool) (base : String) :
    List String → Except IoFault (Option Place)
  | [] => .ok none
  | name :: rest =>
    if name = "." then d.follow slash base rest
    else if name = ".." then d.follow slash (Place.around base) rest
    else if rest.isEmpty then .ok (some ⟨base, name, slash⟩)
    else
      match d.entry ⟨base, name, true⟩ with
      | .error fault => .error fault
      | .ok (some _) => .error .notADirectory
      | .ok none => .error .notFound

/-- The place that a path leads to, if it is not a directory. -/
def place? (d : Directory) (path : String) : Except IoFault (Option Place) :=
  if path.contains '\x00' then .error .zeroInName
  else if path.isEmpty then .error .notFound
  else if Place.pathLimit < path.utf8ByteSize then .error .nameTooLong
  else
    d.follow (path.endsWith "/") (if path.startsWith "/" then "/" else "")
      ((path.split '/').toStringList.filter (· != ""))

def read (d : Directory) (path : String) : Except IoFault ByteArray := do
  match ← d.place? path with
  | none => .error .isADirectory
  | some p =>
    match ← d.entry p with
    | none => .error .notFound
    | some content => if p.slash then .error .notADirectory else .ok content

/-- The file at a path as one that lines are appended to. A path with a slash at its end is taken
for a directory, whatever is there. -/
def logFile (d : Directory) (path : String) : LogFile :=
  let found : Except IoFault (Option ByteArray) := do
    match ← d.place? path with
    | none => .error .isADirectory
    | some p => if p.slash then .error .isADirectory else d.entry p
  match found with
  | .error fault => { faultAt := fun _ => some fault }
  | .ok content => { text := content.bind String.fromUTF8? }

def access (d : Directory) : FileAccess := ⟨d.read, d.logFile⟩

/-- The directory after lines were appended to the file at a path. -/
def store (path : String) (file : LogFile) (d : Directory) : Directory :=
  match file.text, d.place? path with
  | some text, .ok (some p) => { d with files := d.files.insert p.key text.toUTF8 }
  | _, _ => d

end Directory

end TrainingLoop
