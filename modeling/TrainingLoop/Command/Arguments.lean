/-!
# Command-line arguments

How a row of words is read by a grammar of flags, options and one positional argument. Flags and
options may stand anywhere; short ones may be joined, and an option's value may be joined to it or
follow it. After two dashes every word is positional.

A value that follows its option, and the positional argument, are checked when the next argument is
known, so that an unknown argument right after a bad value is what is reported.
-/

namespace TrainingLoop.Command

/-- Why a row of words is no command, or what it asks for instead of one. -/
inductive UsageFault where
  | missingArgument
  | missingSubcommand
  | noArguments
  | unknownArgument
  | unknownSubcommand
  | missingValue
  | badValue
  | repeatedArgument
  /-- A value for a flag. -/
  | unneededValue
  | helpRequested
  | versionRequested
  deriving DecidableEq, Repr

inductive ArgumentKind where
  | flag
  /-- It takes a value, of which the check tells what is wrong. -/
  | value (check : String → Option UsageFault)
  /-- It ends the reading. -/
  | request (fault : UsageFault)

structure Argument where
  name : String
  short : Option Char := none
  kind : ArgumentKind := .flag

structure Grammar where
  arguments : List Argument
  positional : Option Argument := none
  subcommands : List String := []

structure Matching where
  /-- The arguments found, with their values; a flag's is empty. -/
  found : List (String × String) := []
  /-- An argument whose value is not there yet, or not checked yet. -/
  pending : Option (Argument × Option String) := none
  /-- The next word is the value of the pending option. -/
  awaitsValue : Bool := false
  /-- The positional argument was given. -/
  hasPositional : Bool := false

namespace Matching

def has (m : Matching) (name : String) : Bool := (m.found.lookup name).isSome

def add (a : Argument) (value : String) (m : Matching) : Except UsageFault Matching :=
  if m.has a.name then .error .repeatedArgument
  else
    let fault := match a.kind with
      | .value check => check value
      | _ => none
    match fault with
    | some fault => .error fault
    | none => .ok { m with found := m.found ++ [(a.name, value)] }

def settle (m : Matching) : Except UsageFault Matching :=
  let settled := { m with pending := none, awaitsValue := false }
  match m.pending with
  | none => .ok settled
  | some (_, none) => .error .missingValue
  | some (a, some value) => settled.add a value

def await (a : Argument) (m : Matching) : Matching :=
  { m with pending := some (a, none), awaitsValue := true }

/-- The next word as the value of the pending option. -/
def takeValue (value : String) (m : Matching) : Matching :=
  { m with pending := m.pending.map fun p => (p.1, some value), awaitsValue := false }

end Matching

namespace Grammar

def findLong (g : Grammar) (name : String) : Option Argument :=
  g.arguments.find? fun a => a.name == name

def findShort (g : Grammar) (c : Char) : Option Argument :=
  g.arguments.find? fun a => a.short == some c

/-- A flag, a request, or an option with the value joined to it, if one is. -/
def accept (a : Argument) (value : Option String) (m : Matching) : Except UsageFault Matching := do
  match a.kind, value with
  | .flag, _ => (← m.settle).add a ""
  | .request fault, _ =>
    let _ ← m.settle
    .error fault
  | .value _, some value => (← m.settle).add a value
  | .value _, none => pure ((← m.settle).await a)

def takesValue (a : Argument) : Bool :=
  match a.kind with
  | .value _ => true
  | _ => false

/-- A long argument, from what follows its two dashes. -/
def long (g : Grammar) (text : List Char) (m : Matching) : Except UsageFault Matching :=
  let name := text.takeWhile (· != '=')
  let value := if name.length = text.length then none
    else some (String.ofList (text.drop (name.length + 1)))
  match g.findLong (String.ofList name) with
  | none => .error .unknownArgument
  | some a =>
    if value.isSome && !takesValue a then .error .unneededValue else accept a value m

/-- Joined short arguments, from what follows their dash. The first that takes a value has the rest
for it, where an equals sign may stand between. -/
def short (g : Grammar) : List Char → Matching → Except UsageFault Matching
  | [], m => .ok m
  | c :: rest, m =>
    match g.findShort c with
    | none => .error .unknownArgument
    | some a =>
      if takesValue a then
        let value := match rest with
          | [] => none
          | '=' :: value => some (String.ofList value)
          | value => some (String.ofList value)
        accept a value m
      else do short g rest (← accept a none m)

/-- A word that no argument claims, if it is not the positional one. -/
def unclaimed (g : Grammar) (afterDashes : Bool) (word : String) : UsageFault :=
  if g.subcommands.isEmpty || (afterDashes && g.subcommands.contains word) then .unknownArgument
  else .unknownSubcommand

def place (g : Grammar) (afterDashes : Bool) (word : String) (m : Matching) :
    Except UsageFault Matching :=
  match g.positional with
  | some a =>
    if m.hasPositional then .error (g.unclaimed afterDashes word)
    else do pure { ← m.settle with pending := some (a, some word), hasPositional := true }
  | none => .error (g.unclaimed afterDashes word)

/-- The words read up to a subcommand, if there is one, which comes back with the words behind
it. -/
def read (g : Grammar) : (afterDashes : Bool) → Matching → List String →
    Except UsageFault (Matching × Option (String × List String))
  | _, m, [] => do pure (← m.settle, none)
  | true, m, word :: rest => do read g true (← g.place true word m) rest
  | false, m, word :: rest =>
    if !m.awaitsValue && g.subcommands.contains word then .ok (m, some (word, rest))
    else
      match word.toList with
      | ['-', '-'] => read g true m rest
      | '-' :: '-' :: text => do read g false (← g.long text m) rest
      | '-' :: c :: text => do read g false (← g.short (c :: text) m) rest
      | _ =>
        if m.awaitsValue then read g false (m.takeValue word) rest
        else do read g false (← g.place false word m) rest

end Grammar

end TrainingLoop.Command
