import TrainingLoop.Yaml.Token
/-!
# The written form of a document

The tree that a stream of tokens describes, with its anchors, aliases and tags as they are written.
What is left out is an empty plain scalar.
-/

namespace TrainingLoop.Yaml

/-- What stands before a node: a name for it, and a tag. -/
structure Properties where
  anchor : Option String := none
  tag : Option Tag := none
  deriving DecidableEq, Repr

inductive Tree where
  | scalar (style : ScalarStyle) (text : String)
  | list (items : List Tree)
  | map (entries : List (Tree × Tree))
  | reference (name : String)
  | marked (properties : Properties) (tree : Tree)

namespace Properties

/-- The properties at the head of tokens, in either order, and what follows. -/
def take : List Token → Properties × List Token
  | .anchor name :: .tag tag :: rest => (⟨some name, some tag⟩, rest)
  | .tag tag :: .anchor name :: rest => (⟨some name, some tag⟩, rest)
  | .anchor name :: rest => (⟨some name, none⟩, rest)
  | .tag tag :: rest => (⟨none, some tag⟩, rest)
  | rest => ({}, rest)

def isEmpty (p : Properties) : Bool := p.anchor.isNone && p.tag.isNone

def mark (p : Properties) (tree : Tree) : Tree := if p.isEmpty then tree else .marked p tree

end Properties

namespace Tree

/-- What stands for a node that is left out. -/
def missing : Tree := scalar .plain ""

instance : Inhabited Tree := ⟨missing⟩

/-- Where a node may be left out, one of the tokens that end its place comes next. -/
def endsBlockEntry : List Token → Bool
  | .blockEntry :: _ => true
  | .blockEnd :: _ => true
  | [] => true
  | _ => false

def endsBlockValue : List Token → Bool
  | .key :: _ => true
  | .value :: _ => true
  | .blockEnd :: _ => true
  | [] => true
  | _ => false

def endsPlainEntry (ts : List Token) : Bool :=
  match ts with
  | .blockEntry :: _ => true
  | _ => endsBlockValue ts

def endsFlowNode (close : Token) : List Token → Bool
  | [] => true
  | t :: _ => t == .flowEntry || t == close

def endsFlowKey (close : Token) : List Token → Bool
  | [] => true
  | t :: _ => t == .value || t == .flowEntry || t == close

def afterComma? : List Token → Option (List Token)
  | .flowEntry :: rest => some rest
  | _ => none

def asList (items : Option (List Tree × List Token)) : Option (Tree × List Token) :=
  items.map fun (items, rest) => (list items, rest)

def asMap (entries : Option (List (Tree × Tree) × List Token)) : Option (Tree × List Token) :=
  entries.map fun (entries, rest) => (map entries, rest)

/-- Where no node follows, properties alone stand for one that is left out. -/
def missingWith? (p : Properties) (ts : List Token) : Option (Tree × List Token) :=
  if p.isEmpty then none else some (missing, ts)

mutual

/-- A node, and the tokens after it. Block nodes are read where they are allowed; as the value of
a map's entry, also a list that stands no deeper than the map. -/
def parse? (block entryValue : Bool) : (fuel : Nat) → List Token → Option (Tree × List Token)
  | 0, _ => none
  | fuel + 1, ts =>
    match ts with
    | .reference name :: rest => some (reference name, rest)
    | _ =>
      let (p, ts) := Properties.take ts
      let tree : Option (Tree × List Token) :=
        match ts with
        | .scalar style text :: rest => some (scalar style text, rest)
        | .flowListStart :: rest => asList (flowItems? true fuel rest)
        | .flowMapStart :: rest => asMap (flowEntries? true fuel rest)
        | .blockListStart :: rest =>
          if block then asList (blockItems? fuel rest) else missingWith? p ts
        | .blockMapStart :: rest =>
          if block then asMap (blockEntries? fuel rest) else missingWith? p ts
        | .blockEntry :: _ => if entryValue then asList (plainItems? fuel ts) else missingWith? p ts
        | _ => missingWith? p ts
      tree.map fun (tree, rest) => (p.mark tree, rest)

/-- The items of a block list, up to its end. -/
def blockItems? : (fuel : Nat) → List Token → Option (List Tree × List Token)
  | 0, _ => none
  | fuel + 1, ts =>
    match ts with
    | .blockEnd :: rest => some ([], rest)
    | .blockEntry :: rest => do
      let (item, rest) ←
        if endsBlockEntry rest then some (missing, rest) else parse? true false fuel rest
      let (more, rest) ← blockItems? fuel rest
      some (item :: more, rest)
    | _ => none

/-- The items of a list that stands no deeper than the map around it. -/
def plainItems? : (fuel : Nat) → List Token → Option (List Tree × List Token)
  | 0, _ => none
  | fuel + 1, ts =>
    match ts with
    | .blockEntry :: rest => do
      let (item, rest) ←
        if endsPlainEntry rest then some (missing, rest) else parse? true false fuel rest
      let (more, rest) ← plainItems? fuel rest
      some (item :: more, rest)
    | _ => some ([], ts)

/-- The entries of a block map, up to its end. -/
def blockEntries? : (fuel : Nat) → List Token → Option (List (Tree × Tree) × List Token)
  | 0, _ => none
  | fuel + 1, ts =>
    match ts with
    | .blockEnd :: rest => some ([], rest)
    | .key :: rest => do
      let (key, rest) ←
        if endsBlockValue rest then some (missing, rest) else parse? true true fuel rest
      let (value, rest) ←
        match rest with
        | .value :: rest =>
          if endsBlockValue rest then some (missing, rest) else parse? true true fuel rest
        | rest => some (missing, rest)
      let (more, rest) ← blockEntries? fuel rest
      some ((key, value) :: more, rest)
    | _ => none

/-- The value of an entry in a flow collection, if a colon announces one. -/
def flowValue? (close : Token) : (fuel : Nat) → List Token → Option (Tree × List Token)
  | 0, _ => none
  | fuel + 1, ts =>
    match ts with
    | .value :: rest =>
      if endsFlowNode close rest then some (missing, rest) else parse? false false fuel rest
    | rest => some (missing, rest)

/-- The items of a flow list, up to its end; a comma stands before each but the first. An entry of
a map among them is a map of its own; where its key is left out, the token that tells so is not read
again. -/
def flowItems? (first : Bool) : (fuel : Nat) → List Token → Option (List Tree × List Token)
  | 0, _ => none
  | fuel + 1, ts =>
    match ts with
    | .flowListEnd :: rest => some ([], rest)
    | _ => do
      let ts ← if first then some ts else afterComma? ts
      match ts with
      | .flowListEnd :: rest => some ([], rest)
      | .key :: rest =>
        let (key, rest) ←
          if endsFlowKey .flowListEnd rest then some (missing, rest.drop 1)
          else parse? false false fuel rest
        let (value, rest) ← flowValue? .flowListEnd fuel rest
        let (more, rest) ← flowItems? false fuel rest
        some (map [(key, value)] :: more, rest)
      | _ =>
        let (item, rest) ← parse? false false fuel ts
        let (more, rest) ← flowItems? false fuel rest
        some (item :: more, rest)

/-- The entries of a flow map, up to its end. A node without a colon is a key with an empty
value. -/
def flowEntries? (first : Bool) : (fuel : Nat) → List Token →
    Option (List (Tree × Tree) × List Token)
  | 0, _ => none
  | fuel + 1, ts =>
    match ts with
    | .flowMapEnd :: rest => some ([], rest)
    | _ => do
      let ts ← if first then some ts else afterComma? ts
      match ts with
      | .flowMapEnd :: rest => some ([], rest)
      | .key :: rest =>
        let (key, rest) ←
          if endsFlowKey .flowMapEnd rest then some (missing, rest)
          else parse? false false fuel rest
        let (value, rest) ← flowValue? .flowMapEnd fuel rest
        let (more, rest) ← flowEntries? false fuel rest
        some ((key, value) :: more, rest)
      | _ =>
        let (key, rest) ← parse? false false fuel ts
        let (more, rest) ← flowEntries? false fuel rest
        some ((key, missing) :: more, rest)

end

/-- The tokens after the end of a document, marked or not. -/
def afterDocument (ts : List Token) : List Token := ts.dropWhile (· == .documentEnd)

end Tree

structure WrittenDocument where
  directives : List Directive
  tree : Tree

namespace WrittenDocument

def takeDirectives : List Token → List Directive × List Token
  | .directive d :: rest =>
    let (directives, rest) := takeDirectives rest
    (d :: directives, rest)
  | rest => ([], rest)

/-- The root of a document that was begun by its marker. -/
def root? (fuel : Nat) : List Token → Option (Tree × List Token)
  | [] => some (.missing, [])
  | .documentStart :: rest => some (.missing, .documentStart :: rest)
  | .documentEnd :: rest => some (.missing, .documentEnd :: rest)
  | ts => Tree.parse? true false fuel ts

/-- The one document that tokens hold; a second one is refused. Directives must be followed by the
marker of the document's start. -/
def ofTokens? (ts : List Token) : Option WrittenDocument := do
  let (directives, ts) := takeDirectives ts
  let fuel := 2 * ts.length + 2
  let (tree, rest) ←
    match ts with
    | .documentStart :: rest => root? fuel rest
    | [] => if directives.isEmpty then some (.missing, []) else none
    | ts => if directives.isEmpty then Tree.parse? true false fuel ts else none
  if (Tree.afterDocument rest).isEmpty then some ⟨directives, tree⟩ else none

end WrittenDocument

end TrainingLoop.Yaml
