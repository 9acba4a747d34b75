import TrainingLoop.KeyMap
import TrainingLoop.Yaml.Stream
import TrainingLoop.Yaml.Tree
/-!
# Nodes

A document whose tags are replaced by what they say and whose aliases point to named nodes. Names
have numbers: a name is given the number of names that are known before it, and an alias has the
number that its name has where it stands. It points to the last node of the document that has this
number, which may follow after it or be around it.
-/

namespace TrainingLoop.Yaml

inductive Node where
  | scalar (tag : Option TagMeaning) (style : ScalarStyle) (text : String)
  | list (tag : Option TagMeaning) (items : List Node)
  | map (tag : Option TagMeaning) (entries : List (Node × Node))
  | reference (number : Nat)

/-- A document with what its aliases point to. -/
structure LinkedDocument where
  root : Node
  /-- The named nodes in the order of their first characters. -/
  named : List (Nat × Node)
  /-- The number of parts that the document is written in. -/
  parts : Nat

/-- A node of a tree, or what holds several. -/
structure Linked (α : Type) where
  node : α
  /-- The named nodes in it, in the order of their first characters. -/
  named : List (Nat × Node)
  /-- The numbers of the names that are known behind it. -/
  numbers : KeyMap Nat

namespace Tree

/-- The number of parts that a tree is written in: a list or a map has a start and an end. -/
def parts : Tree → Nat
  | scalar _ _ => 1
  | reference _ => 1
  | marked _ tree => tree.parts
  | list items => 2 + listParts items
  | map entries => 2 + mapParts entries
where
  listParts : List Tree → Nat
    | [] => 0
    | tree :: rest => tree.parts + listParts rest
  mapParts : List (Tree × Tree) → Nat
    | [] => 0
    | (key, value) :: rest => key.parts + value.parts + mapParts rest

/-- What the tag handles of a document stand for. -/
abbrev Handles := List (String × List UInt8)

mutual

/-- The node of a tree that has a tag and stands after the numbered names. -/
def link? (h : Handles) (tag : Option TagMeaning) (numbers : KeyMap Nat) :
    Tree → Option (Linked Node)
  | scalar style text => some ⟨.scalar tag style text, [], numbers⟩
  | reference name =>
    (numbers.get? name).map fun number => ⟨.reference number, [], numbers⟩
  | list items =>
    (linkItems? h numbers items).map fun l => { l with node := .list tag l.node }
  | map entries =>
    (linkEntries? h numbers entries).map fun l => { l with node := .map tag l.node }
  | marked p tree => do
    let tag ←
      match p.tag with
      | none => some none
      | some t => (t.meaning? h).map some
    match p.anchor with
    | none => link? h tag numbers tree
    | some name =>
      let number := numbers.size
      let l ← link? h tag (numbers.insert name number) tree
      some { l with named := (number, l.node) :: l.named }

def linkItems? (h : Handles) (numbers : KeyMap Nat) : List Tree → Option (Linked (List Node))
  | [] => some ⟨[], [], numbers⟩
  | tree :: rest => do
    let item ← link? h none numbers tree
    let more ← linkItems? h item.numbers rest
    some ⟨item.node :: more.node, item.named ++ more.named, more.numbers⟩

def linkEntries? (h : Handles) (numbers : KeyMap Nat) :
    List (Tree × Tree) → Option (Linked (List (Node × Node)))
  | [] => some ⟨[], [], numbers⟩
  | (key, value) :: rest => do
    let k ← link? h none numbers key
    let v ← link? h none k.numbers value
    let more ← linkEntries? h v.numbers rest
    some ⟨(k.node, v.node) :: more.node, k.named ++ v.named ++ more.named, more.numbers⟩

end

end Tree

namespace WrittenDocument

/-- The meanings that directives give to tag handles; no handle may be given two, and the version
may be told once. -/
def handles? : List Directive → Option Tree.Handles
  | [] => some []
  | d :: rest => do
    let handles ← handles? rest
    match d with
    | .version => if rest.contains .version then none else some handles
    | .tagHandle handle expansion =>
      if (handles.lookup handle).isSome then none else some ((handle, expansion) :: handles)

/-- The document with its tags and aliases understood; each alias must name a node before it. -/
def linked? (d : WrittenDocument) : Option LinkedDocument := do
  let handles ← handles? d.directives
  let l ← d.tree.link? (handles ++ Tag.knownHandles) none .empty
  some ⟨l.node, l.named, d.tree.parts⟩

end WrittenDocument

def LinkedDocument.ofText? (text : String) : Option LinkedDocument :=
  ((tokens? text).bind WrittenDocument.ofTokens?).bind WrittenDocument.linked?

end TrainingLoop.Yaml
