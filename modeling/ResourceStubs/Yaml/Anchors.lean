import ResourceStubs.Yaml.Node

/-!
# Anchors and aliases

An alias stands for the node that carries its anchor. Anchors are numbered in document order by the
number of different names seen before, so a name that is used again gets a new number; a later
anchor with the same number takes it over, also for aliases before it. The anchor of a collection
counts from its start on, so a collection may hold an alias of itself.

Because of such cycles aliases are not replaced by the nodes they stand for. `Yaml.Node.numbered`
replaces their names by numbers, and the `Yaml.Graph` of a document keeps the node of each number
aside. A small document can describe a huge one that way, so the graph also bounds how often aliases
may be followed, in proportion to the size of the document.
-/

namespace ResourceStubs.Yaml

/-- The anchors seen so far. -/
structure Anchors where
  /-- The number of each name. -/
  numbers : List (String × Nat) := []
  /-- Where the node of each number starts, the latest first. -/
  starts : List (Nat × Nat) := []
  /-- The nodes with anchors, by where they start. -/
  nodes : List (Nat × Node Nat) := []
  /-- The number of starts and ends of nodes so far. -/
  events : Nat := 0

/-- A step that sees anchors. -/
abbrev Anchoring (α : Type) := StateT Anchors (Except Error) α

namespace Anchors

/-- Counts the start or the end of a node and gives the count before it. -/
def count : Anchoring Nat := do
  let a ← get
  set { a with events := a.events + 1 }
  return a.events

/-- Starts a node: its anchor, if it has one, gets a number. -/
def start (properties : Properties) : Anchoring Nat := do
  let position ← count
  match properties.anchor with
  | none => return position
  | some name =>
    modify fun a =>
      let number := a.numbers.length
      { a with
        numbers := (name, number) :: a.numbers.filter (·.1 != name)
        starts := (number, position) :: a.starts }
    return position

/-- Notes a finished node by where it starts, if it has an anchor. -/
def finish (properties : Properties) (position : Nat) (node : Node Nat) : Anchoring (Node Nat) := do
  if properties.anchor.isSome then
    modify fun a => { a with nodes := (position, node) :: a.nodes }
  return node

end Anchors

namespace Node

mutual

/-- A node with its aliases replaced by numbers. -/
def numbered : Node String → Anchoring (Node Nat)
  | .alias name => do
    let _ ← Anchors.count
    match (← get).numbers.lookup name with
    | some number => return .alias number
    | none => throw .unknownAlias
  | .scalar properties style text => do
    let position ← Anchors.start properties
    Anchors.finish properties position (.scalar properties style text)
  | .sequence properties items => do
    let position ← Anchors.start properties
    let items ← numberedItems items
    let _ ← Anchors.count
    Anchors.finish properties position (.sequence properties items)
  | .mapping properties entries => do
    let position ← Anchors.start properties
    let entries ← numberedEntries entries
    let _ ← Anchors.count
    Anchors.finish properties position (.mapping properties entries)

/-- The items of a sequence with their aliases replaced by numbers. -/
def numberedItems : List (Node String) → Anchoring (List (Node Nat))
  | [] => return []
  | item :: rest => do
    let item ← numbered item
    return item :: (← numberedItems rest)

/-- The entries of a mapping with their aliases replaced by numbers. -/
def numberedEntries : List (Node String × Node String) → Anchoring (List (Node Nat × Node Nat))
  | [] => return []
  | (key, value) :: rest => do
    let key ← numbered key
    let value ← numbered value
    return (key, value) :: (← numberedEntries rest)

end

end Node

/-- A document with the nodes its aliases stand for. -/
structure Graph where
  /-- The document. -/
  root : Node Nat
  /-- The node of each number. -/
  targets : List (Nat × Node Nat) := []
  /-- How often aliases may be followed. -/
  jumpLimit : Nat := 0

/-- How often aliases may be followed for each start or end of a node. -/
def jumpsPerEvent : Nat := 100

/-- The graph of a tree. -/
def Graph.ofNode (tree : Node String) : Except Error Graph := do
  let (root, anchors) ← (tree.numbered).run {}
  let targets := anchors.starts.filterMap fun s => (anchors.nodes.lookup s.2).map (s.1, ·)
  return { root, targets, jumpLimit := anchors.events * jumpsPerEvent }

end ResourceStubs.Yaml
