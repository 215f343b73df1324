import Workflow.Json.Keyed
import Workflow.Yaml.Scalar

/-!
# Linked trees of YAML text

In a linked tree every alias stands for a node with an anchor. Anchors are numbered by the count of
the names before them, and an alias stands for the last node with the number that its name has at
that place. As an alias may stand for a node that it is part of, values are read with two limits:
the depth of the collections, and the number of aliases that are followed.

* `Node.link?`          the node with numbers for names;
* `Tree`                a linked node with its anchored nodes;
* `Tree.ofText?`        the tree that a text is;
* `Followed`            a value that is read while aliases are counted;
* `Tree.text`, `items`, `fields`, `value`   a node as text, list, mapping and free value.
-/

namespace Workflow.Yaml

namespace Node

/-- the numbers of the names so far, last first -/
abbrev Names := List (String × Nat)

/-- the names with one more, and its number -/
def addName (names : Names) (name : String) : Names × Nat :=
  let others := names.filter (·.1 != name)
  ((name, names.length) :: others, names.length)

def linkProperties (names : Names) (p : Properties String) : Names × Properties Nat :=
  match p.anchor? with
  | none => (names, ⟨none, p.tag?⟩)
  | some name =>
    let (names, number) := addName names name
    (names, ⟨some number, p.tag?⟩)

mutual

/-- the node with numbers for names, if every alias has a name that is known at its place -/
def link? (names : Names) : Node String → Option (Names × Node Nat)
  | aliasOf name => (names.lookup name).map fun number => (names, .aliasOf number)
  | scalar p text plain =>
    let (names, p) := linkProperties names p
    some (names, scalar p text plain)
  | sequence p items =>
    let (names, p) := linkProperties names p
    (linkItems? names items).map fun r => (r.1, sequence p r.2)
  | mapping p pairs =>
    let (names, p) := linkProperties names p
    (linkPairs? names pairs).map fun r => (r.1, mapping p r.2)

def linkItems? (names : Names) : List (Node String) → Option (Names × List (Node Nat))
  | [] => some (names, [])
  | n :: ns =>
    match link? names n with
    | none => none
    | some (names, n) => (linkItems? names ns).map fun r => (r.1, n :: r.2)

def linkPairs? (names : Names) :
    List (Node String × Node String) → Option (Names × List (Node Nat × Node Nat))
  | [] => some (names, [])
  | (k, v) :: rest =>
    match link? names k with
    | none => none
    | some (names, k) =>
      match link? names v with
      | none => none
      | some (names, v) => (linkPairs? names rest).map fun r => (r.1, (k, v) :: r.2)

end

/-- a node under the number of its anchor -/
def anchored (p : Properties Nat) (n : Node Nat) : List (Nat × Node Nat) :=
  (p.anchor?.map fun number => (number, n)).toList

mutual

/-- the nodes with anchors in the order of the text -/
def anchors : Node Nat → List (Nat × Node Nat)
  | aliasOf _ => []
  | scalar p text plain => anchored p (scalar p text plain)
  | sequence p items => anchored p (sequence p items) ++ anchorsOfItems items
  | mapping p pairs => anchored p (mapping p pairs) ++ anchorsOfPairs pairs

def anchorsOfItems : List (Node Nat) → List (Nat × Node Nat)
  | [] => []
  | n :: ns => anchors n ++ anchorsOfItems ns

def anchorsOfPairs : List (Node Nat × Node Nat) → List (Nat × Node Nat)
  | [] => []
  | (k, v) :: rest => anchors k ++ (anchors v ++ anchorsOfPairs rest)

end

end Node

structure Tree where
  root : Node Nat
  /-- the nodes with anchors, the last of a number first -/
  anchors : List (Nat × Node Nat)

namespace Tree

def ofText? (text : String) : Option Tree := do
  let cs ← prepare? text.toList
  let named ← Node.ofTokens? (← Token.scan? cs)
  let (_, root) ← named.link? []
  return ⟨root, root.anchors.reverse⟩

abbrev Followed (α : Type) := StateT Nat Option α

/-- the aliases that may be followed in reading a tree -/
def aliasLimit (t : Tree) : Nat := 100 * t.root.size

/-- the collections that may be inside each other -/
def depthLimit : Nat := 128

/-- one alias is followed -/
def spend : Followed Unit := fun left =>
  match left with
  | 0 => none
  | left + 1 => some ((), left)

/-- the node that a node stands for -/
def target (t : Tree) : Node Nat → Followed (Node Nat)
  | .aliasOf number => do
    spend
    match t.anchors.lookup number with
    | some n => pure n
    | none => failure
  | n => pure n

def text (t : Tree) (n : Node Nat) : Followed String := do
  match ← t.target n with
  | .scalar _ s _ => pure s
  | _ => failure

/-- the items of a sequence; an empty plain scalar has none -/
def items (t : Tree) (n : Node Nat) : Followed (List (Node Nat)) := do
  match ← t.target n with
  | .sequence _ ns => pure ns
  | .scalar _ "" true => pure []
  | _ => failure

/-- pairs with the text of their keys -/
def keyed (t : Tree) : List (Node Nat × Node Nat) → Followed (List (String × Node Nat))
  | [] => pure []
  | (k, v) :: rest => do
    let name ← t.text k
    return (name, v) :: (← t.keyed rest)

/-- the fields of a mapping; an empty plain scalar has none -/
def fields (t : Tree) (n : Node Nat) : Followed (List (String × Node Nat)) := do
  match ← t.target n with
  | .mapping _ pairs => t.keyed pairs
  | .scalar _ "" true => pure []
  | _ => failure

/-- a node as a free value, given the reading of a collection -/
def valueWith (t : Tree) (collection : Node Nat → Followed Json.Keyed) (n : Node Nat) :
    Followed Json.Keyed := do
  match ← t.target n with
  | .scalar p s plain =>
    match scalarValue? p.tag? s plain with
    | some v => pure v.keyed
    | none => failure
  | n => collection n

/-- a collection as a free value, given the reading of what is in it -/
def collection (t : Tree) (item : Node Nat → Followed Json.Keyed) :
    Node Nat → Followed Json.Keyed
  | .sequence p ns =>
    if p.ownName?.isSome then failure else return .array (← ns.mapM item)
  | .mapping p pairs =>
    if p.ownName?.isSome then failure
    else return .object (← pairs.mapM fun q => do return (← t.text q.1, ← item q.2))
  | _ => failure

/-- a node as a free value, in which at most `depth` collections are inside each other -/
def value (t : Tree) : Nat → Node Nat → Followed Json.Keyed
  | 0 => t.valueWith fun _ => failure
  | depth + 1 => t.valueWith (t.collection (t.value depth))

/-- nothing for a null, and otherwise what the reading gives -/
def optional {α : Type} (t : Tree) (reading : Node Nat → Followed α) (n : Node Nat) :
    Followed (Option α) := do
  let n ← t.target n
  match n with
  | .scalar p s true =>
    match p.tag? with
    | some .null => if isNull s.toList then return none else failure
    | some _ => return some (← reading n)
    | none => if s.isEmpty || isNull s.toList then return none else return some (← reading n)
  | n => return some (← reading n)

/-- one of some named choices; the name is the text of a scalar, or its tag if it is null -/
def choice {α : Type} (t : Tree) (choices : List (String × α)) (n : Node Nat) : Followed α := do
  match ← t.target n with
  | .scalar p s plain =>
    let name ← match p.ownName? with
      | some name => if plain && (s.isEmpty || isNull s.toList) then pure name else failure
      | none => pure s
    match Fields.get? name choices with
    | some x => pure x
    | none => failure
  | _ => failure

end Tree

end Workflow.Yaml
