import Workflow.Yaml.Token

/-!
# Trees of YAML text

* `Node`                a scalar, a collection or an alias, with references of some type;
* `Node.size`           the number of events that a reader of the node would see;
* `Node.ofTokens?`      the one document that a list of tokens is.

A missing node is an empty plain scalar.
-/

namespace Workflow.Yaml

/-- what stands before a node: an anchor and a tag -/
structure Properties (ρ : Type) where
  anchor? : Option ρ
  tag? : Option Tag

/-- the name of a tag of the writer's own -/
def Properties.ownName? {ρ : Type} (p : Properties ρ) : Option String :=
  match p.tag? with
  | some (.own name) => some name
  | _ => none

inductive Node (ρ : Type) where
  | aliasOf (target : ρ)
  | scalar (properties : Properties ρ) (text : String) (plain : Bool)
  | sequence (properties : Properties ρ) (items : List (Node ρ))
  | mapping (properties : Properties ρ) (pairs : List (Node ρ × Node ρ))

namespace Node

variable {ρ : Type}

/-- a missing node -/
def missing : Node ρ := scalar ⟨none, none⟩ "" true

mutual

/-- one for a scalar or an alias, two for start and end of a collection -/
def size : Node ρ → Nat
  | aliasOf _ => 1
  | scalar .. => 1
  | sequence _ items => 2 + sizeItems items
  | mapping _ pairs => 2 + sizePairs pairs

def sizeItems : List (Node ρ) → Nat
  | [] => 0
  | n :: ns => size n + sizeItems ns

def sizePairs : List (Node ρ × Node ρ) → Nat
  | [] => 0
  | (k, v) :: rest => size k + size v + sizePairs rest

end

/-! ## from tokens -/

/-- what handles stand for -/
abbrev Handles := List (String × List UInt8)

/-- the handles that every document has -/
def standardHandles : Handles :=
  [("!", bareTag), ("!!", "tag:yaml.org,2002:".toList.map Char.toUInt8)]

/-- what a tag asks for whose handle is known -/
def fullTag? (handles : Handles) (handle : String) (suffix : List UInt8) : Option Tag :=
  if handle = "" then some (Tag.ofBytes suffix)
  else (handles.lookup handle).map fun replacement => Tag.ofBytes (replacement ++ suffix)

/-- the properties in front, in either order -/
def properties? (handles : Handles) : List Token → Option (Properties String × List Token)
  | .anchor a :: .tag h s :: ts => (fullTag? handles h s).map fun t => (⟨some a, some t⟩, ts)
  | .tag h s :: .anchor a :: ts => (fullTag? handles h s).map fun t => (⟨some a, some t⟩, ts)
  | .anchor a :: ts => some (⟨some a, none⟩, ts)
  | .tag h s :: ts => (fullTag? handles h s).map fun t => (⟨none, some t⟩, ts)
  | ts => some (⟨none, none⟩, ts)

/-- where a node stands -/
inductive Position where
  | inFlow
  | inBlock
  /-- a key or value of a block mapping, where a sequence need not be indented -/
  | ofMapping
deriving DecidableEq, Repr

/-- in a block, the next token is none that a node starts with -/
def endsBlockNode (position : Position) : List Token → Bool
  | .entry :: _ => position == .inBlock
  | .key :: _ | .value :: _ => position == .ofMapping
  | .blockEnd :: _ => true
  | _ => false

/-- an item without indentation is missing -/
def endsFlatItem : List Token → Bool
  | .entry :: _ | .key :: _ | .value :: _ | .blockEnd :: _ => true
  | _ => false

mutual

/-- the node in front; at most `limit` calls are nested -/
def node? (limit : Nat) (handles : Handles) (position : Position) (ts : List Token) :
    Option (Node String × List Token) :=
  match limit with
  | 0 => none
  | limit + 1 =>
    match ts with
    | .aliasOf name :: ts => some (.aliasOf name, ts)
    | ts => do
      let (p, ts) ← properties? handles ts
      match ts, position with
      | .scalar s plain :: ts, _ => some (.scalar p s plain, ts)
      | .flowSequence :: ts, _ =>
        let (items, ts) ← flowItems? limit handles true ts
        some (.sequence p items, ts)
      | .flowMapping :: ts, _ =>
        let (pairs, ts) ← flowPairs? limit handles true ts
        some (.mapping p pairs, ts)
      | .entry :: _, .ofMapping =>
        let (items, ts) ← flatItems? limit handles ts
        some (.sequence p items, ts)
      | .blockSequence :: ts, .inBlock | .blockSequence :: ts, .ofMapping =>
        let (items, ts) ← blockItems? limit handles ts
        some (.sequence p items, ts)
      | .blockMapping :: ts, .inBlock | .blockMapping :: ts, .ofMapping =>
        let (pairs, ts) ← blockPairs? limit handles ts
        some (.mapping p pairs, ts)
      | ts, _ => if p.anchor?.isSome || p.tag?.isSome then some (.scalar p "" true, ts) else none

/-- the items of a block sequence up to its end -/
def blockItems? (limit : Nat) (handles : Handles) (ts : List Token) :
    Option (List (Node String) × List Token) :=
  match limit with
  | 0 => none
  | limit + 1 =>
    match ts with
    | .blockEnd :: ts => some ([], ts)
    | .entry :: ts => do
      let (item, ts) ← if endsBlockNode .inBlock ts then some (missing, ts)
        else node? limit handles .inBlock ts
      let (items, ts) ← blockItems? limit handles ts
      some (item :: items, ts)
    | _ => none

/-- the items of a sequence that is not indented; it has no mark at its end -/
def flatItems? (limit : Nat) (handles : Handles) (ts : List Token) :
    Option (List (Node String) × List Token) :=
  match limit with
  | 0 => none
  | limit + 1 =>
    match ts with
    | .entry :: ts => do
      let (item, ts) ← if endsFlatItem ts then some (missing, ts)
        else node? limit handles .inBlock ts
      let (items, ts) ← flatItems? limit handles ts
      some (item :: items, ts)
    | ts => some ([], ts)

/-- the pairs of a block mapping up to its end -/
def blockPairs? (limit : Nat) (handles : Handles) (ts : List Token) :
    Option (List (Node String × Node String) × List Token) :=
  match limit with
  | 0 => none
  | limit + 1 =>
    match ts with
    | .blockEnd :: ts => some ([], ts)
    | .key :: ts => do
      let (k, ts) ← if endsBlockNode .ofMapping ts then some (missing, ts)
        else node? limit handles .ofMapping ts
      let (v, ts) ← blockValue? limit handles ts
      let (pairs, ts) ← blockPairs? limit handles ts
      some ((k, v) :: pairs, ts)
    | _ => none

/-- the value of a pair in a block mapping, which may be missing -/
def blockValue? (limit : Nat) (handles : Handles) (ts : List Token) :
    Option (Node String × List Token) :=
  match limit with
  | 0 => none
  | limit + 1 =>
    match ts with
    | .value :: ts =>
      if endsBlockNode .ofMapping ts then some (missing, ts) else node? limit handles .ofMapping ts
    | ts => some (missing, ts)

/-- the items of a flow sequence up to its end; a pair among them is a mapping of its own -/
def flowItems? (limit : Nat) (handles : Handles) (first : Bool) (ts : List Token) :
    Option (List (Node String) × List Token) :=
  match limit with
  | 0 => none
  | limit + 1 => do
    let ts ← match ts, first with
      | .flowSequenceEnd :: _, _ => some ts
      | .separator :: ts, false => some ts
      | _, true => some ts
      | _, false => none
    match ts with
    | .flowSequenceEnd :: ts => some ([], ts)
    | .key :: ts =>
      let (pair, ts) ← flowPair? limit handles ts
      let (items, ts) ← flowItems? limit handles false ts
      some (.mapping ⟨none, none⟩ [pair] :: items, ts)
    | ts =>
      let (item, ts) ← node? limit handles .inFlow ts
      let (items, ts) ← flowItems? limit handles false ts
      some (item :: items, ts)

/-- the pair after a key mark in a flow sequence -/
def flowPair? (limit : Nat) (handles : Handles) (ts : List Token) :
    Option ((Node String × Node String) × List Token) :=
  match limit with
  | 0 => none
  | limit + 1 => do
    let (k, ts) ← match ts with
      | .value :: ts | .separator :: ts | .flowSequenceEnd :: ts => some (missing, ts)
      | ts => node? limit handles .inFlow ts
    match ts with
    | .value :: .separator :: _ | .value :: .flowSequenceEnd :: _ => some ((k, missing), ts.drop 1)
    | .value :: ts =>
      let (v, ts) ← node? limit handles .inFlow ts
      some ((k, v), ts)
    | ts => some ((k, missing), ts)

/-- the pairs of a flow mapping up to its end -/
def flowPairs? (limit : Nat) (handles : Handles) (first : Bool) (ts : List Token) :
    Option (List (Node String × Node String) × List Token) :=
  match limit with
  | 0 => none
  | limit + 1 => do
    let ts ← match ts, first with
      | .flowMappingEnd :: _, _ => some ts
      | .separator :: ts, false => some ts
      | _, true => some ts
      | _, false => none
    match ts with
    | .flowMappingEnd :: ts => some ([], ts)
    | .key :: ts =>
      let (k, ts) ← match ts with
        | .value :: _ | .separator :: _ | .flowMappingEnd :: _ => some (missing, ts)
        | ts => node? limit handles .inFlow ts
      let (v, ts) ← flowValue? limit handles ts
      let (pairs, ts) ← flowPairs? limit handles false ts
      some ((k, v) :: pairs, ts)
    | ts =>
      let (k, ts) ← node? limit handles .inFlow ts
      let (pairs, ts) ← flowPairs? limit handles false ts
      some ((k, missing) :: pairs, ts)

/-- the value of a pair in a flow mapping, which may be missing -/
def flowValue? (limit : Nat) (handles : Handles) (ts : List Token) :
    Option (Node String × List Token) :=
  match limit with
  | 0 => none
  | limit + 1 =>
    match ts with
    | .value :: .separator :: _ | .value :: .flowMappingEnd :: _ => some (missing, ts.drop 1)
    | .value :: ts => node? limit handles .inFlow ts
    | ts => some (missing, ts)

end

/-- the versions that are understood -/
def isKnownVersion (major minor : Nat) : Bool := major == 1 && (minor == 1 || minor == 2)

/-- the directives in front: one version at most, and no handle twice -/
def directives? (versioned : Bool) (handles : Handles) : List Token → Option (Handles × List Token)
  | .directive (.version major minor) :: ts =>
    if !versioned && isKnownVersion major minor then directives? true handles ts else none
  | .directive (.tagPrefix handle replacement) :: ts =>
    if handles.any (·.1 == handle) then none
    else directives? versioned ((handle, replacement) :: handles) ts
  | ts => some (handles, ts)

/-- only ends of documents are left -/
def isOver (ts : List Token) : Bool := ts.all (· == .documentEnd)

/-- the one document of the tokens; a nesting needs at most two calls for every token -/
def ofTokens? (ts : List Token) : Option (Node String) := do
  let (own, rest) ← directives? false [] ts
  let handles := own ++ standardHandles
  let limit := 2 * ts.length + 2
  let (root, rest) ← match rest with
    | .documentStart :: [] => some (missing, [])
    | .documentStart :: .documentEnd :: rest => some (missing, rest)
    | .documentStart :: rest => node? limit handles .inBlock rest
    | rest => if ts.length = rest.length then node? limit handles .inBlock rest else none
  if isOver rest then some root else none

end Node

end Workflow.Yaml
