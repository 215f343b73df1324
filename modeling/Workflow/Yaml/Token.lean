import Workflow.Yaml.Block
import Workflow.Yaml.Plain
import Workflow.Yaml.Tag

/-!
# Tokens of YAML text

Scalars, properties of nodes and marks become tokens in the order of the text. Blocks have no marks
of their own: where one starts and ends follows from columns, and a key without a mark is known only
when its colon is reached. Until then its place among the tokens is kept, and the key is given up
after the end of its line or 1024 bytes.

* `Token`             the tokens;
* `OpenKey`           a place where a key may have started;
* `Scan`              the tokens so far, what is open, and whether a key may start;
* `Scan.token?`       one more token, or several;
* `Token.scan?`       the tokens of a text.
-/

namespace Workflow.Yaml

inductive Token where
  | directive (d : Directive)
  /-- `---` -/
  | documentStart
  /-- `...` -/
  | documentEnd
  | blockSequence
  | blockMapping
  | blockEnd
  | flowSequence
  | flowSequenceEnd
  | flowMapping
  | flowMappingEnd
  /-- `-` before an item -/
  | entry
  /-- `,` between items -/
  | separator
  | key
  | value
  | anchor (name : String)
  | aliasOf (name : String)
  | tag (handle : String) (suffix : List UInt8)
  | scalar (text : String) (plain : Bool)
deriving DecidableEq, Repr

structure OpenKey where
  /-- it has to be a key -/
  required : Bool
  /-- the number of tokens before it -/
  place : Nat
  index : Nat
  line : Nat
  column : Nat
deriving DecidableEq, Repr

structure Scan where
  /-- last first -/
  tokens : List Token
  /-- the number of tokens -/
  count : Nat
  /-- for every open block, innermost first, the least column of what is inside -/
  margins : List Nat
  /-- the key that may have started in the innermost flow collection, or in the block around all -/
  openKey? : Option OpenKey
  /-- the same for the collections around it; nothing is around a block -/
  outer : List (Option OpenKey)
  keyAllowed : Bool

namespace Scan

def initial : Scan := ⟨[], 0, [], none, [], true⟩

/-- inside a flow collection -/
def inFlow (s : Scan) : Bool := !s.outer.isEmpty

/-- the least column of what is inside the innermost block -/
def margin (s : Scan) : Nat := s.margins.headD 0

def push (s : Scan) (t : Token) : Scan := { s with tokens := t :: s.tokens, count := s.count + 1 }

/-- one more token, before those that came after the first `place` ones -/
def insertAt (s : Scan) (place : Nat) (t : Token) : Scan :=
  let later := s.count - place
  { s with tokens := s.tokens.take later ++ t :: s.tokens.drop later, count := s.count + 1 }

/-- a key that has to be one is not given up -/
def giveUp? : Option OpenKey → Option (Option OpenKey)
  | some k => if k.required then none else some none
  | none => some none

/-- a key is too far away -/
def isStale (c : Cursor) (k : OpenKey) : Bool := k.line < c.line || k.index + 1024 < c.index

def keepFresh? (c : Cursor) (k? : Option OpenKey) : Option (Option OpenKey) :=
  if k?.any (isStale c) then giveUp? k? else some k?

/-- gives up the keys that are too far away -/
def dropStale? (s : Scan) (c : Cursor) : Option Scan := do
  return { s with openKey? := ← keepFresh? c s.openKey?, outer := ← s.outer.mapM (keepFresh? c) }

/-- gives up the innermost key -/
def dropKey? (s : Scan) : Option Scan := do return { s with openKey? := ← giveUp? s.openKey? }

/-- a key may start here -/
def saveKey? (s : Scan) (c : Cursor) : Option Scan :=
  if s.keyAllowed then do
    let s ← s.dropKey?
    let required := !s.inFlow && s.margin == c.column + 1
    return { s with openKey? := some ⟨required, s.count, c.index, c.line, c.column⟩ }
  else some s

/-- closes the blocks whose margin is beyond `limit` -/
def closeBeyond (s : Scan) (limit : Nat) : Scan :=
  if s.inFlow then s
  else
    let closed := s.margins.takeWhile (limit < ·)
    { s with
      tokens := closed.map (fun _ => Token.blockEnd) ++ s.tokens
      count := s.count + closed.length
      margins := s.margins.dropWhile (limit < ·) }

/-- opens a block at a column, if it is deeper than the innermost one -/
def openBlock (s : Scan) (column place : Nat) (t : Token) : Scan :=
  if s.inFlow || column < s.margin then s
  else { s.insertAt place t with margins := (column + 1) :: s.margins }

/-! ## tokens by their first character -/

abbrev Step := Option (Scan × Cursor)

/-- closes all blocks before a line that belongs to no block -/
def unindent? (s : Scan) : Option Scan := do
  return { ← (s.closeBeyond 0).dropKey? with keyAllowed := false }

def directive? (s : Scan) (c : Cursor) : Step := do
  let (d, rest) ← Directive.read? (c.rest.drop 1)
  return ((← s.unindent?).push (.directive d), c.upTo rest)

def mark? (s : Scan) (c : Cursor) (t : Token) : Step := do return ((← s.unindent?).push t, c.skip 3)

def openFlow? (s : Scan) (c : Cursor) (t : Token) : Step := do
  let s ← s.saveKey? c
  return ({ s.push t with openKey? := none, outer := s.openKey? :: s.outer, keyAllowed := true },
    c.advance)

def closeFlow? (s : Scan) (c : Cursor) (t : Token) : Step := do
  let s ← s.dropKey?
  let s : Scan := match s.outer with
    | [] => s
    | k? :: outer => { s with openKey? := k?, outer := outer }
  return ({ s.push t with keyAllowed := false }, c.advance)

def separator? (s : Scan) (c : Cursor) : Step := do
  return ({ (← s.dropKey?).push .separator with keyAllowed := true }, c.advance)

/-- an item of a block sequence -/
def entry? (s : Scan) (c : Cursor) : Step := do
  if !s.inFlow && !s.keyAllowed then none
  let s ← (s.openBlock c.column s.count .blockSequence).dropKey?
  return ({ s.push .entry with keyAllowed := true }, c.advance)

/-- a key with a mark of its own -/
def key? (s : Scan) (c : Cursor) : Step := do
  if !s.inFlow && !s.keyAllowed then none
  let s ← (s.openBlock c.column s.count .blockMapping).dropKey?
  return ({ s.push .key with keyAllowed := !s.inFlow }, c.advance)

/-- a colon, which makes a key of what may have been one -/
def value? (s : Scan) (c : Cursor) : Step :=
  match s.openKey? with
  | some k =>
    let s := (s.insertAt k.place .key).openBlock k.column k.place .blockMapping
    some ({ s.push .value with openKey? := none, keyAllowed := false }, c.advance)
  | none => do
    if !s.inFlow && !s.keyAllowed then none
    let s := s.openBlock c.column s.count .blockMapping
    return ({ s.push .value with keyAllowed := !s.inFlow }, c.advance)

/-- a token with which a key may start -/
def content? (s : Scan) (c : Cursor) (t : Token) (rest : List Char) : Step := do
  return ({ (← s.saveKey? c).push t with keyAllowed := false }, c.upTo rest)

def anchor? (s : Scan) (c : Cursor) (f : String → Token) : Step := do
  let (name, rest) ← anchorName? (c.rest.drop 1)
  s.content? c (f name) rest

def tag? (s : Scan) (c : Cursor) : Step := do
  let (handle, suffix, rest) ← Yaml.tag? s.inFlow c.rest
  s.content? c (.tag handle suffix) rest

def quoted? (s : Scan) (c : Cursor) (pieces : Option (List Piece × List Char)) : Step := do
  let (ps, rest) ← pieces
  s.content? c (.scalar (String.ofList (quotedText ps)) false) rest

/-- a plain scalar; after its last line a key may start -/
def plain? (s : Scan) (c : Cursor) : Step := do
  let (ps, rest) ← plainPieces s.inFlow s.margin c.column .afterBlank c.rest
  let (cs, gap) := fold .empty ps
  let (s, c) ← s.content? c (.scalar (String.ofList cs) true) rest
  return ({ s with keyAllowed := gap.isBroken }, c)

def block? (s : Scan) (c : Cursor) (literal : Bool) : Step := do
  let s ← s.dropKey?
  let (cs, rest) ← blockScalar? literal s.margin (c.rest.drop 1)
  return ({ s.push (.scalar (String.ofList cs) false) with keyAllowed := true }, c.upTo rest)

/-- marks that no plain scalar starts with, whatever follows -/
def isReserved (c : Char) : Bool :=
  isFlowMark c || ['#', '&', '*', '!', '|', '>', '\'', '"', '%', '@', '\x60'].contains c

/-- a plain scalar may start with these two characters -/
def startsPlain (flow : Bool) (c : Char) (rest : List Char) : Bool :=
  if c = '-' then !(rest.head?.any isBlank)
  else if c = '?' ∨ c = ':' then !flow && !endsWord rest
  else !isReserved c && !isBlank c

/-- the tokens that start at the cursor, whose first character and rest are given -/
def token? (s : Scan) (c : Cursor) (first : Char) (rest : List Char) : Step :=
  if c.column = 0 ∧ first = '%' then s.directive? c
  else if c.column = 0 ∧ startsTriple '-' c.rest then s.mark? c .documentStart
  else if c.column = 0 ∧ startsTriple '.' c.rest then s.mark? c .documentEnd
  else if first = '[' then s.openFlow? c .flowSequence
  else if first = '\x7b' then s.openFlow? c .flowMapping
  else if first = ']' then s.closeFlow? c .flowSequenceEnd
  else if first = '\x7d' then s.closeFlow? c .flowMappingEnd
  else if first = ',' then s.separator? c
  else if first = '-' ∧ endsWord rest then s.entry? c
  else if first = '?' ∧ (s.inFlow ∨ endsWord rest) then s.key? c
  else if first = ':' ∧ (s.inFlow ∨ endsWord rest) then s.value? c
  else if first = '*' then s.anchor? c .aliasOf
  else if first = '&' then s.anchor? c .anchor
  else if first = '!' then s.tag? c
  else if first = '|' ∧ !s.inFlow then s.block? c true
  else if first = '>' ∧ !s.inFlow then s.block? c false
  else if first = '\'' then s.quoted? c (singlePieces rest)
  else if first = '"' then s.quoted? c (doublePieces rest)
  else if startsPlain s.inFlow first rest then s.plain? c
  else none

/-! ## all tokens -/

/-- the text after blanks, comments and breaks, and whether a key may start there; at the start of a
line one byte order mark counts as a blank -/
def skipGap (flow keyAllowed lineStart inComment : Bool) : List Char → Bool × List Char
  | [] => (keyAllowed, [])
  | c :: cs =>
    if isBreak c then skipGap flow (keyAllowed || !flow) true false cs
    else if inComment || c == ' ' || (c == '\t' && (flow || !keyAllowed)) ||
        (lineStart && c == '\ufeff') then
      skipGap flow keyAllowed false inComment cs
    else if c == '#' then skipGap flow keyAllowed false true cs
    else (keyAllowed, c :: cs)

/-- the tokens from the cursor on; each takes a character at least, so there are at most `limit` -/
def run? : Nat → Scan → Cursor → Option (List Token)
  | 0, _, _ => none
  | limit + 1, s, c => do
    let (allowed, text) := skipGap s.inFlow s.keyAllowed (c.column == 0) false c.rest
    let c := c.upTo text
    let s ← ({ s with keyAllowed := allowed } : Scan).dropStale? c
    match c.rest with
    | [] => return (← s.unindent?).tokens.reverse
    | first :: rest =>
      let (s, c) ← (s.closeBeyond (c.column + 1)).token? c first rest
      run? limit s c

end Scan

def Token.scan? (cs : List Char) : Option (List Token) :=
  Scan.run? (cs.length + 1) .initial (.start cs)

end Workflow.Yaml
