/-!
# YAML text

The text is read with one character for every line break, and a cursor knows at which line and
column the rest of it starts.

* `isBreak`, `isBlank`, `isWordChar`   classes of characters;
* `isAllowed`                          the characters that a text may hold;
* `prepare?`                           a text with its line breaks unified, none if it holds others;
* `endsWord`                           a text is over, or starts with a blank or a break;
* `startsMark`                         a text starts with the mark that ends or starts a document;
* `Cursor`                             the rest of a text and where it starts.
-/

namespace Workflow.Yaml

def isBreak (c : Char) : Bool := c == '\n' || c == '\u2028' || c == '\u2029'

def isBlank (c : Char) : Bool := c == ' ' || c == '\t'

def isWordChar (c : Char) : Bool := c.isAlphanum || c == '_' || c == '-'

/-- a character that may stand in a text: no control but tab and breaks -/
def isAllowed (c : Char) : Bool :=
  c == '\t' || c == '\n' || c == '\r' || (0x20 ≤ c.toNat && c.toNat ≤ 0x7E) || c.toNat == 0x85 ||
    (0xA0 ≤ c.toNat && c.toNat ≤ 0xFFFD) || 0x10000 ≤ c.toNat

/-- one newline for each of the breaks CR LF, CR and NEL -/
def unifyBreaks : List Char → List Char
  | [] => []
  | '\r' :: '\n' :: cs => '\n' :: unifyBreaks cs
  | c :: cs => (if c = '\r' ∨ c = '\u0085' then '\n' else c) :: unifyBreaks cs

/-- the text as it is read, if all its characters are allowed -/
def prepare? (cs : List Char) : Option (List Char) :=
  if cs.all isAllowed then some (unifyBreaks cs) else none

def endsWord : List Char → Bool
  | [] => true
  | c :: _ => isBlank c || isBreak c

/-- three times the character, and no word goes on behind them -/
def startsTriple (mark : Char) : List Char → Bool
  | a :: b :: c :: rest => a == mark && b == mark && c == mark && endsWord rest
  | _ => false

/-- `---` or `...`, which at the start of a line belong to no scalar -/
def startsMark (cs : List Char) : Bool := startsTriple '-' cs || startsTriple '.' cs

structure Cursor where
  rest : List Char
  /-- in bytes -/
  index : Nat
  line : Nat
  column : Nat

namespace Cursor

def start (cs : List Char) : Cursor := ⟨cs, 0, 0, 0⟩

/-- one character further -/
def advance (c : Cursor) : Cursor :=
  match c.rest with
  | [] => c
  | d :: rest =>
    if isBreak d then ⟨rest, c.index + d.utf8Size, c.line + 1, 0⟩
    else ⟨rest, c.index + d.utf8Size, c.line, c.column + 1⟩

def skip : Nat → Cursor → Cursor
  | 0, c => c
  | n + 1, c => skip n c.advance

/-- the cursor at a later rest of the text -/
def upTo (c : Cursor) (rest : List Char) : Cursor := c.skip (c.rest.length - rest.length)

end Cursor

end Workflow.Yaml
