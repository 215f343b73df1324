import Workflow.Text.Slice

/-!
# String literals

Between its quotes a literal is written in pieces. Quote, backslash and the control characters below
the space always have an escape, and each is a piece of its own; what stands between two of them is
a fragment. An `Escape` says what becomes of the other characters: where those above `~` are written
as UTF-16 units, a fragment is copied slice by slice between them.

* `hex4`                  four lower-case hexadecimal digits;
* `units16`               the UTF-16 units of a character;
* `Piece`, `pieces`       a text cut at the characters that always have an escape;
* `Escape`                `ascii` escapes everything above `~`, `plain` nothing more;
* `Escape.fragment?`      the text of a fragment;
* `Escape.quote`          the literal of a string;
* `Escape.char`           what one character is in a literal.
-/

namespace Workflow.Json

def hex4 (n : Nat) : List Char :=
  [(n / 4096 % 16).digitChar, (n / 256 % 16).digitChar, (n / 16 % 16).digitChar, (n % 16).digitChar]

/-- the UTF-16 units of a character: one, or a surrogate pair above the basic plane -/
def units16 (c : Char) : List Nat :=
  if c.toNat < 0x10000 then [c.toNat]
  else [0xD800 + (c.toNat - 0x10000) / 0x400, 0xDC00 + (c.toNat - 0x10000) % 0x400]

/-- the characters with an escape of one letter -/
def shortEscape? (c : Char) : Option Char :=
  if c = '"' then some '"'
  else if c = '\\' then some '\\'
  else if c = '\x08' then some 'b'
  else if c = '\x0c' then some 'f'
  else if c = '\n' then some 'n'
  else if c = '\r' then some 'r'
  else if c = '\t' then some 't'
  else none

/-- the escapes of the UTF-16 units of a character -/
def unitEscapes (c : Char) : List Char := (units16 c).flatMap fun unit => '\\' :: 'u' :: hex4 unit

/-- whether a character has an escape in every literal -/
def isEscaped (c : Char) : Bool := (shortEscape? c).isSome || c.toNat < 0x20

/-- the escape of a character that always has one -/
def escapeOf (c : Char) : List Char :=
  match shortEscape? c with
  | some letter => ['\\', letter]
  | none => unitEscapes c

inductive Piece where
  | escaped (c : Char)
  | fragment (text : List Char)

/-- puts a character in front, into the first fragment if the pieces start with one -/
def Piece.grow (c : Char) : List Piece → List Piece
  | fragment text :: ps => fragment (c :: text) :: ps
  | ps => fragment [c] :: ps

/-- a text cut at the characters that always have an escape -/
def pieces : List Char → List Piece
  | [] => []
  | c :: cs => if isEscaped c then .escaped c :: pieces cs else Piece.grow c (pieces cs)

inductive Escape where
  /-- everything above `~` is written as UTF-16 units -/
  | ascii
  /-- only what has to be escaped is -/
  | plain
deriving DecidableEq, Repr

namespace Escape

/-- a fragment from `index` on, where nothing behind `start` is written yet -/
def asciiFrom? (text : List Char) (start index : Nat) : List Char → Option (List Char)
  | [] => Text.slice? start (Text.byteLength text) text
  | c :: cs =>
    let next := index + c.utf8Size
    if c.toNat ≤ 0x7E then asciiFrom? text start next cs
    else do
      let kept ← Text.slice? start index text
      let rest ← asciiFrom? text next next cs
      return kept ++ unitEscapes c ++ rest

def fragment? : Escape → List Char → Option (List Char)
  | ascii, text => asciiFrom? text 0 0 text
  | plain, text => some text

def piece? (e : Escape) : Piece → Option (List Char)
  | .escaped c => some (escapeOf c)
  | .fragment text => e.fragment? text

/-- the text of all pieces, none if a slice of a fragment is not there -/
def contents? (e : Escape) : List Piece → Option (List Char)
  | [] => some []
  | p :: ps => do
    let first ← e.piece? p
    let rest ← contents? e ps
    return first ++ rest

/-- the literal of a string; every slice of its pieces is there -/
def quote (e : Escape) (s : String) : List Char :=
  '"' :: ((e.contents? (pieces s.toList)).getD [] ++ ['"'])

/-- whether a character without a short escape is written as it is -/
def keeps : Escape → Char → Bool
  | ascii, c => 0x20 ≤ c.toNat && c.toNat ≤ 0x7E
  | plain, c => 0x20 ≤ c.toNat

/-- what one character is in a literal -/
def char (e : Escape) (c : Char) : List Char :=
  match shortEscape? c with
  | some letter => ['\\', letter]
  | none => if e.keeps c then [c] else unitEscapes c

end Escape

end Workflow.Json
