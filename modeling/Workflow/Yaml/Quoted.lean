import Workflow.Json.Token
import Workflow.Yaml.Folding

/-!
# Quoted scalars

Between single quotes only the quote itself is special, and is written twice. Between double quotes
a backslash starts an escape. Lines are folded in both.

* `simpleEscape?`    the escapes of one letter;
* `escapedChar?`     the character of a hexadecimal escape;
* `doublePieces`     the pieces up to the closing double quote, and the rest of the text;
* `singlePieces`     the same for single quotes.
-/

namespace Workflow.Yaml

def simpleEscape? (c : Char) : Option Char :=
  match c with
  | '0' => some '\x00'
  | 'a' => some '\x07'
  | 'b' => some '\x08'
  | 't' | '\t' => some '\t'
  | 'n' => some '\n'
  | 'v' => some '\x0b'
  | 'f' => some '\x0c'
  | 'r' => some '\r'
  | 'e' => some '\x1b'
  | ' ' => some ' '
  | '"' => some '"'
  | '/' => some '/'
  | '\\' => some '\\'
  | 'N' => some '\u0085'
  | '_' => some '\u00a0'
  | 'L' => some '\u2028'
  | 'P' => some '\u2029'
  | _ => none

/-- the number of digits of a hexadecimal escape -/
def escapeWidth? (c : Char) : Option Nat :=
  match c with
  | 'x' => some 2
  | 'u' => some 4
  | 'U' => some 8
  | _ => none

/-- the number written by hexadecimal digits -/
def hexNumber? (ds : List Char) : Option Nat :=
  ds.foldl (fun n? d => n?.bind fun n => (Json.hexValue? d).map (16 * n + ·)) (some 0)

/-- the character of a code point, unless it is a surrogate or there is none -/
def charOf? (code : Nat) : Option Char :=
  if code < 0xD800 ∨ (0xE000 ≤ code ∧ code < 0x110000) then some (Char.ofNat code) else none

/-- the character of a hexadecimal escape that has that many digits -/
def escapedChar? (width : Nat) (ds : List Char) : Option Char :=
  if ds.length = width then (hexNumber? ds).bind charOf? else none

/-- one more piece in front of those that were read -/
def withPiece (p : Piece) : Option (List Piece × List Char) → Option (List Piece × List Char) :=
  Option.map fun r => (p :: r.1, r.2)

/-- the pieces up to a closing double quote, and what follows it -/
def doublePieces (cs : List Char) : Option (List Piece × List Char) :=
  match cs with
  | [] => none
  | '"' :: rest => some ([], rest)
  | '\\' :: [] => none
  | '\\' :: d :: rest =>
    if isBreak d then
      if startsMark rest then none else withPiece .joint (doublePieces rest)
    else match simpleEscape? d with
      | some e => withPiece (.char e) (doublePieces rest)
      | none =>
        match escapeWidth? d with
        | none => none
        | some width =>
          match escapedChar? width (rest.take width) with
          | some e => withPiece (.char e) (doublePieces (rest.drop width))
          | none => none
  | c :: rest =>
    if isBreak c then
      if startsMark rest then none else withPiece (.lineBreak c) (doublePieces rest)
    else if isBlank c then withPiece (.blank c) (doublePieces rest)
    else withPiece (.char c) (doublePieces rest)
termination_by cs.length
decreasing_by
  all_goals
    simp only [List.length_cons, List.length_drop]
    omega

/-- the pieces up to a closing single quote, and what follows it -/
def singlePieces : List Char → Option (List Piece × List Char)
  | [] => none
  | '\'' :: '\'' :: rest => withPiece (.char '\'') (singlePieces rest)
  | '\'' :: rest => some ([], rest)
  | c :: rest =>
    if isBreak c then
      if startsMark rest then none else withPiece (.lineBreak c) (singlePieces rest)
    else if isBlank c then withPiece (.blank c) (singlePieces rest)
    else withPiece (.char c) (singlePieces rest)

/-- the text of a quoted scalar; a gap before the closing quote counts -/
def quotedText (ps : List Piece) : List Char :=
  let (cs, gap) := fold .empty ps
  cs ++ gap.text

end Workflow.Yaml
