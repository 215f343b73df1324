import Workflow.Decimal.Numeral
import Workflow.Json.Basic

/-!
# Tokens of JSON text

The text is read one character at a time. What has to be known about the characters before is a
`Mode`, and `Mode.step` says what one more character makes of it and which tokens it completes.

* `Token`             a mark or an atom;
* `Number.ofText?`    the number written by a text, if it is written as JSON asks;
* `Mode.step`         one character;
* `Token.lex?`        the tokens of a text.

A numeral with a point or an exponent is a float and any other an integer, unless it is out of range
or `-0`; then it is a float too.
-/

namespace Workflow

open Decimal

namespace Number

/-- digits on both sides of a point, no leading zero and no plus sign -/
def isJson (n : Numeral) : Bool :=
  n.sign != some '+' && n.whole != [] && (n.whole.length == 1 || n.whole.head? != some '0') &&
    n.fraction != some []

/-- the integer written, if there is one in range -/
def integer? (n : Numeral) : Option Number :=
  if n.isWhole && !(n.negative && n.coefficient == 0) then
    ofInt? (if n.negative then -(n.coefficient : Int) else n.coefficient)
  else none

def ofText? (cs : List Char) : Option Number :=
  match Numeral.ofText? cs with
  | none => none
  | some n => if isJson n then (integer? n).orElse fun _ => n.toDouble?.map float else none

end Number

namespace Json

inductive Token where
  | openArray
  | closeArray
  | openObject
  | closeObject
  | comma
  | colon
  | null
  | bool (value : Bool)
  | number (value : Number)
  | text (value : String)
deriving DecidableEq

/-- where in the text the next character stands; characters seen are kept last first -/
inductive Mode where
  | between
  | word (seen : List Char)
  | numeral (seen : List Char)
  | quoted (seen : List Char)
  /-- after a backslash -/
  | escaped (seen : List Char)
  /-- among the digits of a UTF-16 unit, after the high half of a pair or not -/
  | unit (seen : List Char) (high : Option Nat) (digits : List Nat)
  /-- after the high half of a pair, before the backslash of the low half -/
  | half (seen : List Char) (high : Nat)
  /-- after that backslash -/
  | halfEscaped (seen : List Char) (high : Nat)
deriving DecidableEq

/-- the value of a hexadecimal digit -/
def hexValue? (c : Char) : Option Nat :=
  if c.isDigit then some (c.toNat - '0'.toNat)
  else if 'a' ≤ c ∧ c ≤ 'f' then some (c.toNat - 'a'.toNat + 10)
  else if 'A' ≤ c ∧ c ≤ 'F' then some (c.toNat - 'A'.toNat + 10)
  else none

/-- the character of a one-letter escape -/
def unescape? (c : Char) : Option Char :=
  if c = '"' ∨ c = '\\' ∨ c = '/' then some c
  else if c = 'b' then some '\x08'
  else if c = 'f' then some '\x0c'
  else if c = 'n' then some '\n'
  else if c = 'r' then some '\r'
  else if c = 't' then some '\t'
  else none

def isGap (c : Char) : Bool := c == ' ' || c == '\n' || c == '\r' || c == '\t'

def isNumeralChar (c : Char) : Bool :=
  c.isDigit || c == '-' || c == '+' || c == '.' || c == 'e' || c == 'E'

def wordToken? (seen : List Char) : Option Token :=
  if seen.reverse = ['n', 'u', 'l', 'l'] then some .null
  else if seen.reverse = ['t', 'r', 'u', 'e'] then some (.bool true)
  else if seen.reverse = ['f', 'a', 'l', 's', 'e'] then some (.bool false)
  else none

def numeralToken? (seen : List Char) : Option Token := (Number.ofText? seen.reverse).map .number

namespace Mode

/-- a character that stands between tokens -/
def start (c : Char) : Option (Mode × List Token) :=
  if isGap c then some (between, [])
  else if c = '[' then some (between, [.openArray])
  else if c = ']' then some (between, [.closeArray])
  else if c = '\x7b' then some (between, [.openObject])
  else if c = '\x7d' then some (between, [.closeObject])
  else if c = ',' then some (between, [.comma])
  else if c = ':' then some (between, [.colon])
  else if c = '"' then some (quoted [], [])
  else if c.isDigit ∨ c = '-' then some (numeral [c], [])
  else if c.isAlpha then some (word [c], [])
  else none

/-- a token ends before `c` -/
def resume (token : Option Token) (c : Char) : Option (Mode × List Token) :=
  match token, start c with
  | some t, some (mode, ts) => some (mode, t :: ts)
  | _, _ => none

/-- the mode after a whole UTF-16 unit -/
def closeUnit (seen : List Char) (high : Option Nat) (unit : Nat) : Option Mode :=
  match high with
  | none =>
    if 0xD800 ≤ unit ∧ unit < 0xDC00 then some (half seen unit)
    else if 0xDC00 ≤ unit ∧ unit < 0xE000 then none
    else some (quoted (Char.ofNat unit :: seen))
  | some h =>
    if 0xDC00 ≤ unit ∧ unit < 0xE000 then
      some (quoted (Char.ofNat (0x10000 + (h - 0xD800) * 0x400 + (unit - 0xDC00)) :: seen))
    else none

/-- the mode after one more character, and the tokens that are complete with it -/
def step (mode : Mode) (c : Char) : Option (Mode × List Token) :=
  match mode with
  | between => start c
  | word seen => if c.isAlpha then some (word (c :: seen), []) else resume (wordToken? seen) c
  | numeral seen =>
    if isNumeralChar c then some (numeral (c :: seen), []) else resume (numeralToken? seen) c
  | quoted seen =>
    if c = '"' then some (between, [.text (String.ofList seen.reverse)])
    else if c = '\\' then some (escaped seen, [])
    else if c.toNat < 0x20 then none
    else some (quoted (c :: seen), [])
  | escaped seen =>
    if c = 'u' then some (unit seen none [], [])
    else (unescape? c).map fun d => (quoted (d :: seen), [])
  | unit seen high digits =>
    match hexValue? c, digits with
    | some v, [d₃, d₂, d₁] =>
      (closeUnit seen high (((d₁ * 16 + d₂) * 16 + d₃) * 16 + v)).map (·, [])
    | some v, _ => some (unit seen high (v :: digits), [])
    | none, _ => none
  | half seen high => if c = '\\' then some (halfEscaped seen high, []) else none
  | halfEscaped seen high => if c = 'u' then some (unit seen (some high) [], []) else none

/-- the tokens that are complete at the end of the text -/
def finish : Mode → Option (List Token)
  | between => some []
  | word seen => (wordToken? seen).map fun t => [t]
  | numeral seen => (numeralToken? seen).map fun t => [t]
  | _ => none

end Mode

namespace Token

/-- the tokens of the rest of a text -/
def lexFrom? (mode : Mode) : List Char → Option (List Token)
  | [] => mode.finish
  | c :: cs =>
    match mode.step c with
    | some (next, ts) => (lexFrom? next cs).map (ts ++ ·)
    | none => none

def lex? (cs : List Char) : Option (List Token) := lexFrom? .between cs

end Token

end Json

end Workflow
