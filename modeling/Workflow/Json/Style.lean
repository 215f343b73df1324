import Workflow.Decimal.Layout
import Workflow.Decimal.Shortest
import Workflow.Json.Basic
import Workflow.Json.Escape

/-!
# JSON text

One printer, steered by a `Style`: the gaps between the marks of a value, the escapes of its strings
and the layout of its floats. The library has three styles.

* `wire`       the text sent to the service: one line, a blank after `,` and `:`, pure ASCII;
* `compact`    no gaps, and only the escapes that are needed;
* `pretty`     `compact` with one item a line, two blanks of indentation a level;
* `render`     the text of a value as characters; `text` is the same as a string.
-/

namespace Workflow.Json

open Decimal

structure Style where
  escape : Escape
  layout : Layout
  /-- which of two equally near shortest decimals is printed -/
  tie : Tie
  /-- the gap after an opening bracket, by depth of the items -/
  opened : Nat → List Char
  /-- the gap after a comma, by depth of the items -/
  between : Nat → List Char
  /-- the gap before a closing bracket, by depth of the container -/
  closing : Nat → List Char
  /-- the gap after a colon -/
  valued : List Char

namespace Style

/-- positional from `10^-4` to below `10^16`, otherwise an exponent of two digits at least -/
def wire : Style where
  escape := .ascii
  layout := ⟨-4, 16, 2⟩
  tie := .up
  opened _ := []
  between _ := [' ']
  closing _ := []
  valued := [' ']

/-- positional from `10^-5` to below `10^16`, otherwise an exponent without padding -/
def compact : Style where
  escape := .plain
  layout := ⟨-5, 16, 1⟩
  tie := .toEven
  opened _ := []
  between _ := []
  closing _ := []
  valued := []

/-- a new line with two blanks a level -/
def newline (depth : Nat) : List Char := '\n' :: List.replicate (2 * depth) ' '

/-- the numbers and strings of `compact`, one item a line -/
def pretty : Style where
  escape := .plain
  layout := compact.layout
  tie := compact.tie
  opened := newline
  between := newline
  closing := newline
  valued := [' ']

end Style

/-- the text of an integer -/
def integerText (v : Int) : List Char :=
  if v < 0 then '-' :: Nat.toDigits 10 v.natAbs else Nat.toDigits 10 v.natAbs

/-- the text of a number; a double is laid out from the notation of its digits, and always can be -/
def numberText (s : Style) : Number → List Char
  | .integer v _ => integerText v
  | .float d => (s.layout.ofNotation? (shortest s.tie d).written).getD []

mutual

def render (s : Style) (depth : Nat) : Json → List Char
  | null => ['n', 'u', 'l', 'l']
  | bool true => ['t', 'r', 'u', 'e']
  | bool false => ['f', 'a', 'l', 's', 'e']
  | number n => numberText s n
  | string t => s.escape.quote t
  | array [] => ['[', ']']
  | array (x :: xs) =>
    '[' :: (s.opened (depth + 1) ++ render s (depth + 1) x ++ renderItems s (depth + 1) xs ++
      s.closing depth ++ [']'])
  | object [] => ['\x7b', '\x7d']
  | object ((k, v) :: fs) =>
    '\x7b' :: (s.opened (depth + 1) ++ s.escape.quote k ++ ':' :: s.valued ++
      render s (depth + 1) v ++ renderFields s (depth + 1) fs ++ s.closing depth ++ ['\x7d'])

/-- the items after the first -/
def renderItems (s : Style) (depth : Nat) : List Json → List Char
  | [] => []
  | x :: xs => ',' :: (s.between depth ++ render s depth x ++ renderItems s depth xs)

/-- the fields after the first -/
def renderFields (s : Style) (depth : Nat) : List (String × Json) → List Char
  | [] => []
  | (k, v) :: fs =>
    ',' :: (s.between depth ++ s.escape.quote k ++ ':' :: s.valued ++ render s depth v ++
      renderFields s depth fs)

end

/-- the text of a value -/
def text (s : Style) (v : Json) : String := String.ofList (render s 0 v)

def wire (v : Json) : String := text .wire v

def compact (v : Json) : String := text .compact v

def pretty (v : Json) : String := text .pretty v

end Workflow.Json
