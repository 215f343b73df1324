import Workflow.Yaml.Quoted

/-!
# Plain scalars

A scalar without quotes ends before a colon that ends a word, before a comment, at a mark of a
document, in a flow collection before one of its marks, and in a block at the first line that is not
indented deeper than the block. Lines are folded.

* `Place`          where the next character stands;
* `plainPieces`    the pieces of the scalar and what follows it.
-/

namespace Workflow.Yaml

/-- the marks of a flow collection -/
def isFlowMark (c : Char) : Bool := c == ',' || c == '[' || c == ']' || c == '\x7b' || c == '\x7d'

inductive Place where
  | inWord
  | afterBlank
  | afterBreak
deriving DecidableEq, Repr

/-- the scalar is over before the text, whose first character is neither blank nor break -/
def endsPlain (flow : Bool) (margin column : Nat) (place : Place) (cs : List Char) : Bool :=
  (place == .afterBreak && !flow && column < margin) ||
    (place != .inWord && cs.head? == some '#') || (column == 0 && startsMark cs)

/-- the pieces of a plain scalar and what follows it; `margin` is the least column of its lines -/
def plainPieces (flow : Bool) (margin column : Nat) (place : Place) :
    List Char → Option (List Piece × List Char)
  | [] => some ([], [])
  | c :: rest =>
    if isBreak c then withPiece (.lineBreak c) (plainPieces flow margin 0 .afterBreak rest)
    else if isBlank c then
      if c = '\t' ∧ place = .afterBreak ∧ column < margin then none
      else withPiece (.blank c) (plainPieces flow margin (column + 1)
        (if place = .afterBreak then .afterBreak else .afterBlank) rest)
    else if endsPlain flow margin column place (c :: rest) then some ([], c :: rest)
    else if flow ∧ c = ':' ∧ rest.head?.any (fun d => isFlowMark d || d == '?') then none
    else if (c = ':' ∧ endsWord rest) ∨ (flow ∧ isFlowMark c) then some ([], c :: rest)
    else withPiece (.char c) (plainPieces flow margin (column + 1) .inWord rest)

end Workflow.Yaml
