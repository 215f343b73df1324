import Workflow.Yaml.Text

/-!
# Folding of lines

A quoted or plain scalar may go over several lines. What stands between two of its characters is a
gap: blanks on one line stay, one break becomes a blank, and of more breaks the first is dropped.

* `Piece`          a character, a blank, a break, or a break that was escaped;
* `Gap`            what has been seen since the last character;
* `Gap.text`       what a gap becomes;
* `fold`           the text of some pieces and the gap at their end.
-/

namespace Workflow.Yaml

inductive Piece where
  | char (c : Char)
  | blank (c : Char)
  | lineBreak (c : Char)
  /-- an escaped break, which joins two lines without a blank -/
  | joint
deriving DecidableEq, Repr

inductive Gap where
  | blanks (cs : List Char)
  /-- after a break: the first one, unless it was escaped, and the breaks after it -/
  | lines (first? : Option Char) (later : List Char)
deriving DecidableEq, Repr

namespace Gap

def empty : Gap := blanks []

def addBlank (gap : Gap) (c : Char) : Gap :=
  match gap with
  | blanks cs => blanks (cs ++ [c])
  | lines first? later => lines first? later

def addBreak (gap : Gap) (c : Char) : Gap :=
  match gap with
  | blanks _ => lines (some c) []
  | lines first? later => lines first? (later ++ [c])

def text : Gap → List Char
  | blanks cs => cs
  | lines none later => later
  | lines (some c) later =>
    if c = '\n' then (if later.isEmpty then [' '] else later) else c :: later

/-- the gap goes over a break -/
def isBroken : Gap → Bool
  | blanks _ => false
  | lines _ _ => true

end Gap

/-- the text of some pieces, and the gap that is left at their end -/
def fold (gap : Gap) : List Piece → List Char × Gap
  | [] => ([], gap)
  | .char c :: ps =>
    let (cs, last) := fold .empty ps
    (gap.text ++ c :: cs, last)
  | .blank c :: ps => fold (gap.addBlank c) ps
  | .lineBreak c :: ps => fold (gap.addBreak c) ps
  | .joint :: ps =>
    let (cs, last) := fold (.lines none []) ps
    (gap.text ++ cs, last)

end Workflow.Yaml
