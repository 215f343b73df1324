import Workflow.Yaml.Text

/-!
# Block scalars

A block scalar keeps its lines (literal) or folds them, and is as deep as its first line that is not
empty, unless its header gives the depth. The header also says what becomes of the breaks at its
end.

* `Chomp`           what becomes of the breaks at the end: one, none or all of them;
* `BlockHeader`     the header, read by `BlockHeader.read?`;
* `blockIndent?`    the depth found in the text;
* `blockLines?`     the lines of a given depth, and what follows them;
* `blockText`       the text of some lines;
* `blockScalar?`    the whole scalar.
-/

namespace Workflow.Yaml

inductive Chomp where
  | clip
  | strip
  | keep
deriving DecidableEq, Repr

def Chomp.ofMark? (c : Char) : Option Chomp :=
  if c = '-' then some .strip else if c = '+' then some .keep else none

structure BlockHeader where
  chomp : Chomp
  /-- the depth relative to the block around, if it is given -/
  depth? : Option Nat
deriving DecidableEq, Repr

namespace BlockHeader

/-- a depth in front, from 1 to 9, and what follows it; none for the depth 0 -/
def depthOf? : List Char → Option (Option Nat × List Char)
  | [] => some (none, [])
  | c :: cs =>
    if c = '0' then none
    else if c.isDigit then some (some (c.toNat - '0'.toNat), cs)
    else some (none, c :: cs)

/-- a mark for the end in front, and what follows it -/
def chompOf : List Char → Option Chomp × List Char
  | [] => (none, [])
  | c :: cs =>
    match Chomp.ofMark? c with
    | some k => (some k, cs)
    | none => (none, c :: cs)

/-- the header, which is the rest of a line, and the text of the lines below -/
def read? (cs : List Char) : Option (BlockHeader × List Char) := do
  let (first?, cs) := chompOf cs
  let (depth?, cs) ← depthOf? cs
  let (second?, cs) := if first?.isNone && depth?.isSome then chompOf cs else (none, cs)
  let chomp := (first?.orElse fun _ => second?).getD .clip
  let cs := cs.dropWhile isBlank
  let cs := if cs.head? = some '#' then cs.dropWhile fun c => !isBreak c else cs
  match cs with
  | [] => some (⟨chomp, depth?⟩, [])
  | c :: cs => if isBreak c then some (⟨chomp, depth?⟩, cs) else none

end BlockHeader

/-- the widest of the blank lines in front and of the first other line; no tab may follow it -/
def blockIndent? (widest : Nat) (cs : List Char) : Option Nat :=
  let width := max widest (cs.takeWhile (· == ' ')).length
  match _h : cs.dropWhile (· == ' ') with
  | [] => some width
  | c :: rest =>
    if c = '\t' then none
    else if isBreak c then blockIndent? width rest
    else some width
termination_by cs.length
decreasing_by
  have := (List.dropWhile_sublist (l := cs) (· == ' ')).length_le
  rw [_h] at this
  exact this

inductive BlockLine where
  | empty (ending : Char)
  /-- a line without its indentation, and the break at its end, if the text goes on -/
  | text (content : List Char) (ending? : Option Char)
deriving DecidableEq, Repr

/-- one more line in front of those that were read -/
def withLine (l : BlockLine) :
    Option (List BlockLine × List Char) → Option (List BlockLine × List Char) :=
  Option.map fun r => (l :: r.1, r.2)

/-- the lines that are `indent` deep, and what follows them -/
def blockLines? (indent : Nat) (cs : List Char) : Option (List BlockLine × List Char) :=
  let depth := min indent (cs.takeWhile (· == ' ')).length
  match _h : cs.drop depth with
  | [] => some ([], [])
  | c :: rest =>
    if isBreak c then withLine (.empty c) (blockLines? indent rest)
    else if depth < indent then if c = '\t' then none else some ([], cs)
    else
      let content := (c :: rest).takeWhile fun d => !isBreak d
      match _h' : (c :: rest).dropWhile fun d => !isBreak d with
      | [] => some ([.text content none], [])
      | ending :: below => withLine (.text content (some ending)) (blockLines? indent below)
termination_by cs.length
decreasing_by
  · have := congrArg List.length _h
    simp only [List.length_drop, List.length_cons] at this
    omega
  · have h₁ := congrArg List.length _h
    have h₂ := (List.dropWhile_sublist (l := c :: rest) fun d => !isBreak d).length_le
    rw [_h'] at h₂
    simp only [List.length_drop, List.length_cons] at h₁ h₂
    omega

/-- what is known of the lines before the next one -/
structure BlockState where
  /-- the break at the end of the last line -/
  ending? : Option Char
  /-- the breaks of the empty lines after it -/
  empties : List Char
  /-- the last line started with a blank -/
  wasBlank : Bool

/-- the text of some lines; a newline between two lines that start without a blank is folded -/
def blockText (literal : Bool) (chomp : Chomp) (s : BlockState) : List BlockLine → List Char
  | [] =>
    (if chomp = .strip then [] else s.ending?.toList) ++ (if chomp = .keep then s.empties else [])
  | .empty ending :: ls => blockText literal chomp { s with empties := s.empties ++ [ending] } ls
  | .text content ending? :: ls =>
    let blank := content.head?.any isBlank
    let joint :=
      if !literal ∧ s.ending? = some '\n' ∧ !s.wasBlank ∧ !blank then
        if s.empties.isEmpty then [' '] else []
      else s.ending?.toList
    joint ++ s.empties ++ content ++ blockText literal chomp ⟨ending?, [], blank⟩ ls

/-- the text of a block scalar and what follows it; `margin` is the least depth around it -/
def blockScalar? (literal : Bool) (margin : Nat) (cs : List Char) :
    Option (List Char × List Char) := do
  let (header, cs) ← BlockHeader.read? cs
  let indent ← match header.depth? with
    | some depth => some (margin - 1 + depth)
    | none => (blockIndent? 0 cs).map fun width => max width (max margin 1)
  let (lines, rest) ← blockLines? indent cs
  return (blockText literal header.chomp ⟨none, [], false⟩ lines, rest)

end Workflow.Yaml
