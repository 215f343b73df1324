import Workflow.Yaml.Quoted

/-!
# Anchors, tags and directives

A tag is written with percent signs for bytes that are not written as they are, so it is a list of
bytes. The bytes behind a zero do not count.

* `wordOf`           the word characters in front of a text;
* `anchorName?`      the name after `&` or `*`;
* `escapedBytes?`    the bytes of a character that is written with percent signs;
* `uri?`             the bytes of a tag;
* `tag?`             a tag as a handle and a suffix;
* `Tag`              what a tag asks for, told from its bytes by `Tag.ofBytes`;
* `Directive`        a line that starts with `%`, read by `Directive.read?`.
-/

namespace Workflow.Yaml

def wordOf (cs : List Char) : List Char × List Char :=
  (cs.takeWhile isWordChar, cs.dropWhile isWordChar)

/-- a name, which a blank, a break or one of some marks has to follow -/
def anchorName? (cs : List Char) : Option (String × List Char) :=
  let (name, rest) := wordOf cs
  let marks := ['?', ':', ',', ']', '\x7d', '%', '@', '\x60']
  let ends := endsWord rest || rest.head?.any (marks.contains ·)
  if name ≠ [] ∧ ends then some (String.ofList name, rest) else none

/-! ## tags -/

/-- the characters of a tag; `verbatim` ones and prefixes may hold marks of a flow sequence -/
def isUriChar (verbatim : Bool) (c : Char) : Bool :=
  isWordChar c || [';', '/', '?', ':', '@', '&', '=', '+', '$', '.', '%', '!', '~', '*', '\'', '(',
    ')'].contains c || (verbatim && [',', '[', ']'].contains c)

/-- the byte that a percent sign and two digits in front stand for -/
def escapedByte? : List Char → Option UInt8
  | '%' :: a :: b :: _ => (hexNumber? [a, b]).map UInt8.ofNat
  | _ => none

/-- the number of bytes of a character that starts with this one -/
def widthOf? (byte : UInt8) : Option Nat :=
  if byte < 0x80 then some 1
  else if byte >>> 5 = 0x6 then some 2
  else if byte >>> 4 = 0xE then some 3
  else if byte >>> 3 = 0x1E then some 4
  else none

/-- escaped bytes in front that continue a character -/
def continued? : Nat → List Char → Option (List UInt8)
  | 0, _ => some []
  | n + 1, cs => do
    let byte ← escapedByte? cs
    if byte >>> 6 = 0x2 then return byte :: (← continued? n (cs.drop 3)) else none

/-- the escaped bytes of a character in front; fewer bytes might do for it, or it might be none -/
def escapedBytes? (cs : List Char) : Option (List UInt8) := do
  let byte ← escapedByte? cs
  let width ← widthOf? byte
  return byte :: (← continued? (width - 1) (cs.drop 3))

/-- the bytes of a tag in front, and what follows them; at most `limit` characters are read -/
def uriFrom? (verbatim : Bool) : Nat → List Char → Option (List UInt8 × List Char)
  | _, [] => some ([], [])
  | 0, cs => some ([], cs)
  | limit + 1, c :: cs =>
    if !isUriChar verbatim c then some ([], c :: cs)
    else if c = '%' then
      match escapedBytes? (c :: cs) with
      | none => none
      | some bytes =>
        (uriFrom? verbatim limit ((c :: cs).drop (3 * bytes.length))).map fun r =>
          (bytes ++ r.1, r.2)
    else (uriFrom? verbatim limit cs).map fun r => (c.toUInt8 :: r.1, r.2)

def uri? (verbatim : Bool) (cs : List Char) : Option (List UInt8 × List Char) :=
  uriFrom? verbatim cs.length cs

/-- the bytes before a zero -/
def upToZero (bytes : List UInt8) : List UInt8 := bytes.takeWhile (· ≠ 0)

/-- a handle in front: `!`, a word and perhaps a second `!` -/
def handleOf? : List Char → Option (List Char × List Char)
  | '!' :: cs =>
    let (word, rest) := wordOf cs
    match rest with
    | '!' :: rest => some ('!' :: (word ++ ['!']), rest)
    | rest => some ('!' :: word, rest)
  | _ => none

/-- a handle that ends in a second `!` -/
def isFullHandle (handle : List Char) : Bool := 1 < handle.length && handle.getLast? == some '!'

/-- a tag without a name of its own -/
def bareTag : List UInt8 := ['!'.toUInt8]

/-- handle and suffix of a tag that is no verbatim one -/
def shorthand? (cs : List Char) : Option (String × List UInt8 × List Char) := do
  let (handle, rest) ← handleOf? cs
  let (suffix, rest) ← uri? false rest
  if isFullHandle handle then
    if suffix.isEmpty then none else some (String.ofList handle, upToZero suffix, rest)
  else
    let suffix := upToZero ((handle.drop 1).map Char.toUInt8 ++ suffix)
    if suffix.isEmpty then some ("", bareTag, rest) else some ("!", suffix, rest)

/-- the suffix of a verbatim tag, after its opening bracket -/
def verbatim? (cs : List Char) : Option (String × List UInt8 × List Char) := do
  let (suffix, rest) ← uri? true cs
  match rest with
  | '>' :: rest => if suffix.isEmpty then none else some ("", upToZero suffix, rest)
  | _ => none

/-- handle and suffix of a tag, and what follows it; without a handle the suffix is the tag -/
def tag? (flow : Bool) (cs : List Char) : Option (String × List UInt8 × List Char) := do
  let (handle, suffix, rest) ← match cs with
    | '!' :: '<' :: cs => verbatim? cs
    | cs => shorthand? cs
  if endsWord rest || (flow && rest.head? == some ',') then some (handle, suffix, rest) else none

inductive Tag where
  | null
  | bool
  | integer
  | float
  /-- the writer's own, without the mark in front; nothing is left of a mark that stands alone, which
  a scalar keeps as its tag too -/
  | own (name : String)
  /-- the writer's own, with bytes behind the mark that are no text -/
  | garbled
  /-- a standard one for texts or collections, or of somebody else -/
  | other
deriving DecidableEq, Repr

namespace Tag

/-- a standard tag, told by its whole text -/
def ofText (text : String) : Tag :=
  match text with
  | "tag:yaml.org,2002:null" => null
  | "tag:yaml.org,2002:bool" => bool
  | "tag:yaml.org,2002:int" => integer
  | "tag:yaml.org,2002:float" => float
  | _ => other

def ofBytes (bytes : List UInt8) : Tag :=
  if bytes.take 1 = bareTag then
    match String.fromUTF8? (bytes.drop 1).toByteArray with
    | some name => own name
    | none => garbled
  else
    match String.fromUTF8? bytes.toByteArray with
    | some text => ofText text
    | none => other

end Tag

/-! ## directives -/

inductive Directive where
  | version (major minor : Nat)
  /-- what stands for a handle in tags -/
  | tagPrefix (handle : String) (replacement : List UInt8)
deriving DecidableEq, Repr

namespace Directive

/-- a number of at most nine digits, and what follows it -/
def number? (cs : List Char) : Option (Nat × List Char) :=
  let ds := cs.takeWhile Char.isDigit
  if ds.isEmpty || 9 < ds.length then none
  else some (Nat.ofDigitChars 10 ds 0, cs.dropWhile Char.isDigit)

def version? (cs : List Char) : Option (Directive × List Char) := do
  let (major, rest) ← number? (cs.dropWhile isBlank)
  match rest with
  | '.' :: rest =>
    let (minor, rest) ← number? rest
    some (.version major minor, rest)
  | _ => none

def tagPrefix? (cs : List Char) : Option (Directive × List Char) := do
  let (handle, rest) ← handleOf? (cs.dropWhile isBlank)
  if !(handle == ['!'] || isFullHandle handle) || !(rest.head?.any isBlank) then none
  let (replacement, rest) ← uri? true (rest.dropWhile isBlank)
  if replacement.isEmpty || !endsWord rest then none
  some (.tagPrefix (String.ofList handle) (upToZero replacement), rest)

/-- the end of a line: blanks, a comment and the break -/
def lineEnd? (cs : List Char) : Option (List Char) :=
  let cs := cs.dropWhile isBlank
  match if cs.head? = some '#' then cs.dropWhile (fun c => !isBreak c) else cs with
  | [] => some []
  | c :: cs => if isBreak c then some cs else none

/-- the directive after a percent sign, and the lines below -/
def read? (cs : List Char) : Option (Directive × List Char) := do
  let (name, rest) := wordOf cs
  if !endsWord rest then none
  let (directive, rest) ← match String.ofList name with
    | "YAML" => version? rest
    | "TAG" => tagPrefix? rest
    | _ => none
  some (directive, ← lineEnd? rest)

end Directive

end Workflow.Yaml
