import Workflow.Document.Basic
import Workflow.Text.Blank

/-!
# Placeholders

A string that is one placeholder from end to end, a root, a point and a path in double braces,
stands for a deferred value. A string with anything before or after the placeholder is a string.

* `Root`                   what a placeholder refers to;
* `Placeholder`            root and path;
* `Placeholder.ofText?`    the placeholder that a text is;
* `Placeholder.target`     the deferred value, or which name is not known;
* `resolve`                a JSON value with its placeholders replaced, the first unknown name
                           in document order reported.
-/

namespace Workflow

inductive Root where
  | parameters
  | steps
  | execution
deriving DecidableEq, Repr

namespace Root

def all : List Root := [parameters, steps, execution]

def name : Root → String
  | parameters => "Parameters"
  | steps => "Steps"
  | execution => "Execution"

end Root

structure Placeholder where
  root : Root
  path : String
deriving DecidableEq, Repr

/-- a name in a placeholder that nothing has -/
inductive ReferenceError where
  | undeclaredParameter (name : String)
  | unknownVariable (name : String)
deriving DecidableEq, Repr

def ReferenceError.message : ReferenceError → String
  | undeclaredParameter name => "Reference to undeclared parameter '" ++ name ++ "'"
  | unknownVariable name => "Unknown execution variable '" ++ name ++ "'"

namespace Placeholder

/-- the rest of a text after a given beginning -/
def after? : List Char → List Char → Option (List Char)
  | [], cs => some cs
  | _ :: _, [] => none
  | p :: ps, c :: cs => if p = c then after? ps cs else none

/-- the characters of a path: neither white space nor a brace -/
def isPathChar (c : Char) : Bool := !Text.isSpace c && c != '\x7b' && c != '\x7d'

/-- a root, a point and the rest of the text -/
def root? (cs : List Char) : Option (Root × List Char) :=
  Root.all.findSome? fun r => (after? (r.name.toList ++ ['.']) cs).map fun rest => (r, rest)

/-- the placeholder that a list of characters is -/
def ofChars? (cs : List Char) : Option Placeholder := do
  let cs ← after? ['\x7b', '\x7b'] cs
  let (root, cs) ← root? (Text.skipSpace cs)
  let path := cs.takeWhile isPathChar
  if path ≠ [] ∧ Text.skipSpace (cs.dropWhile isPathChar) = ['\x7d', '\x7d'] then
    some ⟨root, String.ofList path⟩
  else none

def ofText? (s : String) : Option Placeholder := ofChars? s.toList

def target (declared : List Parameter) (p : Placeholder) : Except ReferenceError Deferred :=
  match p.root with
  | .parameters =>
    match declared.find? fun q => q.name == p.path with
    | some q => .ok (.parameter q)
    | none => .error (.undeclaredParameter p.path)
  | .steps => .ok (.property (.ofStep p.path))
  | .execution =>
    match RunVariable.ofName? p.path with
    | some v => .ok (.expression v.expression)
    | none => .error (.unknownVariable p.path)

end Placeholder

/-- the document of a string: a deferred value for a placeholder, the string itself otherwise -/
def resolveText (declared : List Parameter) (s : String) : Except ReferenceError Document :=
  match Placeholder.ofText? s with
  | none => .ok (.string s)
  | some p =>
    match p.target declared with
    | .ok d => .ok (.deferred d)
    | .error e => .error e

mutual

def resolve (declared : List Parameter) : Json → Except ReferenceError Document
  | .null => .ok .null
  | .bool b => .ok (.bool b)
  | .number n => .ok (.number n)
  | .string s => resolveText declared s
  | .array xs =>
    match resolveItems declared xs with
    | .ok ds => .ok (.list ds)
    | .error e => .error e
  | .object fs =>
    match resolveFields declared fs with
    | .ok gs => .ok (.object gs)
    | .error e => .error e

def resolveItems (declared : List Parameter) : List Json → Except ReferenceError (List Document)
  | [] => .ok []
  | x :: xs =>
    match resolve declared x with
    | .error e => .error e
    | .ok d =>
      match resolveItems declared xs with
      | .ok ds => .ok (d :: ds)
      | .error e => .error e

def resolveFields (declared : List Parameter) :
    List (String × Json) → Except ReferenceError (List (String × Document))
  | [] => .ok []
  | (k, v) :: rest =>
    match resolve declared v with
    | .error e => .error e
    | .ok d =>
      match resolveFields declared rest with
      | .ok gs => .ok ((k, d) :: gs)
      | .error e => .error e

end

end Workflow
