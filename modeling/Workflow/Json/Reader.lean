import Workflow.Json.Token

/-!
# Reading JSON text

Tokens are put together with a stack that holds the containers which are still open, innermost
first. Reading is a recursion on the tokens, so it needs no bound on the depth of a value.

* `Frame`          an open container and what of it is complete;
* `Place`          what may come next;
* `assemble?`      the value of a list of tokens;
* `Json.read?`     the value written by a text.
-/

namespace Workflow.Json

/-- an open container; items and fields are kept last first -/
inductive Frame where
  | items (before : List Json)
  | fields (before : List (String × Json)) (key : String)

inductive Place where
  | value
  /-- a value or `]` -/
  | firstItem
  /-- a key or `}` -/
  | firstKey
  | key (before : List (String × Json))
  | colon (before : List (String × Json)) (key : String)
  | after (value : Json)

/-- the value that one token is -/
def atom? : Token → Option Json
  | .null => some null
  | .bool b => some (bool b)
  | .number n => some (number n)
  | .text s => some (string s)
  | _ => none

/-- the value of the tokens that follow, given what is open -/
def assembleFrom? (around : List Frame) : Place → List Token → Option Json
  | .after v, [] => if around.isEmpty then some v else none
  | _, [] => none
  | .value, t :: ts =>
    match t with
    | .openArray => assembleFrom? (.items [] :: around) .firstItem ts
    | .openObject => assembleFrom? around .firstKey ts
    | t => match atom? t with
      | some v => assembleFrom? around (.after v) ts
      | none => none
  | .firstItem, t :: ts =>
    match t, around with
    | .closeArray, .items _ :: outer => assembleFrom? outer (.after (array [])) ts
    | .openArray, _ => assembleFrom? (.items [] :: around) .firstItem ts
    | .openObject, _ => assembleFrom? around .firstKey ts
    | t, _ => match atom? t with
      | some v => assembleFrom? around (.after v) ts
      | none => none
  | .firstKey, t :: ts =>
    match t with
    | .closeObject => assembleFrom? around (.after (object [])) ts
    | .text k => assembleFrom? around (.colon [] k) ts
    | _ => none
  | .key before, t :: ts =>
    match t with
    | .text k => assembleFrom? around (.colon before k) ts
    | _ => none
  | .colon before k, t :: ts =>
    match t with
    | .colon => assembleFrom? (.fields before k :: around) .value ts
    | _ => none
  | .after v, t :: ts =>
    match t, around with
    | .comma, .items before :: outer => assembleFrom? (.items (v :: before) :: outer) .value ts
    | .closeArray, .items before :: outer =>
      assembleFrom? outer (.after (array (v :: before).reverse)) ts
    | .comma, .fields before k :: outer => assembleFrom? outer (.key ((k, v) :: before)) ts
    | .closeObject, .fields before k :: outer =>
      assembleFrom? outer (.after (object (Fields.ofPairs ((k, v) :: before).reverse))) ts
    | _, _ => none

/-- the value of a list of tokens; a repeated key keeps its first place and its last value -/
def assemble? (ts : List Token) : Option Json := assembleFrom? [] .value ts

/-- the value written by a text -/
def readChars? (cs : List Char) : Option Json := (Token.lex? cs).bind assemble?

def read? (s : String) : Option Json := readChars? s.toList

end Workflow.Json
