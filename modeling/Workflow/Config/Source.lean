import Workflow.Config.Basic
import Workflow.Yaml.Tree

/-!
# Configurations in YAML

A configuration file is one YAML document. Its records are mappings, a member may stand in them
once, and other members are passed over without a look at their values. The text of any scalar is a
name.

* `Member.once?`            the value of a member that stands in a mapping once at most;
* `ParameterSpec.ofNode`, `StepSpec.ofNode`   a parameter and a step from a node;
* `Configuration.ofYaml?`   the configuration that a text is.
-/

namespace Workflow

open Yaml (Node Tree)
open Yaml.Tree (Followed depthLimit)

/-- the fields of a record by name -/
abbrev NodeFields := List (String × Node Nat)

namespace NodeFields

/-- the member of a name, if it is there; it may not be there twice -/
def once (fields : NodeFields) (name : String) : Followed (Option (Node Nat)) :=
  match fields.filter (·.1 == name) with
  | [] => pure none
  | [(_, n)] => pure (some n)
  | _ => failure

def required {α : Type} (fields : NodeFields) (name : String) (reading : Node Nat → Followed α) :
    Followed α := do
  match ← fields.once name with
  | some n => reading n
  | none => failure

def fallback {α : Type} (fields : NodeFields) (name : String) (reading : Node Nat → Followed α)
    (value : α) : Followed α := do
  match ← fields.once name with
  | some n => reading n
  | none => pure value

end NodeFields

/-- a parameter; its default value is two collections deep -/
def ParameterSpec.ofNode (t : Tree) (n : Node Nat) : Followed ParameterSpec := do
  let fields : NodeFields ← t.fields n
  return {
    name := ← fields.required "name" t.text
    kind := ← fields.required "type" (t.choice (ValueKind.all.map fun k => (k.name, k)))
    default? := ← fields.fallback "default" (t.optional (t.value (depthLimit - 3))) none }

def StepSpec.ofNode (t : Tree) (n : Node Nat) : Followed StepSpec := do
  let fields : NodeFields ← t.fields n
  return {
    name := ← fields.required "name" t.text
    kind := ← fields.required "type" t.text
    arguments := ← fields.fallback "arguments" (t.value (depthLimit - 3)) (.object []) }

namespace Configuration

/-- free fields, of which the last one of a name counts -/
def metadataOf (t : Tree) (n : Node Nat) : Followed Json.KeyedFields := do
  let fields ← t.fields n
  return .ofPairs (← fields.mapM fun f => do return (f.1, ← t.value (depthLimit - 2) f.2))

def listOf {α : Type} (t : Tree) (reading : Node Nat → Followed α) (n : Node Nat) :
    Followed (List α) := do
  (← t.items n).mapM reading

def ofNode (t : Tree) (n : Node Nat) : Followed Configuration := do
  let fields : NodeFields ← t.fields n
  return {
    name := ← fields.required "name" t.text
    description? := ← fields.fallback "description" (t.optional t.text) none
    metadata := ← fields.fallback "metadata" (metadataOf t) (.ofPairs [])
    parameters := ← fields.fallback "parameters" (listOf t (ParameterSpec.ofNode t)) []
    steps := ← fields.required "steps" (listOf t (StepSpec.ofNode t)) }

def ofYaml? (text : String) : Option Configuration := do
  let t ← Tree.ofText? text
  let (c, _) ← (ofNode t t.root).run t.aliasLimit
  return c

end Configuration

end Workflow
