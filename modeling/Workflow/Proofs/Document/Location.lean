import Workflow.Document.Basic
import Workflow.Proofs.Json.Equality

/-!
# Locations in a tree of data

A location is the way from the root of a tree to one of its parts: the keys and the positions that
are passed. Two trees whose related nodes have related parts are related at every location of the
first.

* `Selector`, `Location`        a way into a tree, part by part;
* `Json.at?`, `Document.at?`    what is found there; a set has no positions;
* `Location.follow`             related trees are related at every location.
-/

namespace Workflow

inductive Selector where
  | key (name : String)
  | index (position : Nat)
deriving DecidableEq, Repr

abbrev Location := List Selector

/-- what is found at a location, given how to find the parts of a node -/
def Location.descend {α : Type} (part? : α → Selector → Option α) (a : α) : Location → Option α
  | [] => some a
  | s :: rest => (part? a s).bind fun b => descend part? b rest

/-- trees are related at every location of the first if their related nodes have related parts -/
theorem Location.follow {α β : Type} {R : α → β → Prop} {part? : α → Selector → Option α}
    {part?' : β → Selector → Option β}
    (step : ∀ {a b}, R a b → ∀ s, ∀ a' ∈ part? a s, ∃ b' ∈ part?' b s, R a' b')
    {a a' : α} {b : β} (h : R a b) (loc : Location) (ha : descend part? a loc = some a') :
    ∃ b', descend part?' b loc = some b' ∧ R a' b' := by
  induction loc generalizing a b with
  | nil =>
    obtain rfl := Option.some_inj.mp ha
    exact ⟨b, rfl, h⟩
  | cons s rest ih =>
    obtain ⟨c, hc, hrest⟩ := Option.bind_eq_some_iff.mp ha
    obtain ⟨d, hd, hcd⟩ := step h s c hc
    obtain ⟨b', hb', hab⟩ := ih hcd hrest
    exact ⟨b', Option.bind_eq_some_iff.mpr ⟨d, hd, hb'⟩, hab⟩

/-! ## JSON data and documents -/

namespace Json

def part? : Json → Selector → Option Json
  | array xs, .index i => xs[i]?
  | object fs, .key k => Fields.get? k fs
  | _, _ => none

def at? (v : Json) (loc : Location) : Option Json := Location.descend part? v loc

theorem at?_cons (v : Json) (s : Selector) (rest : Location) :
    v.at? (s :: rest) = (v.part? s).bind fun w => w.at? rest := rfl

end Json

namespace Document

def part? : Document → Selector → Option Document
  | sequence .set _, .index _ => none
  | sequence _ xs, .index i => xs[i]?
  | object fs, .key k => Fields.get? k fs
  | _, _ => none

def at? (d : Document) (loc : Location) : Option Document := Location.descend part? d loc

theorem at?_cons (d : Document) (s : Selector) (rest : Location) :
    d.at? (s :: rest) = (d.part? s).bind fun e => e.at? rest := rfl

end Document

end Workflow
