import Workflow.Decimal.Double
import Workflow.Json.Fields

/-!
# JSON values

Objects keep their fields in order, and an integer is never a float: numbers are either integers of
at most 64 bits, signed or unsigned, or finite doubles.

* `Number`           an integer from `-2^63` to `2^64 - 1`, or a finite double;
* `Json`             a value;
* `Json.same`        equality of values: key order and the sign of zero are not seen;
* `Json.wellKeyed`   no object at any depth has a key twice;
* `Json.induct`      induction over a value with the hypothesis for all its items and fields.
-/

namespace Workflow

open Decimal (Double)

/-- the range of the integers: what fits 64 bits, signed or unsigned -/
def InRange (v : Int) : Prop := -0x8000000000000000 ≤ v ∧ v ≤ 0xFFFFFFFFFFFFFFFF

instance (v : Int) : Decidable (InRange v) := by
  unfold InRange
  infer_instance

inductive Number where
  | integer (value : Int) (inRange : InRange value)
  | float (value : Double)
deriving DecidableEq

namespace Number

def ofInt? (v : Int) : Option Number := if h : InRange v then some (integer v h) else none

/-- equality of numbers: an integer is never a float, and the two zeros are one float -/
def same : Number → Number → Bool
  | integer v _, integer w _ => v == w
  | float v, float w => v.same w
  | _, _ => false

def isInteger : Number → Bool
  | integer _ _ => true
  | float _ => false

end Number

inductive Json where
  | null
  | bool (value : Bool)
  | number (value : Number)
  | string (value : String)
  | array (items : List Json)
  | object (fields : List (String × Json))
deriving Inhabited

namespace Json

mutual

/-- equality of values, blind to the order of keys and to the sign of zero -/
def same : Json → Json → Bool
  | null, null => true
  | bool a, bool b => a == b
  | number a, number b => a.same b
  | string a, string b => a == b
  | array xs, array ys => sameItems xs ys
  | object fs, object gs => fs.length == gs.length && sameFields fs gs
  | _, _ => false

def sameItems : List Json → List Json → Bool
  | [], [] => true
  | x :: xs, y :: ys => same x y && sameItems xs ys
  | _, _ => false

/-- every field of the first object is in the second -/
def sameFields : List (String × Json) → List (String × Json) → Bool
  | [], _ => true
  | (k, v) :: rest, gs =>
    (match Fields.get? k gs with
      | some w => same v w
      | none => false) && sameFields rest gs

end

instance : BEq Json := ⟨same⟩

mutual

def wellKeyed : Json → Bool
  | array xs => wellKeyedItems xs
  | object fs => decide (Fields.keys fs).Nodup && wellKeyedFields fs
  | _ => true

def wellKeyedItems : List Json → Bool
  | [] => true
  | x :: xs => wellKeyed x && wellKeyedItems xs

def wellKeyedFields : List (String × Json) → Bool
  | [] => true
  | (_, v) :: rest => wellKeyed v && wellKeyedFields rest

end

def get? (key : String) : Json → Option Json
  | object fields => Fields.get? key fields
  | _ => none

theorem wellKeyedItems_eq (xs : List Json) : wellKeyedItems xs = xs.all wellKeyed := by
  induction xs with
  | nil => rfl
  | cons x xs ih => simp [wellKeyedItems, ih]

theorem wellKeyedFields_eq (fs : List (String × Json)) :
    wellKeyedFields fs = fs.all fun f => wellKeyed f.2 := by
  induction fs with
  | nil => rfl
  | cons f fs ih => simp [wellKeyedFields, ih]

theorem wellKeyed_array_iff {xs : List Json} :
    (array xs).wellKeyed = true ↔ ∀ x ∈ xs, x.wellKeyed = true := by
  rw [wellKeyed, wellKeyedItems_eq, List.all_eq_true]

theorem wellKeyed_object_iff {fs : List (String × Json)} : (object fs).wellKeyed = true ↔
    (Fields.keys fs).Nodup ∧ ∀ f ∈ fs, f.2.wellKeyed = true := by
  rw [wellKeyed, wellKeyedFields_eq, Bool.and_eq_true, decide_eq_true_eq, List.all_eq_true]

/-- to show a property of every value, show it of a container from its items -/
@[elab_as_elim]
theorem induct {P : Json → Prop} (null : P null) (bool : ∀ b, P (bool b))
    (number : ∀ n, P (number n)) (string : ∀ s, P (string s))
    (array : ∀ xs, (∀ x ∈ xs, P x) → P (array xs))
    (object : ∀ fs, (∀ f ∈ fs, P f.2) → P (object fs)) (v : Json) : P v :=
  Json.rec (motive_1 := P) (motive_2 := fun xs => ∀ x ∈ xs, P x)
    (motive_3 := fun fs => ∀ f ∈ fs, P f.2) (motive_4 := fun f => P f.2)
    null bool number string array object
    (fun _ h => absurd h List.not_mem_nil)
    (fun _ _ hx hxs _ hy => (List.mem_cons.1 hy).elim (fun e => e ▸ hx) (hxs _))
    (fun _ h => absurd h List.not_mem_nil)
    (fun _ _ hf hfs _ hg => (List.mem_cons.1 hg).elim (fun e => e ▸ hf) (hfs _))
    (fun _ _ h => h) v

end Json

end Workflow
