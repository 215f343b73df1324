import Workflow.Parameter

/-!
# Request documents

A request is a tree of JSON data in which a node may be deferred: its value is known only to the
service, and it is sent as an expression. Sequences come in three kinds that the wire does not tell
apart; a set has no two equal items.

* `Deferred`            a parameter, a property of a step or an expression, not yet replaced;
* `Document`            the tree;
* `Document.same`       equality of documents: blind to key order and to the sign of zero;
* `Document.set`        a set, of equal items the first;
* `Document.ofJson`     JSON data as a document;
* `Document.toJson`     the data on the wire, with an expression for every deferred node;
* `Document.isPlain`    no deferred node at any depth.
-/

namespace Workflow

inductive Deferred where
  | parameter (p : Parameter)
  | property (p : Property)
  | expression (value : Json)

namespace Deferred

def toJson : Deferred → Json
  | parameter p => p.expression
  | property p => p.expression
  | expression value => value

def same : Deferred → Deferred → Bool
  | parameter p, parameter q => p.same q
  | property p, property q => p == q
  | expression v, expression w => v.same w
  | _, _ => false

end Deferred

inductive SequenceKind where
  | list
  | tuple
  | set
deriving DecidableEq, Repr

inductive Document where
  | null
  | bool (value : Bool)
  | number (value : Number)
  | string (value : String)
  | sequence (kind : SequenceKind) (items : List Document)
  | object (fields : List (String × Document))
  | deferred (value : Deferred)

namespace Document

mutual

/-- equality of documents, blind to the order of keys and to the sign of zero -/
def same : Document → Document → Bool
  | null, null => true
  | bool a, bool b => a == b
  | number a, number b => a.same b
  | string a, string b => a == b
  | sequence k xs, sequence l ys => k == l && sameItems xs ys
  | object fs, object gs => fs.length == gs.length && sameFields fs gs
  | deferred a, deferred b => a.same b
  | _, _ => false

def sameItems : List Document → List Document → Bool
  | [], [] => true
  | x :: xs, y :: ys => same x y && sameItems xs ys
  | _, _ => false

/-- every field of the first object is in the second -/
def sameFields : List (String × Document) → List (String × Document) → Bool
  | [], _ => true
  | (k, v) :: rest, gs =>
    (match Fields.get? k gs with
      | some w => same v w
      | none => false) && sameFields rest gs

end

instance : BEq Document := ⟨same⟩

/-- the items that are equal to none before them and to none already seen -/
def distinctAfter (seen : List Document) : List Document → List Document
  | [] => []
  | x :: xs =>
    if seen.any fun y => same y x then distinctAfter seen xs else x :: distinctAfter (x :: seen) xs

/-- the items without those that equal an earlier one -/
def distinct (xs : List Document) : List Document := distinctAfter [] xs

def list (xs : List Document) : Document := sequence .list xs

def tuple (xs : List Document) : Document := sequence .tuple xs

def set (xs : List Document) : Document := sequence .set (distinct xs)

/-- an object from pairs; a repeated key keeps its first place and its last value -/
def ofPairs (pairs : List (String × Document)) : Document := object (Fields.ofPairs pairs)

def parameter (p : Parameter) : Document := deferred (.parameter p)

def property (p : Property) : Document := deferred (.property p)

def expression (value : Json) : Document := deferred (.expression value)

def get? (key : String) : Document → Option Document
  | object fields => Fields.get? key fields
  | _ => none

def isDeferred : Document → Bool
  | deferred _ => true
  | _ => false

mutual

def isPlain : Document → Bool
  | deferred _ => false
  | sequence _ xs => isPlainItems xs
  | object fs => isPlainFields fs
  | _ => true

def isPlainItems : List Document → Bool
  | [] => true
  | x :: xs => isPlain x && isPlainItems xs

def isPlainFields : List (String × Document) → Bool
  | [] => true
  | (_, v) :: rest => isPlain v && isPlainFields rest

end

mutual

def ofJson : Json → Document
  | .null => null
  | .bool b => bool b
  | .number n => number n
  | .string s => string s
  | .array xs => sequence .list (ofJsonItems xs)
  | .object fs => object (ofJsonFields fs)

def ofJsonItems : List Json → List Document
  | [] => []
  | x :: xs => ofJson x :: ofJsonItems xs

def ofJsonFields : List (String × Json) → List (String × Document)
  | [] => []
  | (k, v) :: rest => (k, ofJson v) :: ofJsonFields rest

end

mutual

/-- the data on the wire: every sequence is an array and every deferred node its expression -/
def toJson : Document → Json
  | null => .null
  | bool b => .bool b
  | number n => .number n
  | string s => .string s
  | sequence _ xs => .array (toJsonItems xs)
  | object fs => .object (toJsonFields fs)
  | deferred d => d.toJson

def toJsonItems : List Document → List Json
  | [] => []
  | x :: xs => toJson x :: toJsonItems xs

def toJsonFields : List (String × Document) → List (String × Json)
  | [] => []
  | (k, v) :: rest => (k, toJson v) :: toJsonFields rest

end

/-- the text that is sent -/
def wire (d : Document) : String := d.toJson.wire

/-! ## lists and fields as maps -/

theorem isPlainItems_eq (xs : List Document) : isPlainItems xs = xs.all isPlain := by
  induction xs with
  | nil => rfl
  | cons x xs ih => simp [isPlainItems, ih]

theorem isPlainFields_eq (fs : List (String × Document)) :
    isPlainFields fs = fs.all fun f => isPlain f.2 := by
  induction fs with
  | nil => rfl
  | cons f fs ih => simp [isPlainFields, ih]

theorem isPlain_sequence_iff {k : SequenceKind} {xs : List Document} :
    (sequence k xs).isPlain = true ↔ ∀ x ∈ xs, x.isPlain = true := by
  rw [isPlain, isPlainItems_eq, List.all_eq_true]

theorem isPlain_object_iff {fs : List (String × Document)} :
    (object fs).isPlain = true ↔ ∀ f ∈ fs, f.2.isPlain = true := by
  rw [isPlain, isPlainFields_eq, List.all_eq_true]

theorem ofJsonItems_eq (xs : List Json) : ofJsonItems xs = xs.map ofJson := by
  induction xs with
  | nil => rfl
  | cons x xs ih => simp [ofJsonItems, ih]

theorem ofJsonFields_eq (fs : List (String × Json)) :
    ofJsonFields fs = fs.map fun f => (f.1, ofJson f.2) := by
  induction fs with
  | nil => rfl
  | cons f fs ih => simp [ofJsonFields, ih]

theorem toJsonItems_eq (xs : List Document) : toJsonItems xs = xs.map toJson := by
  induction xs with
  | nil => rfl
  | cons x xs ih => simp [toJsonItems, ih]

theorem toJsonFields_eq (fs : List (String × Document)) :
    toJsonFields fs = fs.map fun f => (f.1, toJson f.2) := by
  induction fs with
  | nil => rfl
  | cons f fs ih => simp [toJsonFields, ih]

theorem toJson_sequence (k : SequenceKind) (xs : List Document) :
    (sequence k xs).toJson = .array (xs.map toJson) := by
  rw [toJson, toJsonItems_eq]

theorem toJson_object (fs : List (String × Document)) :
    (object fs).toJson = .object (fs.map fun f => (f.1, f.2.toJson)) := by
  rw [toJson, toJsonFields_eq]

/-- to show a property of every document, show it of a container from its items -/
@[elab_as_elim]
theorem induct {P : Document → Prop} (null : P null) (bool : ∀ b, P (bool b))
    (number : ∀ n, P (number n)) (string : ∀ s, P (string s))
    (sequence : ∀ k xs, (∀ x ∈ xs, P x) → P (sequence k xs))
    (object : ∀ fs, (∀ f ∈ fs, P f.2) → P (object fs)) (deferred : ∀ d, P (deferred d))
    (d : Document) : P d :=
  Document.rec (motive_1 := P) (motive_2 := fun xs => ∀ x ∈ xs, P x)
    (motive_3 := fun fs => ∀ f ∈ fs, P f.2) (motive_4 := fun f => P f.2)
    null bool number string sequence object deferred
    (fun _ h => absurd h List.not_mem_nil)
    (fun _ _ hx hxs _ hy => (List.mem_cons.1 hy).elim (fun e => e ▸ hx) (hxs _))
    (fun _ h => absurd h List.not_mem_nil)
    (fun _ _ hf hfs _ hg => (List.mem_cons.1 hg).elim (fun e => e ▸ hf) (hfs _))
    (fun _ _ h => h) d

/-- JSON data comes back from its document unchanged -/
theorem toJson_ofJson (v : Json) : (ofJson v).toJson = v := by
  induction v using Json.induct with
  | null => rfl
  | bool b => rfl
  | number n => rfl
  | string s => rfl
  | array xs ih =>
    simp only [ofJson, toJson, ofJsonItems_eq, toJsonItems_eq, List.map_map, Json.array.injEq]
    exact (List.map_congr_left ih).trans (List.map_id _)
  | object fs ih =>
    simp only [ofJson, toJson, ofJsonFields_eq, toJsonFields_eq, List.map_map, Json.object.injEq]
    exact (List.map_congr_left fun f hf => by simp [ih f hf]).trans (List.map_id _)

/-- JSON data has no deferred node -/
theorem isPlain_ofJson (v : Json) : (ofJson v).isPlain = true := by
  induction v using Json.induct with
  | null => rfl
  | bool b => rfl
  | number n => rfl
  | string s => rfl
  | array xs ih => simpa [ofJson, isPlain, isPlainItems_eq, ofJsonItems_eq] using ih
  | object fs ih =>
    simp only [ofJson, isPlain, isPlainFields_eq, ofJsonFields_eq, List.all_map, List.all_eq_true]
    exact ih

end Document

end Workflow
