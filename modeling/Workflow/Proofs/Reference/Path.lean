import Workflow.Proofs.Text.Run
import Workflow.Reference

/-!
# Paths of references

The path of a reference is one text: the root, the name, and the hops one behind the other. Nothing
tells the parts apart but the characters with which hops begin and end. This is enough if a name has
neither a point nor an opening bracket in it, and a key no quote: each hop can be read off the front
of a path, and what is left is the path of the others.

* `Hop.read?`                the hop at the front of a path;
* `Hop.read?_trail`          the first of many hops is read, and the others are left;
* `Referent`                 what a reference refers to;
* `Referent.isLegible`       its names and keys do not look like the marks around them;
* `Referent.path_injective`  legible referents with one path are the same.
-/

namespace Workflow

theorem getExpression_inj {p q : String} : getExpression p = getExpression q ↔ p = q := by
  simp [getExpression]

/-! ## hops -/

/-- a character of a name in a path: not one with which a hop begins -/
def isSegmentChar (c : Char) : Bool := c != '.' && c != '['

def isSegment (s : String) : Bool := s.toList.all isSegmentChar

namespace Hop

/-- a name without a point and an opening bracket, any index, a key without a quote -/
def isLegible : Hop → Bool
  | field name => isSegment name
  | item _ => true
  | entry key => key.toList.all (· != '\'')

/-- the characters of hops one behind the other -/
def trail (hops : List Hop) : List Char := hops.flatMap fun h => h.text.toList

/-- the hop at the front of a path, and the rest of the path -/
def read? : List Char → Option (Hop × List Char)
  | '.' :: cs =>
    some (field (String.ofList (cs.takeWhile isSegmentChar)), cs.dropWhile isSegmentChar)
  | '[' :: c :: cs =>
    if c = '\'' then
      some (entry (String.ofList (cs.takeWhile (· != '\''))), (cs.dropWhile (· != '\'')).drop 2)
    else
      some (item (Nat.ofDigitChars 10 ((c :: cs).takeWhile Char.isDigit) 0),
        ((c :: cs).dropWhile Char.isDigit).drop 1)
  | _ => none

theorem toList_field (name : String) : (field name).text.toList = '.' :: name.toList := by
  simp [text]

theorem toList_item (index : Nat) :
    (item index).text.toList = '[' :: (Nat.toDigits 10 index ++ [']']) := by
  simp [text]

theorem toList_entry (key : String) :
    (entry key).text.toList = '[' :: '\'' :: (key.toList ++ ['\'', ']']) := by
  simp [text]

theorem trail_cons (h : Hop) (hops : List Hop) : trail (h :: hops) = h.text.toList ++ trail hops :=
  List.flatMap_cons

/-- no name runs on into the hops behind it -/
theorem head?_trail (hops : List Hop) : ∀ c ∈ (trail hops).head?, isSegmentChar c = false := by
  cases hops with
  | nil => exact nofun
  | cons h hops =>
    rw [trail_cons]
    cases h with
    | field name =>
      rw [toList_field]
      rintro c ⟨⟩
      rfl
    | item index =>
      rw [toList_item]
      rintro c ⟨⟩
      rfl
    | entry key =>
      rw [toList_entry]
      rintro c ⟨⟩
      rfl

theorem read?_field {name : String} (hname : isSegment name = true) {rest : List Char}
    (hrest : ∀ c ∈ rest.head?, isSegmentChar c = false) :
    read? ((field name).text.toList ++ rest) = some (field name, rest) := by
  obtain ⟨htake, hdrop⟩ := Text.run_append (List.all_eq_true.mp hname) hrest
  rw [toList_field, List.cons_append, read?, htake, hdrop, String.ofList_toList]

theorem read?_item (index : Nat) (rest : List Char) :
    read? ((item index).text.toList ++ rest) = some (item index, rest) := by
  have hdigits : ∀ c ∈ Nat.toDigits 10 index, c.isDigit = true := fun c hc =>
    Nat.isDigit_of_mem_toDigits (by decide) (by decide) hc
  have hend : ∀ c ∈ (']' :: rest).head?, c.isDigit = false := by
    rintro c ⟨⟩
    rfl
  obtain ⟨htake, hdrop⟩ := Text.run_append hdigits hend
  have hvalue : Nat.ofDigitChars 10 (Nat.toDigits 10 index) 0 = index :=
    Nat.ofDigitChars_ten_toDigits
  -- a digit comes first, so the bracket is not that of a key
  obtain ⟨d, ds, hds⟩ := List.exists_cons_of_ne_nil (Nat.toDigits_ne_nil (b := 10) (n := index))
  have hd : d ≠ '\'' := by
    rintro rfl
    exact absurd (hdigits _ (hds ▸ List.mem_cons_self)) (by decide)
  rw [hds] at htake hdrop hvalue
  rw [toList_item, List.cons_append, List.append_assoc, hds]
  show read? ('[' :: d :: (ds ++ ']' :: rest)) = _
  rw [read?, if_neg hd, ← List.cons_append, htake, hdrop, hvalue]
  rfl

theorem read?_entry {key : String} (hkey : (entry key).isLegible = true) (rest : List Char) :
    read? ((entry key).text.toList ++ rest) = some (entry key, rest) := by
  have hend : ∀ c ∈ ('\'' :: ']' :: rest).head?, (c != '\'') = false := by
    rintro c ⟨⟩
    rfl
  obtain ⟨htake, hdrop⟩ := Text.run_append (List.all_eq_true.mp hkey) hend
  rw [toList_entry, List.cons_append, List.cons_append, List.append_assoc]
  show read? ('[' :: '\'' :: (key.toList ++ '\'' :: ']' :: rest)) = _
  rw [read?, if_pos rfl, htake, hdrop, String.ofList_toList]
  rfl

/-- **A legible hop is read off the front of a path**, and the other hops are left. -/
theorem read?_trail {h : Hop} (hh : h.isLegible = true) (hops : List Hop) :
    read? (trail (h :: hops)) = some (h, trail hops) := by
  rw [trail_cons]
  cases h with
  | field name => exact read?_field hh (head?_trail hops)
  | item index => exact read?_item index (trail hops)
  | entry key => exact read?_entry hh (trail hops)

theorem trail_injective {hops hops' : List Hop} (hhops : ∀ h ∈ hops, h.isLegible = true)
    (hhops' : ∀ h ∈ hops', h.isLegible = true) (heq : trail hops = trail hops') :
    hops = hops' := by
  induction hops generalizing hops' with
  | nil =>
    cases hops' with
    | nil => rfl
    | cons k ks =>
      have hread := read?_trail (hhops' k List.mem_cons_self) ks
      rw [← heq] at hread
      cases hread
  | cons h hs ih =>
    obtain ⟨hh, hhs⟩ := List.forall_mem_cons.mp hhops
    have hread := read?_trail hh hs
    cases hops' with
    | nil =>
      rw [heq] at hread
      cases hread
    | cons k ks =>
      obtain ⟨hk, hks⟩ := List.forall_mem_cons.mp hhops'
      rw [heq, read?_trail hk ks, Option.some_inj, Prod.mk.injEq] at hread
      obtain ⟨rfl, hrest⟩ := hread
      rw [ih hhs hks hrest.symm]

end Hop

theorem Property.toList_follow (p : Property) (hops : List Hop) :
    (p.follow hops).path.toList = p.path.toList ++ Hop.trail hops := by
  induction hops generalizing p with
  | nil => exact (List.append_nil _).symm
  | cons h hops ih =>
    show ((p.hop h).follow hops).path.toList = _
    rw [ih, hop, String.toList_append, Hop.trail_cons, List.append_assoc]

/-! ## referents -/

/-- what a reference refers to: a parameter by its name, a variable of the run, or what is found by
hops from the output of a step -/
inductive Referent where
  | parameter (name : String)
  | runVariable (v : RunVariable)
  | output (step : String) (hops : List Hop)
deriving DecidableEq, Repr

namespace Referent

def path : Referent → String
  | parameter name => "Parameters." ++ name
  | runVariable v => "Execution." ++ v.name
  | output step hops => ((Property.ofStep step).follow hops).path

/-- the step has a name without a point and an opening bracket, and the hops are legible -/
def isLegible : Referent → Bool
  | output step hops => isSegment step && hops.all Hop.isLegible
  | _ => true

/-- the letter with which the path starts -/
def initial : Referent → Char
  | parameter _ => 'P'
  | runVariable _ => 'E'
  | output _ _ => 'S'

theorem toList_path_output (step : String) (hops : List Hop) :
    (output step hops).path.toList = "Steps.".toList ++ (step.toList ++ Hop.trail hops) := by
  rw [path, Property.toList_follow, Property.ofStep, String.toList_append, List.append_assoc]

theorem head?_path (a : Referent) : a.path.toList.head? = some a.initial := by
  cases a with
  | parameter name =>
    rw [path, String.toList_append]
    rfl
  | runVariable v =>
    rw [path, String.toList_append]
    rfl
  | output step hops =>
    rw [toList_path_output]
    rfl

theorem output_injective {step step' : String} {hops hops' : List Hop}
    (h : (output step hops).isLegible = true) (h' : (output step' hops').isLegible = true)
    (heq : (output step hops).path = (output step' hops').path) :
    output step hops = output step' hops' := by
  rw [isLegible, Bool.and_eq_true, List.all_eq_true] at h h'
  have hchars := congrArg String.toList heq
  rw [toList_path_output, toList_path_output, List.append_cancel_left_eq] at hchars
  -- the name of the step ends where the hops begin
  obtain ⟨htake, hdrop⟩ := Text.run_append (List.all_eq_true.mp h.1) (Hop.head?_trail hops)
  obtain ⟨htake', hdrop'⟩ := Text.run_append (List.all_eq_true.mp h'.1) (Hop.head?_trail hops')
  rw [hchars] at htake hdrop
  have hstep : step = step' := String.toList_inj.mp (htake.symm.trans htake')
  have hhops : hops = hops' := Hop.trail_injective h.2 h'.2 (hdrop.symm.trans hdrop')
  rw [hstep, hhops]

/-- **Legible referents with one path are the same.** -/
theorem path_injective {a b : Referent} (ha : a.isLegible = true) (hb : b.isLegible = true)
    (h : a.path = b.path) : a = b := by
  have hinitial : a.initial = b.initial := by
    rw [← Option.some_inj, ← head?_path, ← head?_path, h]
  cases a with
  | parameter name =>
    cases b with
    | parameter name' => rw [(String.append_right_inj _).mp h]
    | _ => exact absurd hinitial (by simp [initial])
  | runVariable v =>
    cases b with
    | runVariable w => rw [RunVariable.name_injective ((String.append_right_inj _).mp h)]
    | _ => exact absurd hinitial (by simp [initial])
  | output step hops =>
    cases b with
    | output step' hops' => exact output_injective ha hb h
    | _ => exact absurd hinitial (by simp [initial])

/-- a point in the name of a step makes it look like a field of another -/
example : (output "Train.Model" []).path = (output "Train" [.field "Model"]).path := by decide

end Referent

end Workflow
