import Workflow.Decimal.Numeral
import Workflow.Proofs.Text.Run

/-!
# Numerals and their text

A numeral is written part by part, and the text is split into the same parts again. The parts never
run together: a digit is no sign, no point and no exponent mark.

* `Numeral.text`          the text of a numeral, the exponent marked by `e`;
* `Numeral.Proper`        digits and signs stand where they are due;
* `Numeral.ofText?_text`  the text of a proper numeral is split into its parts.
-/

namespace Workflow.Decimal.Numeral

/-- the point and the digits after it -/
def fractionText : Option (List Char) → List Char
  | none => []
  | some ds => '.' :: ds

def exponentText : Option (Option Char × List Char) → List Char
  | none => []
  | some (sign, ds) => 'e' :: (sign.toList ++ ds)

def text (n : Numeral) : List Char :=
  n.sign.toList ++ (n.whole ++ (fractionText n.fraction ++ exponentText n.exponent))

structure Proper (n : Numeral) : Prop where
  sign : ∀ c ∈ n.sign, isSign c = true
  whole : ∀ c ∈ n.whole, c.isDigit = true
  fraction : ∀ ds ∈ n.fraction, ∀ c ∈ ds, c.isDigit = true
  exponentSign : ∀ p ∈ n.exponent, ∀ c ∈ p.1, isSign c = true
  exponent : ∀ p ∈ n.exponent, p.2 ≠ [] ∧ ∀ c ∈ p.2, c.isDigit = true

theorem not_isSign_of_isDigit {c : Char} (h : c.isDigit = true) : isSign c = false := by
  rw [isSign, Bool.or_eq_false_iff, beq_eq_false_iff_ne, beq_eq_false_iff_ne]
  constructor
  · rintro rfl
    exact absurd h (by decide)
  · rintro rfl
    exact absurd h (by decide)

theorem splitSign_append {sign : Option Char} {cs : List Char} (hs : ∀ c ∈ sign, isSign c = true)
    (hc : ∀ c ∈ cs.head?, isSign c = false) : splitSign (sign.toList ++ cs) = (sign, cs) := by
  cases sign with
  | some c =>
    show (if isSign c then (some c, cs) else (none, c :: cs)) = _
    rw [if_pos (hs c rfl)]
  | none =>
    cases cs with
    | nil => rfl
    | cons c cs =>
      show (if isSign c then (some c, cs) else (none, c :: cs)) = _
      rw [hc c rfl, if_neg (by decide)]

theorem head?_exponentText {e : Option (Option Char × List Char)} {c : Char}
    (h : c ∈ (exponentText e).head?) : c = 'e' := by
  cases e with
  | none => exact absurd h (by simp [exponentText])
  | some p => simpa [exponentText] using h.symm

theorem exponentOf?_exponentText {n : Numeral} (h : n.Proper) :
    exponentOf? (exponentText n.exponent) = some n.exponent := by
  cases he : n.exponent with
  | none => rfl
  | some p =>
    obtain ⟨sign, ds⟩ := p
    obtain ⟨hne, hdig⟩ := h.exponent _ he
    have hhead : ∀ c ∈ ds.head?, isSign c = false := fun c hc =>
      not_isSign_of_isDigit (hdig c (List.mem_of_head? hc))
    have hsplit := splitSign_append (h.exponentSign _ he) hhead
    have hall : ds.all Char.isDigit = true := List.all_eq_true.mpr hdig
    simp only [exponentText, exponentOf?, hsplit, true_or, if_true]
    rw [if_pos ⟨hne, hall⟩]

/-- **The text of a numeral is split into its parts again.** -/
theorem ofText?_text {n : Numeral} (h : n.Proper) : ofText? n.text = some n := by
  obtain ⟨sign, whole, fraction, exponent⟩ := n
  have hexp := exponentOf?_exponentText h
  dsimp only at hexp
  have hend : ∀ c ∈ (exponentText exponent).head?, c.isDigit = false := fun c hc => by
    rw [head?_exponentText hc]
    rfl
  have htail : ∀ c ∈ (fractionText fraction ++ exponentText exponent).head?, c.isDigit = false := by
    intro c hc
    cases fraction with
    | none => exact hend c hc
    | some ds =>
      obtain rfl : '.' = c := Option.some_inj.mp hc
      rfl
  have hhead : ∀ c ∈ (whole ++ (fractionText fraction ++ exponentText exponent)).head?,
      isSign c = false := by
    intro c hc
    cases whole with
    | cons d ds =>
      obtain rfl : d = c := Option.some_inj.mp hc
      exact not_isSign_of_isDigit (h.whole d List.mem_cons_self)
    | nil =>
      cases fraction with
      | none =>
        rw [head?_exponentText hc]
        rfl
      | some ds =>
        obtain rfl : '.' = c := Option.some_inj.mp hc
        rfl
  obtain ⟨hw, hrest⟩ := Text.run_append h.whole htail
  unfold ofText? text
  simp only [splitSign_append h.sign hhead, hw, hrest]
  cases fraction with
  | some ds =>
    obtain ⟨hf, hfrest⟩ := Text.run_append (h.fraction ds rfl) hend
    simp only [fractionText, List.cons_append, hf, hfrest, hexp, Option.map_some]
  | none =>
    cases exponent with
    | none => rfl
    | some p =>
      show (exponentOf? (exponentText (some p))).map _ = _
      rw [hexp]
      rfl

end Workflow.Decimal.Numeral
