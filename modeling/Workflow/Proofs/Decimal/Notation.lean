import Mathlib.Algebra.Field.Rat
import Mathlib.Algebra.GroupWithZero.Units.Basic
import Mathlib.Data.List.DropRight
import Mathlib.Tactic.LinearCombination
import Workflow.Decimal.Layout
import Workflow.Proofs.Decimal.Numeral
import Workflow.Proofs.Decimal.ReadBack

/-!
# Numbers in scientific notation

A number in scientific form denotes a rational and is written with one digit before the point and a
plain exponent, as in `-1.25e-7`. In canonical form it is determined by what is written, and also by
its sign and its value: its digits are those of its coefficient, without a zero at the end.

* `Scientific.value`, `Numeral.value`    the rational that is denoted;
* `Scientific.ofWritten?_written`        the notation reads back;
* `Canonical.digits_eq`                  the digits are those of the coefficient;
* `Canonical.eq_of_shifted`              numbers that differ by zeros at the end only are the same;
* `natAbs_exponent_shortest_le`          the exponents of doubles are small.
-/

namespace Workflow.Decimal

/-- the value of a digit -/
def digitValue (c : Char) : Nat := c.toNat - '0'.toNat

namespace Scientific

/-- the number `d₁.d₂d₃…` -/
def mantissa : List Char → ℚ
  | [] => 0
  | c :: cs => digitValue c + mantissa cs / 10

def signValue (negative : Bool) : ℚ := if negative then -1 else 1

/-- `± d₁.d₂…dₙ · 10^e` -/
def value (s : Scientific) : ℚ := signValue s.negative * mantissa s.digits * 10 ^ s.exponent

end Scientific

def Numeral.value (n : Numeral) : ℚ :=
  Scientific.signValue n.negative * n.coefficient * 10 ^ n.scale

/-- the digits as a whole number, the point moved behind the last one -/
theorem mantissa_mul_pow (ds : List Char) :
    Scientific.mantissa ds * 10 ^ ds.length = 10 * (Nat.ofDigitChars 10 ds 0 : ℚ) := by
  induction ds with
  | nil => simp [Scientific.mantissa]
  | cons c cs ih =>
    have shifted : Nat.ofDigitChars 10 (c :: cs) 0 =
        10 ^ cs.length * digitValue c + Nat.ofDigitChars 10 cs 0 := by
      rw [Nat.ofDigitChars_cons, Nat.mul_zero, Nat.zero_add,
        Nat.ofDigitChars_eq_ofDigitChars_zero]
      rfl
    rw [shifted, Scientific.mantissa, List.length_cons, pow_succ]
    push_cast
    linear_combination ih

/-! ## the digits of a canonical number -/

theorem digitChar_digitValue {c : Char} (h : c.isDigit = true) :
    digitValue c < 10 ∧ (digitValue c).digitChar = c := by
  have hrange : 48 ≤ c.toNat ∧ c.toNat ≤ 57 := Char.isDigit_iff_toNat.mp h
  have digits : ∀ v < 10, v.digitChar = Char.ofNat (48 + v) := by decide
  have hv : digitValue c = c.toNat - 48 := rfl
  refine ⟨by omega, ?_⟩
  rw [digits _ (by omega), hv, show 48 + (c.toNat - 48) = c.toNat by omega, Char.ofNat_toNat]

/-- reading on from a number that has been read continues its digits -/
theorem toDigits_ofDigitChars {read : Nat} (hread : 0 < read) {cs : List Char}
    (h : ∀ c ∈ cs, c.isDigit = true) :
    Nat.toDigits 10 (Nat.ofDigitChars 10 cs read) = Nat.toDigits 10 read ++ cs := by
  induction cs generalizing read with
  | nil => rw [Nat.ofDigitChars_nil, List.append_nil]
  | cons c cs ih =>
    obtain ⟨hc, hcs⟩ := List.forall_mem_cons.mp h
    obtain ⟨hlt, hchar⟩ := digitChar_digitValue hc
    have next : Nat.toDigits 10 (10 * read + digitValue c) = Nat.toDigits 10 read ++ [c] := by
      rw [← Nat.toDigits_append_toDigits (by decide) hread hlt, Nat.toDigits_of_lt_base hlt, hchar]
    rw [Nat.ofDigitChars_cons]
    show Nat.toDigits 10 (Nat.ofDigitChars 10 cs (10 * read + digitValue c)) = _
    rw [ih (by omega) hcs, next, List.append_assoc, List.singleton_append]

namespace Scientific.Canonical

variable {s t : Scientific}

theorem head?_ne_zero (h : s.Canonical) (hpos : 0 < s.coefficient) : s.digits.head? ≠ some '0' := by
  intro hz
  obtain ⟨hd, -⟩ := h.zero hz
  rw [coefficient, hd] at hpos
  exact absurd hpos (by decide)

/-- the digits are those of the coefficient -/
theorem digits_eq (h : s.Canonical) : s.digits = Nat.toDigits 10 s.coefficient := by
  obtain ⟨c, cs, hds⟩ := List.exists_cons_of_ne_nil h.digits_ne_nil
  by_cases hz : s.digits.head? = some '0'
  · rw [coefficient, (h.zero hz).1]
    rfl
  · have hall := h.all_digits
    rw [hds] at hall hz
    obtain ⟨hc, hcs⟩ := List.forall_mem_cons.mp hall
    obtain ⟨hlt, hchar⟩ := digitChar_digitValue hc
    have hpos : 0 < digitValue c := by
      refine Nat.pos_of_ne_zero fun h0 => hz ?_
      rw [List.head?_cons, ← hchar, h0]
      rfl
    have first : s.coefficient = Nat.ofDigitChars 10 cs (digitValue c) := by
      rw [coefficient, hds, Nat.ofDigitChars_cons, Nat.mul_zero, Nat.zero_add]
      rfl
    rw [first, toDigits_ofDigitChars hpos hcs, Nat.toDigits_of_lt_base hlt, hchar, hds,
      List.singleton_append]

theorem getLast?_ne_zero (h : s.Canonical) (hpos : 0 < s.coefficient) :
    s.digits.getLast? ≠ some '0' := by
  rcases Nat.lt_or_ge 1 s.digits.length with hlen | hlen
  · exact h.last hlen
  · have single : s.digits.getLast? = s.digits.head? := by
      obtain ⟨c, cs, hds⟩ := List.exists_cons_of_ne_nil h.digits_ne_nil
      rw [hds, List.length_cons] at hlen
      rw [hds, List.eq_nil_of_length_eq_zero (show cs.length = 0 by omega)]
      rfl
    rw [single]
    exact h.head?_ne_zero hpos

/-- zeros put at the end are stripped again -/
theorem rdropWhile_append_zeros (h : s.Canonical) (hpos : 0 < s.coefficient) (k : Nat) :
    (s.digits ++ List.replicate k '0').rdropWhile (· == '0') = s.digits := by
  induction k with
  | zero =>
    rw [List.replicate_zero, List.append_nil, List.rdropWhile_eq_self_iff]
    intro hne hz
    refine h.getLast?_ne_zero hpos ?_
    rw [List.getLast?_eq_some_getLast hne, eq_of_beq hz]
  | succ k ih =>
    rw [List.replicate_succ', ← List.append_assoc, List.rdropWhile_concat_pos _ _ _ rfl, ih]

theorem eq_of_append_zeros (hs : s.Canonical) (ht : t.Canonical) (hspos : 0 < s.coefficient)
    (htpos : 0 < t.coefficient) {j k : Nat}
    (h : s.digits ++ List.replicate j '0' = t.digits ++ List.replicate k '0') :
    s.digits = t.digits ∧ j = k := by
  have digits : s.digits = t.digits := by
    rw [← hs.rdropWhile_append_zeros hspos j, h, ht.rdropWhile_append_zeros htpos]
  have lengths := congrArg List.length h
  rw [List.length_append, List.length_append, List.length_replicate, List.length_replicate,
    digits] at lengths
  exact ⟨digits, Nat.add_left_cancel lengths⟩

/-- numbers whose coefficients differ by zeros at the end only, with the scales to match, are the
same -/
theorem eq_of_shifted (hs : s.Canonical) (ht : t.Canonical) (hsign : s.negative = t.negative)
    {j k : Nat} (hcoeff : s.coefficient * 10 ^ j = t.coefficient * 10 ^ k)
    (hscale : s.scale - j = t.scale - k) : s = t := by
  have zero : ∀ {u : Scientific}, u.Canonical → u.coefficient = 0 →
      u.digits = ['0'] ∧ u.exponent = 0 := by
    intro u hu h0
    refine hu.zero ?_
    rw [hu.digits_eq, h0]
    rfl
  have parts : s.digits = t.digits ∧ s.exponent = t.exponent := by
    rcases Nat.eq_zero_or_pos s.coefficient with hs0 | hspos
    · have ht0 : t.coefficient = 0 := by
        rw [hs0, Nat.zero_mul] at hcoeff
        exact (Nat.mul_eq_zero.mp hcoeff.symm).resolve_right (Nat.pow_pos (by decide)).ne'
      obtain ⟨hsd, hse⟩ := zero hs hs0
      obtain ⟨htd, hte⟩ := zero ht ht0
      exact ⟨hsd.trans htd.symm, hse.trans hte.symm⟩
    · have htpos : 0 < t.coefficient := by
        refine Nat.pos_of_ne_zero fun ht0 => ?_
        rw [ht0, Nat.zero_mul] at hcoeff
        exact absurd hcoeff (Nat.mul_pos hspos (Nat.pow_pos (by decide))).ne'
      have listed : s.digits ++ List.replicate j '0' = t.digits ++ List.replicate k '0' := by
        rw [hs.digits_eq, ht.digits_eq, ← toDigits_mul_pow hspos, ← toDigits_mul_pow htpos, hcoeff]
      obtain ⟨digits, rfl⟩ := eq_of_append_zeros hs ht hspos htpos listed
      refine ⟨digits, ?_⟩
      rw [scale, scale, digits] at hscale
      omega
  obtain ⟨negative, ds, e⟩ := s
  obtain ⟨negative', ds', e'⟩ := t
  obtain ⟨rfl, rfl⟩ := parts
  obtain rfl : negative = negative' := hsign
  rfl

end Scientific.Canonical

/-! ## values -/

namespace Scientific

theorem mantissa_mul_zpow {s : Scientific} (h : s.digits ≠ []) :
    mantissa s.digits * 10 ^ s.exponent = (s.coefficient : ℚ) * 10 ^ s.scale := by
  have hlen := List.length_pos_iff.mpr h
  have whole : mantissa s.digits * 10 ^ s.digits.length = 10 * (s.coefficient : ℚ) :=
    mantissa_mul_pow s.digits
  have split : (10 : ℚ) ^ s.exponent = 10 ^ s.digits.length * 10 ^ (s.scale - 1) := by
    rw [← zpow_natCast, ← zpow_add₀ (by norm_num), scale]
    congr 1
    omega
  have last : (10 : ℚ) * 10 ^ (s.scale - 1) = 10 ^ s.scale := by
    rw [← zpow_one_add₀ (by norm_num)]
    congr 1
    omega
  rw [split, ← last]
  linear_combination (10 : ℚ) ^ (s.scale - 1) * whole

end Scientific

/-- a numeral with zeros at the end of the digits denotes the same number -/
theorem value_eq_of_shifted {n : Numeral} {s : Scientific} (hs : s.digits ≠ [])
    (hsign : n.negative = s.negative) {k : Nat} (hcoeff : n.coefficient = s.coefficient * 10 ^ k)
    (hscale : n.scale = s.scale - k) : n.value = s.value := by
  have zeros : (10 : ℚ) ^ k * 10 ^ (s.scale - k) = 10 ^ s.scale := by
    rw [← zpow_natCast, ← zpow_add₀ (by norm_num)]
    congr 1
    omega
  rw [Numeral.value, Scientific.value, hsign, hcoeff, hscale]
  push_cast
  rw [mul_assoc _ (Scientific.mantissa _), Scientific.mantissa_mul_zpow hs, ← zeros]
  ring

/-! ## scientific notation -/

namespace Scientific

theorem int32?_written {e : Int} (h : Fits32 e) :
    int32? ((if e < 0 then ['-'] else []) ++ Nat.toDigits 10 e.natAbs) = some e := by
  have hdigits : ∀ c ∈ Nat.toDigits 10 e.natAbs, c.isDigit = true := fun c hc =>
    Nat.isDigit_of_mem_toDigits (by decide) (by decide) hc
  have hshape : Nat.toDigits 10 e.natAbs ≠ [] ∧ (Nat.toDigits 10 e.natAbs).all Char.isDigit :=
    ⟨Nat.toDigits_ne_nil, List.all_eq_true.mpr hdigits⟩
  by_cases he : e < 0
  · have split : Numeral.splitSign ('-' :: Nat.toDigits 10 e.natAbs) =
        (some '-', Nat.toDigits 10 e.natAbs) := rfl
    have back : -(e.natAbs : Int) = e := by omega
    rw [if_pos he, List.singleton_append, int32?, split]
    dsimp only
    rw [Nat.ofDigitChars_ten_toDigits, if_pos rfl, back, if_pos ⟨hshape.1, hshape.2, h⟩]
  · have split : Numeral.splitSign ((none : Option Char).toList ++ Nat.toDigits 10 e.natAbs) =
        (none, Nat.toDigits 10 e.natAbs) :=
      Numeral.splitSign_append nofun fun c hc =>
        Numeral.not_isSign_of_isDigit (hdigits c (List.mem_of_mem_head? hc))
    have back : (e.natAbs : Int) = e := by omega
    rw [Option.toList_none] at split
    rw [if_neg he, int32?, split]
    dsimp only
    rw [Nat.ofDigitChars_ten_toDigits, if_neg (show ¬ none = some '-' from nofun), back,
      if_pos ⟨hshape.1, hshape.2, h⟩]

theorem filter_pointed {ds : List Char} (h : ∀ c ∈ ds, c.isDigit = true) :
    (pointed ds).filter Char.isDigit = ds := by
  have kept : ∀ part : List Char, part ⊆ ds → part.filter Char.isDigit = part := fun part hpart =>
    List.filter_eq_self.mpr fun c hc => h c (hpart hc)
  rw [pointed, List.filter_append, kept _ (List.take_subset 1 ds)]
  split
  case isTrue hle => simp [List.take_of_length_le hle]
  case isFalse hle =>
    rw [List.filter_cons_of_neg (by decide), kept _ (List.drop_subset 1 ds), List.take_append_drop]

theorem mem_pointed {ds : List Char} {c : Char} (h : c ∈ pointed ds) : c = '.' ∨ c ∈ ds := by
  rcases List.mem_append.mp h with h | h
  · exact .inr (List.mem_of_mem_take h)
  · split at h
    · exact absurd h List.not_mem_nil
    · exact (List.mem_cons.mp h).imp id List.mem_of_mem_drop

/-- **The scientific notation reads back.** -/
theorem ofWritten?_written {s : Scientific} (h : s.Canonical) (he : Fits32 s.exponent) :
    ofWritten? s.written = some s := by
  obtain ⟨negative, ds, e⟩ := s
  have hdigit : ∀ c ∈ ds, c ≠ 'e' ∧ c ≠ '-' := by
    intro c hc
    have hd := h.all_digits c hc
    constructor <;> rintro rfl <;> exact absurd hd (by decide)
  have plain : ∀ c ∈ pointed ds, c ≠ 'e' ∧ c ≠ '-' := fun c hc =>
    (mem_pointed hc).elim (fun hp => hp ▸ by decide) (hdigit c)
  have unmarked : ∀ c ∈ (if negative then ['-'] else []) ++ pointed ds, (c != 'e') = true := by
    intro c hc
    rw [bne_iff_ne]
    rcases List.mem_append.mp hc with hc | hc
    · cases negative with
      | false => exact absurd hc List.not_mem_nil
      | true =>
        obtain rfl := List.mem_singleton.mp hc
        decide
    · exact (plain c hc).1
  have sign : (((if negative then ['-'] else []) ++ pointed ds).head? == some '-') = negative := by
    cases negative with
    | true => rfl
    | false =>
      rw [if_neg Bool.false_ne_true, List.nil_append, beq_eq_false_iff_ne]
      exact fun hc => (plain '-' (List.mem_of_mem_head? hc)).2 rfl
  have digits : (if negative then ((if negative then ['-'] else []) ++ pointed ds).drop 1
      else (if negative then ['-'] else []) ++ pointed ds).filter Char.isDigit = ds := by
    cases negative <;> exact filter_pointed h.all_digits
  rw [written, ofWritten?, List.takeWhile_append_of_pos unmarked,
    List.dropWhile_append_of_pos unmarked]
  simp only [bne_self_eq_false, Bool.false_eq_true, not_false_eq_true,
    List.takeWhile_cons_of_neg, List.dropWhile_cons_of_neg, List.append_nil, sign, digits,
    int32?_written he, Option.map_some]

end Scientific

/-! ## doubles -/

theorem natAbs_exponent_shortest_le (tie : Tie) (d : Double) :
    (shortest tie d).exponent.natAbs ≤ 331 := by
  unfold shortest
  split
  case isTrue => exact Nat.zero_le 331
  case isFalse hnonzero =>
    have hrank : 0 < d.rank := by
      refine Nat.pos_of_ne_zero fun h0 => hnonzero ?_
      rw [Double.isZero, h0]
      rfl
    have inside := inInterval_of_readsBack (readsBack_shortestPoint tie hrank)
    have least := top_ge_of_inInterval inside hrank
    have greatest := top_le_of_inInterval inside hrank d.rank_lt
    have hlen : 0 < (Nat.toDigits 10 (shortestPoint tie d.rank).coefficient).length :=
      Nat.length_toDigits_pos
    dsimp only
    omega

/-- the digits of a double can be laid out from their notation as well -/
theorem Layout.ofNotation?_shortest (l : Layout) (tie : Tie) (d : Double) :
    l.ofNotation? (shortest tie d).written = l.text? (shortest tie d) := by
  have bound := natAbs_exponent_shortest_le tie d
  have fits : Scientific.Fits32 (shortest tie d).exponent := by
    constructor <;> omega
  rw [ofNotation?, Scientific.ofWritten?_written (canonical_shortest tie d) fits]

end Workflow.Decimal
