import Workflow.Json.Style
import Workflow.Json.Token
import Workflow.Proofs.Decimal.Notation

/-!
# Numbers and their text

The text of a number is the text of a numeral, and reading that numeral gives the number: an integer
has neither point nor exponent mark, a float has one of them whatever its layout.

* `Layout.numeral`        the numeral that a layout writes, one of four forms;
* `Writes`                the numeral is a JSON number, marked as a float, of the same value;
* `writes_numeral`        so it is for every layout;
* `Number.ofText?_numberText`       the text of a number reads back as that number, in every style;
* `Number.numberText_eq_cons`       how the text starts, and what it is made of.
-/

namespace Workflow

open Decimal

theorem Number.isJson_iff {n : Numeral} : Number.isJson n = true ↔
    n.sign ≠ some '+' ∧ n.whole ≠ [] ∧ (n.whole.length = 1 ∨ n.whole.head? ≠ some '0') ∧
      n.fraction ≠ some [] := by
  simp [Number.isJson, and_assoc]

end Workflow

namespace Workflow.Decimal

/-- `n` is the number `s`, written as JSON asks and with a point or an exponent mark -/
structure Writes (n : Numeral) (s : Scientific) : Prop where
  proper : n.Proper
  json : Number.isJson n = true
  marked : n.isWhole = false
  negative : n.negative = s.negative
  /-- the digits may be followed by zeros -/
  value : ∃ k : Nat, n.coefficient = s.coefficient * 10 ^ k ∧ n.scale = s.scale - k

namespace Layout

open Text

def signOf (negative : Bool) : Option Char := if negative then some '-' else none

theorem isSign_of_mem_signOf {negative : Bool} {c : Char} (h : c ∈ signOf negative) :
    Numeral.isSign c = true := by
  cases negative with
  | false => exact absurd h (by simp [signOf])
  | true =>
    obtain rfl : '-' = c := Option.some_inj.mp h
    rfl

theorem signOf_ne_plus (negative : Bool) : signOf negative ≠ some '+' := by
  cases negative <;> decide

theorem signOf_eq_minus (negative : Bool) : (signOf negative == some '-') = negative := by
  cases negative <;> decide

/-! ## the four forms -/

/-- the point before the digits -/
def belowOne (s : Scientific) : Numeral :=
  ⟨signOf s.negative, ['0'], some (List.replicate ((-s.exponent).toNat - 1) '0' ++ s.digits), none⟩

/-- the point after the digits -/
def wholeDigits (s : Scientific) : Numeral :=
  ⟨signOf s.negative, s.digits ++ List.replicate (s.exponent.toNat + 1 - s.digits.length) '0',
    some ['0'], none⟩

/-- the point among the digits -/
def splitDigits (s : Scientific) : Numeral :=
  ⟨signOf s.negative, s.digits.take (s.exponent.toNat + 1),
    some (s.digits.drop (s.exponent.toNat + 1)), none⟩

/-- an explicit exponent -/
def withExponent (l : Layout) (s : Scientific) : Numeral :=
  ⟨signOf s.negative, s.digits.take 1,
    if s.digits.length ≤ 1 then none else some (s.digits.drop 1),
    some (some (if s.exponent < 0 then '-' else '+'), padded l.exponentWidth s.exponent.natAbs)⟩

def numeral (l : Layout) (s : Scientific) : Numeral :=
  if l.plainFrom ≤ s.exponent ∧ s.exponent < l.plainBelow then
    if s.exponent < 0 then belowOne s
    else if s.digits.length ≤ s.exponent.toNat + 1 then wholeDigits s else splitDigits s
  else l.withExponent s

theorem ofDigitChars_padded (width n : Nat) : Nat.ofDigitChars 10 (padded width n) 0 = n := by
  rw [padded, Nat.ofDigitChars_append, Nat.ofDigitChars_replicate_zero, Nat.mul_zero,
    Nat.ofDigitChars_ten_toDigits]

theorem isDigit_of_mem_padded {width n : Nat} {c : Char} (h : c ∈ padded width n) :
    c.isDigit = true := by
  rcases List.mem_append.mp h with h | h
  · rw [(List.mem_replicate.mp h).2]
    rfl
  · exact Nat.isDigit_of_mem_toDigits (by decide) (by decide) h

theorem padded_ne_nil (width n : Nat) : padded width n ≠ [] := by
  rw [padded]
  exact List.append_ne_nil_of_right_ne_nil _ Nat.toDigits_ne_nil

section
variable {s : Scientific} (h : s.Canonical)
include h

theorem writes_belowOne (he : s.exponent < 0) : Writes (belowOne s) s where
  proper := by
    refine ⟨fun c hc => isSign_of_mem_signOf hc, by simp [belowOne], fun ds hds c hc => ?_,
      by simp [belowOne], by simp [belowOne]⟩
    obtain rfl : _ = ds := Option.some_inj.mp hds
    rcases List.mem_append.mp hc with hc | hc
    · rw [(List.mem_replicate.mp hc).2]
      rfl
    · exact h.all_digits c hc
  json := Number.isJson_iff.mpr ⟨signOf_ne_plus _, by simp [belowOne], Or.inl rfl,
    by simp [belowOne, h.digits_ne_nil]⟩
  marked := rfl
  negative := signOf_eq_minus _
  value := by
    refine ⟨0, ?_, ?_⟩
    · show Nat.ofDigitChars 10 (['0'] ++ (List.replicate _ '0' ++ s.digits)) 0 = _
      rw [Nat.ofDigitChars_append, Nat.ofDigitChars_append, Nat.ofDigitChars_replicate_zero]
      simp [Nat.ofDigitChars_cons, Scientific.coefficient]
    · have hlen := List.length_pos_iff.mpr h.digits_ne_nil
      simp only [Numeral.scale, Scientific.scale, belowOne, Option.getD_some, List.length_append,
        List.length_replicate]
      omega

theorem head?_ne_zero (hlen : 1 < s.digits.length ∨ s.exponent ≠ 0) : s.digits.head? ≠ some '0' := by
  intro hz
  obtain ⟨hd, he⟩ := h.zero hz
  rw [hd] at hlen
  exact hlen.elim (fun h => absurd h (by decide)) (absurd he)

theorem writes_wholeDigits (he : ¬ s.exponent < 0) (hlen : s.digits.length ≤ s.exponent.toNat + 1) :
    Writes (wholeDigits s) s where
  proper := by
    refine ⟨fun c hc => isSign_of_mem_signOf hc, fun c hc => ?_, by simp [wholeDigits],
      by simp [wholeDigits], by simp [wholeDigits]⟩
    rcases List.mem_append.mp hc with hc | hc
    · exact h.all_digits c hc
    · rw [(List.mem_replicate.mp hc).2]
      rfl
  json := by
    refine Number.isJson_iff.mpr ⟨signOf_ne_plus _, ?_, ?_, by simp [wholeDigits]⟩
    · exact List.append_ne_nil_of_left_ne_nil h.digits_ne_nil _
    · by_cases h0 : s.exponent = 0
      · left
        have := List.length_pos_iff.mpr h.digits_ne_nil
        rw [wholeDigits, List.length_append, List.length_replicate]
        omega
      · right
        obtain ⟨d, ds, hd⟩ := List.exists_cons_of_ne_nil h.digits_ne_nil
        have hne := head?_ne_zero h (Or.inr h0)
        rw [hd] at hne
        rwa [wholeDigits, hd, List.cons_append]
  marked := rfl
  negative := signOf_eq_minus _
  value := by
    refine ⟨s.exponent.toNat + 1 - s.digits.length + 1, ?_, ?_⟩
    · show Nat.ofDigitChars 10 (s.digits ++ List.replicate _ '0' ++ ['0']) 0 = _
      rw [Nat.ofDigitChars_append, Nat.ofDigitChars_append, Nat.ofDigitChars_replicate_zero]
      simp only [Nat.ofDigitChars_cons, Nat.ofDigitChars_nil, Nat.sub_self, Nat.add_zero,
        Scientific.coefficient]
      ring
    · have hpos := List.length_pos_iff.mpr h.digits_ne_nil
      simp only [Numeral.scale, Scientific.scale, wholeDigits, Option.getD_some, List.length_singleton]
      omega

theorem writes_splitDigits (he : ¬ s.exponent < 0) (hlen : ¬ s.digits.length ≤ s.exponent.toNat + 1) :
    Writes (splitDigits s) s where
  proper := by
    refine ⟨fun c hc => isSign_of_mem_signOf hc, fun c hc => ?_, fun ds hds c hc => ?_,
      by simp [splitDigits], by simp [splitDigits]⟩
    · exact h.all_digits c (List.mem_of_mem_take hc)
    · obtain rfl : _ = ds := Option.some_inj.mp hds
      exact h.all_digits c (List.mem_of_mem_drop hc)
  json := by
    refine Number.isJson_iff.mpr ⟨signOf_ne_plus _, ?_, Or.inr ?_, fun e => ?_⟩
    · simp [splitDigits, h.digits_ne_nil]
    · rw [splitDigits, List.head?_take, if_neg (by omega)]
      exact head?_ne_zero h (Or.inl (by omega))
    · rw [splitDigits, Option.some_inj, List.drop_eq_nil_iff] at e
      omega
  marked := rfl
  negative := signOf_eq_minus _
  value := by
    refine ⟨0, ?_, ?_⟩
    · show Nat.ofDigitChars 10 (s.digits.take _ ++ s.digits.drop _) 0 = _
      rw [List.take_append_drop, Nat.pow_zero, Nat.mul_one]
      rfl
    · simp only [Numeral.scale, Scientific.scale, splitDigits, Option.getD_some, List.length_drop]
      omega

theorem writes_withExponent (l : Layout) : Writes (l.withExponent s) s where
  proper := by
    refine ⟨fun c hc => isSign_of_mem_signOf hc, fun c hc => ?_, fun ds hds c hc => ?_,
      fun p hp c hc => ?_, fun p hp => ?_⟩
    · exact h.all_digits c (List.mem_of_mem_take hc)
    · unfold withExponent at hds
      split at hds
      · exact absurd hds (by simp)
      · obtain rfl : _ = ds := Option.some_inj.mp hds
        exact h.all_digits c (List.mem_of_mem_drop hc)
    · obtain rfl : _ = p := Option.some_inj.mp hp
      obtain rfl : _ = c := Option.some_inj.mp hc
      split <;> rfl
    · obtain rfl : _ = p := Option.some_inj.mp hp
      exact ⟨padded_ne_nil _ _, fun c hc => isDigit_of_mem_padded hc⟩
  json := by
    have hpos := List.length_pos_iff.mpr h.digits_ne_nil
    refine Number.isJson_iff.mpr ⟨signOf_ne_plus _, ?_, Or.inl ?_, ?_⟩
    · simp [withExponent, h.digits_ne_nil]
    · rw [withExponent, List.length_take]
      omega
    · unfold withExponent
      split
      · exact nofun
      · intro e
        rw [Option.some_inj, List.drop_eq_nil_iff] at e
        omega
  marked := by simp [Numeral.isWhole, withExponent]
  negative := signOf_eq_minus _
  value := by
    have hpos := List.length_pos_iff.mpr h.digits_ne_nil
    have hfrac : (if s.digits.length ≤ 1 then none else some (s.digits.drop 1)).getD [] =
        s.digits.drop 1 := by
      split
      · rename_i hle
        exact (List.drop_eq_nil_iff.mpr hle).symm
      · rfl
    refine ⟨0, ?_, ?_⟩
    · show Nat.ofDigitChars 10 (s.digits.take 1 ++
        (if s.digits.length ≤ 1 then none else some (s.digits.drop 1)).getD []) 0 = _
      rw [hfrac, List.take_append_drop, Nat.pow_zero, Nat.mul_one]
      rfl
    · simp only [Numeral.scale, Scientific.scale, withExponent, ofDigitChars_padded, hfrac,
        List.length_drop, Option.some_inj]
      by_cases he : s.exponent < 0
      · rw [if_pos he, if_pos rfl]
        omega
      · rw [if_neg he, if_neg (by decide)]
        omega

theorem writes_numeral (l : Layout) : Writes (l.numeral s) s := by
  unfold numeral
  split
  · split
    · exact writes_belowOne h (by assumption)
    · split
      · exact writes_wholeDigits h (by assumption) (by assumption)
      · exact writes_splitDigits h (by assumption) (by assumption)
  · exact writes_withExponent h l

/-! ## the text of the numeral -/

theorem byteLength_take {k : Nat} (hk : k ≤ s.digits.length) :
    byteLength (s.digits.take k) = k := by
  rw [byteLength_of_isDigit fun c hc => h.all_digits c (List.mem_of_mem_take hc),
    List.length_take_of_le hk]

theorem slice?_front {k : Nat} (hk : k ≤ s.digits.length) :
    slice? 0 k s.digits = some (s.digits.take k) := by
  have cut := slice?_append [] (s.digits.take k) (s.digits.drop k)
  rwa [List.nil_append, List.take_append_drop, byteLength_take h hk, byteLength,
    Nat.zero_add] at cut

theorem slice?_back {k : Nat} (hk : k ≤ s.digits.length) :
    slice? k (byteLength s.digits) s.digits = some (s.digits.drop k) := by
  have cut := slice?_append (s.digits.take k) (s.digits.drop k) []
  rwa [List.append_nil, List.take_append_drop, ← byteLength_append, List.take_append_drop,
    byteLength_take h hk] at cut

theorem positional?_eq : positional? s.digits s.exponent = some (
    if s.exponent < 0 then '0' :: '.' :: (List.replicate ((-s.exponent).toNat - 1) '0' ++ s.digits)
    else if s.digits.length ≤ s.exponent.toNat + 1 then
      s.digits ++ List.replicate (s.exponent.toNat + 1 - s.digits.length) '0' ++ ['.', '0']
    else s.digits.take (s.exponent.toNat + 1) ++ '.' :: s.digits.drop (s.exponent.toNat + 1)) := by
  have len := byteLength_of_isDigit h.all_digits
  rw [positional?]
  split
  case isTrue he =>
    rw [minus?, if_pos (by omega)]
    rfl
  case isFalse he =>
    dsimp only
    rw [len]
    split
    case isTrue hlen =>
      rw [minus?, if_pos hlen]
      rfl
    case isFalse hlen =>
      have front := slice?_front h (Nat.le_of_not_le hlen)
      have back := slice?_back h (Nat.le_of_not_le hlen)
      rw [len] at back
      rw [front, back]
      rfl

theorem exponential?_eq (l : Layout) : l.exponential? s.digits s.exponent = some (
    s.digits.take 1 ++ (if s.digits.length ≤ 1 then [] else '.' :: s.digits.drop 1) ++
    'e' :: (if s.exponent < 0 then '-' else '+') :: padded l.exponentWidth s.exponent.natAbs) := by
  have hpos := List.length_pos_iff.mpr h.digits_ne_nil
  rw [exponential?, slice?_front h hpos, slice?_back h hpos]
  simp only [← List.drop_eq_nil_iff]
  rfl

/-- **Every slice is there and no number of zeros is negative**: the text is that of the numeral. -/
theorem text?_eq (l : Layout) : l.text? s = some (l.numeral s).text := by
  have hsign : (signOf s.negative).toList = if s.negative then ['-'] else [] := by
    cases s.negative <;> rfl
  rw [text?, magnitude?, positional?_eq h, exponential?_eq h, ← hsign]
  unfold numeral
  split
  · split
    · simp [Numeral.text, belowOne, Numeral.fractionText, Numeral.exponentText]
    · split
      · simp [Numeral.text, wholeDigits, Numeral.fractionText, Numeral.exponentText]
      · simp [Numeral.text, splitDigits, Numeral.fractionText, Numeral.exponentText]
  · unfold withExponent
    split <;> simp [Numeral.text, Numeral.fractionText, Numeral.exponentText]

end

end Layout

end Workflow.Decimal

namespace Workflow.Number

open Decimal Json

/-! ## numbers of either kind -/

def numeral (s : Style) : Number → Numeral
  | integer v _ => ⟨Layout.signOf (decide (v < 0)), Nat.toDigits 10 v.natAbs, none, none⟩
  | float d => s.layout.numeral (shortest s.tie d)

theorem text_numeral (s : Style) (n : Number) : (n.numeral s).text = numberText s n := by
  cases n with
  | integer v h =>
    by_cases hv : v < 0 <;>
      simp [numeral, numberText, integerText, Numeral.text, Numeral.fractionText,
        Numeral.exponentText, Layout.signOf, hv]
  | float d =>
    rw [numeral, numberText, Layout.ofNotation?_shortest, Layout.text?_eq (canonical_shortest _ d),
      Option.getD_some]

theorem proper_numeral (s : Style) (n : Number) : (n.numeral s).Proper := by
  cases n with
  | integer v h =>
    refine ⟨fun c hc => Layout.isSign_of_mem_signOf hc, fun c hc => ?_, by simp [numeral],
      by simp [numeral], by simp [numeral]⟩
    exact Nat.isDigit_of_mem_toDigits (by decide) (by decide) hc
  | float d => exact (Layout.writes_numeral (canonical_shortest _ d) _).proper

theorem isJson_numeral (s : Style) (n : Number) : isJson (n.numeral s) = true := by
  cases n with
  | float d => exact (Layout.writes_numeral (canonical_shortest _ d) _).json
  | integer v h =>
    refine isJson_iff.mpr ⟨Layout.signOf_ne_plus _, Nat.toDigits_ne_nil, ?_, by simp [numeral]⟩
    by_cases hv : v.natAbs = 0
    · left
      rw [numeral, hv]
      rfl
    · exact Or.inr (head?_toDigits_ne_zero (Nat.pos_of_ne_zero hv))

theorem integer?_numeral (s : Style) {v : Int} (h : InRange v) :
    integer? ((integer v h).numeral s) = some (integer v h) := by
  have hneg : ((integer v h).numeral s).negative = decide (v < 0) := Layout.signOf_eq_minus _
  have hval : ((integer v h).numeral s).coefficient = v.natAbs := by
    show Nat.ofDigitChars 10 (Nat.toDigits 10 v.natAbs ++ []) 0 = _
    rw [List.append_nil, Nat.ofDigitChars_ten_toDigits]
  have hsigned : (if decide (v < 0) = true then -(v.natAbs : Int) else v.natAbs) = v := by
    by_cases hv : v < 0
    · rw [if_pos (decide_eq_true hv)]
      omega
    · rw [if_neg (by simpa using hv)]
      omega
  have hzero : (decide (v < 0) && v.natAbs == 0) = false := by
    rw [Bool.and_eq_false_iff, decide_eq_false_iff_not, beq_eq_false_iff_ne]
    omega
  rw [integer?, hneg, hval, hsigned, hzero]
  show ofInt? v = _
  rw [ofInt?, dif_pos h]

theorem toDouble?_numeral (s : Style) (d : Double) : ((float d).numeral s).toDouble? = some d := by
  have hw := Layout.writes_numeral (canonical_shortest s.tie d) s.layout
  obtain ⟨k, hc, hx⟩ := hw.value
  have hneg := hw.negative
  rw [negative_shortest] at hneg
  show Double.ofDecimal? _ _ _ = _
  rw [numeral, hneg, hc, hx, ofDecimal?_mul_pow, ofDecimal?_shortest]

/-- **The text of a number reads back as that number**, an integer as an integer, a float as a float. -/
theorem ofText?_numberText (s : Style) (n : Number) : ofText? (numberText s n) = some n := by
  rw [ofText?, ← text_numeral, Numeral.ofText?_text (proper_numeral s n)]
  dsimp only
  rw [if_pos (isJson_numeral s n)]
  cases n with
  | integer v h => rw [integer?_numeral, Option.orElse_some]
  | float d =>
    have hmark : ((float d).numeral s).isWhole = false :=
      (Layout.writes_numeral (canonical_shortest s.tie d) s.layout).marked
    rw [integer?, hmark, toDouble?_numeral]
    rfl

/-! ## the characters of a number -/

theorem isNumeralChar_of_isSign {c : Char} (h : Numeral.isSign c = true) : isNumeralChar c = true := by
  rw [Numeral.isSign, Bool.or_eq_true, beq_iff_eq, beq_iff_eq] at h
  rcases h with rfl | rfl <;> rfl

theorem isNumeralChar_of_isDigit {c : Char} (h : c.isDigit = true) : isNumeralChar c = true := by
  simp [isNumeralChar, h]

theorem isNumeralChar_of_mem_text {n : Numeral} (h : n.Proper) {c : Char} (hc : c ∈ n.text) :
    isNumeralChar c = true := by
  obtain ⟨sign, whole, fraction, exponent⟩ := n
  rcases List.mem_append.mp hc with hc | hc
  · exact isNumeralChar_of_isSign (h.sign c (Option.mem_toList.mp hc))
  rcases List.mem_append.mp hc with hc | hc
  · exact isNumeralChar_of_isDigit (h.whole c hc)
  rcases List.mem_append.mp hc with hc | hc
  · cases fraction with
    | none => exact absurd hc List.not_mem_nil
    | some ds =>
      rcases List.mem_cons.mp hc with rfl | hc
      · rfl
      · exact isNumeralChar_of_isDigit (h.fraction ds rfl c hc)
  · cases exponent with
    | none => exact absurd hc List.not_mem_nil
    | some p =>
      rcases List.mem_cons.mp hc with rfl | hc
      · rfl
      rcases List.mem_append.mp hc with hc | hc
      · exact isNumeralChar_of_isSign (h.exponentSign p rfl c (Option.mem_toList.mp hc))
      · exact isNumeralChar_of_isDigit ((h.exponent p rfl).2 c hc)

theorem isNumeralChar_of_mem_numberText {s : Style} {n : Number} {c : Char}
    (h : c ∈ numberText s n) : isNumeralChar c = true := by
  rw [← text_numeral] at h
  exact isNumeralChar_of_mem_text (proper_numeral s n) h

theorem numberText_eq_cons (s : Style) (n : Number) :
    ∃ c cs, numberText s n = c :: cs ∧ (c.isDigit = true ∨ c = '-') := by
  have hp := proper_numeral s n
  obtain ⟨hplus, hne, -, -⟩ := isJson_iff.mp (isJson_numeral s n)
  rw [← text_numeral]
  generalize n.numeral s = m at *
  obtain ⟨sign, whole, fraction, exponent⟩ := m
  cases sign with
  | some c =>
    refine ⟨c, _, rfl, Or.inr ?_⟩
    have hs := hp.sign c rfl
    rw [Numeral.isSign, Bool.or_eq_true, beq_iff_eq, beq_iff_eq] at hs
    exact hs.resolve_left fun e => hplus (congrArg some e)
  | none =>
    cases whole with
    | nil => exact absurd rfl hne
    | cons d ds => exact ⟨d, _, rfl, Or.inl (hp.whole d List.mem_cons_self)⟩

end Workflow.Number
