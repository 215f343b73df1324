import Workflow.Calendar.Moment
import Workflow.Proofs.Json.Number

/-!
# Moments read back

The text of a moment has digits of padded width with marks between them, so reading it takes exactly
the digits that were written, and the offset `Z` leaves the moment where it is.

* `digitsUpTo_append`   where the reading of digits ends;
* `ofText_text`         the text of a valid moment is read as that moment;
* `isValid_of_ofText`   whatever is read is a valid moment.
-/

namespace Workflow

theorem Except.bind_eq_ok {ε α β : Type} {x : Except ε α} {f : α → Except ε β} {y : β} :
    (x >>= f) = .ok y ↔ ∃ a, x = .ok a ∧ f a = .ok y := by
  constructor
  · intro h
    cases x with
    | error e => cases h
    | ok a => exact ⟨a, rfl, h⟩
  · rintro ⟨a, rfl, h⟩
    exact h

end Workflow

namespace Workflow.Calendar

open Decimal Decimal.Layout Text

theorem daysInMonth_le (year : Int) (month : Nat) : daysInMonth year month ≤ 31 := by
  unfold daysInMonth
  split_ifs <;> decide

theorem Date.isValid_iff {d : Date} : d.isValid = true ↔ yearInRange d.year = true ∧ 1 ≤ d.month ∧
    d.month ≤ 12 ∧ 1 ≤ d.day ∧ d.day ≤ daysInMonth d.year d.month := by
  simp [Date.isValid, and_assoc]

namespace Moment

theorem isValid_iff {m : Moment} : m.isValid = true ↔ m.date.isValid = true ∧ m.hour < 24 ∧
    m.minute < 60 ∧ m.second ≤ 60 ∧ m.nanosecond < 1000000000 := by
  simp [isValid, and_assoc]

/-! ## digits -/

theorem length_padded {width n : Nat} (hwidth : 0 < width) (h : n < 10 ^ width) :
    (padded width n).length = width := by
  have hle : (Nat.toDigits 10 n).length ≤ width :=
    (Nat.length_toDigits_le_iff (by decide) hwidth).mpr h
  rw [padded, List.length_append, List.length_replicate]
  omega

theorem isSpace_of_isDigit {c : Char} (h : c.isDigit = true) : isSpace c = false := by
  obtain ⟨hlow, hhigh⟩ := Char.isDigit_iff_toNat.mp h
  have hlow : 48 ≤ c.toNat := hlow
  have hhigh : c.toNat ≤ 57 := hhigh
  simp only [isSpace, Bool.or_eq_false_iff, Bool.and_eq_false_iff, decide_eq_false_iff_not,
    beq_eq_false_iff_ne]
  omega

theorem skipSpace_digits {ds rest : List Char} (hne : ds ≠ []) (hds : ∀ c ∈ ds, c.isDigit = true) :
    skipSpace (ds ++ rest) = ds ++ rest := by
  obtain ⟨d, ds, rfl⟩ := List.exists_cons_of_ne_nil hne
  exact skipSpace_cons_of_not_isSpace (isSpace_of_isDigit (hds d List.mem_cons_self)) _

/-- a run of digits ends at the limit or where no digit follows -/
theorem digitsUpTo_append {limit : Nat} {ds rest : List Char} (hne : ds ≠ [])
    (hds : ∀ c ∈ ds, c.isDigit = true) (hlimit : ds.length ≤ limit)
    (hrest : ds.length = limit ∨ ∀ c ∈ rest.head?, c.isDigit = false) :
    digitsUpTo limit (ds ++ rest) = .ok (ds, rest) := by
  have hnone : (rest.take (limit - ds.length)).takeWhile Char.isDigit = [] := by
    rcases hrest with heq | hrest
    · rw [heq, Nat.sub_self, List.take_zero, List.takeWhile_nil]
    · cases rest with
      | nil => rw [List.take_nil, List.takeWhile_nil]
      | cons c cs =>
        cases limit - ds.length with
        | zero => rfl
        | succ n => rw [List.take_succ_cons, List.takeWhile_cons_of_neg (by simp [hrest c rfl])]
  have hdigits : ((ds ++ rest).take limit).takeWhile Char.isDigit = ds := by
    rw [List.take_append, List.take_of_length_le hlimit, List.takeWhile_append_of_pos hds, hnone,
      List.append_nil]
  obtain ⟨d, ds, rfl⟩ := List.exists_cons_of_ne_nil hne
  rw [List.cons_append] at hdigits ⊢
  simp only [digitsUpTo, hdigits]
  rw [← List.cons_append, List.drop_left]
  rfl

theorem number_padded {n : Nat} (h : n < 100) (rest : List Char) :
    number 2 (padded 2 n ++ rest) = .ok (n, rest) := by
  have hlength : (padded 2 n).length = 2 := length_padded (by decide) h
  rw [number, skipSpace_digits (padded_ne_nil 2 n) fun c => isDigit_of_mem_padded,
    digitsUpTo_append (padded_ne_nil 2 n) (fun c => isDigit_of_mem_padded) hlength.le (.inl hlength)]
  exact congrArg (fun n => Except.ok (n, rest)) (ofDigitChars_padded 2 n)

/-! ## the parts of the text -/

theorem mark_cons {c : Char} (h : isSpace c = false) (rest : List Char) :
    mark c (c :: rest) = .ok rest := by
  rw [mark, skipSpace_cons_of_not_isSpace h]
  exact if_pos rfl

/-- a year reads back where no digit follows -/
theorem yearNumber_yearText (year : Int) {rest : List Char}
    (hrest : ∀ c ∈ rest.head?, c.isDigit = false) :
    yearNumber (yearText year ++ rest) = .ok (year, rest) := by
  have hpadded (limit : Nat) (hlimit : (padded 4 year.natAbs).length ≤ limit) :
      digitsUpTo limit (padded 4 year.natAbs ++ rest) = .ok (padded 4 year.natAbs, rest) :=
    digitsUpTo_append (padded_ne_nil _ _) (fun c => isDigit_of_mem_padded) hlimit (.inr hrest)
  have hsigned := hpadded (padded 4 year.natAbs ++ rest).length (by simp)
  have hvalue := ofDigitChars_padded 4 year.natAbs
  rw [yearText]
  split
  · rw [List.cons_append, yearNumber, skipSpace_cons_of_not_isSpace rfl]
    simp only [hsigned]
    show Except.ok (-(Nat.ofDigitChars 10 (padded 4 year.natAbs) 0 : Int), rest) = _
    rw [hvalue]
    congr 2
    omega
  split
  · have hlength : (padded 4 year.natAbs).length = 4 := length_padded (by decide) (by omega)
    have hsign (d : Char) (ds : List Char) (hd : d.isDigit = false) :
        padded 4 year.natAbs ++ rest ≠ d :: ds := by
      obtain ⟨c, cs, hcs⟩ := List.exists_cons_of_ne_nil (padded_ne_nil 4 year.natAbs)
      rw [hcs, List.cons_append]
      rintro ⟨⟩
      rw [isDigit_of_mem_padded (hcs ▸ List.mem_cons_self)] at hd
      cases hd
    rw [yearNumber, skipSpace_digits (padded_ne_nil _ _) fun c => isDigit_of_mem_padded]
    split
    · rename_i ds h
      exact absurd h (hsign '-' ds rfl)
    · rename_i ds h
      exact absurd h (hsign '+' ds rfl)
    · rw [hpadded 4 hlength.le]
      show Except.ok ((Nat.ofDigitChars 10 (padded 4 year.natAbs) 0 : Int), rest) = _
      rw [hvalue]
      congr 2
      omega
  · rw [List.cons_append, yearNumber, skipSpace_cons_of_not_isSpace rfl]
    simp only [hsigned]
    show Except.ok ((Nat.ofDigitChars 10 (padded 4 year.natAbs) 0 : Int), rest) = _
    rw [hvalue]
    congr 2
    omega

/-- the first digits of a fraction of nine, if the others are zeros -/
theorem fraction_padded {width q n : Nat} (hwidth : 0 < width) (hle : width ≤ 9)
    (h : q < 10 ^ width) (hn : 10 ^ (9 - width) * q = n) {rest : List Char}
    (hrest : ∀ c ∈ rest.head?, c.isDigit = false) :
    fraction ('.' :: padded width q ++ rest) = .ok (n, rest) := by
  have hlength : (padded width q).length = width := length_padded hwidth h
  have hvalue : Nat.ofDigitChars 10 ((padded width q).rightpad 9 '0') 0 = n := by
    rw [List.rightpad, Nat.ofDigitChars_append, ofDigitChars_padded, Nat.ofDigitChars_replicate_zero,
      hlength, hn]
  have hdrop : rest.dropWhile Char.isDigit = rest :=
    (@run_append Char.isDigit [] rest nofun hrest).2
  rw [List.cons_append, fraction, digitsUpTo_append (padded_ne_nil _ _)
    (fun c => isDigit_of_mem_padded) (hlength.trans_le hle) (.inr hrest)]
  show Except.ok (Nat.ofDigitChars 10 ((padded width q).rightpad 9 '0') 0,
    rest.dropWhile Char.isDigit) = _
  rw [hvalue, hdrop]

/-- a fraction reads back in front of the offset -/
theorem fraction_fractionText {n : Nat} (h : n < 1000000000) (rest : List Char) :
    fraction (fractionText n ++ 'Z' :: rest) = .ok (n, 'Z' :: rest) := by
  have hrest : ∀ c ∈ ('Z' :: rest).head?, c.isDigit = false := by
    rintro c ⟨⟩
    rfl
  rw [fractionText]
  split_ifs with hzero hmilli hmicro
  · rw [hzero]
    rfl
  · exact fraction_padded (by decide) (by decide) (by omega) (by omega) hrest
  · exact fraction_padded (by decide) (by decide) (by omega) (by omega) hrest
  · exact fraction_padded (by decide) (by decide) (by omega) (by omega) hrest

theorem within_eq_ok {low high n : Nat} (h : low ≤ n ∧ n ≤ high) : within low high n = .ok () :=
  if_pos h

theorem nearYear_eq_ok {year : Int} (h : yearInRange year = true) : nearYear year = .ok () := by
  simp only [yearInRange, Bool.and_eq_true, decide_eq_true_eq] at h
  exact if_pos (by omega)

/-- the offset ends the text and is none -/
theorem offset_utc : offset (skipSpace ['Z']) = .ok (0, []) := rfl

theorem shift_zero {m : Moment} (hhour : m.hour < 24) (hminute : m.minute < 60) :
    m.shift 0 = m := by
  have htotal : (m.hour * 60 + m.minute : Nat) + (0 : Int) = (m.hour * 60 + m.minute : Nat) :=
    Int.add_zero _
  have hday : ((m.hour * 60 + m.minute : Nat) % 1440 : Int).toNat = m.hour * 60 + m.minute := by
    omega
  simp only [shift, htotal, hday]
  rw [if_neg (by omega), if_neg (by omega)]
  obtain ⟨date, hour, minute, second, nanosecond⟩ := m
  congr 1 <;> simp only at * <;> omega

/-! ## the whole text -/

theorem ofChars_chars {m : Moment} (h : m.isValid = true) : ofChars m.chars = .ok m := by
  obtain ⟨hdate, hhour, hminute, hsecond, hnanosecond⟩ := isValid_iff.mp h
  obtain ⟨hyear, hmonth, hmonth', hday, hday'⟩ := Date.isValid_iff.mp hdate
  have hday' : m.date.day ≤ 31 := hday'.trans (daysInMonth_le _ _)
  have dash : ∀ cs : List Char, ∀ c ∈ ('-' :: cs).head?, c.isDigit = false := by
    rintro cs c ⟨⟩
    rfl
  have ok_bind {α β : Type} (a : α) (f : α → Except Problem β) : (Except.ok a >>= f) = f a := rfl
  simp only [ofChars, chars, List.append_assoc, List.cons_append, ok_bind,
    yearNumber_yearText m.date.year (dash _), nearYear_eq_ok hyear,
    mark_cons (show isSpace '-' = false from rfl),
    number_padded (show m.date.month < 100 by omega), within_eq_ok ⟨hmonth, hmonth'⟩,
    number_padded (show m.date.day < 100 by omega), within_eq_ok ⟨hday, hday'⟩]
  rw [if_pos (.inr (.inl trivial))]
  simp only [ok_bind, mark_cons (show isSpace ':' = false from rfl),
    number_padded (show m.hour < 100 by omega),
    within_eq_ok ⟨m.hour.zero_le, Nat.le_of_lt_succ hhour⟩,
    number_padded (show m.minute < 100 by omega),
    within_eq_ok ⟨m.minute.zero_le, Nat.le_of_lt_succ hminute⟩,
    number_padded (show m.second < 100 by omega), within_eq_ok ⟨m.second.zero_le, hsecond⟩,
    fraction_fractionText hnanosecond [], offset_utc]
  have hshift : m.shift (-0) = m := shift_zero hhour hminute
  show (if (!m.isValid || false) = true then _
    else if (m.shift (-0)).isValid = true then Except.ok (m.shift (-0)) else _) = _
  rw [hshift, h]
  rfl

theorem isValid_of_ofChars {cs : List Char} {m : Moment} (h : ofChars cs = .ok m) :
    m.isValid = true := by
  simp only [ofChars, Except.bind_eq_ok, Prod.exists] at h
  obtain ⟨year, cs, -, -, -, cs, -, month, cs, -, -, -, cs, -, day, cs, -, -, -, h⟩ := h
  split at h
  · cases h
  split at h
  · simp only [Except.bind_eq_ok, Prod.exists] at h
    obtain ⟨cs, -, hour, cs, -, -, -, cs, -, minute, cs, -, -, -, cs, -, second, cs, -, -, -,
      nanosecond, cs, -, minutes, cs, -, h⟩ := h
    split at h
    · cases h
    split at h
    · cases h
    split at h
    · rename_i hvalid
      exact Except.ok.inj h ▸ hvalid
    · cases h
  · cases h

/-- **The text of a valid moment is read as that moment.** -/
theorem ofText_text {m : Moment} (h : m.isValid = true) : ofText m.text = .ok m := by
  rw [ofText, text, String.toList_ofList, ofChars_chars h]

theorem isValid_of_ofText {s : String} {m : Moment} (h : ofText s = .ok m) : m.isValid = true :=
  isValid_of_ofChars h

end Moment

end Workflow.Calendar
