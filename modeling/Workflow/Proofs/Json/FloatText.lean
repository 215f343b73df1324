import Workflow.Proofs.Json.Number

/-!
# The text of a float on the wire

A float is laid out from its shortest digits, positionally or with an exponent. The text is a JSON
number that no reader takes for an integer, it denotes exactly the number of the digits, and the
digits, their exponent and the sign can be told from it. While it is made, no digits are cut off
that are not there and no negative number of zeros is added.

* `FloatText`                     what the text of a number is like;
* `floatText_numeral`             every canonical number has such a text;
* `Layout.eq_of_text?_eq`         different canonical numbers have different texts;
* `float_text_exact`              so it is for all numbers, and for every double.
-/

namespace Workflow.Decimal

open Json Scientific

theorem le_length_padded (width n : Nat) : width ≤ (padded width n).length := by
  rw [padded, List.length_append, List.length_replicate]
  omega

/-- what is no integer has a point or an exponent mark -/
theorem Numeral.mem_text_of_not_isWhole {n : Numeral} (h : n.isWhole = false) :
    '.' ∈ n.text ∨ 'e' ∈ n.text := by
  obtain ⟨sign, whole, fraction, exponent⟩ := n
  cases fraction with
  | some ds => exact .inl (by simp [text, fractionText])
  | none =>
    cases exponent with
    | some p => exact .inr (by simp [text, exponentText])
    | none => exact Bool.noConfusion (show true = false from h)

namespace Layout

variable {s t : Scientific}

theorem exponent_numeral_eq_none_iff (l : Layout) :
    (l.numeral s).exponent = none ↔ l.plainFrom ≤ s.exponent ∧ s.exponent < l.plainBelow := by
  unfold numeral
  split
  case isTrue h =>
    refine iff_of_true ?_ h
    split
    · rfl
    · split <;> rfl
  case isFalse h => exact iff_of_false nofun h

theorem exponent_numeral (hs : s.Canonical) (l : Layout) {p : Option Char × List Char}
    (h : (l.numeral s).exponent = some p) :
    (l.numeral s).whole.length = 1 ∧
      p.1 = some (if s.exponent < 0 then '-' else '+') ∧
      p.2 = padded l.exponentWidth s.exponent.natAbs := by
  have far : ¬ (l.plainFrom ≤ s.exponent ∧ s.exponent < l.plainBelow) := by
    rw [← l.exponent_numeral_eq_none_iff, h]
    exact nofun
  rw [numeral, if_neg far] at h ⊢
  obtain rfl : _ = p := Option.some_inj.mp h
  refine ⟨?_, rfl, rfl⟩
  rw [withExponent, List.length_take_of_le (List.length_pos_iff.mpr hs.digits_ne_nil)]

/-- **Different numbers have different texts.** -/
theorem eq_of_text?_eq (hs : s.Canonical) (ht : t.Canonical) (l : Layout)
    (h : l.text? s = l.text? t) : s = t := by
  have ws := writes_numeral hs l
  have wt := writes_numeral ht l
  have same : l.numeral s = l.numeral t := by
    rw [text?_eq hs, text?_eq ht, Option.some_inj] at h
    have read := Numeral.ofText?_text ws.proper
    rw [h, Numeral.ofText?_text wt.proper, Option.some_inj] at read
    exact read.symm
  obtain ⟨j, hcoeff, hscale⟩ := ws.value
  obtain ⟨k, hcoeff', hscale'⟩ := wt.value
  refine hs.eq_of_shifted ht ?_ (j := j) (k := k) ?_ ?_
  · rw [← ws.negative, same, wt.negative]
  · rw [← hcoeff, same, hcoeff']
  · rw [← hscale, same, hscale']

end Layout

/-! ## the text -/

/-- The text `t` with the parts `n` is the number `s` as it is written on the wire. -/
structure FloatText (s : Scientific) (t : List Char) (n : Numeral) : Prop where
  /-- it is made from the scientific notation, every slice and every number of zeros being there -/
  made : (ofWritten? s.written).bind Style.wire.layout.text? = some t
  parts : Numeral.ofText? t = some n
  json : Number.isJson n = true
  value : n.value = s.value
  marked : '.' ∈ t ∨ 'e' ∈ t
  /-- it is never read as an integer -/
  float : ∀ m, Number.ofText? t = some m → m.isInteger = false
  leading : n.whole = ['0'] ∨ n.whole.head? ≠ some '0'
  positional : n.exponent = none ↔ -4 ≤ s.exponent ∧ s.exponent < 16
  scientific : ∀ p, n.exponent = some p → n.whole.length = 1 ∧
    p.1 = some (if s.exponent < 0 then '-' else '+') ∧ 2 ≤ p.2.length ∧
      Nat.ofDigitChars 10 p.2 0 = s.exponent.natAbs

theorem leading_of_isJson {n : Numeral} (h : Number.isJson n = true) :
    n.whole = ['0'] ∨ n.whole.head? ≠ some '0' := by
  obtain ⟨-, -, hsingle | hhead, -⟩ := Number.isJson_iff.mp h
  · obtain ⟨c, hc⟩ := List.length_eq_one_iff.mp hsingle
    rw [hc, List.head?_cons, Ne, Option.some_inj, List.cons.injEq]
    exact (em (c = '0')).imp (fun h => ⟨h, rfl⟩) id
  · exact .inr hhead

theorem isInteger_of_ofText? {t : List Char} {n : Numeral} (hparts : Numeral.ofText? t = some n)
    (hmarked : n.isWhole = false) {m : Number} (h : Number.ofText? t = some m) :
    m.isInteger = false := by
  have notInteger : Number.integer? n = none := by
    rw [Number.integer?, hmarked]
    rfl
  rw [Number.ofText?, hparts] at h
  dsimp only at h
  rw [notInteger] at h
  split at h
  case isTrue =>
    obtain ⟨d, -, rfl⟩ := Option.map_eq_some_iff.mp h
    rfl
  case isFalse => exact absurd h (Option.some_ne_none m).symm

theorem floatText_numeral {s : Scientific} (hs : s.Canonical) (he : s.exponent.natAbs < 2 ^ 31) :
    FloatText s (Style.wire.layout.numeral s).text (Style.wire.layout.numeral s) := by
  have fits : Fits32 s.exponent := by
    constructor <;> omega
  have w := Layout.writes_numeral hs Style.wire.layout
  have parts := Numeral.ofText?_text w.proper
  exact {
    made := by
      rw [ofWritten?_written hs fits, Option.bind_some]
      exact Layout.text?_eq hs _
    parts := parts
    json := w.json
    value := by
      obtain ⟨k, hcoeff, hscale⟩ := w.value
      exact value_eq_of_shifted hs.digits_ne_nil w.negative hcoeff hscale
    marked := Numeral.mem_text_of_not_isWhole w.marked
    float := fun m hm => isInteger_of_ofText? parts w.marked hm
    leading := leading_of_isJson w.json
    positional := Layout.exponent_numeral_eq_none_iff _
    scientific := by
      intro p hp
      obtain ⟨hwhole, hsign, hdigits⟩ := Layout.exponent_numeral hs _ hp
      rw [hdigits]
      exact ⟨hwhole, hsign, le_length_padded 2 _, Layout.ofDigitChars_padded 2 _⟩ }

/-! ## doubles -/

/-- **The text of a float is exact and unambiguous.** A number in canonical form with any number of
digits is written as a JSON number of the same value, marked as a float, positionally exactly from
`10^-4` to below `10^16` and otherwise with a signed exponent of two digits at least; nothing that
is cut off or added for it is out of range; numbers that differ in sign, digits or exponent have
different texts. The text of every double is that of its shortest digits, which are such a
number. -/
theorem float_text_exact :
    (∀ s : Scientific, s.Canonical → s.exponent.natAbs < 2 ^ 31 → ∃ t n, FloatText s t n) ∧
      (∀ s s' : Scientific, s.Canonical → s'.Canonical → s ≠ s' →
        Style.wire.layout.text? s ≠ Style.wire.layout.text? s') ∧
      ∀ d : Double, (shortest .up d).Canonical ∧ (shortest .up d).exponent.natAbs ≤ 331 ∧
        ∃ n, FloatText (shortest .up d) (numberText .wire (.float d)) n := by
  refine ⟨fun s hs he => ⟨_, _, floatText_numeral hs he⟩,
    fun s s' hs hs' hne h => hne (Layout.eq_of_text?_eq hs hs' _ h), fun d => ?_⟩
  have canonical := canonical_shortest .up d
  have bound := natAbs_exponent_shortest_le .up d
  refine ⟨canonical, bound, (Number.float d).numeral .wire, ?_⟩
  rw [← Number.text_numeral]
  exact floatText_numeral canonical (by omega)

/-- below the least number that is written positionally -/
def small : Scientific := ⟨true, ['1', '2', '3', '4', '5'], -7⟩

/-- the same digits a thousand times as large -/
def larger : Scientific := ⟨true, ['1', '2', '3', '4', '5'], -4⟩

theorem float_text_exact_small : small.Canonical ∧ small.exponent.natAbs < 2 ^ 31 ∧
    (∃ n, FloatText small "-1.2345e-07".toList n) ∧
    larger.Canonical ∧ Style.wire.layout.text? larger = some "-0.00012345".toList ∧
      Style.wire.layout.text? small ≠ Style.wire.layout.text? larger := by
  have canonical : small.Canonical :=
    ⟨by decide, List.all_eq_true.mp rfl, fun h => absurd h (by decide), fun _ => by decide⟩
  have canonical' : larger.Canonical :=
    ⟨by decide, List.all_eq_true.mp rfl, fun h => absurd h (by decide), fun _ => by decide⟩
  have fits : small.exponent.natAbs < 2 ^ 31 := by decide
  obtain ⟨t, n, h⟩ := float_text_exact.1 small canonical fits
  have made : (ofWritten? small.written).bind Style.wire.layout.text? =
      some "-1.2345e-07".toList := by decide
  obtain rfl : t = "-1.2345e-07".toList := Option.some_inj.mp (h.made.symm.trans made)
  exact ⟨canonical, fits, ⟨n, h⟩, canonical', by decide,
    float_text_exact.2.1 small larger canonical canonical' (by decide)⟩

end Workflow.Decimal
