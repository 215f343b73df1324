import Workflow.Decimal.Shortest
import Mathlib.Tactic.Linarith
import Mathlib.Tactic.Ring

/-!
# Rounding to the nearest double

Every ratio strictly between the two halfway points of a double rounds to that double, and so does
a halfway point itself if the rank is even.

* `roundEven_eq`       the rounded quotient is the natural within half a unit, the even one on a tie;
* `units_succ`         the next double is `2 ^ shift` units away;
* `nearestRank_eq`     what lies in the interval of a double rounds to its rank;
* `nearestRank_mul`    rounding sees the ratio only.
-/

namespace Workflow.Decimal.Double

/-! ## quotients -/

/-- exactly between two naturals the remainder is half the divisor -/
theorem two_mul_mod_of_tie {num den q : Nat} (hden : 0 < den) (h : 2 * num = (2 * q + 1) * den) :
    2 * (num % den) = den := by
  have hq : q * den ≤ num := by nlinarith
  have hr : 2 * (num - q * den) = den := by
    rw [Nat.mul_sub, h]
    have e : (2 * q + 1) * den = 2 * (q * den) + den := by ring
    omega
  have e : num = num - q * den + den * q := by rw [Nat.mul_comm den q]; omega
  have hm : num % den = num - q * den := by
    rw [e, Nat.add_mul_mod_self_left, ← e]
    exact Nat.mod_eq_of_lt (by omega)
  rw [hm, hr]

theorem roundEven_eq {num den m : Nat} (hden : 0 < den)
    (lo : 2 * m * den ≤ 2 * num + den) (hi : 2 * num ≤ (2 * m + 1) * den)
    (tie : 2 * m * den = 2 * num + den ∨ 2 * num = (2 * m + 1) * den → m % 2 = 0) :
    roundEven num den = m := by
  obtain ⟨h1, h2⟩ := @roundEven_near num den hden
  rcases Nat.lt_trichotomy (roundEven num den) m with h | h | h
  · have hle : (2 * roundEven num den + 2) * den ≤ 2 * m * den :=
      Nat.mul_le_mul_right den (by omega)
    have hge : 2 * m * den ≤ (2 * roundEven num den + 2) * den := by nlinarith
    have hm : m = roundEven num den + 1 := by
      have := Nat.le_of_mul_le_mul_right hge hden
      omega
    have ht : 2 * num = (2 * roundEven num den + 1) * den := by nlinarith
    have he := roundEven_tie (two_mul_mod_of_tie hden ht)
    have ho := tie (Or.inl (by nlinarith))
    omega
  · exact h
  · have hle : (2 * m + 2) * den ≤ 2 * roundEven num den * den :=
      Nat.mul_le_mul_right den (by omega)
    have hge : 2 * roundEven num den * den ≤ (2 * m + 2) * den := by nlinarith
    have hm : roundEven num den = m + 1 := by
      have := Nat.le_of_mul_le_mul_right hge hden
      omega
    have ht : 2 * num = (2 * m + 1) * den := by nlinarith
    have he := roundEven_tie (two_mul_mod_of_tie hden ht)
    have ho := tie (Or.inr ht)
    omega

theorem roundEven_mul {num den k : Nat} (hk : 0 < k) :
    roundEven (k * num) (k * den) = roundEven num den := by
  have h1 : 2 * (k * (num % den)) < k * den ↔ 2 * (num % den) < den := by
    rw [← Nat.mul_left_comm]
    exact Nat.mul_lt_mul_left hk
  have h2 : k * den < 2 * (k * (num % den)) ↔ den < 2 * (num % den) := by
    rw [← Nat.mul_left_comm]
    exact Nat.mul_lt_mul_left hk
  simp only [roundEven, Nat.mul_div_mul_left _ _ hk, Nat.mul_mod_mul_left, h1, h2]

/-! ## ranks -/

/-- below `2 ^ 53` a rank is its own mantissa, above it has all 53 bits -/
theorem mantissa_bounds (rank : Nat) :
    rank = shift rank * 2 ^ 52 + mantissa rank ∧ mantissa rank < 2 ^ 53 ∧
      (shift rank = 0 ∨ 2 ^ 52 ≤ mantissa rank) := by
  have h := shift_add_mantissa rank
  unfold shift at h ⊢
  rw [Nat.shiftLeft_eq, Nat.shiftRight_eq_div_pow] at h
  rw [Nat.shiftRight_eq_div_pow]
  omega

/-- shift and mantissa are determined by these bounds -/
theorem shift_mantissa_unique (rank s m : Nat) (h : rank = s * 2 ^ 52 + m) (hm : m < 2 ^ 53)
    (hs : s = 0 ∨ 2 ^ 52 ≤ m) : shift rank = s ∧ mantissa rank = m := by
  have hs' : shift rank = s := by
    unfold shift
    rw [Nat.shiftRight_eq_div_pow]
    omega
  refine ⟨hs', ?_⟩
  unfold mantissa
  rw [hs', Nat.shiftLeft_eq]
  omega

theorem units_eq (rank : Nat) : units rank = mantissa rank * 2 ^ shift rank := by
  rw [units, Nat.shiftLeft_eq]

theorem units_succ (rank : Nat) : units (rank + 1) = units rank + 2 ^ shift rank := by
  obtain ⟨hr, hm, hs⟩ := mantissa_bounds rank
  rw [units_eq, units_eq]
  rcases Nat.lt_or_ge (mantissa rank + 1) (2 ^ 53) with h | h
  · obtain ⟨h1, h2⟩ := shift_mantissa_unique (rank + 1) (shift rank) (mantissa rank + 1)
      (by omega) h (by omega)
    rw [h1, h2, Nat.succ_mul]
  · -- the mantissa is full, so the next double starts a binade
    have hf : mantissa rank = 2 ^ 53 - 1 := by omega
    obtain ⟨h1, h2⟩ := shift_mantissa_unique (rank + 1) (shift rank + 1) (2 ^ 52)
      (by omega) (by omega) (by omega)
    rw [h1, h2, hf, pow_succ]
    omega

theorem units_lt_succ (rank : Nat) : units rank < units (rank + 1) := by
  rw [units_succ]
  exact Nat.lt_add_of_pos_right (Nat.two_pow_pos _)

theorem units_strictMono : StrictMono units := strictMono_nat_of_lt_succ units_lt_succ

theorem units_pos {rank : Nat} (h : 0 < rank) : 0 < units rank :=
  Nat.lt_of_le_of_lt (Nat.zero_le _) (units_strictMono h)

theorem rank_mod_two (rank : Nat) : rank % 2 = mantissa rank % 2 := by
  obtain ⟨hr, _, _⟩ := mantissa_bounds rank
  omega

end Workflow.Decimal.Double

namespace Workflow.Decimal

open Double

theorem halfwayAbove_eq (rank : Nat) :
    halfwayAbove rank = (2 * mantissa rank + 1) * 2 ^ shift rank := by
  rw [halfwayAbove, units_succ, units_eq]
  ring

theorem halfwayBelow_succ (rank : Nat) : halfwayBelow (rank + 1) = halfwayAbove rank := rfl

/-- a halfway point lies strictly below its double and at least a quarter of its gap away -/
theorem halfwayBelow_eq {rank : Nat} (h : 0 < rank) :
    halfwayBelow rank + 2 ^ shift (rank - 1) = 2 * units rank := by
  obtain ⟨r, rfl⟩ := Nat.exists_eq_succ_of_ne_zero (Nat.ne_of_gt h)
  rw [Nat.succ_eq_add_one, halfwayBelow_succ, halfwayAbove_eq, Nat.add_sub_cancel, units_succ, units_eq]
  ring

theorem shift_pred_le (rank : Nat) : shift (rank - 1) ≤ shift rank := by
  unfold shift
  rw [Nat.shiftRight_eq_div_pow, Nat.shiftRight_eq_div_pow]
  omega

/-! ## the interval of a double -/

/-- a ratio between the halfway points of a double, the points themselves only for an even rank -/
structure InInterval (rank num den : Nat) : Prop where
  above : halfwayBelow rank * den ≤ num <<< 1075
  below : num <<< 1075 ≤ halfwayAbove rank * den
  ends : halfwayBelow rank * den = num <<< 1075 ∨ num <<< 1075 = halfwayAbove rank * den →
    rank % 2 = 0

/-- the exponent that rounding reads off the whole part of a magnitude -/
theorem log2_sub_eq {q s : Nat} (hi : q < 2 ^ (53 + s)) (lo : s = 0 ∨ 2 ^ (52 + s) ≤ q) :
    q.log2 - 52 = s := by
  by_cases hq : q = 0
  · subst hq
    rcases lo with rfl | lo
    · rfl
    · exact absurd lo (Nat.not_le.mpr (Nat.two_pow_pos _))
  · have h1 : q.log2 < 53 + s := (Nat.log2_lt hq).mpr hi
    rcases lo with rfl | lo
    · omega
    · have h2 : 52 + s ≤ q.log2 := (Nat.le_log2 hq).mpr lo
      omega

section
variable {rank num den : Nat} (hden : 0 < den) (hrank : 0 < rank) (h : InInterval rank num den)
include hden hrank h

/-- away from the bottom of a binade a ratio has the exponent of its double -/
theorem nearestRank_of_le
    (lo : shift rank = 0 ∨ 2 ^ (52 + shift rank) * den ≤ num <<< 1074) :
    nearestRank num den = rank := by
  obtain ⟨hr, hm, _⟩ := mantissa_bounds rank
  have habove := h.above
  have hbelow := h.below
  have hends := h.ends
  have hodd := rank_mod_two rank
  have hhalf : halfwayBelow rank + 2 ^ shift (rank - 1) = 2 * units rank := halfwayBelow_eq hrank
  have hgap : 2 ^ shift (rank - 1) ≤ 2 ^ shift rank :=
    Nat.pow_le_pow_right (by omega) (shift_pred_le rank)
  rw [units_eq] at hhalf
  rw [halfwayAbove_eq] at hbelow hends
  rw [show (1075 : Nat) = 1074 + 1 from rfl, Nat.shiftLeft_succ] at habove hbelow hends
  unfold nearestRank
  dsimp only
  generalize num <<< 1074 = scaled at *
  generalize halfwayBelow rank = half at *
  generalize shift rank = s at *
  generalize mantissa rank = m at *
  have hU : 0 < 2 ^ s * den := Nat.mul_pos (Nat.two_pow_pos s) hden
  have hhi : scaled < 2 ^ (53 + s) * den := by
    rw [Nat.pow_add, Nat.mul_assoc]
    rw [Nat.mul_assoc] at hbelow
    nlinarith
  have he : (scaled / den).log2 - 52 = s := by
    refine log2_sub_eq ((Nat.div_lt_iff_lt_mul hden).mpr hhi) ?_
    exact lo.imp id fun hl => (Nat.le_div_iff_mul_le hden).mpr hl
  have hlow : 2 * m * (2 ^ s * den) ≤ half * den + 2 ^ s * den := by nlinarith
  have hround : roundEven scaled (den <<< s) = m := by
    rw [Nat.shiftLeft_eq, Nat.mul_comm den]
    refine roundEven_eq hU (by omega) (by rw [← Nat.mul_assoc]; exact hbelow) fun ht => ?_
    rw [← hodd]
    refine hends (ht.imp (fun e => by omega) fun e => ?_)
    rw [e, Nat.mul_assoc]
  rw [he, hround, Nat.shiftLeft_eq]
  exact hr.symm

/-- below the bottom of a binade a ratio has the exponent before, and its mantissa rounds up -/
theorem nearestRank_of_lt (hs : shift rank ≠ 0)
    (hi : num <<< 1074 < 2 ^ (52 + shift rank) * den) : nearestRank num den = rank := by
  obtain ⟨hr, hm, hlow⟩ := mantissa_bounds rank
  have habove := h.above
  have hhalf : halfwayBelow rank + 2 ^ shift (rank - 1) = 2 * units rank := halfwayBelow_eq hrank
  rw [units_eq] at hhalf
  rw [show (1075 : Nat) = 1074 + 1 from rfl, Nat.shiftLeft_succ] at habove
  obtain ⟨s, hs'⟩ := Nat.exists_eq_succ_of_ne_zero hs
  have hgap : 2 ^ shift (rank - 1) ≤ 2 ^ shift rank :=
    Nat.pow_le_pow_right (by omega) (shift_pred_le rank)
  unfold nearestRank
  dsimp only
  generalize num <<< 1074 = scaled at *
  -- a larger mantissa would keep the ratio in the binade
  have hm' : mantissa rank = 2 ^ 52 := by
    by_contra hne
    have hbig : (2 ^ 52 + 1) * 2 ^ shift rank ≤ mantissa rank * 2 ^ shift rank :=
      Nat.mul_le_mul_right _ (by omega)
    have hfar : 2 ^ 53 * 2 ^ shift rank * den ≤ halfwayBelow rank * den :=
      Nat.mul_le_mul_right _ (by omega)
    rw [Nat.mul_assoc] at hfar
    rw [Nat.pow_add, Nat.mul_assoc] at hi
    omega
  have hpred : shift (rank - 1) = s :=
    (shift_mantissa_unique _ s (2 ^ 53 - 1) (by omega) (by omega) (by omega)).1
  rw [hm', hpred, hs', Nat.succ_eq_add_one, pow_succ] at hhalf
  rw [hs', Nat.succ_eq_add_one, show 52 + (s + 1) = 53 + s by omega] at hi
  have hpos : 0 < 2 ^ s * den := Nat.mul_pos (Nat.two_pow_pos s) hden
  have hfull : (2 ^ 54 - 1) * (2 ^ s * den) ≤ 2 * scaled := by
    have hhalf' : halfwayBelow rank = (2 ^ 54 - 1) * 2 ^ s := by omega
    rwa [hhalf', Nat.mul_assoc] at habove
  have hi' : scaled < 2 ^ 53 * (2 ^ s * den) := by rwa [← Nat.mul_assoc, ← Nat.pow_add]
  have he : (scaled / den).log2 - 52 = s := by
    refine log2_sub_eq ((Nat.div_lt_iff_lt_mul hden).mpr hi) (Or.inr ?_)
    refine (Nat.le_div_iff_mul_le hden).mpr ?_
    rw [Nat.pow_add, Nat.mul_assoc]
    omega
  have hround : roundEven scaled (den <<< s) = 2 ^ 53 := by
    rw [Nat.shiftLeft_eq, Nat.mul_comm den]
    exact roundEven_eq hpos (by omega) (by omega) fun _ => by norm_num
  rw [he, hround, Nat.shiftLeft_eq]
  omega

/-- **What lies in the interval of a double rounds to it.** -/
theorem nearestRank_eq : nearestRank num den = rank := by
  by_cases hs : shift rank = 0
  · exact nearestRank_of_le hden hrank h (Or.inl hs)
  · rcases Nat.lt_or_ge (num <<< 1074) (2 ^ (52 + shift rank) * den) with hlt | hge
    · exact nearestRank_of_lt hden hrank h hs hlt
    · exact nearestRank_of_le hden hrank h (Or.inr hge)

end

/-! ## ratios -/

theorem nearestRank_mul {num den k : Nat} (hk : 0 < k) :
    nearestRank (k * num) (k * den) = nearestRank num den := by
  have h1 : (k * num) <<< 1074 = k * num <<< 1074 := by
    rw [Nat.shiftLeft_eq, Nat.shiftLeft_eq, Nat.mul_assoc]
  have h2 : ∀ e, (k * den) <<< e = k * den <<< e := fun e => by
    rw [Nat.shiftLeft_eq, Nat.shiftLeft_eq, Nat.mul_assoc]
  unfold nearestRank
  simp only [h1, h2, Nat.mul_div_mul_left _ _ hk, roundEven_mul hk]

/-- two ways to write a ratio round alike -/
theorem nearestRank_congr {num den num' den' : Nat} (hden : 0 < den) (hden' : 0 < den')
    (h : num * den' = num' * den) : nearestRank num den = nearestRank num' den' := by
  calc nearestRank num den = nearestRank (den' * num) (den' * den) := (nearestRank_mul hden').symm
    _ = nearestRank (den * num') (den * den') := by
      rw [Nat.mul_comm den' num, h, Nat.mul_comm num', Nat.mul_comm den' den]
    _ = nearestRank num' den' := nearestRank_mul hden

end Workflow.Decimal
