import Workflow.Proofs.Decimal.Rounding
import Mathlib.Tactic.NormNum

/-!
# The shortest decimal reads back

The decimal that `shortest` chooses for a double lies in the interval of the double, so reading it
gives the double again, the sign of a zero included.

* `ofDecimal?_mul_pow`          reading sees the value of a decimal, not how it is split;
* `ofDecimal?_of_readsBack`     a decimal in the interval of a double is read as that double;
* `readsBack_shortestPoint`     the chosen point is in the interval;
* `canonical_shortest`          its digits have no superfluous zero;
* `ofDecimal?_shortest`         the chosen digits are read as the double they were chosen for.
-/

namespace Workflow.Decimal

open Double

/-! ## powers of ten and digits -/

theorem tenPow_eq (x : Int) : tenPow x = 10 ^ x.toNat := rfl

theorem tenPow_pos (x : Int) : 0 < tenPow x := Nat.pow_pos (by decide)

/-- a factor `10 ^ k` taken from the power to the coefficient -/
theorem tenPow_sub (x : Int) (k : Nat) :
    10 ^ k * tenPow (x - k) * tenPow (-x) = tenPow x * tenPow (-(x - k)) := by
  simp only [tenPow_eq, ← Nat.pow_add]
  congr 1
  omega

theorem toDigits_mul_ten {n : Nat} (h : 0 < n) :
    Nat.toDigits 10 (10 * n) = Nat.toDigits 10 n ++ ['0'] := by
  rw [← Nat.add_zero (10 * n), ← Nat.toDigits_append_toDigits (by decide) h (by decide)]
  rfl

theorem toDigits_mul_pow {n : Nat} (h : 0 < n) (k : Nat) :
    Nat.toDigits 10 (n * 10 ^ k) = Nat.toDigits 10 n ++ List.replicate k '0' := by
  induction k with
  | zero => simp
  | succ k ih =>
    have e : n * 10 ^ (k + 1) = 10 * (n * 10 ^ k) := by ring
    rw [e, toDigits_mul_ten (Nat.mul_pos h (Nat.pow_pos (by decide))), ih, List.append_assoc,
      List.replicate_succ']

theorem shiftLeft_eq_mul (n k : Nat) : n <<< k = n * 1 <<< k := by
  rw [Nat.shiftLeft_eq, Nat.one_shiftLeft]

theorem lt_pow_length_toDigits (n : Nat) : n < 10 ^ (Nat.toDigits 10 n).length :=
  (Nat.length_toDigits_le_iff (by decide) Nat.length_toDigits_pos).mp (Nat.le_refl _)

theorem pow_length_toDigits_le {n : Nat} (h : 0 < n) :
    10 ^ ((Nat.toDigits 10 n).length - 1) ≤ n := by
  by_contra hlt
  have hk : (Nat.toDigits 10 n).length - 1 ≠ 0 := by
    intro h0
    rw [h0, Nat.pow_zero] at hlt
    omega
  have hle := (Nat.length_toDigits_le_iff (by decide) (Nat.pos_of_ne_zero hk)).mpr
    (Nat.lt_of_not_le hlt)
  have hpos : 0 < (Nat.toDigits 10 n).length := Nat.length_toDigits_pos
  omega

/-- only zero is written with a leading zero -/
theorem head?_toDigits_ne_zero {n : Nat} (h : 0 < n) : (Nat.toDigits 10 n).head? ≠ some '0' := by
  induction n using Nat.base_induction 10 (by decide) with
  | single m hm =>
    rw [Nat.toDigits_of_lt_base hm]
    revert h hm
    revert m
    decide
  | digit m k hk hm ih =>
    rw [← Nat.toDigits_append_toDigits (by decide) hm hk, List.head?_append]
    obtain ⟨c, hc⟩ := Option.isSome_iff_exists.mp
      (List.isSome_head?.mpr (Nat.toDigits_ne_nil (b := 10) (n := m)))
    rw [hc, Option.some_or, ← hc]
    exact ih hm

/-! ## reading a decimal -/

theorem nearest?_congr {negative : Bool} {num den num' den' : Nat}
    (h : nearestRank num den = nearestRank num' den') :
    nearest? negative num den = nearest? negative num' den' := by
  simp only [nearest?, h]

theorem nearest?_eq_some {d : Double} {num den : Nat} (h : nearestRank num den = d.rank) :
    nearest? d.negative num den = some d := by
  obtain ⟨negative, rank, hrank⟩ := d
  dsimp only at h
  unfold nearest?
  rw [dif_pos (by rw [h]; exact hrank)]
  simp only [h]

/-- reading sees the value of a decimal, not how many zeros its coefficient ends in -/
theorem ofDecimal?_mul_pow (negative : Bool) (c : Nat) (x : Int) (k : Nat) :
    ofDecimal? negative (c * 10 ^ k) (x - k) = ofDecimal? negative c x := by
  by_cases hc : c = 0
  · subst hc
    simp [ofDecimal?]
  · have hpos : 0 < c := Nat.pos_of_ne_zero hc
    have hc' : c * 10 ^ k ≠ 0 := Nat.ne_of_gt (Nat.mul_pos hpos (Nat.pow_pos (by decide)))
    have htop : x - k + ((Nat.toDigits 10 (c * 10 ^ k)).length : Int) =
        x + ((Nat.toDigits 10 c).length : Int) := by
      rw [toDigits_mul_pow hpos, List.length_append, List.length_replicate]
      omega
    have hround : nearest? negative (c * 10 ^ k * tenPow (x - k)) (tenPow (-(x - k))) =
        nearest? negative (c * tenPow x) (tenPow (-x)) := by
      refine nearest?_congr (nearestRank_congr (tenPow_pos _) (tenPow_pos _) ?_)
      rw [Nat.mul_assoc c, Nat.mul_assoc c, tenPow_sub, Nat.mul_assoc]
    simp only [ofDecimal?, hc, hc', htop, hround]

/-! ## the interval of a double -/

theorem inInterval_of_readsBack {rank : Nat} {p : Point} (h : readsBack rank p = true) :
    InInterval rank (p.coefficient * tenPow p.scale) (tenPow (-p.scale)) := by
  unfold readsBack at h
  split at h
  · rename_i hlow hhigh
    have h1 := Nat.compare_eq_gt.mp hlow
    have h2 := Nat.compare_eq_lt.mp hhigh
    exact ⟨Nat.le_of_lt h1, Nat.le_of_lt h2, fun e => by omega⟩
  · rename_i hlow hhigh
    have h1 := Nat.compare_eq_eq.mp hlow
    have h2 := Nat.compare_eq_lt.mp hhigh
    exact ⟨Nat.le_of_eq h1.symm, Nat.le_of_lt h2, fun _ => beq_iff_eq.mp h⟩
  · rename_i hlow hhigh
    have h1 := Nat.compare_eq_gt.mp hlow
    have h2 := Nat.compare_eq_eq.mp hhigh
    exact ⟨Nat.le_of_lt h1, Nat.le_of_eq h2, fun _ => beq_iff_eq.mp h⟩
  · exact absurd h (by decide)

theorem halfwayBelow_pos {rank : Nat} (h : 0 < rank) : 0 < halfwayBelow rank :=
  Nat.lt_of_lt_of_le (units_pos h) (Nat.le_add_left _ _)

theorem units_rankCount : units rankCount = 2 ^ 52 * 2 ^ 2046 := by
  obtain ⟨hs, hm⟩ := shift_mantissa_unique rankCount 2046 (2 ^ 52) (by decide) (by decide) (by decide)
  rw [units_eq, hs, hm]

/-- no halfway point of a finite double lies beyond `2 ^ 1024` -/
theorem halfwayAbove_le {rank : Nat} (h : rank < rankCount) :
    halfwayAbove rank ≤ 2 ^ 53 * 2 ^ 2046 := by
  have h1 : units rank ≤ units rankCount := units_strictMono.monotone (Nat.le_of_lt h)
  have h2 : units (rank + 1) ≤ units rankCount := units_strictMono.monotone h
  rw [units_rankCount] at h1 h2
  rw [halfwayAbove]
  omega

section
variable {rank c : Nat} {x : Int} (h : InInterval rank (c * tenPow x) (tenPow (-x)))
include h

theorem coefficient_pos_of_inInterval (hrank : 0 < rank) : 0 < c := by
  refine Nat.pos_of_ne_zero fun hc => ?_
  have habove := h.above
  rw [hc, Nat.zero_mul, Nat.zero_shiftLeft] at habove
  have hpos := Nat.mul_pos (halfwayBelow_pos hrank) (tenPow_pos (-x))
  omega

/-- a decimal in the interval of a double other than zero is not below `10 ^ -331` -/
theorem top_ge_of_inInterval (hrank : 0 < rank) : -330 ≤ x + (Nat.toDigits 10 c).length := by
  by_contra hlt
  have habove := h.above
  have hone : tenPow x = 1 := by rw [tenPow_eq, show x.toNat = 0 by omega, Nat.pow_zero]
  rw [hone, Nat.mul_one, shiftLeft_eq_mul] at habove
  generalize hP : 1 <<< 1075 = P at habove
  have hc : c * P ≤ 10 ^ (Nat.toDigits 10 c).length * P :=
    Nat.mul_le_mul_right P (Nat.le_of_lt (lt_pow_length_toDigits c))
  have hden : 10 ^ (Nat.toDigits 10 c).length * 10 ^ 331 ≤ tenPow (-x) := by
    rw [tenPow_eq, ← Nat.pow_add]
    exact Nat.pow_le_pow_right (by decide) (by omega)
  have hlow : tenPow (-x) ≤ halfwayBelow rank * tenPow (-x) :=
    Nat.le_mul_of_pos_left _ (halfwayBelow_pos hrank)
  have hbig : 10 ^ 331 ≤ P :=
    Nat.le_of_mul_le_mul_left (le_trans hden (le_trans hlow (le_trans habove hc)))
      (Nat.pow_pos (by decide))
  rw [← hP] at hbig
  exact absurd hbig (by decide +kernel)

/-- a decimal in the interval of a finite double is below `10 ^ 310` -/
theorem top_le_of_inInterval (hrank : 0 < rank) (hfin : rank < rankCount) :
    x + (Nat.toDigits 10 c).length ≤ 310 := by
  by_contra hlt
  have hbelow := h.below
  have hc := pow_length_toDigits_le (coefficient_pos_of_inInterval h hrank)
  have hlen : 0 < (Nat.toDigits 10 c).length := Nat.length_toDigits_pos
  have hnum : 10 ^ 310 * tenPow (-x) ≤ c * tenPow x := by
    refine le_trans ?_ (Nat.mul_le_mul_right (tenPow x) hc)
    rw [tenPow_eq, tenPow_eq, ← Nat.pow_add, ← Nat.pow_add]
    exact Nat.pow_le_pow_right (by decide) (by omega)
  have hhalf := Nat.mul_le_mul_right (tenPow (-x)) (halfwayAbove_le hfin)
  rw [shiftLeft_eq_mul] at hbelow
  generalize hP : 1 <<< 1075 = P at hbelow
  generalize hQ : 2 ^ 53 * 2 ^ 2046 = Q at hhalf
  have hall : P * 10 ^ 310 * tenPow (-x) ≤ Q * tenPow (-x) := by
    refine le_trans (le_trans ?_ hbelow) hhalf
    rw [Nat.mul_assoc, Nat.mul_comm P]
    exact Nat.mul_le_mul_right P hnum
  have hbig : P * 10 ^ 310 ≤ Q := Nat.le_of_mul_le_mul_right hall (tenPow_pos _)
  rw [← hP, ← hQ] at hbig
  exact absurd hbig (by decide +kernel)

end

/-- **A decimal in the interval of a double is read as that double.** -/
theorem ofDecimal?_of_readsBack {d : Double} {p : Point} (hrank : 0 < d.rank)
    (h : readsBack d.rank p = true) :
    ofDecimal? d.negative p.coefficient p.scale = some d := by
  have hin := inInterval_of_readsBack h
  have hc := coefficient_pos_of_inInterval hin hrank
  have hge := top_ge_of_inInterval hin hrank
  have hle := top_le_of_inInterval hin hrank d.rank_lt
  have hround : nearest? d.negative (p.coefficient * tenPow p.scale) (tenPow (-p.scale)) = some d :=
    nearest?_eq_some (nearestRank_eq (tenPow_pos _) hrank hin)
  unfold ofDecimal?
  dsimp only
  rw [if_neg (by omega), if_neg (by omega), hround]

/-! ## the chosen point -/

/-- `5 ^ n` over `10 ^ n`, scaled by a power of two -/
theorem scaled_exact (u n : Nat) :
    (u * Nat.pow 5 n * tenPow (-n)) <<< (n + 1) = 2 * u * tenPow (- -n) := by
  have hten : 10 ^ n = 5 ^ n * 2 ^ n := by rw [← Nat.mul_pow]
  rw [tenPow_eq, tenPow_eq, show (-(n : Int)).toNat = 0 by omega,
    show (- -(n : Int)).toNat = n by omega, hten, Nat.shiftLeft_eq, Nat.pow_succ, Nat.pow_zero,
    Nat.mul_one, Nat.pow_eq]
  ring

/-- the exact value of a double is a decimal in its interval -/
theorem readsBack_exactPoint {rank : Nat} (h : 0 < rank) : readsBack rank (exactPoint rank) = true := by
  have hval : ((exactPoint rank).coefficient * tenPow (exactPoint rank).scale) <<< 1075 =
      2 * units rank * tenPow (-(exactPoint rank).scale) := by
    rw [exactPoint, show (-1074 : Int) = -(1074 : Nat) from rfl, show 1075 = 1074 + 1 from rfl]
    generalize 1074 = n
    exact scaled_exact (units rank) n
  have hpow := tenPow_pos (-(exactPoint rank).scale)
  have hlow : halfwayBelow rank < 2 * units rank := by
    have := halfwayBelow_eq h
    have := Nat.two_pow_pos (shift (rank - 1))
    omega
  have hhigh : 2 * units rank < halfwayAbove rank := by
    have := units_lt_succ rank
    rw [halfwayAbove]
    omega
  have h1 : (exactPoint rank).compareHalves (halfwayBelow rank) = .gt := by
    rw [Point.compareHalves, hval, Nat.compare_eq_gt]
    exact Nat.mul_lt_mul_of_pos_right hlow hpow
  have h2 : (exactPoint rank).compareHalves (halfwayAbove rank) = .lt := by
    rw [Point.compareHalves, hval, Nat.compare_eq_lt]
    exact Nat.mul_lt_mul_of_pos_right hhigh hpow
  rw [readsBack, h1, h2]

theorem readsBack_shortestPoint (tie : Tie) {rank : Nat} (h : 0 < rank) :
    readsBack rank (shortestPoint tie rank) = true := by
  unfold shortestPoint
  cases hf : (List.range 17).findSome? fun (n : Nat) => candidate? tie rank (leadingExponent rank - n) with
  | none => exact readsBack_exactPoint h
  | some p =>
    obtain ⟨n, _, hn⟩ := List.exists_of_findSome?_eq_some hf
    exact readsBack_of_candidate? hn

/-! ## the chosen digits -/

/-- only zeros are taken from the end -/
theorem stripZeros_append (ds : List Char) :
    ∃ z, stripZeros ds ++ List.replicate z '0' = ds := by
  cases ds with
  | nil => exact ⟨0, rfl⟩
  | cons d rest =>
    have hzero : ∀ c ∈ rest.reverse.takeWhile (· == '0'), c = '0' := fun c hc =>
      beq_iff_eq.mp (List.all_eq_true.mp List.all_takeWhile c hc)
    refine ⟨(rest.reverse.takeWhile (· == '0')).length, ?_⟩
    rw [← List.eq_replicate_of_mem hzero, stripZeros, List.cons_append]
    congr 1
    rw [← List.reverse_inj, List.reverse_append, List.reverse_reverse]
    have hrev : (rest.reverse.takeWhile (· == '0')).reverse = rest.reverse.takeWhile (· == '0') := by
      rw [List.eq_replicate_of_mem hzero, List.reverse_replicate]
    rw [hrev, List.takeWhile_append_dropWhile]

/-- what is left does not end in a zero, one digit apart -/
theorem getLast?_stripZeros {ds : List Char} (h : 1 < (stripZeros ds).length) :
    (stripZeros ds).getLast? ≠ some '0' := by
  cases ds with
  | nil => exact absurd h (by decide)
  | cons d rest =>
    rw [stripZeros] at h ⊢
    intro hlast
    have hne : (rest.reverse.dropWhile (· == '0')).reverse ≠ [] := fun e => by simp [e] at h
    rw [List.getLast?_cons, List.getLast?_reverse] at hlast
    obtain ⟨c, hc⟩ := Option.isSome_iff_exists.mp
      (List.isSome_head?.mpr (List.reverse_ne_nil_iff.mp hne))
    have hkept := List.head?_dropWhile_not (· == '0') rest.reverse
    rw [hc] at hlast hkept
    rw [Option.getD_some, Option.some_inj] at hlast
    rw [hlast] at hkept
    exact absurd hkept (by decide)

theorem canonical_shortest (tie : Tie) (d : Double) : (shortest tie d).Canonical := by
  unfold shortest
  split
  · exact ⟨by simp, by simp, fun _ => ⟨rfl, rfl⟩, by simp⟩
  · rename_i hz
    have hrank : 0 < d.rank := Nat.pos_of_ne_zero fun e => hz (by simp [isZero, e])
    have hin := inInterval_of_readsBack (readsBack_shortestPoint tie hrank)
    have hc := coefficient_pos_of_inInterval hin hrank
    refine ⟨stripZeros_ne_nil Nat.toDigits_ne_nil, fun c h => ?_, fun h => ?_, getLast?_stripZeros⟩
    · exact Nat.isDigit_of_mem_toDigits (by decide) (by decide) (mem_of_mem_stripZeros h)
    · rw [head?_stripZeros] at h
      exact absurd h (head?_toDigits_ne_zero hc)

/-- **The digits chosen for a double are read as that double.** -/
theorem ofDecimal?_shortest (tie : Tie) (d : Double) :
    ofDecimal? d.negative (shortest tie d).coefficient (shortest tie d).scale = some d := by
  unfold shortest
  split
  · rename_i hz
    obtain ⟨negative, rank, hrank⟩ := d
    obtain rfl : rank = 0 := beq_iff_eq.mp hz
    rfl
  · rename_i hz
    have hrank : 0 < d.rank := Nat.pos_of_ne_zero fun e => hz (by simp [isZero, e])
    have hread := ofDecimal?_of_readsBack hrank (readsBack_shortestPoint tie hrank)
    obtain ⟨z, hds⟩ := stripZeros_append (Nat.toDigits 10 (shortestPoint tie d.rank).coefficient)
    have hpos := List.length_pos_iff.mpr (stripZeros_ne_nil
      (Nat.toDigits_ne_nil (b := 10) (n := (shortestPoint tie d.rank).coefficient)))
    have hval : Nat.ofDigitChars 10 (stripZeros (Nat.toDigits 10 (shortestPoint tie d.rank).coefficient)) 0
        * 10 ^ z = (shortestPoint tie d.rank).coefficient := by
      have h := congrArg (fun ds => Nat.ofDigitChars 10 ds 0) hds
      rwa [Nat.ofDigitChars_append, Nat.ofDigitChars_replicate_zero, Nat.ofDigitChars_ten_toDigits,
        Nat.mul_comm] at h
    have hlen := congrArg List.length hds
    rw [List.length_append, List.length_replicate] at hlen
    dsimp only [Scientific.coefficient, Scientific.scale]
    rw [← ofDecimal?_mul_pow _ _ _ z, hval, ← hread]
    congr 1
    omega

end Workflow.Decimal
