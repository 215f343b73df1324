import Workflow.Decimal.Double
import Workflow.Decimal.Scientific

/-!
# The fewest digits that read back

The decimals that round to a double fill the interval between the halfway points to its two
neighbours, the ends included exactly when the mantissa is even. Among them `shortest` takes one
with the fewest digits and, of those, the nearest to the double; a tie between two is settled by
`Tie`.

* `Point`          a positive decimal `c · 10^x`;
* `readsBack`      the decimal lies in the interval of the double of that rank;
* `Tie`            what a tie between two candidates of one length goes to;
* `candidate?`     the chosen decimal on a grid `10^x`, if one next to the double reads back;
* `shortest`       sign, digits and exponent of the chosen decimal.
-/

namespace Workflow.Decimal

open Double

structure Point where
  coefficient : Nat
  scale : Int
deriving DecidableEq, Repr

inductive Tie where
  | toEven
  | up
deriving DecidableEq, Repr

/-- compares `p` with `halves · 2^-1075` -/
def Point.compareHalves (p : Point) (halves : Nat) : Ordering :=
  compare ((p.coefficient * tenPow p.scale) <<< 1075) (halves * tenPow (-p.scale))

/-- the halfway point below the double of that rank, in units of `2^-1075` -/
def halfwayBelow (rank : Nat) : Nat := units (rank - 1) + units rank

/-- the halfway point above the double of that rank, in units of `2^-1075` -/
def halfwayAbove (rank : Nat) : Nat := units rank + units (rank + 1)

def readsBack (rank : Nat) (p : Point) : Bool :=
  match p.compareHalves (halfwayBelow rank), p.compareHalves (halfwayAbove rank) with
  | .gt, .lt => true
  | .eq, .lt | .gt, .eq => rank % 2 == 0
  | _, _ => false

/-- the greatest point of the grid `10^x` that is not above the double of that rank -/
def floorOn (rank : Nat) (x : Int) : Nat :=
  units rank * tenPow (-x) / tenPow x <<< 1074

/-- whether the point above on the grid is the one to take, both being in the interval -/
def takeAbove (tie : Tie) (rank : Nat) (x : Int) (below : Nat) : Bool :=
  match (⟨2 * below + 1, x⟩ : Point).compareHalves (4 * units rank) with
  | .lt => true
  | .gt => false
  | .eq => match tie with
    | .up => true
    | .toEven => below % 2 == 1

/-- the one of two points that passes the test, the preferred one if both do -/
def pick (ok : Point → Bool) (preferAbove : Bool) (below above : Point) : Option Point :=
  match ok below, ok above with
  | true, true => some (if preferAbove then above else below)
  | true, false => some below
  | false, true => some above
  | false, false => none

/-- the nearer of the two points around the double on the grid `10^x` among those that read back -/
def candidate? (tie : Tie) (rank : Nat) (x : Int) : Option Point :=
  let below := floorOn rank x
  pick (readsBack rank) (takeAbove tie rank x below) ⟨below, x⟩ ⟨below + 1, x⟩

/-- the exponent of the first digit: the double of that rank lies in `[10^e, 10^(e+1))` -/
def leadingExponent (rank : Nat) : Int :=
  (Nat.toDigits 10 (floorOn rank (-400))).length - 401

/-- the exact decimal value of the double of that rank -/
def exactPoint (rank : Nat) : Point := ⟨units rank * Nat.pow 5 1074, -1074⟩

/-- the point with the fewest digits that reads back -/
def shortestPoint (tie : Tie) (rank : Nat) : Point :=
  ((List.range 17).findSome? fun (n : Nat) => candidate? tie rank (leadingExponent rank - n)).getD
    (exactPoint rank)

/-- the digits of the shortest decimal that reads back to `d` -/
def shortest (tie : Tie) (d : Double) : Scientific :=
  if d.isZero then ⟨d.negative, ['0'], 0⟩
  else
    let p := shortestPoint tie d.rank
    let ds := Nat.toDigits 10 p.coefficient
    ⟨d.negative, stripZeros ds, p.scale + (ds.length - 1 : Nat)⟩

theorem negative_shortest (tie : Tie) (d : Double) : (shortest tie d).negative = d.negative := by
  unfold shortest
  split <;> rfl

theorem ok_of_pick {ok : Point → Bool} {preferAbove : Bool} {below above p : Point}
    (h : pick ok preferAbove below above = some p) : ok p = true := by
  unfold pick at h
  split at h <;> simp only [Option.some.injEq, reduceCtorEq] at h
  all_goals subst h
  · split <;> assumption
  · assumption
  · assumption

/-- a candidate lies in the interval of its double -/
theorem readsBack_of_candidate? {tie : Tie} {rank : Nat} {x : Int} {p : Point}
    (h : candidate? tie rank x = some p) : readsBack rank p = true :=
  ok_of_pick h

end Workflow.Decimal
