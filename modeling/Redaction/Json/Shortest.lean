import Redaction.Json.Binary64

/-!
# The shortest decimal of a double

Among the decimals that lie nearer to a double than to any other, or halfway from one with an odd
significand, the shortest is taken, and of the shortest the nearest. The search tries one digit,
two digits and so on up to 17, and on each grid only the two neighbours of the double.
-/

namespace Redaction.Magnitude

/-- A decimal `digits * 10 ^ exponent`. -/
structure Decimal where
  digits : Nat
  exponent : Int
  deriving DecidableEq, Repr, Inhabited

/-- The double as a ratio. -/
def ratio (x : Magnitude) : Nat × Nat :=
  if x.exponent < 0 then (x.significand, Nat.pow 2 x.exponent.natAbs)
  else (x.significand * Nat.pow 2 x.exponent.natAbs, 1)

/-- The least `k ≤ bound` with `den ≤ num * 10 ^ k`, else `bound`. -/
def leastScale (num den : Nat) : Nat → Nat → Nat
  | 0, k => k
  | bound + 1, k => if den ≤ num then k else leastScale (num * 10) den bound (k + 1)

/-- The exponent of the leading decimal digit of a ratio that is not zero. -/
def leadingExponent (num den : Nat) : Int :=
  if den ≤ num then ((Nat.toDigits 10 (num / den)).length : Int) - 1
  else -(leastScale num den 400 0 : Int)

/-- The neighbour of `x` on the grid of multiples of `10 ^ k` that rounds to `x`, the nearer if both
do, of two equally near the even one. -/
def onGrid? (x : Magnitude) (k : Int) : Option Nat :=
  let (num, den) := x.ratio
  let up := Nat.pow 10 k.toNat
  let down := Nat.pow 10 (-k).toNat
  -- in these units the value is `v` and the multiple `c` of the grid is `c * unit`
  let v := 4 * num * down
  let unit := 4 * den * up
  let quarter := v / (4 * x.significand)
  let below := if x.significand = Nat.pow 2 52 ∧ -1074 < x.exponent then quarter else 2 * quarter
  let lo := v - below
  let hi := v + 2 * quarter
  let closed := x.significand % 2 = 0
  let inside (d : Nat) : Bool := (lo < d && d < hi) || (closed && (d = lo || d = hi))
  let c := v / unit
  match inside (c * unit), inside ((c + 1) * unit) with
  | true, true =>
    let left := v - c * unit
    let right := (c + 1) * unit - v
    if left < right ∨ (left = right ∧ c % 2 = 0) then some c else some (c + 1)
  | true, false => some c
  | false, true => some (c + 1)
  | false, false => none

/-- The decimal without zeros at the end of its digits. -/
def Decimal.trimmed (d : Decimal) : Decimal :=
  if h : d.digits = 0 then d
  else if d.digits % 10 = 0 then trimmed ⟨d.digits / 10, d.exponent + 1⟩
  else d
termination_by d.digits
decreasing_by exact Nat.div_lt_self (Nat.pos_of_ne_zero h) (by decide)

/-- The shortest decimal that rounds to `x`, and of these the nearest. -/
def shortest (x : Magnitude) : Decimal :=
  if x.isZero then ⟨0, 0⟩
  else
    let (num, den) := x.ratio
    let e := leadingExponent num den
    let found := (List.range 17).findSome? fun (n : Nat) =>
      (x.onGrid? (e - n)).map fun c => (⟨c, e - n⟩ : Decimal)
    (found.getD ⟨0, 0⟩).trimmed

end Redaction.Magnitude
