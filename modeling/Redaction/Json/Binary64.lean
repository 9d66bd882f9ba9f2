/-!
# Finite binary64 numbers

A magnitude is `significand * 2 ^ exponent`. In lowest form the significand has 53 bits, or fewer
if the exponent is `-1074`. `Magnitude.ofRatio?` gives the one nearest to a ratio, of two equally
near the one with the even significand; product and quotient are the exact ones, rounded so.
-/

namespace Redaction

/-- A non-negative finite double. -/
structure Magnitude where
  significand : Nat
  exponent : Int
  deriving DecidableEq, Repr, Inhabited

/-- A finite double; zero has two signs. -/
structure Binary64 where
  negative : Bool
  magnitude : Magnitude
  deriving DecidableEq, Repr, Inhabited

namespace Magnitude

def zero : Magnitude := ⟨0, -1074⟩

def isZero (x : Magnitude) : Bool := x.significand == 0

/-- The integer nearest to `num / den`, of two equally near the even one. -/
def roundHalfEven (num den : Nat) : Nat :=
  let q := num / den
  let r := num % den
  if 2 * r < den ∨ (2 * r = den ∧ q % 2 = 0) then q else q + 1

/-- The quotient `num / (den * 2 ^ e)` as a pair of integers. -/
def scaled (num den : Nat) (e : Int) : Nat × Nat :=
  if e < 0 then (num * Nat.pow 2 e.natAbs, den) else (num, den * Nat.pow 2 e.natAbs)

/-- The exponent of the double nearest to `num / den`, before rounding. -/
def exponentOf (num den : Nat) : Int :=
  let e := (num.log2 : Int) - (den.log2 : Int) - 53
  let (n, d) := scaled num den e
  max (if n / d < Nat.pow 2 53 then e else e + 1) (-1074)

/-- The double nearest to `num / den`; `none` if it is too large. -/
def ofRatio? (num den : Nat) : Option Magnitude :=
  if num = 0 then some zero
  else
    let e := exponentOf num den
    let (n, d) := scaled num den e
    let m := roundHalfEven n d
    let x : Magnitude := if m = Nat.pow 2 53 then ⟨Nat.pow 2 52, e + 1⟩ else ⟨m, e⟩
    if x.exponent ≤ 971 then some x else none

def ofNat? (n : Nat) : Option Magnitude := ofRatio? n 1

/-- The rounded product; `none` if it is too large. -/
def mul? (x y : Magnitude) : Option Magnitude :=
  let (n, d) := scaled (x.significand * y.significand) 1 (-(x.exponent + y.exponent))
  ofRatio? n d

/-- The rounded quotient by a divisor other than zero; `none` if it is too large. -/
def div? (x y : Magnitude) : Option Magnitude :=
  let (n, d) := scaled x.significand y.significand (y.exponent - x.exponent)
  ofRatio? n d

/-- The double nearest to `10 ^ k`. -/
def tenPow? (k : Nat) : Option Magnitude := ofNat? (Nat.pow 10 k)

end Magnitude

end Redaction
