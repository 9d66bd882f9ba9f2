import Redaction.Json.Basic
import Redaction.Json.Shortest

/-!
# The text of a number

Integers are written in decimal. A double is written with the digits of its shortest decimal, in
positional notation if its leading digit stands from `10 ^ -5` to `10 ^ 15`, and then always with
a fraction; else as `d.ddde±x`.

A number without fraction and exponent that fits 64 bits, signed or unsigned, is read as an exact
integer; `-0` and all others are read as doubles. Of their digits only as many count as fit 64
bits; these are then scaled by a rounded power of ten.
-/

namespace Redaction

namespace Magnitude

/-- The exponents of the leading digit that are written in positional notation. -/
def isPositional (e : Int) : Bool := -5 ≤ e && e ≤ 15

/-- A decimal with at least one digit in positional notation. -/
def positional (digits : List Char) (e : Int) : List Char :=
  if e < 0 then '0' :: '.' :: List.replicate (e.natAbs - 1) '0' ++ digits
  else
    let whole := e.toNat + 1
    if digits.length ≤ whole then
      digits ++ List.replicate (whole - digits.length) '0' ++ ['.', '0']
    else digits.take whole ++ '.' :: digits.drop whole

/-- A decimal with at least one digit in scientific notation. -/
def scientific (digits : List Char) (e : Int) : List Char :=
  let mantissa := match digits with
    | d :: [] => [d]
    | d :: ds => d :: '.' :: ds
    | [] => []
  mantissa ++ 'e' :: (if e < 0 then '-' else '+') :: Nat.toDigits 10 e.natAbs

def text (x : Magnitude) : List Char :=
  let d := x.shortest
  let digits := Nat.toDigits 10 d.digits
  let e := d.exponent + digits.length - 1
  if isPositional e then positional digits e else scientific digits e

end Magnitude

namespace Number

/-- The written form of a number. -/
def text : Number → List Char
  | int n => if n < 0 then '-' :: Nat.toDigits 10 n.natAbs else Nat.toDigits 10 n.natAbs
  | double x => if x.negative then '-' :: x.magnitude.text else x.magnitude.text

/-! ### Reading -/

/-- The largest number of 64 bits. -/
def maxWord : Nat := Nat.pow 2 64 - 1

/-- Appends the digits to `n` as long as the number fits 64 bits, and says how many it took. -/
def takeDigits (n : Nat) : List Char → Nat × Nat
  | [] => (n, 0)
  | c :: cs =>
    let m := n * 10 + (c.toNat - 48)
    if m ≤ maxWord then
      let (r, k) := takeDigits m cs
      (r, k + 1)
    else (n, 0)

/-- `n * 10 ^ e` by rounded steps; `none` if it is too large. -/
def scale? (x : Magnitude) (e : Int) : Option Magnitude :=
  if e.natAbs ≤ 308 then do
    let p ← Magnitude.tenPow? e.natAbs
    if e < 0 then x.div? p else x.mul? p
  else if x.isZero then some x
  else if h : 0 ≤ e then none
  else do
    let y ← x.div? (← Magnitude.tenPow? 308)
    scale? y (e + 308)
termination_by e.natAbs

/-- A number taken apart: its sign, its digits before and after the point, its exponent. -/
structure Parts where
  negative : Bool
  whole : List Char
  fraction : List Char
  exponent : Int
  /-- There is neither a point nor an exponent. -/
  plain : Bool

/-- Takes the characters of a number apart; `none` if they do not form one. -/
def Parts.of? (cs : List Char) : Option Parts :=
  let (negative, cs) := match cs with
    | '-' :: cs => (true, cs)
    | cs => (false, cs)
  let (whole, cs) := cs.span Char.isDigit
  if whole.isEmpty || (1 < whole.length && whole.head? == some '0') then none
  else
    let (fraction, cs, point) := match cs with
      | '.' :: cs => let (f, cs) := cs.span Char.isDigit; (f, cs, true)
      | cs => ([], cs, false)
    if point && fraction.isEmpty then none
    else
      let value (cs : List Char) (sign : Int) : Option Parts :=
        if cs.isEmpty || !cs.all Char.isDigit then none
        else
          let n : Nat := cs.foldl (fun n c => n * 10 + (c.toNat - 48)) 0
          some ⟨negative, whole, fraction, sign * n, false⟩
      match cs with
      | [] => some ⟨negative, whole, fraction, 0, !point⟩
      | e :: cs =>
        if e = 'e' ∨ e = 'E' then
          match cs with
          | '+' :: cs => value cs 1
          | '-' :: cs => value cs (-1)
          | cs => value cs 1
        else none

/-- The number that the parts denote; `none` if it is too large. -/
def Parts.number? (p : Parts) : Option Number :=
  let (n, taken) := takeDigits 0 p.whole
  let exact := p.plain && taken == p.whole.length
  if exact && !p.negative then some (int n)
  else if exact && p.negative && n ≠ 0 && n ≤ Nat.pow 2 63 then some (int (-n))
  else do
    let (n, kept) := if p.fraction.isEmpty then (n, 0) else takeDigits n p.fraction
    let e := (p.whole.length - taken : Int) - kept + p.exponent
    let x ← scale? (← Magnitude.ofNat? n) e
    return double ⟨p.negative, x⟩

/-- Reads a whole text as a number. -/
def read? (cs : List Char) : Option Number := Parts.of? cs >>= Parts.number?

end Number

end Redaction
