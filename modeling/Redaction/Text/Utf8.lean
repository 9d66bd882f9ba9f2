/-!
# UTF-8

`decode?` reads a byte sequence strictly: it computes each code point and refuses overlong forms,
surrogates and numbers beyond U+10FFFF. `decodeLossy` reads any byte sequence: every maximal prefix
of a well-formed sequence that goes wrong becomes one U+FFFD.
-/

namespace Redaction.Text.Utf8

/-- The bytes of a text. -/
def encode (cs : List Char) : List UInt8 := cs.flatMap String.utf8EncodeChar

/-- A byte that may follow the first byte of a sequence. -/
def isTrailing (b : UInt8) : Bool := 0x80 ≤ b && b ≤ 0xBF

/-- The six low bits, all that a trailing byte adds to a code point. -/
def low (b : UInt8) : Nat := b.toNat % 64

/-! ### Strict reading -/

/-- The code point as a character if it lies from `least` up and is no surrogate. -/
def scalar? (least n : Nat) : Option Char :=
  if h : n.isValidChar then
    if least ≤ n then some (Char.ofNatAux n h) else none
  else none

/-- The text that a byte sequence encodes, if it is well formed. -/
def decode? : List UInt8 → Option (List Char)
  | [] => some []
  | a :: rest =>
    if a < 0x80 then do
      let c ← scalar? 0 a.toNat
      return c :: (← decode? rest)
    else match rest with
      | [] => none
      | b :: rest =>
        if !isTrailing b then none
        else if 0xC0 ≤ a && a < 0xE0 then do
          let c ← scalar? 0x80 ((a.toNat - 0xC0) * 64 + low b)
          return c :: (← decode? rest)
        else match rest with
          | [] => none
          | c :: rest =>
            if !isTrailing c then none
            else if 0xE0 ≤ a && a < 0xF0 then do
              let s ← scalar? 0x800 (((a.toNat - 0xE0) * 64 + low b) * 64 + low c)
              return s :: (← decode? rest)
            else match rest with
              | [] => none
              | d :: rest =>
                if !isTrailing d then none
                else if 0xF0 ≤ a && a < 0xF8 then do
                  let s ← scalar? 0x10000
                    ((((a.toNat - 0xF0) * 64 + low b) * 64 + low c) * 64 + low d)
                  return s :: (← decode? rest)
                else none

/-! ### Lossy reading -/

/-- Which second byte may follow the first byte `a`, and how many trailing bytes then follow that
one; `none` if `a` starts no sequence of two or more bytes. -/
def shape? (a : UInt8) : Option (UInt8 × UInt8 × Nat) :=
  if 0xC2 ≤ a && a ≤ 0xDF then some (0x80, 0xBF, 0)
  else if a == 0xE0 then some (0xA0, 0xBF, 1)
  else if a == 0xED then some (0x80, 0x9F, 1)
  else if 0xE1 ≤ a && a ≤ 0xEF then some (0x80, 0xBF, 1)
  else if a == 0xF0 then some (0x90, 0xBF, 2)
  else if 0xF1 ≤ a && a ≤ 0xF3 then some (0x80, 0xBF, 2)
  else if a == 0xF4 then some (0x80, 0x8F, 2)
  else none

/-- Reads `count` trailing bytes onto `value`; the bytes left over start at the first misfit. -/
def trailing (value : Nat) : Nat → List UInt8 → Option Nat × List UInt8
  | 0, rest => (some value, rest)
  | _ + 1, [] => (none, [])
  | count + 1, b :: rest =>
    if isTrailing b then trailing (value * 64 + low b) count rest else (none, b :: rest)

/-- The bits of a code point that its first byte holds. -/
def leading (a : UInt8) : Nat :=
  if a < 0xE0 then a.toNat % 32 else if a < 0xF0 then a.toNat % 16 else a.toNat % 8

/-- The code point that starts with the byte `a`, or `none` for a maximal invalid prefix, and the
bytes after it. -/
def first (a : UInt8) (rest : List UInt8) : Option Nat × List UInt8 :=
  if a < 0x80 then (some a.toNat, rest)
  else match shape? a, rest with
    | some (lo, hi, count), b :: rest' =>
      if lo ≤ b && b ≤ hi then trailing (leading a * 64 + low b) count rest' else (none, rest)
    | _, _ => (none, rest)

theorem trailing_length_le (value count : Nat) (bs : List UInt8) :
    (trailing value count bs).2.length ≤ bs.length := by
  induction bs generalizing value count with
  | nil => cases count <;> simp [trailing]
  | cons b bs ih =>
    cases count with
    | zero => simp [trailing]
    | succ count =>
      simp only [trailing]
      split
      · exact Nat.le_succ_of_le (ih _ _)
      · simp

theorem first_length_le (a : UInt8) (bs : List UInt8) : (first a bs).2.length ≤ bs.length := by
  unfold first
  split
  · simp
  · split
    · split
      · exact Nat.le_succ_of_le (trailing_length_le _ _ _)
      · simp
    · simp

/-- The text of any byte sequence, with U+FFFD for each maximal invalid prefix. -/
def decodeLossy : List UInt8 → List Char
  | [] => []
  | a :: rest =>
    let c := ((first a rest).1.bind (scalar? 0)).getD '\uFFFD'
    c :: decodeLossy (first a rest).2
termination_by bs => bs.length
decreasing_by exact Nat.lt_succ_of_le (first_length_le a rest)

end Redaction.Text.Utf8
