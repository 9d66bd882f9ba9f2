import Redaction.Text.Ranges

/-!
# Characters that share columns

In some scripts a letter changes or swallows the one before it. A text is read from its end here: a
`Ligature` is a letter that may join the one before it, and `join?` says what becomes of that one.
-/

namespace Redaction.Text

/-- The Khmer letters that have a form below the line. -/
def subscripts : List (Nat × Nat) := [
  (0x1780, 0x1782), (0x1784, 0x1787), (0x1789, 0x178C), (0x178E, 0x1793), (0x1795, 0x1798),
  (0x179B, 0x179D), (0x17A0, 0x17A0), (0x17A2, 0x17A2), (0x17A7, 0x17A7), (0x17AB, 0x17AC),
  (0x17AF, 0x17AF)]

/-- The consonants of Tifinagh. -/
def isTifinagh (c : Char) : Bool := inRanges [(0x2D31, 0x2D65), (0x2D6F, 0x2D6F)] c.toNat

inductive Ligature
  /-- A Khmer letter that the sign U+17D2 puts below the line. -/
  | subscript
  | lamed
  | buginese
  /-- The Buginese vowel sign i with a joined ya. -/
  | bugineseVowel
  | tifinagh
  /-- The Tifinagh joiner with a consonant. -/
  | tifinaghJoiner
  | lisuTone
  | orkhon
  deriving DecidableEq, Repr

namespace Ligature

def ofChar? (c : Char) : Option Ligature :=
  let n := c.toNat
  if inRanges subscripts n then some subscript
  else if n == 0x5DC then some lamed
  else if n == 0x1A10 then some buginese
  else if isTifinagh c then some tifinagh
  else if n == 0xA4FC || n == 0xA4FD then some lisuTone
  else if n == 0x10C03 then some orkhon
  else none

/-- The columns that the character `c` adds before a ligature, and what the two are together;
`joined` says that a joiner stands between them. -/
def join? (l : Ligature) (joined : Bool) (c : Char) : Option (Int × Option Ligature) :=
  let n := c.toNat
  match l, joined with
  | lamed, true => if n == 0x5D0 then some (0, none) else none
  | subscript, false => if n == 0x17D2 then some (-1, none) else none
  | buginese, true => if n == 0x1A17 then some (0, some bugineseVowel) else none
  | bugineseVowel, false => if n == 0x1A15 then some (0, none) else none
  | tifinagh, _ =>
    if n == 0x2D7F then some (1, some tifinaghJoiner)
    else if joined && isTifinagh c then some (0, none) else none
  | tifinaghJoiner, false => if isTifinagh c then some (-1, none) else none
  | lisuTone, false => if 0xA4F8 ≤ n && n ≤ 0xA4FB then some (0, none) else none
  | orkhon, true => if n == 0x10C32 then some (0, none) else none
  | _, _ => none

/-- A character that does not part the letters around it. -/
def isTransparent (c : Char) : Bool :=
  inRanges [(0x34F, 0x34F), (0x17B4, 0x17B5), (0x180B, 0x180D), (0x180F, 0x180F),
    (0xFE00, 0xFE0F), (0xE0100, 0xE01EF)] c.toNat

end Ligature

/-! ### Lam with alef -/

/-- The letters of the group of the Arabic lam. -/
def isLam (c : Char) : Bool :=
  inRanges [(0x644, 0x644), (0x6B5, 0x6B8), (0x76A, 0x76A), (0x8A6, 0x8A6), (0x8C7, 0x8C7)] c.toNat

/-- The letters of the group of the Arabic alef. -/
def isAlef (c : Char) : Bool :=
  inRanges [(0x622, 0x623), (0x625, 0x625), (0x627, 0x627), (0x671, 0x673), (0x675, 0x675),
    (0x773, 0x774), (0x870, 0x882)] c.toNat

/-- Characters without a column that nevertheless part a lam from an alef behind them. -/
def separating : List (Nat × Nat) := [
  (0x605, 0x605), (0x890, 0x891), (0x8E2, 0x8E2), (0x9BE, 0x9BE), (0x9D7, 0x9D7), (0xB3E, 0xB3E),
  (0xB57, 0xB57), (0xBBE, 0xBBE), (0xBD7, 0xBD7), (0xCC0, 0xCC0), (0xCC2, 0xCC2), (0xCC7, 0xCC8),
  (0xCCA, 0xCCB), (0xCD5, 0xCD6), (0xD3E, 0xD3E), (0xD57, 0xD57), (0xDCF, 0xDCF), (0xDDF, 0xDDF),
  (0x1160, 0x11FF), (0x1715, 0x1715), (0x1734, 0x1734), (0x180E, 0x180E), (0x1B35, 0x1B35),
  (0x1B3B, 0x1B3B), (0x1B3D, 0x1B3D), (0x1B43, 0x1B44), (0x1BAA, 0x1BAA), (0x1BF2, 0x1BF3),
  (0x200C, 0x200D), (0x2065, 0x2069), (0x302E, 0x302F), (0x3164, 0x3164), (0xA8FA, 0xA8FA),
  (0xA953, 0xA953), (0xA9C0, 0xA9C0), (0xD7B0, 0xD7C6), (0xD7CB, 0xD7FB), (0xFFA0, 0xFFA0),
  (0xFFF0, 0xFFF8), (0x111C0, 0x111C0), (0x11235, 0x11235), (0x1133E, 0x1133E), (0x1134D, 0x1134D),
  (0x11357, 0x11357), (0x113B8, 0x113B8), (0x113C2, 0x113C2), (0x113C5, 0x113C5),
  (0x113C7, 0x113C9), (0x113CF, 0x113CF), (0x114B0, 0x114B0), (0x114BD, 0x114BD),
  (0x115AF, 0x115AF), (0x116B6, 0x116B6), (0x11930, 0x11930), (0x1193D, 0x1193D),
  (0x11F41, 0x11F41), (0x16FF0, 0x16FF1), (0x1D165, 0x1D166), (0x1D16D, 0x1D172),
  (0xE0000, 0xE0000), (0xE0002, 0xE001F), (0xE0080, 0xE00FF), (0xE01F0, 0xE0FFF)]

def isSeparating (c : Char) : Bool := inRanges separating c.toNat

end Redaction.Text
