import Redaction.Text.Emoji
import Redaction.Text.Extending
import Redaction.Text.Ligature

/-!
# Display width

The number of terminal columns of a text: two for a wide character or a picture, none for a
character that extends the one before it or is invisible, one for any other; less where characters
are drawn as one. What a character takes depends on what stands behind it, so a text is read from
its end.
-/

namespace Redaction.Text

/-! ### Single characters -/

/-- The characters whose East Asian width is wide or fullwidth, and two that are drawn as wide. -/
def wide : List (Nat × Nat) := [
  (0x1100, 0x115F), (0x17A4, 0x17A4), (0x231A, 0x231B), (0x2329, 0x232A), (0x23E9, 0x23EC),
  (0x23F0, 0x23F0), (0x23F3, 0x23F3), (0x25FD, 0x25FE), (0x2614, 0x2615), (0x2630, 0x2637),
  (0x2648, 0x2653), (0x267F, 0x267F), (0x268A, 0x268F), (0x2693, 0x2693), (0x26A1, 0x26A1),
  (0x26AA, 0x26AB), (0x26BD, 0x26BE), (0x26C4, 0x26C5), (0x26CE, 0x26CE), (0x26D4, 0x26D4),
  (0x26EA, 0x26EA), (0x26F2, 0x26F3), (0x26F5, 0x26F5), (0x26FA, 0x26FA), (0x26FD, 0x26FD),
  (0x2705, 0x2705), (0x270A, 0x270B), (0x2728, 0x2728), (0x274C, 0x274C), (0x274E, 0x274E),
  (0x2753, 0x2755), (0x2757, 0x2757), (0x2795, 0x2797), (0x27B0, 0x27B0), (0x27BF, 0x27BF),
  (0x2B1B, 0x2B1C), (0x2B50, 0x2B50), (0x2B55, 0x2B55), (0x2E80, 0x2E99), (0x2E9B, 0x2EF3),
  (0x2F00, 0x2FD5), (0x2FF0, 0x3029), (0x3030, 0x303E), (0x3041, 0x3096), (0x309B, 0x30FF),
  (0x3105, 0x312F), (0x3131, 0x3163), (0x3165, 0x318E), (0x3190, 0x31E5), (0x31EF, 0x321E),
  (0x3220, 0x3247), (0x3250, 0xA48C), (0xA490, 0xA4C6), (0xA960, 0xA97C), (0xAC00, 0xD7A3),
  (0xF900, 0xFAFF), (0xFE10, 0xFE19), (0xFE30, 0xFE52), (0xFE54, 0xFE66), (0xFE68, 0xFE6B),
  (0xFF01, 0xFF60), (0xFFE0, 0xFFE6), (0x16FE0, 0x16FE3), (0x16FF2, 0x16FF6), (0x17000, 0x18CFD),
  (0x18CFF, 0x18D20), (0x18D80, 0x18DF2), (0x18E00, 0x191D2), (0x1AFF0, 0x1AFF3),
  (0x1AFF5, 0x1AFFB), (0x1AFFD, 0x1AFFE), (0x1B000, 0x1B128), (0x1B132, 0x1B132),
  (0x1B150, 0x1B152), (0x1B155, 0x1B155), (0x1B164, 0x1B167), (0x1B170, 0x1B2FB),
  (0x1D300, 0x1D356), (0x1D360, 0x1D376), (0x1F004, 0x1F004), (0x1F0CF, 0x1F0CF),
  (0x1F18E, 0x1F18E), (0x1F191, 0x1F19A), (0x1F1AE, 0x1F1AE), (0x1F200, 0x1F202),
  (0x1F210, 0x1F23B), (0x1F240, 0x1F248), (0x1F250, 0x1F251), (0x1F260, 0x1F265),
  (0x1F300, 0x1F320), (0x1F32D, 0x1F335), (0x1F337, 0x1F37C), (0x1F37E, 0x1F393),
  (0x1F3A0, 0x1F3CA), (0x1F3CF, 0x1F3D3), (0x1F3E0, 0x1F3F0), (0x1F3F4, 0x1F3F4),
  (0x1F3F8, 0x1F43E), (0x1F440, 0x1F440), (0x1F442, 0x1F4FC), (0x1F4FF, 0x1F53D),
  (0x1F54B, 0x1F54E), (0x1F550, 0x1F567), (0x1F57A, 0x1F57A), (0x1F595, 0x1F596),
  (0x1F5A4, 0x1F5A4), (0x1F5FB, 0x1F64F), (0x1F680, 0x1F6C5), (0x1F6CC, 0x1F6CC),
  (0x1F6D0, 0x1F6D2), (0x1F6D5, 0x1F6D9), (0x1F6DC, 0x1F6DF), (0x1F6EB, 0x1F6EC),
  (0x1F6F4, 0x1F6FC), (0x1F7DA, 0x1F7DA), (0x1F7E0, 0x1F7EB), (0x1F7F0, 0x1F7F0),
  (0x1F90C, 0x1F93A), (0x1F93C, 0x1F945), (0x1F947, 0x1F9FF), (0x1FA70, 0x1FA7C),
  (0x1FA80, 0x1FAC6), (0x1FAC8, 0x1FAC8), (0x1FACC, 0x1FADD), (0x1FADF, 0x1FAEB),
  (0x1FAEF, 0x1FAFA), (0x20000, 0x2FFFD), (0x30000, 0x3FFFD)]

/-- The characters that take no column although they do not extend the one before them: format
controls, joining vowels and trailing consonants of Hangul, and ignorable fillers. -/
def invisible : List (Nat × Nat) := [
  (0xAD, 0xAD), (0x605, 0x605), (0x61C, 0x61C), (0x70F, 0x70F), (0x890, 0x891), (0x8E2, 0x8E2),
  (0x1160, 0x11FF), (0x180E, 0x180E), (0x200B, 0x200B), (0x200D, 0x200F), (0x202A, 0x202E),
  (0x2060, 0x206F), (0x3164, 0x3164), (0xA8FA, 0xA8FA), (0xD7B0, 0xD7C6), (0xD7CB, 0xD7FB),
  (0xFEFF, 0xFEFF), (0xFFA0, 0xFFA0), (0xFFF0, 0xFFF8), (0x1BCA0, 0x1BCA3), (0x1D173, 0x1D17A),
  (0xE0000, 0xE001F), (0xE0080, 0xE00FF), (0xE01F0, 0xE0FFF)]

/-- The character takes no column. -/
def isZeroWidth (c : Char) : Bool :=
  let n := c.toNat
  n != 0x2D7F && n != 0x115F && (inRanges extending n || inRanges invisible n)

/-- The columns of one character by itself. -/
def charWidth (c : Char) : Nat :=
  let n := c.toNat
  if n ≤ 0xA0 then 1
  else if n = 0x17D8 then 3
  else if isZeroWidth c then 0
  else if inRanges wide n then 2
  else 1

/-! ### What stands behind a character -/

/-- The end of a text, as far as the character before it is drawn with it. -/
inductive Shape
  | plain
  | ligature (l : Ligature)
  | alef
  /-- The Kirat Rai vowel signs e and ai. -/
  | vowelE
  | vowelAi
  | picture
  | skinTone
  /-- A letter of a flag, and several of them. -/
  | flagLetter
  | flagLetters
  /-- A joiner before a picture. -/
  | joined
  /-- A keycap frame behind which a picture is joined. -/
  | joinedKeycap
  /-- One letter, an even and an odd number of letters of flags before a joined picture. -/
  | joinedFlagLetter
  | joinedFlags
  | joinedFlagsAndLetter
  /-- The end of a tag behind which a picture is joined, with so many letters, or so many digits,
  of the tag before it. -/
  | tag (letters : Nat)
  | tagDigits (digits : Nat)
  deriving DecidableEq, Repr

/-- A selector, which says how the character before it is drawn. -/
inductive Selector
  | text
  | picture
  /-- A quotation mark is drawn as a wide character. -/
  | wide
  deriving DecidableEq, Repr

structure Behind where
  shape : Shape
  /-- A joiner stands before a ligature. -/
  joiner : Bool
  selector? : Option Selector
  deriving DecidableEq, Repr

namespace Behind

def of (shape : Shape) : Behind := ⟨shape, false, none⟩

def plain : Behind := of .plain

def ofSelector (s : Selector) : Behind := ⟨.plain, false, some s⟩

/-- What a character by itself is for the one before it. -/
def ofChar (c : Char) : Behind :=
  match c with
  | '\uFE01' => ofSelector .wide
  | '\uFE0E' => ofSelector .text
  | '\uFE0F' => ofSelector .picture
  | _ =>
    let n := c.toNat
    if let some l := Ligature.ofChar? c then of (.ligature l)
    else if isAlef c then of .alef
    else if n == 0x16D67 then of .vowelE
    else if n == 0x16D68 then of .vowelAi
    else if isFlagLetter c then of .flagLetter
    else if isSkinTone c then of .skinTone
    else if isPicture c then of .picture
    else plain

/-- A selector that did not suit the character before it says nothing to the ones before that. -/
def dropSelector (b : Behind) : Behind :=
  match b.selector?, b.shape with
  | none, _ => b
  | some _, .ligature _ => { b with selector? := none }
  | some _, _ => plain

def select (b : Behind) (s : Selector) : Behind :=
  match s, b.shape with
  | _, .ligature _ | .picture, .joined | .picture, .joinedKeycap => { b with selector? := some s }
  | _, _ => ofSelector s

end Behind

/-! ### Columns of a character -/

/-- A character that takes no column and is not seen in an alef behind it. -/
def passesAlef (c : Char) : Bool := isZeroWidth c && !isSeparating c

/-- The columns that a character adds by itself, and what it is for the one before it. -/
def standAlone (c : Char) : Int × Behind := (charWidth c, .ofChar c)

/-- What becomes of the character `c` and the ligature behind it. -/
def besideLigature? (l : Ligature) (joiner : Bool) (c : Char) : Option (Int × Behind) :=
  if c = '\u200D' then some (0, ⟨.ligature l, true, none⟩)
  else if Ligature.isTransparent c then some (0, ⟨.ligature l, joiner, none⟩)
  else (l.join? joiner c).map fun (columns, l?) =>
    (columns, .of (match l? with
      | some l => .ligature l
      | none => .plain))

/-- The same for a joiner before a picture. -/
def besideJoined? (c : Char) : Option (Int × Shape) :=
  if c.toNat == 0x20E3 then some (0, .joinedKeycap)
  else if isFlagLetter c then some (1, .joinedFlagLetter)
  else if isSkinTone c then some (0, .skinTone)
  else if c.toNat == 0xE007F then some (0, .tag 0)
  else if isPicture c then some (0, .picture)
  else none

/-- The same for the end of a tag: the characters of the tag stand between a flag and it. -/
def besideTag? (shape : Shape) (c : Char) : Option (Int × Shape) :=
  let isLetter := 0xE0061 ≤ c.toNat && c.toNat ≤ 0xE007A
  let isDigit := 0xE0030 ≤ c.toNat && c.toNat ≤ 0xE0039
  let isFlag := c.toNat == 0x1F3F4
  match shape with
  | .tag n =>
    if isLetter && n < 6 then some (0, .tag (n + 1))
    else if isDigit && n ≤ 4 then some (0, .tagDigits 1)
    else if isFlag && 3 ≤ n then some (0, .picture)
    else none
  | .tagDigits n =>
    if isDigit && n < 3 then some (0, .tagDigits (n + 1))
    else if isFlag && n = 3 then some (0, .picture)
    else none
  | _ => none

/-- What becomes of the character `c` and the shape behind it, if they are drawn together. -/
def besideShape? (shape : Shape) (c : Char) : Option (Int × Shape) :=
  let n := c.toNat
  let join? : Option (Int × Shape) := if n == 0x200D then some (0, .joined) else none
  match shape with
  | .alef =>
    if isLam c then some (0, .plain) else if passesAlef c then some (0, .alef) else none
  | .vowelE =>
    if n == 0x16D63 || n == 0x16D69 then some (0, .plain)
    else if n == 0x16D67 then some (0, .vowelAi)
    else if n == 0x16D68 then some (1, .vowelE)
    else none
  | .vowelAi => if n == 0x16D63 then some (0, .plain) else none
  | .skinTone => if takesSkinTone c then some (0, .picture) else join?
  | .flagLetter => if isFlagLetter c then some (1, .flagLetters) else none
  | .flagLetters => if isFlagLetter c then some (1, .flagLetters) else join?
  | .picture => join?
  | .joined => besideJoined? c
  | .joinedFlagLetter => if isFlagLetter c then some (-1, .joinedFlags) else none
  | .joinedFlags => if isFlagLetter c then some (3, .joinedFlagsAndLetter) else join?
  | .joinedFlagsAndLetter => if isFlagLetter c then some (-1, .joinedFlags) else join?
  | .tag _ | .tagDigits _ => besideTag? shape c
  | .plain | .ligature _ | .joinedKeycap => none

/-- The columns that a character adds to a text that ends in this way, without a selector for it,
and what the two are for the character before them. -/
def beside (c : Char) (b : Behind) : Int × Behind :=
  let found? := match b.shape with
    | .ligature l => besideLigature? l b.joiner c
    | shape => (besideShape? shape c).map fun (columns, shape) => (columns, .of shape)
  found?.getD (standAlone c)

/-- The columns that a character adds to a text that ends in this way, and what the two are for the
character before them. -/
def columns (c : Char) (b : Behind) : Int × Behind :=
  let isQuote := ['\u2018', '\u2019', '\u201C', '\u201D'].contains c
  let isJoined := b.shape = .joined || b.shape = .joinedKeycap
  if b.selector? = some .picture && takesPicture c then
    (if isJoined then 0 else 2, .of .picture)
  else if c.toNat ≤ 0xA0 then (1, .plain)
  else if c = '\uFE0F' then (0, (dropPicture b).select .picture)
  else if c = '\uFE0E' then (0, (dropPicture b).select .text)
  else if b.selector? = some .text && takesText c then (1, .plain)
  else if b.selector? = some .wide && isQuote then (2, .plain)
  else beside c b.dropSelector
where
  /-- Without a selector for pictures. -/
  dropPicture (b : Behind) : Behind :=
    if b.selector? = some .picture then b.dropSelector else b

/-- The columns of a text. -/
def width (cs : List Char) : Nat :=
  let (total, _) := cs.foldr (fun c (total, b) =>
    let (n, b) := columns c b
    (total + n, b)) ((0 : Int), Behind.plain)
  total.toNat

end Redaction.Text
