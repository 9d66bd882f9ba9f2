import Redaction.Text.Hex
import Redaction.Text.Utf8

/-!
# Form encoding

Names and values of a query string. Writing keeps ASCII letters, digits and `-_.~`, writes a space
as `+` and every other byte as `%` and two upper-case hexadecimal digits. Reading turns `+` into a
space, then every `%` with two hexadecimal digits into a byte; any other `%` stands for itself.
-/

namespace Redaction.Text.Form

/-! ### Writing -/

/-- A character that stands for itself. -/
def isUnreserved (c : Char) : Bool :=
  c.isAlphanum || c = '-' || c = '_' || c = '.' || c = '~'

/-- A byte as `%` and two digits. -/
def escape (b : UInt8) : List Char :=
  ['%', hexDigit (b.toNat / 16), hexDigit (b.toNat % 16)]

/-- The written form of one character. -/
def encodeChar (c : Char) : List Char :=
  if isUnreserved c then [c]
  else if c = ' ' then ['+']
  else (String.utf8EncodeChar c).flatMap escape

/-- The written form of a text. -/
def encode (cs : List Char) : List Char := cs.flatMap encodeChar

/-! ### Reading -/

/-- The bytes that a text stands for, with every well-formed escape replaced by its byte. -/
def unescape : List Char → List UInt8
  | '%' :: a :: b :: rest =>
    match hexValue? a, hexValue? b with
    | some x, some y => UInt8.ofNat (x * 16 + y) :: unescape rest
    | _, _ => String.utf8EncodeChar '%' ++ unescape (a :: b :: rest)
  | c :: rest => String.utf8EncodeChar c ++ unescape rest
  | [] => []

/-- The text that a written form stands for. Bytes that are no text are read with U+FFFD in the
places that go wrong. -/
def decode (cs : List Char) : List Char :=
  let bytes := unescape (cs.map fun c => if c = '+' then ' ' else c)
  (Utf8.decode? bytes).getD (Utf8.decodeLossy bytes)

end Redaction.Text.Form
