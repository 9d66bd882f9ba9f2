import Redaction.Proofs.Text.Lossy
import Redaction.Text.Form

/-!
# The written form of a text is read back

Reading turns `+` into spaces before it reads escapes. In a written form every `+` stands for a
space and every `%` begins an escape, so character by character the bytes of the text come out
(`unescape_encodeChar`), and these are read as the text (`decode_encode`). A written form holds no
separator of a query string (`ne_of_mem_encode`). Whatever stands in a query string, written or
not, is read as something (`decode_eq_nil_iff`).

Of any text, the escapes are those of its bytes (`percentDecodes_unescape`), and the bytes that come
out are read lossily, whether or not they are those of a text (`decode_lossy`).
-/

namespace Redaction.Text.Form

/-! ### Escapes -/

/-- What a character of a written form stands for before escapes are read. -/
def spaced (c : Char) : Char := if c = '+' then ' ' else c

theorem hexDigit_ne {n : Nat} (h : n < 16) :
    hexDigit n ≠ '+' ∧ hexDigit n ≠ '&' ∧ hexDigit n ≠ '=' := by
  revert n
  decide

theorem unescape_cons {c : Char} (h : c ≠ '%') (rest : List Char) :
    unescape (c :: rest) = String.utf8EncodeChar c ++ unescape rest := by
  rw [unescape]
  exact fun _ _ _ hc _ => h hc

theorem unescape_escape (b : UInt8) (rest : List Char) :
    unescape ((escape b).map spaced ++ rest) = b :: unescape rest := by
  have hbyte : b.toNat < 256 := b.toNat_lt
  have hhigh : b.toNat / 16 < 16 := by omega
  have hlow : b.toNat % 16 < 16 := by omega
  have hspaced : (escape b).map spaced = escape b := by
    simp only [escape, List.map_cons, List.map_nil, spaced, if_neg (hexDigit_ne hhigh).1,
      if_neg (hexDigit_ne hlow).1]
    rfl
  have hvalue : b.toNat / 16 * 16 + b.toNat % 16 = b.toNat := by omega
  rw [hspaced, escape, List.cons_append, List.cons_append, List.singleton_append, unescape,
    hexValue?_hexDigit hhigh, hexValue?_hexDigit hlow]
  dsimp only
  rw [hvalue, UInt8.ofNat_toNat]

theorem unescape_flatMap_escape (bs : List UInt8) (rest : List Char) :
    unescape ((bs.flatMap escape).map spaced ++ rest) = bs ++ unescape rest := by
  induction bs with
  | nil => rfl
  | cons b bs ih =>
    rw [List.flatMap_cons, List.map_append, List.append_assoc, unescape_escape, ih,
      List.cons_append]

/-! ### Characters -/

theorem isUnreserved_ne {c : Char} (h : isUnreserved c = true) :
    c ≠ '+' ∧ c ≠ '%' ∧ c ≠ '&' ∧ c ≠ '=' := by
  refine ⟨?_, ?_, ?_, ?_⟩ <;> rintro rfl <;> revert h <;> decide

/-- The written form of a character stands for its bytes. -/
theorem unescape_encodeChar (c : Char) (rest : List Char) :
    unescape ((encodeChar c).map spaced ++ rest) = String.utf8EncodeChar c ++ unescape rest := by
  unfold encodeChar
  split
  · next h =>
    obtain ⟨hplus, hpercent, -, -⟩ := isUnreserved_ne h
    have hspaced : spaced c = c := if_neg hplus
    rw [List.map_singleton, hspaced, List.singleton_append, unescape_cons hpercent]
  · split
    · next h =>
      rw [h, List.map_singleton]
      exact unescape_cons (by decide) rest
    · exact unescape_flatMap_escape _ rest

theorem unescape_encode (cs : List Char) :
    unescape ((encode cs).map spaced) = Utf8.encode cs := by
  induction cs with
  | nil => rfl
  | cons c cs ih =>
    rw [encode, List.flatMap_cons, List.map_append, unescape_encodeChar, Utf8.encode,
      List.flatMap_cons]
    exact congrArg _ ih

/-! ### Texts -/

/-- **The written form of a text is read as that text.** -/
theorem decode_encode (cs : List Char) : decode (encode cs) = cs := by
  show (Utf8.decode? (unescape ((encode cs).map spaced))).getD _ = cs
  rw [unescape_encode, Utf8.decode?_encode, Option.getD_some]

theorem unescape_cons_ne_nil (c : Char) (cs : List Char) : unescape (c :: cs) ≠ [] := by
  have hchar : ∀ (d : Char) (bs : List UInt8), String.utf8EncodeChar d ++ bs ≠ [] := by
    intro d bs
    exact List.append_ne_nil_of_left_ne_nil String.utf8EncodeChar_ne_nil bs
  unfold unescape
  split
  · split
    · exact List.cons_ne_nil _ _
    · exact hchar _ _
  · next heq =>
    obtain ⟨rfl, rfl⟩ := List.cons.inj heq
    exact hchar _ _
  · next heq => cases heq

/-- Whether strict reading succeeds makes no difference. -/
theorem decode_eq_decodeLossy (raw : List Char) :
    decode raw = Utf8.decodeLossy (unescape (raw.map spaced)) := by
  show (Utf8.decode? (unescape (raw.map spaced))).getD _ = _
  cases h : Utf8.decode? (unescape (raw.map spaced)) with
  | none => rfl
  | some text => exact (Utf8.decodeLossy_of_decode? h).symm

/-- **Only nothing is read as nothing.** -/
theorem decode_eq_nil_iff (cs : List Char) : decode cs = [] ↔ cs = [] := by
  constructor
  · intro h
    cases cs with
    | nil => rfl
    | cons c cs =>
      obtain ⟨b, bs, hbs⟩ :=
        List.exists_cons_of_ne_nil (unescape_cons_ne_nil (spaced c) (cs.map spaced))
      rw [decode_eq_decodeLossy, List.map_cons, hbs] at h
      exact absurd h (Utf8.decodeLossy_cons_ne_nil b bs)
  · rintro rfl
    rfl

theorem isUnreserved_hexDigit {n : Nat} (h : n < 16) : isUnreserved (hexDigit n) = true := by
  revert n
  decide

/-- What a written form is made of. -/
theorem mem_encode {cs : List Char} {c : Char} (h : c ∈ encode cs) :
    isUnreserved c = true ∨ c = '+' ∨ c = '%' := by
  obtain ⟨d, -, hc⟩ := List.mem_flatMap.mp h
  unfold encodeChar at hc
  split at hc
  · next hd =>
    rw [List.mem_singleton.mp hc]
    exact Or.inl hd
  · split at hc
    · exact Or.inr (Or.inl (List.mem_singleton.mp hc))
    · obtain ⟨b, -, hb⟩ := List.mem_flatMap.mp hc
      have hbyte : b.toNat < 256 := b.toNat_lt
      simp only [escape, List.mem_cons, List.not_mem_nil, or_false] at hb
      rcases hb with rfl | rfl | rfl
      · exact Or.inr (Or.inr rfl)
      · exact Or.inl (isUnreserved_hexDigit (by omega))
      · exact Or.inl (isUnreserved_hexDigit (by omega))

/-- A written form holds no separator. -/
theorem ne_of_mem_encode {cs : List Char} {c : Char} (h : c ∈ encode cs) : c ≠ '&' ∧ c ≠ '=' := by
  have hc := mem_encode h
  constructor <;> rintro rfl <;> revert hc <;> decide

theorem ne_space_of_mem_encode {cs : List Char} {c : Char} (h : c ∈ encode cs) : c ≠ ' ' := by
  have hc := mem_encode h
  rintro rfl
  revert hc
  decide

/-! ### Escapes among bytes -/

/-- The value of the hexadecimal digit that a byte is. -/
def hexByte? (b : UInt8) : Option Nat := hexValue? (Char.ofNat b.toNat)

/-- Two hexadecimal digits stand first. -/
def StartsWithHex (bs : List UInt8) : Prop :=
  ∃ a b rest, bs = a :: b :: rest ∧ (hexByte? a).isSome ∧ (hexByte? b).isSome

/-- **Percent decoding of bytes**: every `%` with two hexadecimal digits becomes their byte, and any
other byte stays. -/
inductive PercentDecodes : List UInt8 → List UInt8 → Prop
  | nil : PercentDecodes [] []
  | escape {a b : UInt8} {x y : Nat} {rest out : List UInt8} (ha : hexByte? a = some x)
      (hb : hexByte? b = some y) (h : PercentDecodes rest out) :
      PercentDecodes (0x25 :: a :: b :: rest) (UInt8.ofNat (x * 16 + y) :: out)
  | other {b : UInt8} {rest out : List UInt8} (hb : b = 0x25 → ¬ StartsWithHex rest)
      (h : PercentDecodes rest out) : PercentDecodes (b :: rest) (b :: out)

theorem PercentDecodes.unique {bs out out' : List UInt8} (h : PercentDecodes bs out)
    (h' : PercentDecodes bs out') : out = out' := by
  have hstart : ∀ {a b : UInt8} {x y : Nat} {rest : List UInt8}, hexByte? a = some x →
      hexByte? b = some y → StartsWithHex (a :: b :: rest) :=
    fun ha hb => ⟨_, _, _, rfl, Option.isSome_of_eq_some ha, Option.isSome_of_eq_some hb⟩
  induction h generalizing out' with
  | nil =>
    cases h'
    rfl
  | escape ha hb _ ih =>
    cases h' with
    | escape ha' hb' h' =>
      rw [ha] at ha'
      rw [hb] at hb'
      cases ha'
      cases hb'
      rw [ih h']
    | other hno _ => exact absurd (hstart ha hb) (hno rfl)
  | other hno _ ih =>
    cases h' with
    | escape ha hb _ => exact absurd (hstart ha hb) (hno rfl)
    | other _ h' => rw [ih h']

theorem hexValue?_lt {c : Char} {x : Nat} (h : hexValue? c = some x) : c.toNat < 0x80 := by
  have hle : ∀ {d : Char}, c ≤ d → c.toNat ≤ d.toNat := fun h => h
  unfold hexValue? at h
  split at h
  · next hc => exact Nat.lt_of_le_of_lt (hle hc.2) (by decide)
  · split at h
    · next hc => exact Nat.lt_of_le_of_lt (hle hc.2) (by decide)
    · split at h
      · next hc => exact Nat.lt_of_le_of_lt (hle hc.2) (by decide)
      · cases h

/-- A digit is one byte. -/
theorem exists_byte_of_hexValue? {c : Char} {x : Nat} (h : hexValue? c = some x) :
    ∃ b, String.utf8EncodeChar c = [b] ∧ hexByte? b = some x := by
  have hc : (UInt8.ofNat c.toNat).toNat = c.toNat :=
    Utf8.toNat_byte (Nat.lt_trans (hexValue?_lt h) (by decide))
  refine ⟨UInt8.ofNat c.toNat, Utf8.utf8EncodeChar_one hc.symm (hc.symm ▸ hexValue?_lt h), ?_⟩
  rw [hexByte?, hc, Char.ofNat_toNat, h]

/-- A byte that is a digit stands for it. -/
theorem exists_char_of_hexByte? {b : UInt8} {bs : List UInt8} {cs : List Char} {x : Nat}
    (hb : hexByte? b = some x) (h : Utf8.encode cs = b :: bs) :
    ∃ c ds, cs = c :: ds ∧ hexValue? c = some x ∧ Utf8.encode ds = bs := by
  have hvalid : b.toNat.isValidChar := Or.inl (Nat.lt_trans b.toNat_lt (by decide))
  have hsame : (Char.ofNat b.toNat).toNat = b.toNat := by
    rw [Char.ofNat, dif_pos hvalid]
    rfl
  have hlt : b.toNat < 0x80 := hsame ▸ hexValue?_lt hb
  cases cs with
  | nil => cases h
  | cons c ds =>
    cases hbytes : String.utf8EncodeChar c with
    | nil => exact absurd hbytes String.utf8EncodeChar_ne_nil
    | cons b' tail =>
      rw [Utf8.encode, List.flatMap_cons, hbytes, List.cons_append] at h
      obtain ⟨rfl, rfl⟩ := List.cons.inj h
      have hc : c.toNat = b'.toNat :=
        Utf8.toNat_eq_of_mem_utf8EncodeChar (hbytes ▸ List.mem_cons_self) hlt
      rw [Utf8.utf8EncodeChar_one hc hlt] at hbytes
      cases hbytes
      refine ⟨c, ds, rfl, ?_, rfl⟩
      rw [hexByte?, ← hc, Char.ofNat_toNat] at hb
      exact hb

/-- Bytes of a text that start with two digits are those of a text that does. -/
theorem digits_of_startsWithHex {cs : List Char} (h : StartsWithHex (Utf8.encode cs)) :
    ∃ a b rest x y, cs = a :: b :: rest ∧ hexValue? a = some x ∧ hexValue? b = some y := by
  obtain ⟨a, b, rest, hcs, ha, hb⟩ := h
  obtain ⟨x, hx⟩ := Option.isSome_iff_exists.mp ha
  obtain ⟨y, hy⟩ := Option.isSome_iff_exists.mp hb
  obtain ⟨c, ds, rfl, hc, hds⟩ := exists_char_of_hexByte? hx hcs
  obtain ⟨d, es, rfl, hd, -⟩ := exists_char_of_hexByte? hy hds
  exact ⟨c, d, es, x, y, rfl, hc, hd⟩

/-- Bytes other than `%` stay. -/
theorem PercentDecodes.append {bs rest out : List UInt8} (hbs : ∀ b ∈ bs, b ≠ 0x25)
    (h : PercentDecodes rest out) : PercentDecodes (bs ++ rest) (bs ++ out) := by
  induction bs with
  | nil => exact h
  | cons b bs ih =>
    obtain ⟨hb, hbs⟩ := List.forall_mem_cons.mp hbs
    exact .other (fun heq => absurd heq hb) (ih hbs)

/-- **The escapes of a text are those of its bytes.** -/
theorem percentDecodes_unescape (cs : List Char) :
    PercentDecodes (Utf8.encode cs) (unescape cs) := by
  fun_induction unescape cs with
  | case1 a b rest x y hb ha ih =>
    obtain ⟨a', ha', hx⟩ := exists_byte_of_hexValue? ha
    obtain ⟨b', hb', hy⟩ := exists_byte_of_hexValue? hb
    have hbytes : Utf8.encode ('%' :: a :: b :: rest) = 0x25 :: a' :: b' :: Utf8.encode rest := by
      have hpercent : String.utf8EncodeChar '%' = [0x25] := by decide
      simp only [Utf8.encode, List.flatMap_cons, hpercent, ha', hb', List.singleton_append]
    rw [hbytes]
    exact .escape hx hy ih
  | case2 a b rest hno ih =>
    refine .other (fun _ hstart => ?_) ih
    obtain ⟨_, _, _, x, y, heq, hx, hy⟩ := digits_of_startsWithHex hstart
    cases heq
    exact hno x y hx hy
  | case3 c rest hno ih =>
    by_cases hc : c = '%'
    · rw [hc]
      refine .other (fun _ hstart => ?_) ih
      obtain ⟨a, b, tail, _, _, heq, _, _⟩ := digits_of_startsWithHex hstart
      exact hno a b tail hc heq
    · refine PercentDecodes.append (fun b hb heq => hc ?_) ih
      rw [heq] at hb
      have hpercent : c.toNat = 0x25 := Utf8.toNat_eq_of_mem_utf8EncodeChar hb (by decide)
      exact Char.toNat_inj.mp hpercent
  | case4 => exact .nil

/-! ### The two readings agree -/

/-- **A written form is read lossily.** Its text is the lossy reading of the bytes that it stands
for, with `+` for a space; strict reading, which takes the bytes of texts only, gives the same where
it succeeds; and only nothing is read as nothing. -/
theorem decode_lossy (raw : List Char) :
    (∀ text, (∃ bytes, PercentDecodes (Utf8.encode (raw.map spaced)) bytes ∧
        Utf8.ReadsLossily bytes text) ↔ text = decode raw) ∧
      (∀ bytes, PercentDecodes (Utf8.encode (raw.map spaced)) bytes →
        (∀ text, Utf8.decode? bytes = some text ↔ Utf8.encode text = bytes) ∧
        (∀ text, Utf8.decode? bytes = some text → text = decode raw) ∧
        Utf8.decodeLossy bytes = decode raw) ∧
      (decode raw = [] ↔ raw = []) := by
  have hbytes : ∀ bytes, PercentDecodes (Utf8.encode (raw.map spaced)) bytes →
      bytes = unescape (raw.map spaced) :=
    fun bytes h => h.unique (percentDecodes_unescape _)
  have hlossy := decode_eq_decodeLossy raw
  refine ⟨fun text => ⟨?_, ?_⟩, fun bytes h => ?_, decode_eq_nil_iff raw⟩
  · rintro ⟨bytes, h, hread⟩
    rw [hbytes bytes h] at hread
    exact (Utf8.readsLossily_iff.mp hread).trans hlossy.symm
  · rintro rfl
    exact ⟨_, percentDecodes_unescape _, Utf8.readsLossily_iff.mpr hlossy⟩
  · cases hbytes bytes h
    refine ⟨fun text => Utf8.decode?_eq_some_iff, fun text hread => ?_, hlossy.symm⟩
    rw [hlossy, Utf8.decodeLossy_of_decode? hread]

/-- A character that breaks off, a `%` before no digits, and an escape in small letters. -/
theorem decode_lossy_broken :
    let raw := "a%E2%9C+%ZZ%c3%a9%".toList
    let text := "a\uFFFD %ZZé%".toList
    decode raw = text ∧ ∃ bytes, PercentDecodes (Utf8.encode (raw.map spaced)) bytes ∧
      Utf8.ReadsLossily bytes text := by
  have htext : decode "a%E2%9C+%ZZ%c3%a9%".toList = "a\uFFFD %ZZé%".toList := by
    decide +kernel
  exact ⟨htext, ((decode_lossy _).1 _).mpr htext.symm⟩

end Redaction.Text.Form
