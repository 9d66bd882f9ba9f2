import Redaction.Text.Utf8

/-!
# The bytes of a text are read back

`decode?` inverts `encode` (`decode?_encode`): the bytes of a character are read as that character,
whatever follows, one case for each number of bytes. A byte below 0x80 stands for nothing but its own
character (`toNat_eq_of_mem_utf8EncodeChar`). Bytes of any kind are read as some text, if there are
any (`decodeLossy_cons_ne_nil`).
-/

namespace Redaction.Text.Utf8

/-! ### Bytes as numbers -/

theorem toNat_byte {n : Nat} (h : n < 256) : (UInt8.ofNat n).toNat = n :=
  UInt8.toNat_ofNat_of_lt' h

theorem isTrailing_byte (n : Nat) : isTrailing (UInt8.ofNat (n % 64 + 0x80)) = true := by
  have h : (UInt8.ofNat (n % 64 + 0x80)).toNat = n % 64 + 0x80 := toNat_byte (by omega)
  simp only [isTrailing, Bool.and_eq_true, decide_eq_true_eq, UInt8.le_iff_toNat_le, h]
  exact ⟨Nat.le_add_left _ _, by show n % 64 + 0x80 ≤ 0xBF; omega⟩

theorem low_byte (n : Nat) : low (UInt8.ofNat (n % 64 + 0x80)) = n % 64 := by
  rw [low, toNat_byte (by omega)]
  omega

theorem scalar?_toNat {c : Char} {least : Nat} (h : least ≤ c.toNat) :
    scalar? least c.toNat = some c := by
  have hvalid : c.toNat.isValidChar := c.valid
  rw [scalar?, dif_pos hvalid, if_pos h]
  rfl

theorem not_lt_byte {a : UInt8} (h : 0x80 ≤ a.toNat) : ¬ a < 0x80 := by
  rw [UInt8.lt_iff_toNat_lt]
  exact Nat.not_lt.mpr h

/-- A byte that starts a sequence, between two bounds. -/
theorem between_iff {a lo hi : UInt8} :
    (lo ≤ a && a < hi) = true ↔ lo.toNat ≤ a.toNat ∧ a.toNat < hi.toNat := by
  rw [Bool.and_eq_true, decide_eq_true_eq, decide_eq_true_eq, UInt8.le_iff_toNat_le,
    UInt8.lt_iff_toNat_lt]

/-! ### Sequences of one to four bytes -/

section Sequences

variable {a b d e : UInt8} {c : Char} {rest : List UInt8}

theorem decode?_one (ha : a.toNat < 0x80) (hc : scalar? 0 a.toNat = some c) :
    decode? (a :: rest) = (decode? rest).map (c :: ·) := by
  rw [decode?.eq_def]
  dsimp only
  rw [if_pos (UInt8.lt_iff_toNat_lt.mpr ha), hc]
  cases decode? rest <;> rfl

theorem decode?_two (hb : isTrailing b = true) (ha : 0xC0 ≤ a.toNat ∧ a.toNat < 0xE0)
    (hc : scalar? 0x80 ((a.toNat - 0xC0) * 64 + low b) = some c) :
    decode? (a :: b :: rest) = (decode? rest).map (c :: ·) := by
  have htwo : (0xC0 ≤ a && a < 0xE0) = true := between_iff.mpr ha
  rw [decode?.eq_def]
  dsimp only
  rw [if_neg (not_lt_byte (by omega)), hb, htwo, hc]
  cases decode? rest <;> rfl

theorem decode?_three (hb : isTrailing b = true) (hd : isTrailing d = true)
    (ha : 0xE0 ≤ a.toNat ∧ a.toNat < 0xF0)
    (hc : scalar? 0x800 (((a.toNat - 0xE0) * 64 + low b) * 64 + low d) = some c) :
    decode? (a :: b :: d :: rest) = (decode? rest).map (c :: ·) := by
  have htwo : ¬ (0xC0 ≤ a && a < 0xE0) = true := fun h => by
    have : a.toNat < 0xE0 := (between_iff.mp h).2
    omega
  have hthree : (0xE0 ≤ a && a < 0xF0) = true := between_iff.mpr ha
  rw [decode?.eq_def]
  dsimp only
  rw [if_neg (not_lt_byte (by omega)), if_neg htwo, hb, hd, hthree, hc]
  cases decode? rest <;> rfl

theorem decode?_four (hb : isTrailing b = true) (hd : isTrailing d = true)
    (he : isTrailing e = true) (ha : 0xF0 ≤ a.toNat ∧ a.toNat < 0xF8)
    (hc : scalar? 0x10000 ((((a.toNat - 0xF0) * 64 + low b) * 64 + low d) * 64 + low e) = some c) :
    decode? (a :: b :: d :: e :: rest) = (decode? rest).map (c :: ·) := by
  have htwo : ¬ (0xC0 ≤ a && a < 0xE0) = true := fun h => by
    have : a.toNat < 0xE0 := (between_iff.mp h).2
    omega
  have hthree : ¬ (0xE0 ≤ a && a < 0xF0) = true := fun h => by
    have : a.toNat < 0xF0 := (between_iff.mp h).2
    omega
  have hfour : (0xF0 ≤ a && a < 0xF8) = true := between_iff.mpr ha
  rw [decode?.eq_def]
  dsimp only
  rw [if_neg (not_lt_byte (by omega)), if_neg htwo, if_neg hthree, hb, hd, he, hfour, hc]
  cases decode? rest <;> rfl

end Sequences

/-! ### Texts -/

/-- The bytes of a character by its code point. -/
theorem utf8EncodeChar_cases (c : Char) :
    c.toNat < 0x80 ∧ String.utf8EncodeChar c = [UInt8.ofNat c.toNat] ∨
    0x80 ≤ c.toNat ∧ c.toNat < 0x800 ∧ String.utf8EncodeChar c =
      [UInt8.ofNat (c.toNat / 64 % 32 + 192), UInt8.ofNat (c.toNat % 64 + 0x80)] ∨
    0x800 ≤ c.toNat ∧ c.toNat < 0x10000 ∧ String.utf8EncodeChar c =
      [UInt8.ofNat (c.toNat / 4096 % 16 + 224), UInt8.ofNat (c.toNat / 64 % 64 + 0x80),
        UInt8.ofNat (c.toNat % 64 + 0x80)] ∨
    0x10000 ≤ c.toNat ∧ String.utf8EncodeChar c =
      [UInt8.ofNat (c.toNat / 262144 % 8 + 240), UInt8.ofNat (c.toNat / 4096 % 64 + 0x80),
        UInt8.ofNat (c.toNat / 64 % 64 + 0x80), UInt8.ofNat (c.toNat % 64 + 0x80)] := by
  have hval : c.val.toNat = c.toNat := rfl
  simp only [String.utf8EncodeChar, hval]
  by_cases h1 : c.toNat ≤ 127
  · exact Or.inl ⟨by omega, if_pos h1⟩
  by_cases h2 : c.toNat ≤ 2047
  · rw [if_neg h1, if_pos h2]
    exact Or.inr (Or.inl ⟨by omega, by omega, rfl⟩)
  by_cases h3 : c.toNat ≤ 65535
  · rw [if_neg h1, if_neg h2, if_pos h3]
    exact Or.inr (Or.inr (Or.inl ⟨by omega, by omega, rfl⟩))
  · rw [if_neg h1, if_neg h2, if_neg h3]
    exact Or.inr (Or.inr (Or.inr ⟨by omega, rfl⟩))

/-- **The bytes of a character are read as that character.** -/
theorem decode?_utf8EncodeChar (c : Char) (rest : List UInt8) :
    decode? (String.utf8EncodeChar c ++ rest) = (decode? rest).map (c :: ·) := by
  have hmax : c.toNat < 0x110000 := by
    have h : c.toNat < 0xD800 ∨ 0xDFFF < c.toNat ∧ c.toNat < 0x110000 := c.valid
    omega
  have hscalar : ∀ {least m : Nat}, least ≤ c.toNat → m = c.toNat → scalar? least m = some c := by
    rintro least m hle rfl
    exact scalar?_toNat hle
  rcases utf8EncodeChar_cases c with ⟨hn, he⟩ | ⟨hlo, hhi, he⟩ | ⟨hlo, hhi, he⟩ | ⟨hlo, he⟩ <;>
    rw [he]
  · have ha := toNat_byte (n := c.toNat) (by omega)
    exact decode?_one (by omega) (hscalar (Nat.zero_le _) ha)
  · have ha := toNat_byte (n := c.toNat / 64 % 32 + 192) (by omega)
    refine decode?_two (isTrailing_byte _) (by omega) (hscalar hlo ?_)
    rw [ha, low_byte]
    omega
  · have ha := toNat_byte (n := c.toNat / 4096 % 16 + 224) (by omega)
    refine decode?_three (isTrailing_byte _) (isTrailing_byte _) (by omega) (hscalar hlo ?_)
    rw [ha, low_byte, low_byte]
    omega
  · have ha := toNat_byte (n := c.toNat / 262144 % 8 + 240) (by omega)
    refine decode?_four (isTrailing_byte _) (isTrailing_byte _) (isTrailing_byte _) (by omega)
      (hscalar hlo ?_)
    rw [ha, low_byte, low_byte, low_byte]
    omega

/-- **The bytes of a text are read as that text.** -/
theorem decode?_encode (cs : List Char) : decode? (encode cs) = some cs := by
  induction cs with
  | nil => rfl
  | cons c cs ih =>
    rw [encode, List.flatMap_cons, decode?_utf8EncodeChar]
    exact congrArg (Option.map (c :: ·)) ih

/-- A byte below 0x80 stands for nothing but its own character. -/
theorem toNat_eq_of_mem_utf8EncodeChar {c : Char} {b : UInt8} (h : b ∈ String.utf8EncodeChar c)
    (hb : b.toNat < 0x80) : c.toNat = b.toNat := by
  have hhigh : ∀ m, 0x80 ≤ m → m < 256 → b ≠ UInt8.ofNat m := by
    rintro m hm hlt rfl
    rw [toNat_byte hlt] at hb
    omega
  rcases utf8EncodeChar_cases c with ⟨hn, he⟩ | ⟨-, -, he⟩ | ⟨-, -, he⟩ | ⟨-, he⟩ <;>
    simp only [he, List.mem_cons, List.not_mem_nil, or_false] at h
  · rw [h, toNat_byte (by omega)]
  -- every byte of a longer sequence is high
  · rcases h with h | h <;> exact absurd h (hhigh _ (by omega) (by omega))
  · rcases h with h | h | h <;> exact absurd h (hhigh _ (by omega) (by omega))
  · rcases h with h | h | h | h <;> exact absurd h (hhigh _ (by omega) (by omega))

/-! ### Bytes are never read as no text -/

theorem decodeLossy_cons_ne_nil (b : UInt8) (bs : List UInt8) : decodeLossy (b :: bs) ≠ [] := by
  rw [decodeLossy]
  exact List.cons_ne_nil _ _

end Redaction.Text.Utf8
