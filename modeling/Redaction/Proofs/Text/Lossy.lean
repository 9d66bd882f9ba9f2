import Mathlib.Tactic.SplitIfs
import Redaction.Proofs.Text.Utf8

/-!
# Reading bytes that may be no text

`ReadsLossily` says what the lossy reading of a byte sequence is without an algorithm: where a
character stands it is read, and where none stands one U+FFFD stands for the maximal invalid prefix,
the longest that some character begins with, or else one byte (`Fault`). `decodeLossy` gives exactly
that (`readsLossily_iff`). The bytes that `shape?` and `isTrailing` let through are those of
characters (`sequence_of_char`, `char_of_sequence`), so `first` finds a character whenever there is
one (`first_char`, `char_of_first`), and otherwise stops at the end of a fault (`fault_of_first`).

Strict reading takes the bytes of a text and no others (`decode?_eq_some_iff`), and there the two
readings agree (`decodeLossy_of_decode?`).
-/

namespace Redaction.Text.Utf8

/-! ### The bytes of characters -/

theorem isTrailing_iff {b : UInt8} : isTrailing b = true ↔ 0x80 ≤ b.toNat ∧ b.toNat ≤ 0xBF := by
  rw [isTrailing, Bool.and_eq_true, decide_eq_true_eq, decide_eq_true_eq, UInt8.le_iff_toNat_le,
    UInt8.le_iff_toNat_le]
  rfl

theorem ofNat_eq_byte {x : UInt8} {n : Nat} (h : n = x.toNat) : UInt8.ofNat n = x := by
  rw [h, UInt8.ofNat_toNat]

section Sequences

variable {a b d e : UInt8} {c : Char}

theorem utf8EncodeChar_one (h : c.toNat = a.toNat) (ha : a.toNat < 0x80) :
    String.utf8EncodeChar c = [a] := by
  rcases utf8EncodeChar_cases c with ⟨_, hc⟩ | ⟨_, _, _⟩ | ⟨_, _, _⟩ | ⟨_, _⟩
  case inl => rw [hc, ofNat_eq_byte h]
  all_goals omega

theorem utf8EncodeChar_two (hb : isTrailing b = true) (ha : 0xC0 ≤ a.toNat ∧ a.toNat < 0xE0)
    (h : c.toNat = (a.toNat - 0xC0) * 64 + low b) (hc : 0x80 ≤ c.toNat) :
    String.utf8EncodeChar c = [a, b] := by
  rw [isTrailing_iff] at hb
  rw [low] at h
  rcases utf8EncodeChar_cases c with ⟨_, _⟩ | ⟨_, _, he⟩ | ⟨_, _, _⟩ | ⟨_, _⟩
  case inr.inl =>
    rw [he, ofNat_eq_byte (x := a) (by omega), ofNat_eq_byte (x := b) (by omega)]
  all_goals omega

theorem utf8EncodeChar_three (hb : isTrailing b = true) (hd : isTrailing d = true)
    (ha : 0xE0 ≤ a.toNat ∧ a.toNat < 0xF0)
    (h : c.toNat = ((a.toNat - 0xE0) * 64 + low b) * 64 + low d) (hc : 0x800 ≤ c.toNat) :
    String.utf8EncodeChar c = [a, b, d] := by
  rw [isTrailing_iff] at hb hd
  rw [low, low] at h
  rcases utf8EncodeChar_cases c with ⟨_, _⟩ | ⟨_, _, _⟩ | ⟨_, _, he⟩ | ⟨_, _⟩
  case inr.inr.inl =>
    rw [he, ofNat_eq_byte (x := a) (by omega), ofNat_eq_byte (x := b) (by omega),
      ofNat_eq_byte (x := d) (by omega)]
  all_goals omega

theorem utf8EncodeChar_four (hb : isTrailing b = true) (hd : isTrailing d = true)
    (he : isTrailing e = true) (ha : 0xF0 ≤ a.toNat ∧ a.toNat < 0xF8)
    (h : c.toNat = (((a.toNat - 0xF0) * 64 + low b) * 64 + low d) * 64 + low e)
    (hc : 0x10000 ≤ c.toNat) : String.utf8EncodeChar c = [a, b, d, e] := by
  rw [isTrailing_iff] at hb hd he
  rw [low, low, low] at h
  rcases utf8EncodeChar_cases c with ⟨_, _⟩ | ⟨_, _, _⟩ | ⟨_, _, _⟩ | ⟨_, hs⟩
  case inr.inr.inr =>
    rw [hs, ofNat_eq_byte (x := a) (by omega), ofNat_eq_byte (x := b) (by omega),
      ofNat_eq_byte (x := d) (by omega), ofNat_eq_byte (x := e) (by omega)]
  all_goals omega

end Sequences

/-! ### Strict reading takes texts only -/

theorem scalar?_eq_some {least n : Nat} {c : Char} (h : scalar? least n = some c) :
    c.toNat = n ∧ least ≤ n := by
  by_cases hvalid : n.isValidChar
  · rw [scalar?, dif_pos hvalid] at h
    by_cases hle : least ≤ n
    · rw [if_pos hle] at h
      cases h
      exact ⟨rfl, hle⟩
    · rw [if_neg hle] at h
      cases h
  · rw [scalar?, dif_neg hvalid] at h
    cases h

/-- What is read before the rest stands before it in the text. -/
theorem encode_of_bind {least n : Nat} {head rest : List UInt8} {cs : List Char}
    (ih : ∀ {ds : List Char}, decode? rest = some ds → encode ds = rest)
    (hc : ∀ c : Char, c.toNat = n → least ≤ c.toNat → String.utf8EncodeChar c = head)
    (h : ((scalar? least n).bind fun c => (decode? rest).bind fun ds => some (c :: ds)) = some cs) :
    encode cs = head ++ rest := by
  obtain ⟨c, hscalar, h⟩ := Option.bind_eq_some_iff.mp h
  obtain ⟨ds, hds, h⟩ := Option.bind_eq_some_iff.mp h
  cases h
  obtain ⟨hn, hle⟩ := scalar?_eq_some hscalar
  rw [encode, List.flatMap_cons, hc c hn (hn ▸ hle)]
  exact congrArg (head ++ ·) (ih hds)

theorem encode_of_decode? {bs : List UInt8} {cs : List Char} (h : decode? bs = some cs) :
    encode cs = bs := by
  have htrue : ∀ {b : UInt8}, ¬ (!isTrailing b) = true → isTrailing b = true := by simp
  -- one case for each number of bytes; in the others nothing is read
  fun_induction decode? bs generalizing cs with
  | case1 =>
    cases h
    rfl
  | case2 a rest ha ih =>
    exact encode_of_bind ih (fun c hc _ => utf8EncodeChar_one hc (UInt8.lt_iff_toNat_lt.mp ha)) h
  | case5 a _ b rest hb ha ih =>
    exact encode_of_bind ih
      (fun c hc hle => utf8EncodeChar_two (htrue hb) (between_iff.mp ha) hc hle) h
  | case8 a _ b hb _ d rest hd ha ih =>
    exact encode_of_bind ih
      (fun c hc hle => utf8EncodeChar_three (htrue hb) (htrue hd) (between_iff.mp ha) hc hle) h
  | case11 a _ b hb _ d hd _ e rest he ha ih =>
    exact encode_of_bind ih (fun c hc hle =>
      utf8EncodeChar_four (htrue hb) (htrue hd) (htrue he) (between_iff.mp ha) hc hle) h
  | _ => cases h

/-- **Strict reading takes the bytes of a text and no others.** -/
theorem decode?_eq_some_iff {bs : List UInt8} {cs : List Char} :
    decode? bs = some cs ↔ encode cs = bs := by
  constructor
  · exact encode_of_decode?
  · rintro rfl
    exact decode?_encode cs

/-! ### Sequences that go together -/

/-- The bytes start a sequence in which `count` bytes come after them. -/
def Opens (a b : UInt8) (count : Nat) : Prop :=
  ∃ lo hi, shape? a = some (lo, hi, count) ∧ lo ≤ b ∧ b ≤ hi

theorem exists_shape_iff {lo' hi' b : UInt8} {n count : Nat} :
    (∃ lo hi, some (lo', hi', n) = some (lo, hi, count) ∧ lo.toNat ≤ b.toNat ∧
      b.toNat ≤ hi.toNat) ↔ n = count ∧ lo'.toNat ≤ b.toNat ∧ b.toNat ≤ hi'.toNat := by
  constructor
  · rintro ⟨lo, hi, h, hb⟩
    cases h
    exact ⟨rfl, hb⟩
  · rintro ⟨rfl, hb⟩
    exact ⟨lo', hi', rfl, hb⟩

theorem opens_iff {a b : UInt8} {count : Nat} : Opens a b count ↔ isTrailing b = true ∧
    (count = 0 ∧ 0xC2 ≤ a.toNat ∧ a.toNat ≤ 0xDF ∨
      count = 1 ∧ 0xE0 ≤ a.toNat ∧ a.toNat ≤ 0xEF ∧ (a.toNat = 0xE0 → 0xA0 ≤ b.toNat) ∧
        (a.toNat = 0xED → b.toNat ≤ 0x9F) ∨
      count = 2 ∧ 0xF0 ≤ a.toNat ∧ a.toNat ≤ 0xF4 ∧ (a.toNat = 0xF0 → 0x90 ≤ b.toNat) ∧
        (a.toNat = 0xF4 → b.toNat ≤ 0x8F)) := by
  simp only [Opens, shape?, isTrailing_iff, Bool.and_eq_true, decide_eq_true_eq, beq_iff_eq,
    UInt8.le_iff_toNat_le, ← UInt8.toNat_inj]
  split_ifs <;> simp only [exists_shape_iff, UInt8.reduceToNat, false_and, exists_false,
    false_iff] at * <;> omega

theorem Opens.count_eq {a b b' : UInt8} {count count' : Nat} (h : Opens a b count)
    (h' : Opens a b' count') : count = count' := by
  obtain ⟨lo, hi, hs, -⟩ := h
  obtain ⟨lo', hi', hs', -⟩ := h'
  rw [hs] at hs'
  cases hs'
  rfl

/-- The code point of a sequence of at least two bytes. -/
def value (a b : UInt8) (cs : List UInt8) : Nat :=
  cs.foldl (fun v d => v * 64 + low d) (leading a * 64 + low b)

theorem leading_eq (a : UInt8) : leading a =
    if a.toNat < 0xE0 then a.toNat % 32 else if a.toNat < 0xF0 then a.toNat % 16
    else a.toNat % 8 := by
  simp only [leading, UInt8.lt_iff_toNat_lt, UInt8.reduceToNat]

theorem value_two {a b : UInt8} (h : 0xC0 ≤ a.toNat ∧ a.toNat < 0xE0) :
    value a b [] = (a.toNat - 0xC0) * 64 + low b := by
  have ha : leading a = a.toNat - 0xC0 := by
    rw [leading_eq, if_pos h.2]
    omega
  rw [value, List.foldl_nil, ha]

theorem value_three {a b d : UInt8} (h : 0xE0 ≤ a.toNat ∧ a.toNat < 0xF0) :
    value a b [d] = ((a.toNat - 0xE0) * 64 + low b) * 64 + low d := by
  have ha : leading a = a.toNat - 0xE0 := by
    rw [leading_eq, if_neg (Nat.not_lt.mpr h.1), if_pos h.2]
    omega
  rw [value, List.foldl_cons, List.foldl_nil, ha]

theorem value_four {a b d e : UInt8} (h : 0xF0 ≤ a.toNat ∧ a.toNat < 0xF8) :
    value a b [d, e] = (((a.toNat - 0xF0) * 64 + low b) * 64 + low d) * 64 + low e := by
  have ha : leading a = a.toNat - 0xF0 := by
    rw [leading_eq, if_neg (by omega), if_neg (Nat.not_lt.mpr h.1)]
    omega
  rw [value, List.foldl_cons, List.foldl_cons, List.foldl_nil, ha]

/-- The bytes of a character go together. -/
theorem sequence_of_char {c : Char} {a : UInt8} {bs : List UInt8}
    (h : String.utf8EncodeChar c = a :: bs) : a.toNat < 0x80 ∧ bs = [] ∧ a.toNat = c.toNat ∨
      ∃ b cs, bs = b :: cs ∧ Opens a b cs.length ∧ (∀ d ∈ cs, isTrailing d = true) ∧
        value a b cs = c.toNat := by
  have hvalid : c.toNat < 0xD800 ∨ 0xDFFF < c.toNat ∧ c.toNat < 0x110000 := c.valid
  rcases utf8EncodeChar_cases c with ⟨hn, he⟩ | ⟨hlo, hhi, he⟩ | ⟨hlo, hhi, he⟩ | ⟨hlo, he⟩ <;>
    rw [he] at h <;> obtain ⟨rfl, rfl⟩ := List.cons.inj h
  · have ha : (UInt8.ofNat c.toNat).toNat = c.toNat := toNat_byte (by omega)
    exact Or.inl ⟨by omega, rfl, ha⟩
  · have ha := toNat_byte (n := c.toNat / 64 % 32 + 192) (by omega)
    refine Or.inr ⟨_, [], rfl, opens_iff.mpr ⟨isTrailing_byte _, ?_⟩,
      List.forall_mem_nil _, ?_⟩
    · exact Or.inl ⟨rfl, by omega, by omega⟩
    · rw [value_two (by omega), ha, low_byte]
      omega
  · have ha := toNat_byte (n := c.toNat / 4096 % 16 + 224) (by omega)
    have hb := toNat_byte (n := c.toNat / 64 % 64 + 0x80) (by omega)
    refine Or.inr ⟨_, [_], rfl, opens_iff.mpr ⟨isTrailing_byte _, ?_⟩,
      List.forall_mem_singleton.mpr (isTrailing_byte _), ?_⟩
    · exact Or.inr (Or.inl ⟨rfl, by omega, by omega, by omega, by omega⟩)
    · rw [value_three (by omega), ha, low_byte, low_byte]
      omega
  · have ha := toNat_byte (n := c.toNat / 262144 % 8 + 240) (by omega)
    have hb := toNat_byte (n := c.toNat / 4096 % 64 + 0x80) (by omega)
    refine Or.inr ⟨_, [_, _], rfl, opens_iff.mpr ⟨isTrailing_byte _, ?_⟩,
      List.forall_mem_cons.mpr ⟨isTrailing_byte _,
        List.forall_mem_singleton.mpr (isTrailing_byte _)⟩, ?_⟩
    · exact Or.inr (Or.inr ⟨rfl, by omega, by omega, by omega, by omega⟩)
    · rw [value_four (by omega), ha, low_byte, low_byte, low_byte]
      omega

theorem exists_char {n : Nat} (h : n < 0xD800 ∨ 0xDFFF < n ∧ n < 0x110000) :
    ∃ c : Char, c.toNat = n :=
  ⟨Char.ofNatAux n h, rfl⟩

/-- Bytes that go together are those of a character. -/
theorem char_of_sequence {a b : UInt8} {cs : List UInt8} (ho : Opens a b cs.length)
    (ht : ∀ d ∈ cs, isTrailing d = true) :
    ∃ c, c.toNat = value a b cs ∧ String.utf8EncodeChar c = a :: b :: cs := by
  obtain ⟨hb, ha⟩ := opens_iff.mp ho
  have hb' := isTrailing_iff.mp hb
  rcases cs with _ | ⟨d, _ | ⟨e, _ | ⟨_, _⟩⟩⟩
  · -- two bytes
    simp only [List.length_nil] at ha
    have hv : value a b [] = _ := value_two (by omega)
    obtain ⟨c, hc⟩ := exists_char (n := value a b []) (by rw [hv, low]; omega)
    refine ⟨c, hc, utf8EncodeChar_two hb (by omega) (hc.trans hv) ?_⟩
    rw [hc, hv, low]
    omega
  · -- three bytes
    simp only [List.length_singleton] at ha
    have hd : isTrailing d = true := ht d (List.mem_singleton_self d)
    have hd' := isTrailing_iff.mp hd
    have hv : value a b [d] = _ := value_three (by omega)
    obtain ⟨c, hc⟩ := exists_char (n := value a b [d]) (by rw [hv, low, low]; omega)
    refine ⟨c, hc, utf8EncodeChar_three hb hd (by omega) (hc.trans hv) ?_⟩
    rw [hc, hv, low, low]
    omega
  · -- four bytes
    simp only [List.length_cons, List.length_nil] at ha
    obtain ⟨hd, he⟩ := List.forall_mem_cons.mp ht
    have he : isTrailing e = true := he e (List.mem_singleton_self e)
    have hd' := isTrailing_iff.mp hd
    have he' := isTrailing_iff.mp he
    have hv : value a b [d, e] = _ := value_four (by omega)
    obtain ⟨c, hc⟩ := exists_char (n := value a b [d, e]) (by rw [hv, low, low, low]; omega)
    refine ⟨c, hc, utf8EncodeChar_four hb hd he (by omega) (hc.trans hv) ?_⟩
    rw [hc, hv, low, low, low]
    omega
  · simp only [List.length_cons] at ha
    omega

/-! ### Where reading one character stops -/

theorem trailing_append {cs : List UInt8} (h : ∀ d ∈ cs, isTrailing d = true) (v : Nat)
    (rest : List UInt8) : trailing v cs.length (cs ++ rest) =
      (some (cs.foldl (fun v d => v * 64 + low d) v), rest) := by
  induction cs generalizing v with
  | nil => rfl
  | cons d cs ih =>
    obtain ⟨hd, hcs⟩ := List.forall_mem_cons.mp h
    rw [List.length_cons, List.cons_append, trailing, if_pos hd, ih hcs, List.foldl_cons]

/-- The trailing bytes that are read, and why reading stops there. -/
theorem trailing_cases (v count : Nat) (bs : List UInt8) :
    ∃ cs rest, bs = cs ++ rest ∧ (∀ d ∈ cs, isTrailing d = true) ∧
      (cs.length = count ∧
          trailing v count bs = (some (cs.foldl (fun v d => v * 64 + low d) v), rest) ∨
        cs.length < count ∧ trailing v count bs = (none, rest) ∧
          ∀ d ∈ rest.head?, ¬ isTrailing d = true) := by
  induction count generalizing v bs with
  | zero => exact ⟨[], bs, rfl, List.forall_mem_nil _, Or.inl ⟨rfl, rfl⟩⟩
  | succ count ih =>
    cases bs with
    | nil =>
      exact ⟨[], [], rfl, List.forall_mem_nil _, Or.inr ⟨Nat.succ_pos count, rfl,
        fun d hd => absurd hd (Option.not_mem_none d)⟩⟩
    | cons b bs =>
      by_cases hb : isTrailing b = true
      · obtain ⟨cs, rest, rfl, hcs, h⟩ := ih (v * 64 + low b) bs
        refine ⟨b :: cs, rest, rfl, List.forall_mem_cons.mpr ⟨hb, hcs⟩, ?_⟩
        rw [trailing, if_pos hb]
        exact h.imp (fun h => ⟨congrArg Nat.succ h.1, h.2⟩)
          (fun h => ⟨Nat.succ_lt_succ h.1, h.2⟩)
      · refine ⟨[], b :: bs, rfl, List.forall_mem_nil _, Or.inr ⟨Nat.succ_pos count, ?_, ?_⟩⟩
        · rw [trailing, if_neg hb]
        · rintro d hd
          cases hd
          exact hb

/-- How the first character is read, or why none is. -/
theorem first_cases (a : UInt8) (rest : List UInt8) :
    (a.toNat < 0x80 ∧ first a rest = (some a.toNat, rest)) ∨
    (0x80 ≤ a.toNat ∧ (∀ b ∈ rest.head?, ∀ count, ¬ Opens a b count) ∧
      first a rest = (none, rest)) ∨
    ∃ b count rest', rest = b :: rest' ∧ Opens a b count ∧
      first a rest = trailing (leading a * 64 + low b) count rest' := by
  by_cases ha : a < 0x80
  · exact Or.inl ⟨UInt8.lt_iff_toNat_lt.mp ha, if_pos ha⟩
  have ha' : 0x80 ≤ a.toNat := Nat.not_lt.mp (fun h => ha (UInt8.lt_iff_toNat_lt.mpr h))
  refine Or.inr ?_
  unfold first
  rw [if_neg ha]
  cases hs : shape? a with
  | none =>
    refine Or.inl ⟨ha', ?_, rfl⟩
    rintro b - count ⟨lo, hi, h, -⟩
    rw [hs] at h
    cases h
  | some shape =>
    obtain ⟨lo, hi, count⟩ := shape
    cases rest with
    | nil => exact Or.inl ⟨ha', fun b hb => absurd hb (Option.not_mem_none b), rfl⟩
    | cons b rest =>
      dsimp only
      by_cases hb : lo ≤ b ∧ b ≤ hi
      · refine Or.inr ⟨b, count, rest, rfl, ⟨lo, hi, hs, hb⟩, if_pos ?_⟩
        rwa [Bool.and_eq_true, decide_eq_true_eq, decide_eq_true_eq]
      · refine Or.inl ⟨ha', ?_, if_neg ?_⟩
        · rintro b' hb' count' ⟨lo', hi', h, hbound⟩
          cases hb'
          rw [hs] at h
          cases h
          exact hb hbound
        · rwa [Bool.and_eq_true, decide_eq_true_eq, decide_eq_true_eq]

/-- A character that stands first is read. -/
theorem first_char {c : Char} {a : UInt8} {bs : List UInt8} (h : String.utf8EncodeChar c = a :: bs)
    (rest : List UInt8) : first a (bs ++ rest) = (some c.toNat, rest) := by
  rcases sequence_of_char h with ⟨ha, rfl, hc⟩ | ⟨b, cs, rfl, ho, ht, hv⟩
  · rw [← hc]
    exact if_pos (UInt8.lt_iff_toNat_lt.mpr ha)
  · rcases first_cases a (b :: cs ++ rest) with
      ⟨ha, _⟩ | ⟨_, hno, _⟩ | ⟨b', count, rest', hb, ho', hf⟩
    · have hhigh := opens_iff.mp ho
      omega
    · exact absurd ho (hno b rfl _)
    · rw [List.cons_append] at hb
      obtain ⟨rfl, rfl⟩ := List.cons.inj hb
      rw [hf, ← ho.count_eq ho', trailing_append ht]
      exact congrArg (fun n => (some n, rest)) hv

/-- Only a character is read as one. -/
theorem char_of_first {a : UInt8} {rest rest' : List UInt8} {n : Nat}
    (h : first a rest = (some n, rest')) :
    ∃ c, c.toNat = n ∧ a :: rest = String.utf8EncodeChar c ++ rest' := by
  rcases first_cases a rest with ⟨ha, hf⟩ | ⟨_, _, hf⟩ | ⟨b, count, bs, rfl, ho, hf⟩
  · rw [hf] at h
    cases h
    obtain ⟨c, hc⟩ := exists_char (n := a.toNat) (by omega)
    exact ⟨c, hc, by rw [utf8EncodeChar_one hc ha]; rfl⟩
  · rw [hf] at h
    cases h
  · obtain ⟨cs, r, rfl, ht, ⟨hlen, hread⟩ | ⟨_, hread, _⟩⟩ :=
      trailing_cases (leading a * 64 + low b) count bs
    · rw [hf, hread] at h
      cases h
      obtain ⟨c, hc, hbytes⟩ := char_of_sequence (hlen ▸ ho) ht
      exact ⟨c, hc, by rw [hbytes]; rfl⟩
    · rw [hf, hread] at h
      cases h

/-! ### Maximal invalid prefixes -/

/-- Some character begins with these bytes. -/
def Begins (bs : List UInt8) : Prop := ∃ c, bs <+: String.utf8EncodeChar c

/-- **A maximal invalid prefix**, with what comes after it: no character stands there, and the bytes
are the longest prefix that some character begins with, or one byte. -/
structure Fault (bad rest : List UInt8) : Prop where
  ne_nil : bad ≠ []
  noChar : ∀ c, ¬ String.utf8EncodeChar c <+: bad ++ rest
  begins : Begins bad ∨ bad.length = 1
  longest : ∀ p, p <+: bad ++ rest → Begins p → p.length ≤ bad.length

/-- A place holds one fault at most. -/
theorem Fault.unique {bad bad' rest rest' : List UInt8} (h : Fault bad rest)
    (h' : Fault bad' rest') (heq : bad ++ rest = bad' ++ rest') : bad = bad' ∧ rest = rest' := by
  have hle : ∀ {x y r s : List UInt8}, Fault x r → Fault y s → x ++ r = y ++ s →
      x.length ≤ y.length := by
    intro x y r s hx hy hxy
    rcases hx.begins with hb | hb
    · exact hy.longest x (hxy ▸ List.prefix_append x r) hb
    · rw [hb]
      exact List.length_pos_iff.mpr hy.ne_nil
  exact List.append_inj heq (Nat.le_antisymm (hle h h' heq) (hle h' h heq.symm))

theorem begins_of_sequence {a b : UInt8} {cs : List UInt8} {count : Nat} (ho : Opens a b count)
    (ht : ∀ d ∈ cs, isTrailing d = true) (hlen : cs.length < count) : Begins (a :: b :: cs) := by
  -- more trailing bytes complete the sequence
  generalize hmore : List.replicate (count - cs.length) (0x80 : UInt8) = more
  have hcount : (cs ++ more).length = count := by
    rw [List.length_append, ← hmore, List.length_replicate]
    omega
  have hmore' : ∀ d ∈ cs ++ more, isTrailing d = true := by
    intro d hd
    rcases List.mem_append.mp hd with hd | hd
    · exact ht d hd
    · rw [← hmore] at hd
      rw [List.eq_of_mem_replicate hd]
      decide
  obtain ⟨c, -, hc⟩ := char_of_sequence (hcount.symm ▸ ho) hmore'
  exact ⟨c, hc ▸ List.prefix_append (a :: b :: cs) more⟩

/-- What some character begins with, from its second byte on. -/
theorem Begins.opens {a b : UInt8} {cs : List UInt8} (h : Begins (a :: b :: cs)) :
    ∃ count, Opens a b count ∧ ∀ d ∈ cs, isTrailing d = true := by
  obtain ⟨c, tail, hc⟩ := h
  rcases sequence_of_char hc.symm with ⟨_, hnil, _⟩ | ⟨b', cs', hcs, ho, ht, _⟩
  · cases hnil
  · obtain ⟨rfl, rfl⟩ := List.cons.inj hcs
    exact ⟨_, ho, fun d hd => ht d (List.mem_append_left tail hd)⟩

/-- Trailing bytes reach no further than the first byte that is none. -/
theorem length_le_of_stop {cs ps rest : List UInt8} (hp : ps <+: cs ++ rest)
    (ht : ∀ d ∈ ps, isTrailing d = true) (hstop : ∀ d ∈ rest.head?, ¬ isTrailing d = true) :
    ps.length ≤ cs.length := by
  induction cs generalizing ps with
  | nil =>
    cases ps with
    | nil => exact Nat.le_refl 0
    | cons d ps =>
      obtain ⟨tail, rfl⟩ := hp
      exact absurd (ht d List.mem_cons_self) (hstop d rfl)
  | cons c cs ih =>
    cases ps with
    | nil => exact Nat.zero_le _
    | cons d ps =>
      exact Nat.succ_le_succ (ih (List.cons_prefix_cons.mp hp).2 (List.forall_mem_cons.mp ht).2)

/-- Reading that finds no character has passed a fault. -/
theorem fault_of_first {a : UInt8} {rest rest' : List UInt8} (h : first a rest = (none, rest')) :
    ∃ bad, a :: rest = bad ++ rest' ∧ Fault bad rest' := by
  have hno : ∀ c, ¬ String.utf8EncodeChar c <+: a :: rest := by
    rintro c ⟨tail, hc⟩
    cases hbytes : String.utf8EncodeChar c with
    | nil => exact String.utf8EncodeChar_ne_nil hbytes
    | cons a' bs =>
      rw [hbytes, List.cons_append] at hc
      obtain ⟨rfl, rfl⟩ := List.cons.inj hc
      rw [first_char hbytes] at h
      cases h
  rcases first_cases a rest with ⟨_, hf⟩ | ⟨_, hstop, hf⟩ | ⟨b, count, bs, rfl, ho, hf⟩
  · rw [hf] at h
    cases h
  · -- no character goes on after the first byte
    rw [hf] at h
    cases h
    refine ⟨[a], rfl, List.cons_ne_nil a [], hno, Or.inr rfl, ?_⟩
    intro p hp hbegins
    rcases p with _ | ⟨_, _ | ⟨b, cs⟩⟩
    · exact Nat.zero_le 1
    · exact Nat.le_refl 1
    · obtain ⟨tail, ht⟩ := hp
      obtain ⟨rfl, rfl⟩ := List.cons.inj ht
      obtain ⟨count, ho, -⟩ := hbegins.opens
      exact absurd ho (hstop b rfl count)
  · obtain ⟨cs, r, rfl, ht, ⟨_, hread⟩ | ⟨hlen, hread, hstop⟩⟩ :=
      trailing_cases (leading a * 64 + low b) count bs
    · rw [hf, hread] at h
      cases h
    · rw [hf, hread] at h
      cases h
      refine ⟨a :: b :: cs, rfl, List.cons_ne_nil a _, hno,
        Or.inl (begins_of_sequence ho ht hlen), ?_⟩
      intro p hp hbegins
      rcases p with _ | ⟨_, _ | ⟨_, ps⟩⟩
      · exact Nat.zero_le _
      · exact Nat.succ_le_succ (Nat.zero_le _)
      · obtain ⟨-, -, hps⟩ := hbegins.opens
        have hp := (List.cons_prefix_cons.mp (List.cons_prefix_cons.mp hp).2).2
        exact Nat.succ_le_succ (Nat.succ_le_succ (length_le_of_stop hp hps hstop))

/-! ### The lossy reading -/

/-- **The lossy reading of a byte sequence**: its characters, with one U+FFFD for each maximal
invalid prefix. -/
inductive ReadsLossily : List UInt8 → List Char → Prop
  | nil : ReadsLossily [] []
  | char {c : Char} {rest : List UInt8} {cs : List Char} (h : ReadsLossily rest cs) :
      ReadsLossily (String.utf8EncodeChar c ++ rest) (c :: cs)
  | fault {bad rest : List UInt8} {cs : List Char} (hbad : Fault bad rest)
      (h : ReadsLossily rest cs) : ReadsLossily (bad ++ rest) ('\uFFFD' :: cs)

theorem decodeLossy_char (c : Char) (rest : List UInt8) :
    decodeLossy (String.utf8EncodeChar c ++ rest) = c :: decodeLossy rest := by
  cases hbytes : String.utf8EncodeChar c with
  | nil => exact absurd hbytes String.utf8EncodeChar_ne_nil
  | cons a bs =>
    rw [List.cons_append, decodeLossy, first_char hbytes]
    dsimp only
    rw [Option.bind_some, scalar?_toNat (Nat.zero_le _), Option.getD_some]

theorem decodeLossy_fault {bad rest : List UInt8} (h : Fault bad rest) :
    decodeLossy (bad ++ rest) = '\uFFFD' :: decodeLossy rest := by
  cases bad with
  | nil => exact absurd rfl h.ne_nil
  | cons a bs =>
    rw [List.cons_append, decodeLossy]
    cases hf : first a (bs ++ rest) with
    | mk n rest' =>
      cases n with
      | some n =>
        obtain ⟨c, -, hc⟩ := char_of_first hf
        exact absurd ⟨rest', hc.symm⟩ (h.noChar c)
      | none =>
        obtain ⟨bad', heq, h'⟩ := fault_of_first hf
        obtain ⟨-, rfl⟩ := h.unique h' heq
        rfl

theorem readsLossily_decodeLossy (bs : List UInt8) : ReadsLossily bs (decodeLossy bs) := by
  fun_induction decodeLossy bs with
  | case1 => exact .nil
  | case2 a rest c ih =>
    cases hf : first a rest with
    | mk n rest' =>
      rw [hf] at ih
      cases n with
      | some n =>
        obtain ⟨d, rfl, hd⟩ := char_of_first hf
        have hc : c = d := by
          show ((first a rest).1.bind (scalar? 0)).getD _ = d
          rw [hf, Option.bind_some, scalar?_toNat (Nat.zero_le _), Option.getD_some]
        rw [hd, hc]
        exact .char ih
      | none =>
        obtain ⟨bad, hbytes, hbad⟩ := fault_of_first hf
        have hc : c = '\uFFFD' := by
          show ((first a rest).1.bind (scalar? 0)).getD _ = _
          rw [hf, Option.bind_none, Option.getD_none]
        rw [hbytes, hc]
        exact .fault hbad ih

/-- **The lossy reading is one U+FFFD per maximal invalid prefix**, and nothing else. -/
theorem readsLossily_iff {bs : List UInt8} {cs : List Char} :
    ReadsLossily bs cs ↔ cs = decodeLossy bs := by
  constructor
  · intro h
    induction h with
    | nil => rw [decodeLossy]
    | char _ ih => rw [decodeLossy_char, ih]
    | fault hbad _ ih => rw [decodeLossy_fault hbad, ih]
  · rintro rfl
    exact readsLossily_decodeLossy bs

theorem decodeLossy_encode (cs : List Char) : decodeLossy (encode cs) = cs := by
  induction cs with
  | nil => rw [encode, List.flatMap_nil, decodeLossy]
  | cons c cs ih =>
    rw [encode, List.flatMap_cons, decodeLossy_char]
    exact congrArg (c :: ·) ih

/-- **Where strict reading succeeds, the two readings agree.** -/
theorem decodeLossy_of_decode? {bs : List UInt8} {cs : List Char} (h : decode? bs = some cs) :
    decodeLossy bs = cs := by
  rw [← encode_of_decode? h, decodeLossy_encode]

end Redaction.Text.Utf8
