import Mathlib.Data.List.TakeDrop
import Mathlib.Data.List.TakeWhile
import Redaction.Json.Token

/-!
# Numbers are read back

The text of a number begins with a digit or a sign and holds nothing else than what numbers are made
of (`isNumeric_text`, `head_text`), so a reader finds its end. What is read as an exact integer fits
64 bits, signed or unsigned (`exact_read?`), and the text of such an integer is read as that integer
(`read?_text_int`). The text of a double is read digit by digit with rounded steps, so nothing of
the kind is said of doubles.
-/

namespace Redaction

open Json.Token (isNumeric)

theorem isNumeric_of_isDigit {c : Char} (h : c.isDigit = true) : isNumeric c = true := by
  simp [isNumeric, h]

/-! ### What the text of a number is made of -/

namespace Magnitude

variable {digits : List Char} {e : Int}

theorem isDigit_toDigits (n : Nat) : ∀ c ∈ Nat.toDigits 10 n, c.isDigit = true := by
  intro c hc
  exact Nat.isDigit_of_mem_toDigits (by decide) (by decide) hc

theorem isNumeric_positional (h : ∀ c ∈ digits, c.isDigit = true) :
    ∀ c ∈ positional digits e, isNumeric c = true := by
  have hd : ∀ c ∈ digits, isNumeric c = true := fun c hc => isNumeric_of_isDigit (h c hc)
  have hzero : ∀ n, ∀ c ∈ List.replicate n '0', isNumeric c = true := by
    intro n c hc
    rw [List.eq_of_mem_replicate hc]
    decide
  intro c hc
  unfold positional at hc
  split at hc
  · simp only [List.cons_append, List.mem_cons, List.mem_append] at hc
    rcases hc with rfl | rfl | hc | hc
    · decide
    · decide
    · exact hzero _ c hc
    · exact hd c hc
  · dsimp only at hc
    split at hc
    · simp only [List.mem_append, List.mem_cons, List.not_mem_nil, or_false] at hc
      rcases hc with (hc | hc) | rfl | rfl
      · exact hd c hc
      · exact hzero _ c hc
      · decide
      · decide
    · rcases List.mem_append.mp hc with hc | hc
      · exact hd c (List.mem_of_mem_take hc)
      · rcases List.mem_cons.mp hc with rfl | hc
        · decide
        · exact hd c (List.mem_of_mem_drop hc)

theorem isNumeric_scientific (h : ∀ c ∈ digits, c.isDigit = true) :
    ∀ c ∈ scientific digits e, isNumeric c = true := by
  have hd : ∀ c ∈ digits, isNumeric c = true := fun c hc => isNumeric_of_isDigit (h c hc)
  have hexponent : ∀ c ∈ 'e' :: (if e < 0 then '-' else '+') :: Nat.toDigits 10 e.natAbs,
      isNumeric c = true := by
    intro c hc
    simp only [List.mem_cons] at hc
    rcases hc with rfl | rfl | hc
    · decide
    · split <;> decide
    · exact isNumeric_of_isDigit (isDigit_toDigits _ c hc)
  intro c hc
  rcases digits with - | ⟨d, - | ⟨d', ds⟩⟩
  · exact hexponent c hc
  · rcases List.mem_cons.mp hc with rfl | hc
    · exact hd c List.mem_cons_self
    · exact hexponent c hc
  · rcases List.mem_cons.mp hc with rfl | hc
    · exact hd c List.mem_cons_self
    · rcases List.mem_cons.mp hc with rfl | hc
      · decide
      · rcases List.mem_append.mp hc with hc | hc
        · exact hd c (List.mem_cons_of_mem d hc)
        · exact hexponent c hc

theorem isNumeric_text (x : Magnitude) : ∀ c ∈ x.text, isNumeric c = true := by
  have h := isDigit_toDigits x.shortest.digits
  unfold text
  dsimp only
  split
  · exact isNumeric_positional h
  · exact isNumeric_scientific h

theorem head_text (x : Magnitude) : ∃ c cs, x.text = c :: cs ∧ c.isDigit = true := by
  have h := isDigit_toDigits x.shortest.digits
  obtain ⟨d, ds, hds⟩ :=
    List.exists_cons_of_ne_nil (Nat.toDigits_ne_nil (n := x.shortest.digits) (b := 10))
  have hd : d.isDigit = true := h d (by rw [hds]; exact List.mem_cons_self)
  unfold text
  dsimp only
  rw [hds]
  split
  · unfold positional
    split
    · exact ⟨'0', _, rfl, by decide⟩
    · dsimp only
      split
      · exact ⟨d, _, rfl, hd⟩
      · exact ⟨d, _, rfl, hd⟩
  · unfold scientific
    cases ds <;> exact ⟨d, _, rfl, hd⟩

end Magnitude

namespace Number

theorem isNumeric_text (n : Number) : ∀ c ∈ n.text, isNumeric c = true := by
  have hsign : ∀ cs : List Char, (∀ c ∈ cs, isNumeric c = true) →
      ∀ c ∈ '-' :: cs, isNumeric c = true := by
    intro cs h c hc
    rcases List.mem_cons.mp hc with rfl | hc
    · decide
    · exact h c hc
  have hdigits : ∀ k : Nat, ∀ c ∈ Nat.toDigits 10 k, isNumeric c = true :=
    fun k c hc => isNumeric_of_isDigit (Magnitude.isDigit_toDigits k c hc)
  cases n with
  | int n =>
    rw [text]
    by_cases hn : n < 0
    · rw [if_pos hn]
      exact hsign _ (hdigits _)
    · rw [if_neg hn]
      exact hdigits _
  | double x =>
    rw [text]
    cases x.negative with
    | true => exact hsign _ x.magnitude.isNumeric_text
    | false => exact x.magnitude.isNumeric_text

theorem head_text (n : Number) :
    ∃ c cs, n.text = c :: cs ∧ (c.isDigit || decide (c = '-')) = true := by
  cases n with
  | int n =>
    obtain ⟨d, ds, hds⟩ :=
      List.exists_cons_of_ne_nil (Nat.toDigits_ne_nil (n := n.natAbs) (b := 10))
    have hd : d.isDigit = true :=
      Magnitude.isDigit_toDigits n.natAbs d (by rw [hds]; exact List.mem_cons_self)
    rw [text]
    by_cases hn : n < 0
    · rw [if_pos hn]
      exact ⟨'-', _, rfl, by decide⟩
    · rw [if_neg hn]
      exact ⟨d, ds, hds, by rw [hd]; rfl⟩
  | double x =>
    obtain ⟨d, ds, hds, hd⟩ := x.magnitude.head_text
    rw [text]
    cases x.negative with
    | true => exact ⟨'-', _, rfl, by decide⟩
    | false => exact ⟨d, ds, hds, by rw [hd]; rfl⟩

/-! ### Exact integers -/

/-- An integer fits 64 bits, signed or unsigned. -/
def Exact : Number → Prop
  | int n => -(Nat.pow 2 63 : Int) ≤ n ∧ n ≤ (maxWord : Int)
  | double _ => True

/-- The number that digits denote behind those of `n`. -/
def ofDigits (n : Nat) (cs : List Char) : Nat := cs.foldl (fun n c => n * 10 + (c.toNat - 48)) n

theorem le_ofDigits (n : Nat) (cs : List Char) : n ≤ ofDigits n cs := by
  induction cs generalizing n with
  | nil => exact Nat.le_refl n
  | cons c cs ih =>
    have := ih (n * 10 + (c.toNat - 48))
    show n ≤ ofDigits (n * 10 + (c.toNat - 48)) cs
    omega

theorem ofDigits_toDigits (n : Nat) : ofDigits 0 (Nat.toDigits 10 n) = n := by
  have h : ofDigits 0 (Nat.toDigits 10 n) = Nat.ofDigitChars 10 (Nat.toDigits 10 n) 0 := by
    rw [Nat.ofDigitChars_eq_foldl, ofDigits]
    congr 1
    funext n c
    rw [Nat.mul_comm]
    rfl
  rw [h, Nat.ofDigitChars_ten_toDigits]

/-- All digits are taken if the number fits 64 bits. -/
theorem takeDigits_of_le {n : Nat} {cs : List Char} (h : ofDigits n cs ≤ maxWord) :
    takeDigits n cs = (ofDigits n cs, cs.length) := by
  induction cs generalizing n with
  | nil => rfl
  | cons c cs ih =>
    have hrest : ofDigits (n * 10 + (c.toNat - 48)) cs ≤ maxWord := h
    have hle : n * 10 + (c.toNat - 48) ≤ maxWord := Nat.le_trans (le_ofDigits _ cs) hrest
    rw [takeDigits]
    dsimp only
    rw [if_pos hle, ih hrest]
    rfl

theorem takeDigits_le {n : Nat} {cs : List Char} (h : n ≤ maxWord) :
    (takeDigits n cs).1 ≤ maxWord := by
  induction cs generalizing n with
  | nil => exact h
  | cons c cs ih =>
    rw [takeDigits]
    dsimp only
    split
    · next hle => exact ih hle
    · exact h

theorem exact_number? {p : Parts} {n : Number} (h : p.number? = some n) : n.Exact := by
  have hle : (takeDigits 0 p.whole).1 ≤ maxWord := takeDigits_le (Nat.zero_le _)
  unfold Parts.number? at h
  dsimp only at h
  split at h
  · obtain rfl := Option.some.inj h
    exact ⟨by omega, Int.ofNat_le.mpr hle⟩
  · split at h
    · next hneg =>
      simp only [Bool.and_eq_true, decide_eq_true_eq] at hneg
      obtain rfl := Option.some.inj h
      have hsmall : ((takeDigits 0 p.whole).1 : Int) ≤ (Nat.pow 2 63 : Nat) :=
        Int.ofNat_le.mpr hneg.2
      exact ⟨by omega, by omega⟩
    · simp only [Option.bind_eq_bind, Option.bind_eq_some_iff] at h
      obtain ⟨_, _, h⟩ := h
      obtain ⟨_, _, h⟩ := h
      obtain rfl := Option.some.inj h
      trivial

/-- **What is read as an exact integer fits 64 bits.** -/
theorem exact_read? {cs : List Char} {n : Number} (h : read? cs = some n) : n.Exact := by
  obtain ⟨p, -, hp⟩ := Option.bind_eq_some_iff.mp h
  exact exact_number? hp

/-! ### Digits are read back -/

theorem head?_toDigits {n : Nat} (h : n ≠ 0) : (Nat.toDigits 10 n).head? ≠ some '0' := by
  induction n using Nat.strongRecOn with
  | ind n ih =>
    by_cases hlt : n < 10
    · rw [Nat.toDigits_of_lt_base hlt, List.head?_cons]
      intro hzero
      exact h (Nat.digitChar_eq_zero.mp (Option.some.inj hzero))
    · have hrest := ih (n / 10) (by omega) (by omega)
      rw [Nat.toDigits_of_base_le (by decide) (by omega), List.head?_append]
      cases hhead : (Nat.toDigits 10 (n / 10)).head? with
      | none => exact absurd (List.head?_eq_none_iff.mp hhead) Nat.toDigits_ne_nil
      | some d =>
        rw [hhead] at hrest
        exact hrest

/-- No zero is written in front of other digits. -/
theorem not_padded (n : Nat) :
    ¬ (1 < (Nat.toDigits 10 n).length ∧ (Nat.toDigits 10 n).head? = some '0') := by
  rintro ⟨hlength, hhead⟩
  by_cases hn : n = 0
  · subst hn
    rw [Nat.toDigits_zero] at hlength
    exact absurd hlength (by decide)
  · exact head?_toDigits hn hhead

/-- Digits alone are the whole part of a number. -/
theorem of?_digits (negative : Bool) (n : Nat) :
    Parts.of? (if negative then '-' :: Nat.toDigits 10 n else Nat.toDigits 10 n) =
      some ⟨negative, Nat.toDigits 10 n, [], 0, true⟩ := by
  have hdigit := Magnitude.isDigit_toDigits n
  have hpadded := not_padded n
  have hne : Nat.toDigits 10 n ≠ [] := Nat.toDigits_ne_nil
  generalize Nat.toDigits 10 n = digits at *
  have htake : digits.takeWhile Char.isDigit = digits := List.takeWhile_eq_self_iff.mpr hdigit
  have hdrop : digits.dropWhile Char.isDigit = [] := List.dropWhile_eq_nil_iff.mpr hdigit
  obtain ⟨d, ds, rfl⟩ := List.exists_cons_of_ne_nil hne
  have hd : d.isDigit = true := hdigit d List.mem_cons_self
  have hsign : d ≠ '-' := by
    rintro rfl
    exact absurd hd (by decide)
  have hzero : 0 < ds.length → d ≠ '0' := by
    simpa using hpadded
  cases negative with
  | true => simpa [Parts.of?, htake, hdrop] using hzero
  | false => simpa [Parts.of?, htake, hdrop, hsign] using hzero

/-- **The text of an exact integer is read as that integer.** -/
theorem read?_text_int {n : Int} (h : (int n).Exact) : read? (int n).text = some (int n) := by
  have htaken : takeDigits 0 (Nat.toDigits 10 n.natAbs) =
      (n.natAbs, (Nat.toDigits 10 n.natAbs).length) := by
    have hle : ofDigits 0 (Nat.toDigits 10 n.natAbs) ≤ maxWord := by
      rw [ofDigits_toDigits]
      have hpow : Nat.pow 2 63 ≤ maxWord := by decide
      obtain ⟨hlo, hhi⟩ := h
      omega
    rw [takeDigits_of_le hle, ofDigits_toDigits]
  have htext : (int n).text = if decide (n < 0) then '-' :: Nat.toDigits 10 n.natAbs
      else Nat.toDigits 10 n.natAbs := by
    simp [text]
  rw [read?, htext, of?_digits]
  show Parts.number? _ = _
  unfold Parts.number?
  dsimp only
  rw [htaken]
  obtain ⟨hlo, hhi⟩ := h
  by_cases hn : n < 0
  · have hneg : -(n.natAbs : Int) = n := by omega
    have hne : n.natAbs ≠ 0 := by omega
    have hle : n.natAbs ≤ Nat.pow 2 63 := by omega
    rw [if_neg (by simp [hn]), if_pos (by simp [hn, hne, hle]), hneg]
  · have hpos : (n.natAbs : Int) = n := by omega
    rw [if_pos (by simp [hn]), hpos]

end Number

end Redaction
