import Redaction.Proofs.Mask.Strings

/-!
# Written query strings are read back

A text is written in two passes: every character that is not unreserved gives way to the escapes of
its bytes, and then `+` takes the place of every `%20`. The second pass finds the escapes of spaces
and nothing else, so both together write character by character (`plusForSpaces_percentEncode`).
What is written holds no separator and no space, and is read as what it was written from, by itself
(`Form.decode_encode`) and as a part of a query string (`parse_written`).
-/

namespace Redaction

namespace Text.Form

/-! ### Two passes -/

/-- The text with the escapes of its bytes in the place of each character that is not unreserved. -/
def percentEncode (cs : List Char) : List Char :=
  cs.flatMap fun c => if isUnreserved c then [c] else (String.utf8EncodeChar c).flatMap escape

/-- The text with `+` in the place of each `%20`, from the left. -/
def plusForSpaces : List Char → List Char
  | '%' :: '2' :: '0' :: rest => '+' :: plusForSpaces rest
  | c :: rest => c :: plusForSpaces rest
  | [] => []

theorem plusForSpaces_cons {c : Char} (h : c ≠ '%') (rest : List Char) :
    plusForSpaces (c :: rest) = c :: plusForSpaces rest := by
  rw [plusForSpaces]
  exact fun _ hc _ => h hc

/-- The digits of an escape begin no `%20`. -/
theorem hexDigit_ne_percent {n : Nat} (h : n < 16) : hexDigit n ≠ '%' := by
  revert n
  decide

theorem eq_of_hexDigit {m n : Nat} (hm : m < 16) (hn : n < 16) (h : hexDigit m = hexDigit n) :
    m = n := by
  have hvalue : some m = some n := by
    rw [← hexValue?_hexDigit hm, h, hexValue?_hexDigit hn]
  exact Option.some.inj hvalue

theorem plusForSpaces_escape (b : UInt8) (rest : List Char) :
    plusForSpaces (escape b ++ rest) =
      (if b = 0x20 then ['+'] else escape b) ++ plusForSpaces rest := by
  have hbyte : b.toNat < 256 := b.toNat_lt
  have hhigh : b.toNat / 16 < 16 := by omega
  have hlow : b.toNat % 16 < 16 := by omega
  by_cases hspace : b = 0x20
  · subst hspace
    rfl
  · have hnot : ¬ (hexDigit (b.toNat / 16) = '2' ∧ hexDigit (b.toNat % 16) = '0') := by
      rintro ⟨h2, h0⟩
      have hm : b.toNat / 16 = 2 := eq_of_hexDigit hhigh (by decide) h2
      have hn : b.toNat % 16 = 0 := eq_of_hexDigit hlow (by decide) h0
      have hb : b.toNat = 0x20 := by omega
      exact hspace (UInt8.toNat_inj.mp hb)
    rw [if_neg hspace, escape, List.cons_append, List.cons_append, List.singleton_append,
      plusForSpaces, plusForSpaces_cons (hexDigit_ne_percent hhigh),
      plusForSpaces_cons (hexDigit_ne_percent hlow)]
    · rfl
    · intro _ _ he
      obtain ⟨h2, htail⟩ := List.cons.inj he
      exact hnot ⟨h2, (List.cons.inj htail).1⟩

theorem plusForSpaces_flatMap_escape {bs : List UInt8} (h : 0x20 ∉ bs) (rest : List Char) :
    plusForSpaces (bs.flatMap escape ++ rest) = bs.flatMap escape ++ plusForSpaces rest := by
  induction bs with
  | nil => rfl
  | cons b bs ih =>
    have hb : b ≠ 0x20 := fun he => h (by rw [he]; exact List.mem_cons_self)
    rw [List.flatMap_cons, List.append_assoc, plusForSpaces_escape, if_neg hb,
      ih fun hm => h (List.mem_cons_of_mem b hm), List.append_assoc]

/-- The byte 0x20 stands for nothing but the space. -/
theorem eq_space_of_mem {c : Char} (h : 0x20 ∈ String.utf8EncodeChar c) : c = ' ' := by
  have hc : c.toNat = 0x20 := Utf8.toNat_eq_of_mem_utf8EncodeChar h (by decide)
  rw [← Char.ofNat_toNat c, hc]

/-- **Both passes write character by character.** -/
theorem plusForSpaces_percentEncode (cs : List Char) :
    plusForSpaces (percentEncode cs) = encode cs := by
  induction cs with
  | nil => rfl
  | cons c cs ih =>
    have hencode : encode (c :: cs) = encodeChar c ++ encode cs := List.flatMap_cons
    rw [percentEncode, List.flatMap_cons, ← percentEncode, hencode, encodeChar]
    split
    · next hc =>
      rw [List.singleton_append, List.singleton_append,
        plusForSpaces_cons (isUnreserved_ne hc).2.1, ih]
    · next hc =>
      split
      · next hspace =>
        subst hspace
        exact congrArg ('+' :: ·) ih
      · next hspace =>
        rw [plusForSpaces_flatMap_escape fun hm => hspace (eq_space_of_mem hm), ih]

end Text.Form

/-! ### Query strings -/

namespace Query

open Text

/-- **Reading undoes writing.** A text is written in two passes and read as that text, and what is
written holds none of the characters at which a query string is cut, nor a space. So the query
string that is written from names and values, whatever they are, is read as exactly these. -/
theorem parse_written :
    (∀ s : String, let written := Form.encode s.toList
      written = Form.plusForSpaces (Form.percentEncode s.toList) ∧
      Form.decode written = s.toList ∧ ∀ c ∈ written, c ≠ '&' ∧ c ≠ '=' ∧ c ≠ ' ') ∧
    ∀ entries : List (String × String),
      render entries = String.ofList (['&'].intercalate (entries.map fun e =>
        Form.encode e.1.toList ++ ['='] ++ Form.encode e.2.toList)) ∧
      parse (render entries) = entries := by
  refine ⟨fun s => ?_, fun entries => ⟨?_, parse_render entries⟩⟩
  · intro written
    refine ⟨(Form.plusForSpaces_percentEncode s.toList).symm, Form.decode_encode s.toList, ?_⟩
    intro c hc
    obtain ⟨hampersand, hequals⟩ := Form.ne_of_mem_encode hc
    exact ⟨hampersand, hequals, Form.ne_space_of_mem_encode hc⟩
  · simp only [List.append_assoc, List.singleton_append]
    rfl

/-- The text `%20` is not taken for the escape of a space. -/
theorem parse_written_escapes :
    let entries := [("%20", " +"), ("", ""), ("é", "&=~")]
    let text := "%2520=+%2B&=&%C3%A9=%26%3D~"
    render entries = text ∧ parse text = entries := by
  intro entries text
  have hrender : render entries = text := by decide +kernel
  refine ⟨hrender, ?_⟩
  rw [← hrender]
  exact (parse_written.2 entries).2

end Query

end Redaction
