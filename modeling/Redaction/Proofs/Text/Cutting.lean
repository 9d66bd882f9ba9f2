import Mathlib.Data.List.DropRight
import Redaction.Text.Blank
import Redaction.Text.Pieces

/-!
# Cutting, joining and trimming

Pieces that were joined are cut apart again (`pieces_intercalate`), and no piece holds the
separator (`not_mem_of_mem_pieces`). What stands before the first separator and what comes after it
is cut apart likewise (`cut?_append`, `cut?_eq_some`, `cut?_of_mem`). Joining the pieces of a text
gives the text again (`intercalate_pieces`). Where a piece is empty, and which piece is the last,
is told by the characters of the text (`nil_mem_pieces_iff`, `getLast?_pieces_eq_some_iff`). A
trimmed text has no blanks left to trim (`trim_trim`).
-/

namespace Redaction.Text

variable {sep : Char} {cs p : List Char} {ps : List (List Char)}

/-! ### Pieces -/

theorem pieces_eq_splitOn (sep : Char) (cs : List Char) : pieces sep cs = cs.splitOn sep := by
  induction cs with
  | nil => rfl
  | cons c cs ih =>
    rw [pieces, ih, List.splitOn_cons_eq_if_modifyHead]
    by_cases hc : c = sep
    · rw [if_pos hc, if_pos (beq_iff_eq.mpr hc)]
    · rw [if_neg hc, if_neg (fun h => hc (beq_iff_eq.mp h))]
      obtain ⟨q, qs, hq⟩ := List.exists_cons_of_ne_nil (List.splitOn_ne_nil sep cs)
      rw [hq]
      rfl

/-- **Pieces without the separator that were joined are cut apart again.** -/
theorem pieces_intercalate (hne : ps ≠ []) (h : ∀ p ∈ ps, sep ∉ p) :
    pieces sep ([sep].intercalate ps) = ps := by
  rw [pieces_eq_splitOn]
  exact List.splitOn_intercalate sep h hne

theorem not_mem_of_mem_pieces (h : p ∈ pieces sep cs) : sep ∉ p := by
  induction cs generalizing p with
  | nil =>
    rw [List.mem_singleton.mp h]
    exact List.not_mem_nil
  | cons c cs ih =>
    rw [pieces] at h
    split at h
    · rcases List.mem_cons.mp h with rfl | h
      · exact List.not_mem_nil
      · exact ih h
    · next hc =>
      obtain ⟨q, qs, hq⟩ := List.exists_cons_of_ne_nil (pieces_ne_nil sep cs)
      rw [hq] at h ih
      rcases List.mem_cons.mp h with rfl | h
      · exact List.not_mem_cons_of_ne_of_not_mem (fun he => hc he.symm) (ih List.mem_cons_self)
      · exact ih (List.mem_cons_of_mem q h)

theorem intercalate_append_singleton {α : Type} (sep : α) (ps : List (List α)) (p : List α) :
    [sep].intercalate (ps ++ [p]) = (ps.flatMap fun q => q ++ [sep]) ++ p := by
  induction ps with
  | nil => exact List.intercalate_singleton
  | cons q ps ih =>
    have hne : ps ++ [p] ≠ [] := List.append_ne_nil_of_right_ne_nil ps (List.cons_ne_nil p [])
    rw [List.cons_append, List.intercalate_cons_of_ne_nil hne, ih, List.flatMap_cons,
      ← List.append_assoc]

theorem mem_intercalate {α : Type} {sep ps : List α} {pss : List (List α)} {a : α} (hps : ps ∈ pss)
    (ha : a ∈ ps) : a ∈ sep.intercalate pss := by
  induction pss with
  | nil => cases hps
  | cons qs pss ih =>
    cases pss with
    | nil =>
      rw [List.intercalate_singleton, ← List.mem_singleton.mp hps]
      exact ha
    | cons rs pss =>
      rw [List.intercalate_cons_cons, List.mem_append, List.mem_append]
      rcases List.mem_cons.mp hps with rfl | hps
      · exact Or.inl (Or.inl ha)
      · exact Or.inr (ih hps)

theorem intercalate_pieces (sep : Char) (cs : List Char) :
    [sep].intercalate (pieces sep cs) = cs := by
  rw [pieces_eq_splitOn]
  exact List.intercalate_splitOn sep

theorem intercalate_append {α : Type} (sep : α) {ps qs : List (List α)} (hps : ps ≠ [])
    (hqs : qs ≠ []) :
    [sep].intercalate (ps ++ qs) = [sep].intercalate ps ++ sep :: [sep].intercalate qs := by
  induction ps with
  | nil => exact absurd rfl hps
  | cons p ps ih =>
    by_cases hnil : ps = []
    · rw [hnil, List.singleton_append, List.intercalate_cons_of_ne_nil hqs,
        List.intercalate_singleton, List.append_assoc, List.singleton_append]
    · have hne : ps ++ qs ≠ [] := List.append_ne_nil_of_left_ne_nil hnil qs
      rw [List.cons_append, List.intercalate_cons_of_ne_nil hne, ih hnil,
        List.intercalate_cons_of_ne_nil hnil, List.append_assoc, List.append_assoc,
        List.append_assoc]

/-- Every separator ends a piece. -/
theorem pieces_append_cons (sep : Char) (cs ds : List Char) :
    pieces sep (cs ++ sep :: ds) = pieces sep cs ++ pieces sep ds := by
  rw [pieces_eq_splitOn, pieces_eq_splitOn, pieces_eq_splitOn, List.splitOn_append_cons_self]

/-- **There is an empty piece where a separator stands at an end or next to another.** -/
theorem nil_mem_pieces_iff : [] ∈ pieces sep cs ↔
    cs = [] ∨ [sep] <+: cs ∨ [sep] <:+ cs ∨ [sep, sep] <:+: cs := by
  constructor
  · intro h
    obtain ⟨before, after, hpieces⟩ := List.append_of_mem h
    have hcs := intercalate_pieces sep cs
    rw [hpieces] at hcs
    by_cases hbefore : before = [] <;> by_cases hafter : after = []
    · rw [hbefore, hafter] at hcs
      exact Or.inl hcs.symm
    · rw [hbefore, List.nil_append, List.intercalate_cons_of_ne_nil hafter] at hcs
      exact Or.inr (Or.inl ⟨_, hcs⟩)
    · rw [hafter, intercalate_append sep hbefore (List.cons_ne_nil _ _)] at hcs
      exact Or.inr (Or.inr (Or.inl ⟨_, hcs⟩))
    · rw [intercalate_append sep hbefore (List.cons_ne_nil _ _),
        List.intercalate_cons_of_ne_nil hafter] at hcs
      refine Or.inr (Or.inr (Or.inr ⟨[sep].intercalate before, [sep].intercalate after, ?_⟩))
      rw [← hcs, List.append_assoc]
      rfl
  · rintro (rfl | ⟨rest, rfl⟩ | ⟨front, rfl⟩ | ⟨front, rest, rfl⟩)
    · exact List.mem_cons_self
    · rw [List.singleton_append, ← List.nil_append (sep :: rest), pieces_append_cons]
      exact List.mem_cons_self
    · rw [pieces_append_cons]
      exact List.mem_append_right _ List.mem_cons_self
    · rw [List.append_assoc, List.cons_append, pieces_append_cons, List.singleton_append,
        ← List.nil_append (sep :: rest), pieces_append_cons]
      exact List.mem_append_right _ List.mem_cons_self

/-- **The last piece is the text itself or what stands behind the last separator.** -/
theorem getLast?_pieces_eq_some_iff (hp : sep ∉ p) :
    (pieces sep cs).getLast? = some p ↔ cs = p ∨ (sep :: p) <:+ cs := by
  have hsingle : pieces sep p = [p] := by rw [pieces_eq_splitOn, List.splitOn_eq_singleton hp]
  constructor
  · intro h
    obtain ⟨ps, hpieces⟩ := List.getLast?_eq_some_iff.mp h
    have hcs := intercalate_pieces sep cs
    rw [hpieces] at hcs
    by_cases hps : ps = []
    · rw [hps, List.nil_append, List.intercalate_singleton] at hcs
      exact Or.inl hcs.symm
    · rw [intercalate_append sep hps (List.cons_ne_nil _ _), List.intercalate_singleton] at hcs
      exact Or.inr ⟨_, hcs⟩
  · rintro (rfl | ⟨front, rfl⟩)
    · rw [hsingle]
      rfl
    · rw [pieces_append_cons, hsingle, List.getLast?_concat]

theorem mem_of_mem_pieces {c : Char} (h : p ∈ pieces sep cs) (hc : c ∈ p) : c ∈ cs := by
  rw [← intercalate_pieces sep cs]
  exact mem_intercalate h hc

/-- Joining with a separator and a blank is joining with the separator pieces that begin with the
blank, the first one apart. -/
theorem intercalate_pair (sep blank : Char) (p : List Char) (ps : List (List Char)) :
    [sep, blank].intercalate (p :: ps) = [sep].intercalate (p :: ps.map (blank :: ·)) := by
  induction ps generalizing p with
  | nil => rfl
  | cons q ps ih =>
    rw [List.intercalate_cons_cons, ih, List.map_cons, List.intercalate_cons_cons]
    cases ps <;> simp [List.intercalate_cons_cons]

/-! ### Two parts -/

theorem cut?_append (h : sep ∉ p) : cut? sep (p ++ sep :: cs) = some (p, cs) := by
  induction p with
  | nil => rw [List.nil_append, cut?, if_pos rfl]
  | cons c p ih =>
    rw [List.cons_append, cut?, if_neg (List.ne_of_not_mem_cons h).symm,
      ih (List.not_mem_of_not_mem_cons h)]
    rfl

theorem cut?_eq_none (h : sep ∉ cs) : cut? sep cs = none := by
  induction cs with
  | nil => rfl
  | cons c cs ih =>
    rw [cut?, if_neg (List.ne_of_not_mem_cons h).symm, ih (List.not_mem_of_not_mem_cons h)]
    rfl

theorem cut?_eq_some {before after : List Char} (h : cut? sep cs = some (before, after)) :
    sep ∉ before ∧ cs = before ++ sep :: after := by
  induction cs generalizing before with
  | nil => cases h
  | cons c cs ih =>
    rw [cut?] at h
    split at h
    · next hc =>
      cases h
      exact ⟨List.not_mem_nil, by rw [hc]; rfl⟩
    · next hc =>
      obtain ⟨⟨b, a⟩, hcut, he⟩ := Option.map_eq_some_iff.mp h
      cases he
      obtain ⟨hb, rfl⟩ := ih hcut
      exact ⟨List.not_mem_cons_of_ne_of_not_mem (fun he => hc he.symm) hb, rfl⟩

theorem cut?_of_mem (h : sep ∈ cs) :
    cut? sep cs = some (cs.takeWhile (· ≠ sep), (cs.dropWhile (· ≠ sep)).drop 1) := by
  induction cs with
  | nil => cases h
  | cons c cs ih =>
    by_cases hc : c = sep
    · simp [cut?, hc]
    · have hmem : sep ∈ cs := (List.mem_cons.mp h).resolve_left fun he => hc he.symm
      simp [cut?, hc, ih hmem]

/-! ### Blanks at the ends -/

theorem trim_eq (cs : List Char) : trim cs = (cs.dropWhile isBlank).rdropWhile isBlank := rfl

theorem mem_of_mem_trim {c : Char} (h : c ∈ trim cs) : c ∈ cs := by
  rw [trim_eq] at h
  exact (List.dropWhile_suffix _).subset ((List.rdropWhile_prefix _ _).subset h)

theorem trim_cons {c : Char} (h : isBlank c = true) : trim (c :: cs) = trim cs := by
  rw [trim, List.dropWhile_cons_of_pos h, trim]

/-- **Trimming once is enough.** -/
theorem trim_trim (cs : List Char) : trim (trim cs) = trim cs := by
  -- what is left begins as the text without its first blanks does, if anything is left
  have hhead : (trim cs).dropWhile isBlank = trim cs := by
    rw [List.dropWhile_eq_self_iff]
    intro hl
    have hpre : trim cs <+: cs.dropWhile isBlank := List.rdropWhile_prefix _ _
    have hlen := Nat.lt_of_lt_of_le hl hpre.length_le
    rw [hpre.getElem hl]
    exact List.dropWhile_get_zero_not isBlank cs hlen
  rw [trim_eq (trim cs), hhead, trim_eq, List.rdropWhile_idempotent]

end Redaction.Text
