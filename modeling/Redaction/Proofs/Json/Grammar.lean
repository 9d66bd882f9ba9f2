import Mathlib.Data.List.Induction
import Redaction.Json.Reader

/-!
# What a JSON document is

A text is a document if it can be cut into tokens (`Lexed`) that spell a value (`Spells`) in which
arrays and objects stand in one another at most 127 deep (`Document`). The members of an object are
gathered in the order in which their keys come first (`Members.gather`).
-/

namespace Redaction

/-- The members of an object as they are written: a key that comes again keeps its first place and
takes the last value. -/
def Members.gather (ms : Members) : Members :=
  ms.foldl (fun done m => Members.put m.1 m.2 done) []

namespace Members

variable {k : String} {v : Json} {m : String × Json} {ms : Members}

theorem keys_put_of_mem (h : k ∈ ms.keys) : (put k v ms).keys = ms.keys := by
  induction ms with
  | nil => cases h
  | cons m ms ih =>
    by_cases hk : m.1 = k
    · rw [put, if_pos hk]
      rfl
    · rw [put, if_neg hk]
      have hrest := (List.mem_cons.mp h).resolve_left fun he => hk he.symm
      exact congrArg (m.1 :: ·) (ih hrest)

theorem put_of_not_mem (h : k ∉ ms.keys) : put k v ms = ms ++ [(k, v)] := by
  induction ms with
  | nil => rfl
  | cons m ms ih =>
    obtain ⟨hne, hrest⟩ := not_or.mp fun hm => h (List.mem_cons.mpr hm)
    rw [put, if_neg fun he => hne he.symm, ih hrest]
    rfl

theorem nodup_keys_put (h : ms.keys.Nodup) : (put k v ms).keys.Nodup := by
  by_cases hk : k ∈ ms.keys
  · rwa [keys_put_of_mem hk]
  · have hdisjoint : ∀ k' ∈ ms.keys, ∀ k'' ∈ [k], k' ≠ k'' := by
      rintro k' hk' k'' hk'' rfl
      exact hk (List.mem_singleton.mp hk'' ▸ hk')
    rw [put_of_not_mem hk, keys, List.map_append]
    exact List.nodup_append.mpr ⟨h, List.pairwise_singleton _ k, hdisjoint⟩

theorem mem_put (h : m ∈ put k v ms) : m = (k, v) ∨ m ∈ ms := by
  induction ms with
  | nil => exact Or.inl (List.mem_singleton.mp h)
  | cons m₀ ms ih =>
    by_cases hk : m₀.1 = k
    · rw [put, if_pos hk, hk] at h
      exact (List.mem_cons.mp h).imp id (List.mem_cons_of_mem m₀)
    · rw [put, if_neg hk] at h
      rcases List.mem_cons.mp h with rfl | h
      · exact Or.inr List.mem_cons_self
      · exact (ih h).imp id (List.mem_cons_of_mem m₀)

theorem gather_append_singleton (ms : Members) (m : String × Json) :
    gather (ms ++ [m]) = put m.1 m.2 (gather ms) := by
  rw [gather, List.foldl_append]
  rfl

theorem nodup_keys_gather (ms : Members) : (gather ms).keys.Nodup := by
  induction ms using List.reverseRecOn with
  | nil => exact List.nodup_nil
  | append_singleton ms m ih =>
    rw [gather_append_singleton]
    exact nodup_keys_put ih

theorem mem_of_mem_gather (h : m ∈ gather ms) : m ∈ ms := by
  induction ms using List.reverseRecOn with
  | nil => cases h
  | append_singleton ms m' ih =>
    rw [gather_append_singleton] at h
    rcases mem_put h with rfl | h
    · exact List.mem_append_right ms (List.mem_singleton.mpr rfl)
    · exact List.mem_append_left _ (ih h)

/-- Members without a key twice stay as they are written. -/
theorem gather_of_nodup (h : ms.keys.Nodup) : gather ms = ms := by
  induction ms using List.reverseRecOn with
  | nil => rfl
  | append_singleton ms m ih =>
    rw [keys, List.map_append, List.nodup_append] at h
    rw [gather_append_singleton, ih h.1]
    refine put_of_not_mem fun hm => ?_
    exact h.2.2 m.1 hm m.1 (List.mem_singleton.mpr rfl) rfl

end Members

namespace Json

open Token (isSpace next?)

/-! ### Texts and tokens -/

/-- Tokens, with any white space around them, up to a rest. -/
inductive Lexed : List Char → List Token → List Char → Prop
  | done (rest : List Char) : Lexed rest [] rest
  | space {c : Char} {cs rest : List Char} {ts : List Token} :
      isSpace c = true → Lexed cs ts rest → Lexed (c :: cs) ts rest
  | token {t : Token} {cs cs' rest : List Char} {ts : List Token} :
      next? cs = some (t, cs') → Lexed cs' ts rest → Lexed cs (t :: ts) rest

theorem Lexed.trans {as bs cs : List Char} {ts us : List Token} (h : Lexed as ts bs)
    (h' : Lexed bs us cs) : Lexed as (ts ++ us) cs := by
  induction h with
  | done => exact h'
  | space hc _ ih => exact .space hc (ih h')
  | token ht _ ih => exact .token ht (ih h')

/-! ### Tokens and values -/

/-- The tokens of a member behind its key. -/
def memberTokens (m : String × List Token × Json) : List Token := .string m.1 :: .colon :: m.2.1

/-- The tokens spell the value, within which containers stand at most `room` deep. -/
inductive Spells : Nat → List Token → Json → Prop
  | string (room : Nat) (s : String) : Spells room [.string s] (.string s)
  | scalar (room : Nat) (v : Json) : Spells room [.scalar v] v
  | array {room : Nat} (items : List (List Token × Json)) :
      (∀ i ∈ items, Spells room i.1 i.2) →
      Spells (room + 1) (.openArray :: [.comma].intercalate (items.map Prod.fst) ++ [.closeArray])
        (.array (items.map Prod.snd))
  | object {room : Nat} (members : List (String × List Token × Json)) :
      (∀ m ∈ members, Spells room m.2.1 m.2.2) →
      Spells (room + 1)
        (.openObject :: [.comma].intercalate (members.map memberTokens) ++ [.closeObject])
        (.object (Members.gather (members.map fun m => (m.1, m.2.2))))

/-- A text that denotes a value. -/
def Document (text : String) (v : Json) : Prop :=
  ∃ ts, Lexed text.toList ts [] ∧ Spells Reading.maxDepth ts v

end Json

end Redaction
