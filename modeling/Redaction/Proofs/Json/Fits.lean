import Redaction.Proofs.Json.Grammar
import Redaction.Proofs.Json.NumberText
import Redaction.Proofs.Json.Outline
import Redaction.Proofs.Text.Cutting

/-!
# Values that can be written and read back

A value fits a depth if its containers stand in one another no deeper, no object in it has a key
twice, and the text of every number in it is read as that number (`Json.Fits`). What a document
denotes fits the depth of the reader if its doubles are read back (`fits_of_document`). A value
still fits if its parts give way to others that fit wherever the old ones did (`Fits.replaceAll`).
-/

namespace Redaction.Json

open Token (next?)
open Text (mem_intercalate)

/-- The value is no deeper than `room` containers, no object in it has a key twice, and the text of
every number in it is read as that number. -/
inductive Fits : Nat → Json → Prop
  | null (room : Nat) : Fits room null
  | bool (room : Nat) (b : Bool) : Fits room (bool b)
  | number {n : Number} (room : Nat) : Number.read? n.text = some n → Fits room (number n)
  | string (room : Nat) (s : String) : Fits room (string s)
  | array {room : Nat} {items : List Json} : (∀ v ∈ items, Fits room v) →
      Fits (room + 1) (array items)
  | object {room : Nat} {members : Members} : members.keys.Nodup →
      (∀ m ∈ members, Fits room m.2) → Fits (room + 1) (object members)

namespace Fits

variable {room : Nat} {root c v : Json} {s : Step} {p : Position}

theorem array_iff {items : List Json} :
    Fits room (.array items) ↔ ∃ n, room = n + 1 ∧ ∀ v ∈ items, Fits n v := by
  constructor
  · intro h
    cases h with
    | @array n _ hitems => exact ⟨n, rfl, hitems⟩
  · rintro ⟨n, rfl, hitems⟩
    exact .array hitems

theorem object_iff {ms : Members} : Fits room (.object ms) ↔
    ∃ n, room = n + 1 ∧ ms.keys.Nodup ∧ ∀ m ∈ ms, Fits n m.2 := by
  constructor
  · intro h
    cases h with
    | @object n _ hnodup hmembers => exact ⟨n, rfl, hnodup, hmembers⟩
  · rintro ⟨n, rfl, hnodup, hmembers⟩
    exact .object hnodup hmembers

/-! ### Replaced parts -/

/-- A part that gives way to one that fits wherever it did. -/
theorem setChild (h : Fits room root) (hc : root.child? s = some c)
    (hv : ∀ n, Fits n c → Fits n v) : Fits room (root.setChild s v) := by
  cases h with
  | @array n items hitems =>
    cases s with
    | member k => cases hc
    | element i =>
      refine .array fun w hw => ?_
      rcases List.mem_or_eq_of_mem_set hw with hw | rfl
      · exact hitems w hw
      · exact hv n (hitems c (List.mem_of_getElem? hc))
  | @object n ms hnodup hmembers =>
    cases s with
    | element i => cases hc
    | member k =>
      refine .object (by rwa [Members.keys_set]) fun m hm => ?_
      rcases Members.mem_set hm with hm | hm
      · exact hmembers m hm
      · exact hm ▸ hv n (hmembers _ (Members.mem_of_get? hc))
  | _ => cases hc

theorem replaceAt (h : Fits room root) (hc : root.at? p = some c)
    (hv : ∀ n, Fits n c → Fits n v) : Fits room (root.replaceAt p v) := by
  induction p generalizing root room with
  | nil =>
    obtain rfl := Option.some.inj hc
    exact hv room h
  | cons s p ih =>
    cases hd : root.child? s with
    | none => rwa [replaceAt_of_child?_none hd]
    | some d =>
      rw [at?_cons hd] at hc
      rw [replaceAt_cons hd]
      exact h.setChild hd fun n hn => ih hn hc

theorem replaceAll {edits : List (Position × Json)} (h : Fits room root)
    (hapart : edits.Pairwise fun a b => Position.Apart a.1 b.1)
    (hedits : ∀ e ∈ edits, ∃ c, root.at? e.1 = some c ∧ ∀ n, Fits n c → Fits n e.2) :
    Fits room (root.replaceAll edits) := by
  induction edits generalizing root with
  | nil => exact h
  | cons e edits ih =>
    obtain ⟨hhead, htail⟩ := List.pairwise_cons.mp hapart
    obtain ⟨c, hc, hv⟩ := hedits e List.mem_cons_self
    rw [replaceAll_cons]
    refine ih (h.replaceAt hc hv) htail fun e' he' => ?_
    rw [at?_replaceAt_of_apart (hhead e' he')]
    exact hedits e' (List.mem_cons_of_mem e he')

end Fits

/-! ### How deep a value is -/

theorem depthItems_le {room : Nat} {items : List Json} (h : ∀ v ∈ items, v.depth ≤ room) :
    depthItems items ≤ room := by
  induction items with
  | nil => exact Nat.zero_le room
  | cons v items ih =>
    rw [depthItems]
    exact Nat.max_le.mpr ⟨h v List.mem_cons_self, ih fun w hw => h w (List.mem_cons_of_mem v hw)⟩

theorem depthMembers_le {room : Nat} {members : Members} (h : ∀ m ∈ members, m.2.depth ≤ room) :
    depthMembers members ≤ room := by
  induction members with
  | nil => exact Nat.zero_le room
  | cons m members ih =>
    rw [depthMembers]
    exact Nat.max_le.mpr ⟨h m List.mem_cons_self, ih fun w hw => h w (List.mem_cons_of_mem m hw)⟩

theorem Fits.depth_le {room : Nat} {v : Json} (h : Fits room v) : v.depth ≤ room := by
  induction h with
  | array _ ih =>
    rw [depth]
    exact Nat.succ_le_succ (depthItems_le ih)
  | object _ _ ih =>
    rw [depth]
    exact Nat.succ_le_succ (depthMembers_le ih)
  | _ => exact Nat.zero_le _

/-! ### What documents denote -/

/-- A token as a text has it: its scalar is no string and no container, and an integer is exact. -/
def Token.Plain : Token → Prop
  | scalar v => v = .null ∨ (∃ b, v = .bool b) ∨ ∃ n, v = .number n ∧ n.Exact
  | _ => True

theorem Token.plain_of_next? {cs rest : List Char} {t : Token} (h : next? cs = some (t, rest)) :
    t.Plain := by
  have hword : ∀ {word : String} {v : Json} {cs : List Char}, Plain (scalar v) →
      word? word v cs = some (t, rest) → t.Plain := by
    intro word v cs hv h
    obtain ⟨-, h⟩ := Option.ite_none_right_eq_some.mp h
    rw [← (Prod.mk.inj (Option.some.inj h)).1]
    exact hv
  unfold next? at h
  split at h
  · cases h
  · split at h
    case h_7 =>
      obtain ⟨⟨s, r⟩, -, hs⟩ := Option.map_eq_some_iff.mp h
      rw [← (Prod.mk.inj hs).1]
      trivial
    case h_8 => exact hword (Or.inr (Or.inl ⟨true, rfl⟩)) h
    case h_9 => exact hword (Or.inr (Or.inl ⟨false, rfl⟩)) h
    case h_10 => exact hword (Or.inl rfl) h
    case h_11 =>
      obtain ⟨-, h⟩ := Option.ite_none_right_eq_some.mp h
      obtain ⟨n, hn, ht⟩ := Option.map_eq_some_iff.mp h
      rw [← (Prod.mk.inj ht).1]
      exact Or.inr (Or.inr ⟨n, rfl, Number.exact_read? hn⟩)
    all_goals
      rw [← (Prod.mk.inj (Option.some.inj h)).1]
      trivial

theorem Lexed.plain {cs rest : List Char} {ts : List Token} (h : Lexed cs ts rest) :
    ∀ t ∈ ts, t.Plain := by
  induction h with
  | done => exact nofun
  | space _ _ ih => exact ih
  | token ht _ ih => exact List.forall_mem_cons.mpr ⟨Token.plain_of_next? ht, ih⟩

/-- The text of every double in the value is read as that double. -/
def ReadsDoubles (v : Json) : Prop :=
  ∀ p x, v.at? p = some (.number (.double x)) →
    Number.read? (Number.double x).text = some (.double x)

theorem ReadsDoubles.child? {v c : Json} {s : Step} (h : v.ReadsDoubles)
    (hc : v.child? s = some c) : c.ReadsDoubles := by
  intro p x hx
  exact h (s :: p) x (by rw [at?_cons hc, hx])

theorem fits_of_spells {room : Nat} {ts : List Token} {v : Json} (h : Spells room ts v)
    (hplain : ∀ t ∈ ts, t.Plain) (hdoubles : v.ReadsDoubles) : Fits room v := by
  induction h with
  | string room s => exact .string room s
  | scalar room v =>
    rcases hplain _ (List.mem_singleton.mpr rfl) with rfl | ⟨b, rfl⟩ | ⟨n, rfl, hn⟩
    · exact .null room
    · exact .bool room b
    · cases n with
      | int n => exact .number room (Number.read?_text_int hn)
      | double x => exact .number room (hdoubles [] x rfl)
  | @array room parts _ ih =>
    refine .array (List.forall_mem_map.mpr fun i hi => ih i hi (fun t ht => ?_) ?_)
    · have hmem : t ∈ [Token.comma].intercalate (parts.map Prod.fst) :=
        mem_intercalate (List.mem_map_of_mem hi) ht
      exact hplain t (List.mem_append_left _ (List.mem_cons_of_mem _ hmem))
    · have hitem : i.2 ∈ parts.map Prod.snd := List.mem_map_of_mem hi
      obtain ⟨n, hn⟩ := List.getElem?_of_mem hitem
      have hchild : (Json.array (parts.map Prod.snd)).child? (.element n) = some i.2 := hn
      exact hdoubles.child? hchild
  | @object room parts _ ih =>
    have hnodup := Members.nodup_keys_gather (parts.map fun m => (m.1, m.2.2))
    refine .object hnodup fun m hm => ?_
    have hchild : (Json.object (Members.gather (parts.map fun m => (m.1, m.2.2)))).child?
        (.member m.1) = some m.2 := Members.get?_of_mem hnodup hm
    obtain ⟨part, hpart, rfl⟩ := List.mem_map.mp (Members.mem_of_mem_gather hm)
    refine ih part hpart (fun t ht => ?_) ?_
    · have hmem : t ∈ [Token.comma].intercalate (parts.map memberTokens) :=
        mem_intercalate (List.mem_map_of_mem hpart)
          (List.mem_cons_of_mem _ (List.mem_cons_of_mem _ ht))
      exact hplain t (List.mem_append_left _ (List.mem_cons_of_mem _ hmem))
    · exact hdoubles.child? hchild

theorem Fits.child? {room : Nat} {root c : Json} {s : Step} (h : Fits room root)
    (hc : root.child? s = some c) : ∃ n, Fits n c := by
  cases h with
  | @array n items hitems =>
    cases s with
    | member k => cases hc
    | element i => exact ⟨n, hitems c (List.mem_of_getElem? hc)⟩
  | @object n ms _ hmembers =>
    cases s with
    | element i => cases hc
    | member k => exact ⟨n, hmembers _ (Members.mem_of_get? hc)⟩
  | _ => cases hc

/-- The doubles of a value that fits are read back, at whatever depth. -/
theorem Fits.readsDoubles {room : Nat} {v : Json} (h : Fits room v) : v.ReadsDoubles := by
  intro p x hx
  induction p generalizing room v with
  | nil =>
    obtain rfl := Option.some.inj hx
    cases h with
    | number _ hread => exact hread
  | cons s p ih =>
    cases hc : v.child? s with
    | none =>
      rw [at?_of_child?_none hc] at hx
      cases hx
    | some c =>
      rw [at?_cons hc] at hx
      obtain ⟨n, hn⟩ := h.child? hc
      exact ih hn hx

/-- **What a document denotes fits the reader, if its doubles are read back.** -/
theorem fits_of_document {text : String} {v : Json} (h : Document text v)
    (hdoubles : v.ReadsDoubles) : Fits Reading.maxDepth v := by
  obtain ⟨ts, hlexed, hspells⟩ := h
  exact fits_of_spells hspells hlexed.plain hdoubles

end Redaction.Json
