import Redaction.Proofs.Json.Grammar
import Redaction.Proofs.Text.Cutting

/-!
# The reader accepts the documents

The reader does not know the grammar: it takes the tokens one by one and keeps the containers that
it is in. Reading what spells a value ends with that value (`feed?_of_spells`). What has been read
at any time is the beginning of a value, with every token (`Reached.step`) and so with many
(`Reached.feed`). So the reader accepts the documents and nothing else (`parse?_eq_some_iff`).
-/

namespace Redaction.Json

open Token (isSpace next?)
open Text (intercalate_append_singleton)

namespace Reading

variable {r r' : Reading} {t : Token} {ts us rest : List Token} {v : Json} {within : List Open}
  {room : Nat}

/-! ### Token by token -/

/-- Reads tokens. -/
def feed? (r : Reading) (ts : List Token) : Option Reading := ts.foldlM step? r

theorem feed?_cons (r : Reading) (t : Token) (ts : List Token) :
    r.feed? (t :: ts) = (r.step? t).bind fun r => r.feed? ts := rfl

theorem feed?_of_step? (h : r.step? t = some r') (ts : List Token) :
    r.feed? (t :: ts) = r'.feed? ts := by
  rw [feed?_cons, h]
  rfl

theorem run?_of_isSpace {c : Char} {cs : List Char} (h : isSpace c = true) :
    r.run? (c :: cs) = r.run? cs := by
  rw [run?, if_pos h]

theorem run?_of_next? {cs rest : List Char} (h : next? cs = some (t, rest)) :
    r.run? cs = (r.step? t).bind fun r => r.run? rest := by
  cases cs with
  | nil => cases h
  | cons c cs =>
    have hc : ¬ isSpace c = true := by
      intro hc
      simp only [isSpace, Bool.or_eq_true, decide_eq_true_eq] at hc
      rcases hc with ((rfl | rfl) | rfl) | rfl <;> cases h
    rw [run?, if_neg hc]
    split
    · next t' rest' h' =>
      obtain ⟨rfl, rfl⟩ := Prod.mk.inj (Option.some.inj (h.symm.trans h'))
      cases r.step? t <;> rfl
    · next h' => rw [h] at h'; cases h'

theorem run?_of_lexed {cs : List Char} (h : Lexed cs ts []) :
    r.run? cs = (r.feed? ts).bind fun r => r.run? [] := by
  generalize hrest : ([] : List Char) = rest at h
  induction h generalizing r with
  | done => subst hrest; rfl
  | space hc _ ih => rw [run?_of_isSpace hc, ih hrest]
  | token ht _ ih =>
    rw [run?_of_next? ht, feed?_cons, Option.bind_assoc]
    exact congrArg _ (funext fun r => ih hrest)

theorem run?_nil : r.run? [] = some v ↔ r = after [] v := by
  unfold run?
  split
  · simp
  · next h =>
    constructor
    · intro h'
      cases h'
    · rintro rfl
      exact absurd rfl (h v)

/-- A text is read as the tokens that it is cut into. -/
theorem run?_eq_some_iff {cs : List Char} :
    r.run? cs = some v ↔ ∃ ts, Lexed cs ts [] ∧ r.feed? ts = some (after [] v) := by
  constructor
  · intro h
    fun_induction run? r cs with
    | case1 w =>
      obtain rfl := Option.some.inj h
      exact ⟨[], .done [], rfl⟩
    | case2 => cases h
    | case3 r c cs hc ih =>
      obtain ⟨ts, hlex, hfeed⟩ := ih h
      exact ⟨ts, .space hc hlex, hfeed⟩
    | case4 r c cs hc t rest hnext r' hstep ih =>
      obtain ⟨ts, hlex, hfeed⟩ := ih h
      exact ⟨t :: ts, .token hnext hlex, by rw [feed?_cons, hstep]; exact hfeed⟩
    | case5 => cases h
    | case6 => cases h
  · rintro ⟨ts, hlex, hfeed⟩
    rw [run?_of_lexed hlex, hfeed]
    exact run?_nil.mpr rfl

/-! ### What is spelled is read -/

/-- How the reader takes what stands between commas in a container. A piece is read in the state
`before`; the state behind it is `beyond`, and `next` is what has been read with it. -/
structure Listing (α σ : Type) where
  piece : α → List Token
  before : σ → Reading
  beyond : σ → α → Reading
  next : σ → α → σ
  close : Token
  closed : σ → Reading
  step?_comma : ∀ s a, (beyond s a).step? .comma = some (before (next s a))
  step?_close : ∀ s a, (beyond s a).step? close = some (closed (next s a))

/-- The items of an array, with the tokens that spell them. -/
def items (within : List Open) : Listing (List Token × Json) (List Json) where
  piece := Prod.fst
  before vs := value (.array vs :: within)
  beyond vs i := after (.array vs :: within) i.2
  next vs i := i.2 :: vs
  close := .closeArray
  closed vs := after within (.array vs.reverse)
  step?_comma _ _ := rfl
  step?_close _ _ := rfl

/-- The members of an object, with the tokens that spell their values. -/
def members (within : List Open) : Listing (String × List Token × Json) Members where
  piece := memberTokens
  before := key within
  beyond ms m := after (.object ms m.1 :: within) m.2.2
  next ms m := Members.put m.1 m.2.2 ms
  close := .closeObject
  closed ms := after within (.object ms)
  step?_comma _ _ := rfl
  step?_close _ _ := rfl

/-- Pieces are read one after another, up to the token that closes their container. -/
theorem Listing.feed? {α σ : Type} (l : Listing α σ) {as : List α} (hne : as ≠ [])
    (h : ∀ a ∈ as, ∀ s rest, (l.before s).feed? (l.piece a ++ rest) = (l.beyond s a).feed? rest)
    (s : σ) (rest : List Token) :
    (l.before s).feed? ([.comma].intercalate (as.map l.piece) ++ l.close :: rest) =
      (l.closed (as.foldl l.next s)).feed? rest := by
  induction as generalizing s with
  | nil => exact absurd rfl hne
  | cons a as ih =>
    have ha := h a List.mem_cons_self s
    cases as with
    | nil =>
      rw [List.map_singleton, List.intercalate_singleton, ha, feed?_of_step? (l.step?_close s a)]
      rfl
    | cons b as =>
      have hrest := ih (List.cons_ne_nil b as) (fun b hb => h b (List.mem_cons_of_mem a hb))
        (l.next s a)
      rw [List.map_cons, List.map_cons, List.intercalate_cons_cons, List.append_assoc,
        List.append_assoc, ha, List.singleton_append, feed?_of_step? (l.step?_comma s a),
        ← List.map_cons, hrest]
      rfl

theorem closed_items (parts : List (List Token × Json)) :
    (items within).closed (parts.foldl (items within).next []) =
      after within (.array (parts.map Prod.snd)) := by
  have hfold : ∀ vs : List Json, parts.foldl (items within).next vs =
      (parts.map Prod.snd).reverse ++ vs := by
    induction parts with
    | nil => exact fun vs => rfl
    | cons i parts ih =>
      intro vs
      rw [List.foldl_cons, ih, List.map_cons, List.reverse_cons, List.append_assoc]
      rfl
  show after within (.array (parts.foldl (items within).next []).reverse) = _
  rw [hfold, List.append_nil, List.reverse_reverse]

theorem closed_members (parts : List (String × List Token × Json)) :
    (members within).closed (parts.foldl (members within).next []) =
      after within (.object (Members.gather (parts.map fun m => (m.1, m.2.2)))) := by
  rw [Members.gather, List.foldl_map]
  rfl

theorem exists_cons_of_spells (h : Spells room ts v) :
    ∃ t us, ts = t :: us ∧ t ≠ .closeArray := by
  cases h with
  | string => exact ⟨_, _, rfl, by simp⟩
  | scalar => exact ⟨_, _, rfl, by simp⟩
  | array => exact ⟨_, _, rfl, by simp⟩
  | object => exact ⟨_, _, rfl, by simp⟩

/-- Where the first item may stand, an item does. -/
theorem feed?_firstItem (h : Spells room ts v) (more : List (List Token)) :
    (firstItem within).feed? ([.comma].intercalate (ts :: more) ++ rest) =
      (value (.array [] :: within)).feed? ([.comma].intercalate (ts :: more) ++ rest) := by
  obtain ⟨t, us, rfl, ht⟩ := exists_cons_of_spells h
  rw [List.intercalate_cons_cons_left, List.cons_append, feed?_cons, feed?_cons]
  cases t with
  | closeArray => exact absurd rfl ht
  | _ => rfl

/-- Where the first key may stand, a member does. -/
theorem feed?_firstKey (m : String × List Token × Json) (more : List (List Token)) :
    (firstKey within).feed? ([.comma].intercalate (memberTokens m :: more) ++ rest) =
      (key within []).feed? ([.comma].intercalate (memberTokens m :: more) ++ rest) := by
  rw [memberTokens, List.intercalate_cons_cons_left]
  rfl

/-- **The tokens that spell a value are read as that value.** -/
theorem feed?_of_spells (h : Spells room ts v) (hroom : within.length + room ≤ maxDepth)
    (rest : List Token) : (value within).feed? (ts ++ rest) = (after within v).feed? rest := by
  induction h generalizing within rest with
  | string => rfl
  | scalar => rfl
  | @array room parts hparts ih =>
    have hopen : (value within).step? .openArray = some (firstItem within) := if_pos (by omega)
    rw [List.append_assoc, List.cons_append, feed?_of_step? hopen]
    cases parts with
    | nil => rfl
    | cons i parts =>
      have hread := (items within).feed? (List.cons_ne_nil i parts)
        (fun i hi vs rest => ih i hi (by rw [List.length_cons]; omega) rest) [] rest
      rw [List.map_cons, feed?_firstItem (hparts i List.mem_cons_self), ← List.map_cons,
        ← closed_items, ← hread]
      rfl
  | @object room parts _ ih =>
    have hopen : (value within).step? .openObject = some (firstKey within) := if_pos (by omega)
    rw [List.append_assoc, List.cons_append, feed?_of_step? hopen]
    cases parts with
    | nil => rfl
    | cons m parts =>
      have hread := (members within).feed? (List.cons_ne_nil m parts)
        (fun m hm ms rest => ih m hm (by rw [List.length_cons]; omega) rest) [] rest
      rw [List.map_cons, feed?_firstKey, ← List.map_cons, ← closed_members, ← hread]
      rfl

/-! ### What is read is spelled -/

/-- The tokens open these containers, up to where a value may stand in the innermost one; within
that value there is room for further ones. -/
inductive Opened : Nat → List Token → List Open → Prop
  | nil : Opened maxDepth [] []
  | array {room : Nat} {ts : List Token} {within : List Open} (parts : List (List Token × Json)) :
      Opened (room + 1) ts within → (∀ i ∈ parts, Spells room i.1 i.2) →
      Opened room (ts ++ .openArray :: parts.flatMap fun i => i.1 ++ [.comma])
        (.array (parts.map Prod.snd).reverse :: within)
  | object {room : Nat} {ts : List Token} {within : List Open}
      (parts : List (String × List Token × Json)) (k : String) :
      Opened (room + 1) ts within → (∀ m ∈ parts, Spells room m.2.1 m.2.2) →
      Opened room
        (ts ++ .openObject :: (parts.flatMap fun m => memberTokens m ++ [.comma]) ++
          [.string k, .colon])
        (.object (Members.gather (parts.map fun m => (m.1, m.2.2))) k :: within)

/-- The tokens lead to the state. -/
inductive Reached : List Token → Reading → Prop
  | value {room : Nat} {ts : List Token} {within : List Open} :
      Opened room ts within → Reached ts (value within)
  | firstItem {room : Nat} {ts : List Token} {within : List Open} :
      Opened (room + 1) ts within → Reached (ts ++ [.openArray]) (firstItem within)
  | firstKey {room : Nat} {ts : List Token} {within : List Open} :
      Opened (room + 1) ts within → Reached (ts ++ [.openObject]) (firstKey within)
  | key {room : Nat} {ts : List Token} {within : List Open}
      (parts : List (String × List Token × Json)) :
      Opened (room + 1) ts within → (∀ m ∈ parts, Spells room m.2.1 m.2.2) →
      Reached (ts ++ .openObject :: parts.flatMap fun m => memberTokens m ++ [.comma])
        (key within (Members.gather (parts.map fun m => (m.1, m.2.2))))
  | colon {room : Nat} {ts : List Token} {within : List Open}
      (parts : List (String × List Token × Json)) (k : String) :
      Opened (room + 1) ts within → (∀ m ∈ parts, Spells room m.2.1 m.2.2) →
      Reached (ts ++ .openObject :: (parts.flatMap fun m => memberTokens m ++ [.comma]) ++
          [.string k])
        (colon within (Members.gather (parts.map fun m => (m.1, m.2.2))) k)
  | after {room : Nat} {ts us : List Token} {within : List Open} {v : Json} :
      Opened room ts within → Spells room us v → Reached (ts ++ us) (after within v)

theorem Opened.room_eq (h : Opened room ts within) : within.length + room = maxDepth := by
  induction h with
  | nil => exact Nat.zero_add _
  | array parts _ _ ih => rw [List.length_cons]; omega
  | object parts k _ _ ih => rw [List.length_cons]; omega

/-- An array ends after its last item. -/
theorem spells_array (parts : List (List Token × Json)) (hparts : ∀ i ∈ parts, Spells room i.1 i.2)
    (h : Spells room us v) :
    Spells (room + 1)
      (.openArray :: (parts.flatMap fun i => i.1 ++ [.comma]) ++ us ++ [.closeArray])
      (.array (v :: (parts.map Prod.snd).reverse).reverse) := by
  have hall : ∀ i ∈ parts ++ [(us, v)], Spells room i.1 i.2 :=
    List.forall_mem_append.mpr ⟨hparts, List.forall_mem_singleton.mpr h⟩
  have := Spells.array (parts ++ [(us, v)]) hall
  rw [List.map_append, List.map_singleton, intercalate_append_singleton, List.flatMap_map] at this
  simpa using this

/-- An object ends after its last member. -/
theorem spells_object (parts : List (String × List Token × Json)) (k : String)
    (hparts : ∀ m ∈ parts, Spells room m.2.1 m.2.2) (h : Spells room us v) :
    Spells (room + 1)
      (.openObject :: (parts.flatMap fun m => memberTokens m ++ [.comma]) ++
        memberTokens (k, us, v) ++ [.closeObject])
      (.object (Members.put k v (Members.gather (parts.map fun m => (m.1, m.2.2))))) := by
  have hall : ∀ m ∈ parts ++ [(k, us, v)], Spells room m.2.1 m.2.2 :=
    List.forall_mem_append.mpr ⟨hparts, List.forall_mem_singleton.mpr h⟩
  have := Spells.object (parts ++ [(k, us, v)]) hall
  rw [List.map_append, List.map_singleton, intercalate_append_singleton, List.flatMap_map,
    List.map_append, List.map_singleton, Members.gather_append_singleton] at this
  simpa using this

theorem Reached.start (h : Opened room ts within) (hstart : start? within t = some r) :
    Reached (ts ++ [t]) r := by
  have hroom := h.room_eq
  cases t with
  | openArray =>
    obtain ⟨hlt, hr⟩ := Option.ite_none_right_eq_some.mp hstart
    obtain rfl := Option.some.inj hr
    obtain ⟨room, rfl⟩ : ∃ n, room = n + 1 := ⟨room - 1, by omega⟩
    exact .firstItem h
  | openObject =>
    obtain ⟨hlt, hr⟩ := Option.ite_none_right_eq_some.mp hstart
    obtain rfl := Option.some.inj hr
    obtain ⟨room, rfl⟩ : ∃ n, room = n + 1 := ⟨room - 1, by omega⟩
    exact .firstKey h
  | string s =>
    obtain rfl := Option.some.inj hstart
    exact .after h (.string room s)
  | scalar v =>
    obtain rfl := Option.some.inj hstart
    exact .after h (.scalar room v)
  | _ => cases hstart

/-- **One token leads on.** -/
theorem Reached.step (h : Reached ts r) (hstep : r.step? t = some r') : Reached (ts ++ [t]) r' := by
  cases h with
  | value hopen => exact .start hopen hstep
  | @firstItem room ts within hopen =>
    by_cases ht : t = .closeArray
    · subst ht
      obtain rfl := Option.some.inj hstep
      rw [List.append_assoc]
      exact .after hopen (.array [] (by simp))
    · have hstart : start? (.array [] :: within) t = some r' := by
        rw [← hstep]
        cases t <;> first | rfl | exact absurd rfl ht
      exact .start (.array [] hopen (by simp)) hstart
  | @firstKey room ts within hopen =>
    cases t with
    | closeObject =>
      obtain rfl := Option.some.inj hstep
      rw [List.append_assoc]
      exact .after hopen (.object [] (by simp))
    | string k =>
      obtain rfl := Option.some.inj hstep
      exact .colon [] k hopen (by simp)
    | _ => cases hstep
  | key parts hopen hparts =>
    cases t with
    | string k =>
      obtain rfl := Option.some.inj hstep
      exact .colon parts k hopen hparts
    | _ => cases hstep
  | colon parts k hopen hparts =>
    cases t with
    | colon =>
      obtain rfl := Option.some.inj hstep
      rw [List.append_assoc]
      exact .value (.object parts k hopen hparts)
    | _ => cases hstep
  | @after room ts us within v hopen hv =>
    cases hopen with
    | nil => cases t <;> cases hstep
    | @array _ ts within parts hopen hparts =>
      cases t with
      | comma =>
        obtain rfl := Option.some.inj hstep
        have hall : ∀ i ∈ parts ++ [(us, v)], Spells room i.1 i.2 :=
          List.forall_mem_append.mpr ⟨hparts, List.forall_mem_singleton.mpr hv⟩
        have := Reached.value (.array (parts ++ [(us, v)]) hopen hall)
        simpa using this
      | closeArray =>
        obtain rfl := Option.some.inj hstep
        have := Reached.after hopen (spells_array parts hparts hv)
        simpa using this
      | _ => cases hstep
    | object parts k hopen hparts =>
      cases t with
      | comma =>
        obtain rfl := Option.some.inj hstep
        have hall : ∀ m ∈ parts ++ [(k, us, v)], Spells room m.2.1 m.2.2 :=
          List.forall_mem_append.mpr ⟨hparts, List.forall_mem_singleton.mpr hv⟩
        have := Reached.key (parts ++ [(k, us, v)]) hopen hall
        rw [List.map_append, List.map_singleton, Members.gather_append_singleton] at this
        simpa [memberTokens] using this
      | closeObject =>
        obtain rfl := Option.some.inj hstep
        have := Reached.after hopen (spells_object parts k hparts hv)
        simpa [memberTokens] using this
      | _ => cases hstep

/-- Further tokens lead on. -/
theorem Reached.feed (h : Reached ts r) (hfeed : r.feed? us = some r') : Reached (ts ++ us) r' := by
  induction us generalizing ts r with
  | nil =>
    obtain rfl := Option.some.inj hfeed
    rwa [List.append_nil]
  | cons u us ih =>
    rw [feed?_cons] at hfeed
    obtain ⟨r₁, hstep, hrest⟩ := Option.bind_eq_some_iff.mp hfeed
    rw [List.append_cons]
    exact ih (h.step hstep) hrest

/-- **The reader ends with a value if and only if the tokens spell it.** -/
theorem feed?_eq_some_iff : (value []).feed? ts = some (after [] v) ↔ Spells maxDepth ts v := by
  constructor
  · intro hfeed
    have hreached : Reached ts (after [] v) := Reached.feed (.value .nil) hfeed
    generalize hr : after [] v = r at hreached
    cases hreached with
    | after hopen hv =>
      obtain ⟨rfl, rfl⟩ := Reading.after.inj hr
      cases hopen
      exact hv
    | _ => cases hr
  · intro h
    have hread : (value []).feed? (ts ++ []) = (after [] v).feed? [] :=
      feed?_of_spells h (Nat.le_of_eq (Nat.zero_add _)) []
    rwa [List.append_nil] at hread

end Reading

/-- **The reader accepts the documents and nothing else, and gives the values that they denote.** -/
theorem parse?_eq_some_iff {text : String} {v : Json} :
    parse? text = some v ↔ Document text v := by
  rw [parse?, Reading.run?_eq_some_iff]
  simp only [Reading.feed?_eq_some_iff]
  rfl

theorem parse?_eq_none_iff {text : String} : parse? text = none ↔ ¬ ∃ v, Document text v := by
  rw [Option.eq_none_iff_forall_ne_some, not_exists]
  exact forall_congr' fun v => not_congr parse?_eq_some_iff

end Redaction.Json
