import Redaction.Json.Writer
import Redaction.Proofs.Json.Fits
import Redaction.Proofs.Json.Reading

/-!
# What is written is read back

The text of a string, of a number or of a word is one token, whatever follows it. A container is
written with white space before its parts and before its end, and is read if its parts are
(`Layout.reads_array`, `Layout.reads_object`); the two styles differ in nothing else. So what is
written of a value that fits the reader is a document that denotes it (`parse?_compact`,
`parse?_pretty`).
-/

namespace Redaction.Json

open Token (isNumeric isSpace next? escape? stringBody? hexUnit? codePoint?)
open Text (hexValue?)

/-! ### Strings -/

section Strings

variable {c : Char} {done cs rest : List Char}

theorem stringBody?_plain (hquote : c ≠ '"') (hbackslash : c ≠ '\\') (h : 0x20 ≤ c.toNat) :
    stringBody? done (c :: rest) = stringBody? (c :: done) rest := by
  rw [stringBody?, if_neg hquote, if_neg hbackslash, if_neg (Nat.not_lt.mpr h)]

theorem stringBody?_escape (h : escape? cs = some (c, rest)) :
    stringBody? done ('\\' :: cs) = stringBody? (c :: done) rest := by
  rw [stringBody?, if_neg (by decide), if_pos rfl]
  split
  · next c' rest' h' =>
    obtain ⟨rfl, rfl⟩ := Prod.mk.inj (Option.some.inj (h.symm.trans h'))
    rfl
  · next h' =>
    rw [h] at h'
    cases h'

theorem hexValue?_digitChar {n : Nat} (h : n < 16) : hexValue? (Nat.digitChar n) = some n := by
  revert n
  decide

/-- A control character is read from its number. -/
theorem escape?_control (h : c.toNat < 0x20) (rest : List Char) :
    escape? ('u' :: '0' :: '0' :: Nat.digitChar (c.toNat / 16) :: Nat.digitChar (c.toNat % 16) ::
      rest) = some (c, rest) := by
  have hzero : hexValue? '0' = some 0 := by decide
  have hunit : hexUnit? ('0' :: '0' :: Nat.digitChar (c.toNat / 16) ::
      Nat.digitChar (c.toNat % 16) :: rest) = some (c.toNat, rest) := by
    have hvalue : ((0 * 16 + 0) * 16 + c.toNat / 16) * 16 + c.toNat % 16 = c.toNat := by omega
    rw [hexUnit?, hzero, hexValue?_digitChar (by omega), hexValue?_digitChar (by omega)]
    simp only [Option.bind_eq_bind, Option.bind_some, hvalue]
    rfl
  have hlow : ¬ (0xDC00 ≤ c.toNat && c.toNat ≤ 0xDFFF) = true := by
    simp only [Bool.and_eq_true, decide_eq_true_eq]
    omega
  have hhigh : ¬ (0xD800 ≤ c.toNat && c.toNat ≤ 0xDBFF) = true := by
    simp only [Bool.and_eq_true, decide_eq_true_eq]
    omega
  show codePoint? _ = _
  rw [codePoint?, hunit]
  simp only [Option.bind_eq_bind, Option.bind_some]
  rw [if_neg hlow, if_neg hhigh, Char.ofNat_toNat]

/-- An escaped character is read as the character. -/
theorem stringBody?_escapeChar (done : List Char) (c : Char) (rest : List Char) :
    stringBody? done (escapeChar c ++ rest) = stringBody? (c :: done) rest := by
  unfold escapeChar
  -- behind the plain characters, five control characters have a letter of their own
  split_ifs with hquote hbackslash hplain h h h h h
  · subst hquote
    exact stringBody?_escape rfl
  · subst hbackslash
    exact stringBody?_escape rfl
  · exact stringBody?_plain hquote hbackslash hplain
  · subst h
    exact stringBody?_escape rfl
  · subst h
    exact stringBody?_escape rfl
  · subst h
    exact stringBody?_escape rfl
  · subst h
    exact stringBody?_escape rfl
  · subst h
    exact stringBody?_escape rfl
  · exact stringBody?_escape (escape?_control (Nat.lt_of_not_le hplain) rest)

theorem stringBody?_escaped (done cs rest : List Char) :
    stringBody? done (cs.flatMap escapeChar ++ '"' :: rest) =
      some (String.ofList (done.reverse ++ cs), rest) := by
  induction cs generalizing done with
  | nil =>
    rw [List.flatMap_nil, List.nil_append, List.append_nil, stringBody?, if_pos rfl]
  | cons c cs ih =>
    rw [List.flatMap_cons, List.append_assoc, stringBody?_escapeChar, ih, List.reverse_cons,
      List.append_assoc]
    rfl

theorem next?_stringText (s : String) (rest : List Char) :
    next? (stringText s ++ rest) = some (.string s, rest) := by
  have hbody := stringBody?_escaped [] s.toList rest
  rw [List.reverse_nil, List.nil_append, String.ofList_toList] at hbody
  rw [stringText, List.append_assoc, List.cons_append]
  show (stringBody? [] _).map _ = _
  rw [List.singleton_append, hbody]
  rfl

end Strings

/-! ### Words and numbers -/

theorem next?_boolText (b : Bool) (rest : List Char) :
    next? (boolText b ++ rest) = some (.scalar (.bool b), rest) := by
  cases b <;> rfl

theorem next?_null (rest : List Char) :
    next? ("null".toList ++ rest) = some (.scalar .null, rest) := rfl

theorem next?_text {n : Number} (h : Number.read? n.text = some n) {rest : List Char}
    (hrest : ∀ c ∈ rest.head?, isNumeric c = false) :
    next? (n.text ++ rest) = some (.scalar (.number n), rest) := by
  have hnumeric := n.isNumeric_text
  obtain ⟨c, cs, htext, hc⟩ := n.head_text
  rw [htext] at h hnumeric ⊢
  have hcs : ∀ c ∈ cs, isNumeric c = true := fun c hc => hnumeric c (List.mem_cons_of_mem _ hc)
  have hstop : rest.takeWhile isNumeric = [] ∧ rest.dropWhile isNumeric = rest := by
    cases rest with
    | nil => exact ⟨rfl, rfl⟩
    | cons d rest =>
      have hd : ¬ isNumeric d = true := by
        rw [hrest d rfl]
        decide
      exact ⟨List.takeWhile_cons_of_neg hd, List.dropWhile_cons_of_neg hd⟩
  have htake : (cs ++ rest).takeWhile isNumeric = cs := by
    rw [List.takeWhile_append_of_pos hcs, hstop.1, List.append_nil]
  have hdrop : (cs ++ rest).dropWhile isNumeric = rest := by
    rw [List.dropWhile_append_of_pos hcs, hstop.2]
  have hnext : ∀ ds : List Char, next? (c :: ds) =
      (Number.read? (c :: ds.takeWhile isNumeric)).map fun n =>
        (.scalar (.number n), ds.dropWhile isNumeric) := by
    intro ds
    unfold next?
    dsimp only
    split
    case h_11 => rw [if_pos hc]
    all_goals exact absurd hc (by decide)
  rw [List.cons_append, hnext, htake, hdrop, h]
  rfl

/-! ### Texts that are cut into tokens -/

/-- The text is cut into the tokens whatever follows it, if a number would end there. -/
def Lexes (text : List Char) (ts : List Token) : Prop :=
  ∀ rest, (∀ c ∈ rest.head?, isNumeric c = false) → Lexed (text ++ rest) ts rest

namespace Lexes

variable {c : Char} {as bs : List Char} {t : Token} {ts us : List Token}

theorem nil : Lexes [] [] := fun rest _ => .done rest

theorem token (h : ∀ rest, (∀ c ∈ rest.head?, isNumeric c = false) →
    next? (as ++ rest) = some (t, rest)) : Lexes as [t] :=
  fun rest hrest => .token (h rest hrest) (.done rest)

/-- A character that is a token of its own, and what follows it. -/
theorem cons (hc : ∀ rest, next? (c :: rest) = some (t, rest)) (h : Lexes as ts) :
    Lexes (c :: as) (t :: ts) :=
  fun rest hrest => .token (hc _) (h rest hrest)

theorem space (hc : isSpace c = true) (h : Lexes as ts) : Lexes (c :: as) ts :=
  fun rest hrest => .space hc (h rest hrest)

theorem spaces (hc : ∀ c ∈ as, isSpace c = true) (h : Lexes bs ts) : Lexes (as ++ bs) ts := by
  induction as with
  | nil => exact h
  | cons c as ih =>
    exact .space (hc c List.mem_cons_self) (ih fun d hd => hc d (List.mem_cons_of_mem c hd))

theorem append (h : Lexes as ts) (hbs : ∀ c ∈ bs.head?, isNumeric c = false) (h' : Lexes bs us) :
    Lexes (as ++ bs) (ts ++ us) := by
  intro rest hrest
  rw [List.append_assoc]
  refine (h (bs ++ rest) ?_).trans (h' rest hrest)
  intro c hc
  cases bs with
  | nil => exact hrest c hc
  | cons b bs => exact hbs c hc

/-- Texts with commas between them. -/
theorem intercalate {α : Type} {text : α → List Char} {tokens : α → List Token} {as : List α}
    (h : ∀ a ∈ as, Lexes (text a) (tokens a)) :
    Lexes ([','].intercalate (as.map text)) ([.comma].intercalate (as.map tokens)) := by
  induction as with
  | nil => exact nil
  | cons a as ih =>
    have ha := h a List.mem_cons_self
    cases as with
    | nil =>
      rw [List.map_singleton, List.map_singleton, List.intercalate_singleton,
        List.intercalate_singleton]
      exact ha
    | cons b as =>
      have hrest := ih fun c hc => h c (List.mem_cons_of_mem a hc)
      simp only [List.map_cons, List.intercalate_cons_cons, List.append_assoc,
        List.singleton_append] at hrest ⊢
      exact ha.append (by simp; decide) (hrest.cons fun _ => rfl)

end Lexes

/-! ### Values -/

/-- The text is cut into tokens that spell the value. -/
def Reads (room : Nat) (text : List Char) (v : Json) : Prop :=
  ∃ ts, Spells room ts v ∧ Lexes text ts

theorem reads_null (room : Nat) : Reads room "null".toList .null :=
  ⟨_, .scalar room .null, .token fun rest _ => next?_null rest⟩

theorem reads_bool (room : Nat) (b : Bool) : Reads room (boolText b) (.bool b) :=
  ⟨_, .scalar room (.bool b), .token fun rest _ => next?_boolText b rest⟩

theorem reads_number (room : Nat) {n : Number} (h : Number.read? n.text = some n) :
    Reads room n.text (.number n) :=
  ⟨_, .scalar room (.number n), .token fun _ hrest => next?_text h hrest⟩

theorem reads_string (room : Nat) (s : String) : Reads room (stringText s) (.string s) :=
  ⟨_, .string room s, .token fun rest _ => next?_stringText s rest⟩

/-! ### Containers -/

/-- White space ends a number. -/
theorem isNumeric_of_isSpace {c : Char} (h : isSpace c = true) : isNumeric c = false := by
  simp only [isSpace, Bool.or_eq_true, decide_eq_true_eq] at h
  rcases h with ((rfl | rfl) | rfl) | rfl <;> rfl

theorem isNumeric_head_append {as bs : List Char} {b : Char} (has : ∀ c ∈ as, isSpace c = true)
    (hb : isNumeric b = false) : ∀ c ∈ (as ++ b :: bs).head?, isNumeric c = false := by
  intro c hc
  cases as with
  | nil =>
    obtain rfl := Option.some.inj hc
    exact hb
  | cons a as =>
    obtain rfl := Option.some.inj hc
    exact isNumeric_of_isSpace (has a List.mem_cons_self)

/-- The white space of a container: before each of its parts, behind a colon, and before its end. -/
structure Layout where
  gap : List Char
  blank : List Char
  indent : List Char
  isSpace_gap : ∀ c ∈ gap, isSpace c = true
  isSpace_blank : ∀ c ∈ blank, isSpace c = true
  isSpace_indent : ∀ c ∈ indent, isSpace c = true

namespace Layout

variable {room : Nat} {write : Json → List Char} {items : List Json} {members : Members}

/-- The text of an array whose items are written by `write`. -/
def array (l : Layout) (write : Json → List Char) (items : List Json) : List Char :=
  '[' :: ([','].intercalate (items.map fun v => l.gap ++ write v) ++ (l.indent ++ [']']))

/-- The text of a member whose value is written by `write`. -/
def member (l : Layout) (write : Json → List Char) (m : String × Json) : List Char :=
  l.gap ++ (stringText m.1 ++ ':' :: (l.blank ++ write m.2))

/-- The text of an object whose values are written by `write`. -/
def object (l : Layout) (write : Json → List Char) (members : Members) : List Char :=
  '\x7b' :: ([','].intercalate (members.map (l.member write)) ++ (l.indent ++ ['\x7d']))

/-- An array is read if its items are. -/
theorem reads_array (l : Layout) (h : ∀ v ∈ items, Reads room (write v) v) :
    Reads (room + 1) (l.array write items) (.array items) := by
  choose! tokens hspells hlexes using h
  have hparts : ∀ i ∈ items.map (fun v => (tokens v, v)), Spells room i.1 i.2 :=
    List.forall_mem_map.mpr hspells
  have hitems := Lexes.intercalate fun v hv => Lexes.spaces l.isSpace_gap (hlexes v hv)
  have hclose : Lexes (l.indent ++ [']']) [.closeArray] :=
    .spaces l.isSpace_indent (.cons (fun _ => rfl) .nil)
  refine ⟨.openArray :: ([.comma].intercalate (items.map tokens) ++ [.closeArray]), ?_,
    .cons (fun _ => rfl)
      (hitems.append (isNumeric_head_append l.isSpace_indent rfl) hclose)⟩
  have harray := Spells.array _ hparts
  rw [List.map_map, List.map_map] at harray
  rwa [show items.map (Prod.snd ∘ fun v => (tokens v, v)) = items from List.map_id items] at harray

/-- An object without a key twice is read if its values are. -/
theorem reads_object (l : Layout) (hnodup : members.keys.Nodup)
    (h : ∀ m ∈ members, Reads room (write m.2) m.2) :
    Reads (room + 1) (l.object write members) (.object members) := by
  choose! tokens hspells hlexes using h
  have hparts : ∀ p ∈ members.map (fun m => (m.1, tokens m, m.2)), Spells room p.2.1 p.2.2 :=
    List.forall_mem_map.mpr hspells
  have hmember : ∀ m ∈ members,
      Lexes (l.member write m) (memberTokens (m.1, tokens m, m.2)) := by
    intro m hm
    have hkey : Lexes (stringText m.1) [.string m.1] :=
      .token fun rest _ => next?_stringText m.1 rest
    have hvalue : Lexes (':' :: (l.blank ++ write m.2)) (.colon :: tokens m) :=
      .cons (fun _ => rfl) (.spaces l.isSpace_blank (hlexes m hm))
    exact .spaces l.isSpace_gap (hkey.append (by simp; decide) hvalue)
  have hclose : Lexes (l.indent ++ ['\x7d']) [.closeObject] :=
    .spaces l.isSpace_indent (.cons (fun _ => rfl) .nil)
  refine ⟨.openObject :: ([.comma].intercalate
      (members.map fun m => memberTokens (m.1, tokens m, m.2)) ++ [.closeObject]), ?_,
    .cons (fun _ => rfl) ((Lexes.intercalate hmember).append
      (isNumeric_head_append l.isSpace_indent rfl) hclose)⟩
  have hobject := Spells.object _ hparts
  rw [List.map_map, List.map_map] at hobject
  rwa [show members.map ((fun m => (m.1, m.2.2)) ∘ fun m => (m.1, tokens m, m.2)) = members from
    List.map_id members, Members.gather_of_nodup hnodup] at hobject

/-- No white space. -/
def none : Layout where
  gap := []
  blank := []
  indent := []
  isSpace_gap := nofun
  isSpace_blank := nofun
  isSpace_indent := nofun

theorem isSpace_newLine (depth : Nat) : ∀ c ∈ newLine depth, isSpace c = true := by
  intro c hc
  rcases List.mem_cons.mp hc with rfl | hc
  · rfl
  · rw [List.eq_of_mem_replicate hc]
    rfl

/-- A container within `depth` others, with every part on a line of its own. -/
def lines (depth : Nat) : Layout where
  gap := newLine (depth + 1)
  blank := [' ']
  indent := newLine depth
  isSpace_gap := isSpace_newLine (depth + 1)
  isSpace_blank := List.forall_mem_singleton.mpr rfl
  isSpace_indent := isSpace_newLine depth

/-- A line is set between the brackets of an object, behind a key. -/
def wrapping : Layout where
  gap := []
  blank := [' ']
  indent := ['\n']
  isSpace_gap := nofun
  isSpace_blank := List.forall_mem_singleton.mpr rfl
  isSpace_indent := List.forall_mem_singleton.mpr rfl

/-! ### The layouts of both styles -/

/-- What is written with commas between its parts. -/
theorem eq_intercalate {α : Type} (all : List α → List Char) (text : α → List Char)
    (hnil : all [] = []) (hone : ∀ a, all [a] = text a)
    (hmore : ∀ a b as, all (a :: b :: as) = text a ++ ',' :: all (b :: as)) (as : List α) :
    all as = [','].intercalate (as.map text) := by
  induction as with
  | nil => exact hnil
  | cons a as ih =>
    cases as with
    | nil => rw [hone, List.map_singleton, List.intercalate_singleton]
    | cons b as =>
      rw [hmore, ih, List.map_cons, List.map_cons, List.map_cons, List.intercalate_cons_cons,
        List.append_assoc]
      rfl

theorem compactText_array (items : List Json) :
    compactText (.array items) = none.array compactText items := by
  rw [compactText, eq_intercalate compactItems compactText rfl (fun _ => rfl) (fun _ _ _ => rfl)]
  rfl

theorem compactText_object (members : Members) :
    compactText (.object members) = none.object compactText members := by
  have hmembers := eq_intercalate compactMembers (none.member compactText) rfl (fun _ => rfl)
    (fun m _ _ => by simp [compactMembers, member, none])
  rw [compactText, hmembers]
  rfl

theorem prettyText_array (depth : Nat) {items : List Json} (hne : items ≠ []) :
    prettyText depth (.array items) = (lines depth).array (prettyText (depth + 1)) items := by
  obtain ⟨v, items, rfl⟩ := List.exists_cons_of_ne_nil hne
  have hitems := eq_intercalate (prettyItems (depth + 1))
    (fun v => (lines depth).gap ++ prettyText (depth + 1) v) rfl (fun _ => rfl) (fun _ _ _ => rfl)
  rw [prettyText, hitems, List.append_assoc]
  rfl

theorem prettyText_object (depth : Nat) {members : Members} (hne : members ≠ []) :
    prettyText depth (.object members) =
      (lines depth).object (prettyText (depth + 1)) members := by
  obtain ⟨m, members, rfl⟩ := List.exists_cons_of_ne_nil hne
  have hmembers := eq_intercalate (prettyMembers (depth + 1))
    ((lines depth).member (prettyText (depth + 1))) rfl
    (fun _ => by simp [prettyMembers, member, lines])
    (fun m _ _ => by simp [prettyMembers, member, lines])
  rw [prettyText, hmembers, List.append_assoc]
  rfl

end Layout

/-! ### Values that are read back -/

variable {room : Nat} {v : Json}

theorem reads_compactText (h : Fits room v) : Reads room (compactText v) v := by
  induction h with
  | null room => exact reads_null room
  | bool room b => exact reads_bool room b
  | number room hn => exact reads_number room hn
  | string room s => exact reads_string room s
  | @array _ items _ ih =>
    rw [Layout.compactText_array items]
    exact Layout.none.reads_array ih
  | @object _ members hnodup _ ih =>
    rw [Layout.compactText_object members]
    exact Layout.none.reads_object hnodup ih

theorem reads_prettyText (h : Fits room v) (depth : Nat) : Reads room (prettyText depth v) v := by
  induction h generalizing depth with
  | null room =>
    rw [prettyText]
    exact reads_null room
  | bool room b =>
    rw [prettyText]
    exact reads_bool room b
  | number room hn =>
    rw [prettyText]
    exact reads_number room hn
  | string room s =>
    rw [prettyText]
    exact reads_string room s
  | @array room items _ ih =>
    by_cases hne : items = []
    · subst hne
      rw [prettyText]
      exact Layout.none.reads_array fun v hv => ih v hv depth
    · rw [Layout.prettyText_array depth hne]
      exact (Layout.lines depth).reads_array fun v hv => ih v hv (depth + 1)
  | @object room members hnodup _ ih =>
    by_cases hne : members = []
    · subst hne
      rw [prettyText]
      exact Layout.none.reads_object hnodup fun m hm => ih m hm depth
    · rw [Layout.prettyText_object depth hne]
      exact (Layout.lines depth).reads_object hnodup fun m hm => ih m hm (depth + 1)

/-- White space may follow a text. -/
theorem Reads.append_space {text space : List Char} (h : Reads room text v)
    (hspace : ∀ c ∈ space, isSpace c = true) : Reads room (text ++ space) v := by
  obtain ⟨ts, hspells, hlexes⟩ := h
  have hnil : Lexes space [] := List.append_nil space ▸ Lexes.spaces hspace .nil
  refine ⟨ts, hspells, ?_⟩
  rw [← List.append_nil ts]
  exact hlexes.append (fun c hc => isNumeric_of_isSpace (hspace c (List.mem_of_mem_head? hc))) hnil

theorem parse?_of_reads {text : List Char} (h : Reads Reading.maxDepth text v) :
    parse? (String.ofList text) = some v := by
  obtain ⟨ts, hspells, hlexes⟩ := h
  have hlexed := hlexes [] nofun
  rw [List.append_nil] at hlexed
  refine parse?_eq_some_iff.mpr ⟨ts, ?_, hspells⟩
  rwa [String.toList_ofList]

/-- **What is written without white space is read back.** -/
theorem parse?_compact (h : Fits Reading.maxDepth v) : parse? (compact v) = some v :=
  parse?_of_reads (reads_compactText h)

/-- What is written without white space is a document. -/
theorem document_of_compact {text : String} (h : Fits Reading.maxDepth v) (hv : compact v = text) :
    Document text v := by
  rw [← hv]
  exact parse?_eq_some_iff.mp (parse?_compact h)

/-- **What is written indented is read back.** -/
theorem parse?_pretty (h : Fits Reading.maxDepth v) : parse? (pretty v) = some v :=
  parse?_of_reads (reads_prettyText h 0)

end Redaction.Json
