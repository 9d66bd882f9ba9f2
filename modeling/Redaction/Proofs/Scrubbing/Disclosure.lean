import Redaction.Proofs.Mask.Likeness
import Redaction.Proofs.Scrubbing.Accounting
import Redaction.Proofs.Scrubbing.Repetition

/-!
# What the records disclose

Of the strings that it redacts a scrubber discloses in its records which it fails on, and of those
the pieces of cookie headers that errors quote. Two events that differ in such strings only are
alike before every rule (`RuleSpec.alike_effect`), so each rule writes the same records about them
but for the quotes (`RuleSpec.map_unquoted_report`), if it fails at the same positions. What is
quoted is known from the events (`RuleSpec.filterMap_quote?_report`), and the records are the same
if it is the same (`Config.records_scrub`).
-/

namespace Redaction

open Json Position

/-! ### Records without their quotes -/

namespace Record

/-- The record without the text that its error quotes. -/
def unquoted : Record → Record
  | redactorFailed redactor path error => redactorFailed redactor path error.unquoted
  | r => r

/-- The text that the error in the record quotes. -/
def quote? : Record → Option String
  | redactorFailed _ _ error => error.quote?
  | _ => none

variable {r s : Record} {rs ss : List Record}

/-- Records that are the same but for their quotes differ in the pieces of cookie headers only. -/
theorem eq_or_malformedCookie (h : r.unquoted = s.unquoted) : r = s ∨ ∃ name path x y,
    r = redactorFailed name path (.malformedCookie x) ∧
      s = redactorFailed name path (.malformedCookie y) := by
  cases r <;> cases s <;> simp only [unquoted, reduceCtorEq] at h
  case redactorFailed.redactorFailed name path e name' path' e' =>
    simp only [redactorFailed.injEq] at h
    obtain ⟨rfl, rfl, he⟩ := h
    cases e <;> cases e' <;> simp only [RedactError.unquoted, reduceCtorEq] at he
    case malformedCookie.malformedCookie x y => exact Or.inr ⟨name, path, x, y, rfl, rfl⟩
    all_goals exact Or.inl (by rw [he])
  all_goals exact Or.inl h

theorem eq_of_quote? (hu : r.unquoted = s.unquoted) (hq : r.quote? = s.quote?) : r = s := by
  rcases eq_or_malformedCookie hu with h | ⟨name, path, x, y, rfl, rfl⟩
  · exact h
  · have hxy : x = y := Option.some.inj hq
    rw [hxy]

theorem isSome_quote?_eq (hu : r.unquoted = s.unquoted) : r.quote?.isSome = s.quote?.isSome := by
  rcases eq_or_malformedCookie hu with rfl | ⟨name, path, x, y, rfl, rfl⟩ <;> rfl

/-- Records that are the same but for their quotes are the same if they are written alike. -/
theorem eq_of_toEntry (hu : r.unquoted = s.unquoted) (ht : r.toEntry = s.toEntry) : r = s := by
  rcases eq_or_malformedCookie hu with h | ⟨name, path, x, y, rfl, rfl⟩
  · exact h
  · have htext : (redactorFailed name path (.malformedCookie x)).text =
        (redactorFailed name path (.malformedCookie y)).text := congrArg Log.Entry.text ht
    have hmessage : (RedactError.malformedCookie x).message =
        (RedactError.malformedCookie y).message :=
      (String.append_right_inj _).mp
        ((String.append_left_inj _).mp ((String.append_left_inj _).mp htext))
    have hxy : x = y := (String.append_right_inj _).mp ((String.append_left_inj _).mp hmessage)
    rw [hxy]

theorem eq_of_map_toEntry (hu : rs.map unquoted = ss.map unquoted)
    (ht : rs.map toEntry = ss.map toEntry) : rs = ss := by
  induction rs generalizing ss with
  | nil => exact (List.map_eq_nil_iff.mp hu.symm).symm
  | cons r rs ih =>
    cases ss with
    | nil => cases hu
    | cons s ss =>
      obtain ⟨hhead, htail⟩ := List.cons.inj hu
      obtain ⟨hentry, hentries⟩ := List.cons.inj ht
      rw [eq_of_toEntry hhead hentry, ih htail hentries]

theorem eq_of_filterMap_quote? (hu : rs.map unquoted = ss.map unquoted)
    (hq : rs.filterMap quote? = ss.filterMap quote?) : rs = ss := by
  induction rs generalizing ss with
  | nil => exact (List.map_eq_nil_iff.mp hu.symm).symm
  | cons r rs ih =>
    cases ss with
    | nil => cases hu
    | cons s ss =>
      obtain ⟨hhead, htail⟩ := List.cons.inj hu
      rcases none_or_some_of_isSome (isSome_quote?_eq hhead) with ⟨hr, hs⟩ | ⟨x, y, hr, hs⟩
      · rw [List.filterMap_cons_none hr, List.filterMap_cons_none hs] at hq
        rw [eq_of_quote? hhead (hr.trans hs.symm), ih htail hq]
      · rw [List.filterMap_cons_some hr, List.filterMap_cons_some hs] at hq
        obtain ⟨rfl, hquotes⟩ := List.cons.inj hq
        rw [eq_of_quote? hhead (hr.trans hs.symm), ih htail hquotes]

end Record

/-! ### Places in alike events -/

theorem KeyPath.ofMember_of_pointsAt {path : KeyPath} {p : Position}
    (h : path.pointsAt p = true) : OfMember p := by
  obtain ⟨key, q, -, rfl, -⟩ := pointsAt_iff.mp h
  exact ⟨q, key, rfl⟩

namespace Json

variable {a b : Json}

theorem positions_slots_of_alike (path : KeyPath) (h : Alike OfMember a b) :
    (a.slots path).map Prod.fst = (b.slots path).map Prod.fst :=
  positions_slots_congr fun p _ => h.isSome_at? p

theorem positions_places_of_alike (path : KeyPath) (h : Alike OfMember a b) :
    (a.places path).map Place.position = (b.places path).map Place.position := by
  have hslots : ∀ root : Json, (root.places path).map Place.position =
      ((root.slots path).map Prod.fst).map List.dropLast := by
    intro root
    rw [slots, List.map_map, List.map_map]
    exact List.map_congr_left fun p _ => List.dropLast_concat.symm
  rw [hslots, hslots, positions_slots_of_alike path h]

end Json

/-! ### One rule -/

namespace Redactor

variable {r : Redactor} {v w : Json}

theorem outcome_of_answer (h : r.answer v = .ok w) : r.outcome v = w := by
  unfold answer at h
  unfold outcome
  cases hr : r.redact v <;> rw [hr] at h <;> cases h
  rfl

/-- Whether a redactor fails shows in its answer. -/
theorem failsOn_eq_true_iff : r.failsOn v = true ↔ ∃ e, r.answer v = .error e := by
  constructor
  · exact fun h => (answer_of_failsOn h).1
  · rintro ⟨e, he⟩
    by_contra hf
    rw [answer_of_not_failsOn (Bool.eq_false_iff.mpr hf)] at he
    cases he

end Redactor

namespace Rule

/-- The positions of the values on which the redactor of the rule fails, in document order. -/
def failing (limit : Option Nat) (rule : Rule) (event : Json) : List Position :=
  (((event.slots rule.path).take (rule.reach limit event)).filter fun s =>
    rule.redactor.failsOn s.2).map Prod.fst

variable {limit : Option Nat} {rule : Rule} {event a b : Json} {name : String}

theorem mem_failing {s : Position × Json}
    (hs : s ∈ (event.slots rule.path).take (rule.reach limit event)) :
    s.1 ∈ rule.failing limit event ↔ rule.redactor.failsOn s.2 = true := by
  rw [failing, List.mem_map]
  constructor
  · rintro ⟨s', hs', heq⟩
    obtain ⟨hmem, hf⟩ := List.mem_filter.mp hs'
    -- there is one value at one position
    have hv : event.at? s.1 = some s.2 := (mem_slots.mp (List.mem_of_mem_take hs)).2
    have hv' : event.at? s'.1 = some s'.2 := (mem_slots.mp (List.mem_of_mem_take hmem)).2
    rw [heq, hv, Option.some.injEq] at hv'
    rw [hv']
    exact hf
  · exact fun hf => ⟨s, List.mem_filter.mpr ⟨hs, hf⟩, rfl⟩

theorem length_values_of_alike (rule : Rule) (h : Alike OfMember a b) :
    (rule.values a).length = (rule.values b).length := by
  have hlength := congrArg List.length (positions_slots_of_alike rule.path h)
  rw [values, values, List.length_map, List.length_map]
  rwa [List.length_map, List.length_map] at hlength

theorem reach_of_alike (hn : rule.redactor.hasName = true) (h : Alike OfMember a b) :
    rule.reach limit a = rule.reach limit b :=
  reachFrom_eq_of_length hn (rule.length_values_of_alike h)

/-- The record that ends a rule depends on the number of its targets, if its redactor has a
name. -/
theorem closing_eq_of_length (hn : rule.redactor.name = .ok name) {count k : Nat}
    {vs ws : List Json} (hl : vs.length = ws.length) :
    rule.closing limit count vs k = rule.closing limit count ws k := by
  have hobstacle : ∀ v, rule.obstacle? limit v k =
      if limit = some k then some (.targetLimitExceeded k) else none := by
    intro v
    rw [obstacle?, hn]
    cases rule.redactor.answer v <;> rfl
  rcases Nat.lt_or_ge k vs.length with hk | hk
  · have hk' : k < ws.length := by omega
    rw [closing, closing, List.getElem?_eq_getElem hk, List.getElem?_eq_getElem hk',
      Option.bind_some, Option.bind_some, hobstacle, hobstacle]
  · have hk' : ws.length ≤ k := by omega
    rw [closing, closing, List.getElem?_eq_none hk, List.getElem?_eq_none hk']

theorem failureRecord?_of_name (hn : rule.redactor.name = .ok name) (v : Json) :
    rule.failureRecord? v = match rule.redactor.answer v with
      | .error e => some (.redactorFailed name rule.path e)
      | .ok _ => none := by
  rw [failureRecord?, hn]
  cases rule.redactor.answer v <;> rfl

/-- Mirrored answers are recorded alike, but for what the errors quote. -/
theorem map_unquoted_failureRecord? (hn : rule.redactor.name = .ok name)
    {R : Json → Json → Prop} {v w : Json}
    (h : Mirrored R (rule.redactor.answer v) (rule.redactor.answer w)) :
    (rule.failureRecord? v).map Record.unquoted = (rule.failureRecord? w).map Record.unquoted := by
  rw [failureRecord?_of_name hn, failureRecord?_of_name hn]
  generalize rule.redactor.answer v = x at h
  generalize rule.redactor.answer w = y at h
  cases h with
  | ok => rfl
  | error he => exact congrArg (fun e => some (Record.redactorFailed name rule.path e)) he

end Rule

/-- Lists with the same images by two functions have related members at the same places. -/
theorem forall₂_of_map_eq {α β γ : Type} {f : α → γ} {g : β → γ} {as : List α} {bs : List β}
    (h : as.map f = bs.map g) : List.Forall₂ (fun a b => a ∈ as ∧ b ∈ bs ∧ f a = g b) as bs := by
  have hlength : as.length = bs.length := by
    simpa only [List.length_map] using congrArg List.length h
  rw [List.forall₂_iff_get]
  refine ⟨hlength, fun i hi hi' => ⟨List.get_mem _ _, List.get_mem _ _, ?_⟩⟩
  have hget := congrArg (·[i]?) h
  simpa [hi, hi'] using hget

namespace RuleSpec

variable {limit : Option Nat} {r : RuleSpec} {a b : Json}

/-- The values that a rule redacts in alike events are alike, and so are the answers to them, if
its redactor fails at the same positions. -/
theorem mirrored_slots (h : Alike OfMember a b)
    (hf : r.rule.failing limit a = r.rule.failing limit b) :
    List.Forall₂ (fun s t => s.1 = t.1 ∧ OfMember s.1 ∧
        Mirrored (Alike BelowMember) (r.redactor.answer s.2) (r.redactor.answer t.2))
      ((a.slots r.rule.path).take (r.rule.reach limit a))
      ((b.slots r.rule.path).take (r.rule.reach limit b)) := by
  have hreach : r.rule.reach limit a = r.rule.reach limit b :=
    Rule.reach_of_alike r.stable_redactor.hasName h
  have hpositions : ((a.slots r.rule.path).take (r.rule.reach limit a)).map Prod.fst =
      ((b.slots r.rule.path).take (r.rule.reach limit b)).map Prod.fst := by
    rw [List.map_take, List.map_take, positions_slots_of_alike r.rule.path h, hreach]
  refine (forall₂_of_map_eq hpositions).imp ?_
  rintro s t ⟨hs, ht, hst⟩
  obtain ⟨hpoints, hv⟩ := mem_slots.mp (List.mem_of_mem_take hs)
  obtain ⟨-, hw⟩ := mem_slots.mp (List.mem_of_mem_take ht)
  have hmember : OfMember s.1 := KeyPath.ofMember_of_pointsAt hpoints
  rw [← hst] at hw
  have halike : Alike BelowMember s.2 t.2 :=
    (h.part hv hw).mono fun q => (ofMember_append hmember).mp
  refine ⟨hst, hmember, r.mirrored_answer halike ?_⟩
  have hfs := Rule.mem_failing hs
  have hft := Rule.mem_failing ht
  rw [← hst, ← hf, hfs] at hft
  rw [← Redactor.failsOn_eq_true_iff, ← Redactor.failsOn_eq_true_iff]
  exact hft

/-- **A rule that fails at the same positions leaves alike events alike.** -/
theorem alike_effect (h : Alike OfMember a b)
    (hf : r.rule.failing limit a = r.rule.failing limit b) :
    Alike OfMember (r.rule.effect limit a) (r.rule.effect limit b) := by
  refine h.replaceAll ?_
  rw [Rule.edits, Rule.edits, List.forall₂_map_left_iff, List.forall₂_map_right_iff]
  refine (mirrored_slots h hf).imp ?_
  rintro s t ⟨hst, hmember, hanswers⟩
  refine ⟨hst, ?_⟩
  have houtcome : Alike BelowMember (r.redactor.outcome s.2) (r.redactor.outcome t.2) := by
    generalize hv : r.redactor.answer s.2 = x at hanswers
    generalize hw : r.redactor.answer t.2 = y at hanswers
    cases hanswers with
    | ok hvw =>
      rw [Redactor.outcome_of_answer hv, Redactor.outcome_of_answer hw]
      exact hvw
    | error =>
      have hfv := Redactor.failsOn_eq_true_iff.mpr ⟨_, hv⟩
      have hfw := Redactor.failsOn_eq_true_iff.mpr ⟨_, hw⟩
      rw [(Redactor.answer_of_failsOn hfv).2, (Redactor.answer_of_failsOn hfw).2]
      exact .refl _ _
  exact houtcome.mono fun q => (ofMember_append hmember).mpr

/-- **A rule that fails at the same positions reports the same about alike events, but for what its
errors quote.** -/
theorem map_unquoted_report (h : Alike OfMember a b)
    (hf : r.rule.failing limit a = r.rule.failing limit b) :
    (r.rule.report limit a).map Record.unquoted = (r.rule.report limit b).map Record.unquoted := by
  obtain ⟨name, hn⟩ := Redactor.name_of_hasName r.stable_redactor.hasName
  have hlength : (r.rule.values a).length = (r.rule.values b).length :=
    r.rule.length_values_of_alike h
  have hreach : r.rule.reach limit a = r.rule.reach limit b :=
    Rule.reach_of_alike r.stable_redactor.hasName h
  have hrecords : ((r.rule.values a).take (r.rule.reach limit a)).map
        (fun v => (r.rule.failureRecord? v).map Record.unquoted) =
      ((r.rule.values b).take (r.rule.reach limit b)).map
        fun v => (r.rule.failureRecord? v).map Record.unquoted := by
    rw [Rule.values, Rule.values, ← List.map_take, ← List.map_take, List.map_map, List.map_map,
      ← List.forall₂_eq_eq_eq, List.forall₂_map_left_iff, List.forall₂_map_right_iff]
    refine (mirrored_slots h hf).imp ?_
    rintro s t ⟨-, -, hanswers⟩
    exact Rule.map_unquoted_failureRecord? hn hanswers
  have hfailures := congrArg (List.filterMap id) hrecords
  rw [List.filterMap_map, List.filterMap_map, hreach] at hfailures
  rw [Rule.report_eq, Rule.report_eq, List.map_append, List.map_append, List.map_filterMap,
    List.map_filterMap, hreach, Rule.closing_eq_of_length hn hlength, hlength]
  exact congrArg (· ++ _) hfailures

/-- What a rule tells of the values that it redacts in an event. -/
def quotes (limit : Option Nat) (r : RuleSpec) (event : Json) : List String :=
  ((r.rule.values event).take (r.rule.reach limit event)).filterMap r.quoted?

/-- **The errors in the report of a rule quote what it tells of the values.** -/
theorem filterMap_quote?_report (limit : Option Nat) (r : RuleSpec) (event : Json) :
    (r.rule.report limit event).filterMap Record.quote? = r.quotes limit event := by
  obtain ⟨name, hn⟩ := Redactor.name_of_hasName r.stable_redactor.hasName
  have hquote : ∀ v, (r.rule.failureRecord? v).bind Record.quote? = r.quoted? v := by
    intro v
    ext text
    rw [Rule.failureRecord?_of_name hn, quoted?_eq_some_iff]
    show _ ↔ ∃ e, r.rule.redactor.answer v = .error e ∧ _
    cases r.rule.redactor.answer v with
    | ok w => simp
    | error e => simp [Record.quote?]
  have hclosing : (r.rule.closing limit (r.rule.values event).length (r.rule.values event)
      (r.rule.reach limit event)).quote? = none := by
    unfold Rule.closing
    split <;> rfl
  rw [Rule.report_eq, List.filterMap_append, List.filterMap_filterMap,
    List.filterMap_cons_none hclosing, List.filterMap_nil, List.append_nil, quotes]
  simp only [hquote]

end RuleSpec

/-! ### Many rules -/

namespace Scrubber

/-- Each rule with the event that the rules before it leave. -/
def turns (limit : Option Nat) : List Rule → Json → List (Rule × Json)
  | [], _ => []
  | rule :: rules, event =>
    (rule, event) :: turns limit rules (applyRule limit rule event .empty).1

/-- The positions at which the redactors fail, rule by rule. -/
def failing (s : Scrubber) (event : Json) : List (List Position) :=
  (turns s.maxTargets s.rules event).map fun (rule, start) => rule.failing s.maxTargets start

/-- The positions of the containers that the rules resolve to, rule by rule. -/
def containers (s : Scrubber) (event : Json) : List (List Position) :=
  (turns s.maxTargets s.rules event).map fun (rule, start) =>
    (start.places rule.path).map Place.position

end Scrubber

/-- What the rules of a configuration tell of the values that they redact, each in the event that
the rules before it leave. -/
def Config.quotes (c : Config) (event : Json) : List String :=
  (c.rules.zip (Scrubber.turns c.maxTargets (c.rules.map RuleSpec.rule) event)).flatMap
    fun (r, _, start) => r.quotes c.maxTargets start

namespace Scrubber

variable {limit : Option Nat} {specs : List RuleSpec} {a b : Json}

theorem filterMap_quote?_reports (limit : Option Nat) (specs : List RuleSpec) (event : Json) :
    (reports limit (specs.map RuleSpec.rule) event).filterMap Record.quote? =
      Config.quotes ⟨specs, limit⟩ event := by
  induction specs generalizing event with
  | nil => rfl
  | cons r specs ih =>
    rw [List.map_cons, reports, List.filterMap_append, RuleSpec.filterMap_quote?_report, ih]
    rfl

/-- **Rules that fail at the same positions report the same about alike events, but for what their
errors quote**, and resolve to the same containers. -/
theorem reports_of_alike (h : Alike OfMember a b)
    (hf : failing ⟨specs.map RuleSpec.rule, limit⟩ a =
      failing ⟨specs.map RuleSpec.rule, limit⟩ b) :
    (reports limit (specs.map RuleSpec.rule) a).map Record.unquoted =
        (reports limit (specs.map RuleSpec.rule) b).map Record.unquoted ∧
      containers ⟨specs.map RuleSpec.rule, limit⟩ a =
        containers ⟨specs.map RuleSpec.rule, limit⟩ b := by
  induction specs generalizing a b with
  | nil => exact ⟨rfl, rfl⟩
  | cons r specs ih =>
    obtain ⟨hrule, hrules⟩ := List.cons.inj hf
    have hnext : Alike OfMember (applyRule limit r.rule a .empty).1
        (applyRule limit r.rule b .empty).1 := by
      rw [applyRule_fst, applyRule_fst]
      exact RuleSpec.alike_effect h hrule
    obtain ⟨hreports, hcontainers⟩ := ih hnext hrules
    constructor
    · rw [List.map_cons, reports, reports, List.map_append, List.map_append, hreports,
        RuleSpec.map_unquoted_report h hrule]
    · exact congrArg₂ List.cons (positions_places_of_alike r.rule.path h) hcontainers

end Scrubber

namespace Config

/-- **The records disclose no more of the redacted strings than the quoted pieces.** A scrubber
compiled from a configuration scrubs two events that differ only in strings to which paths of its
rules point. If the same redactor calls fail, the rules resolve to the same containers and the
records are the same, but for the text that errors about cookie headers quote: in each run the
first piece without an equals sign, without the blanks around it, of a non-empty header that a
cookie rule fails on. So the same is logged if and only if the same is quoted. -/
theorem records_scrub (c : Config) (s : Scrubber) (hs : c.compile = .ok s) (a b : Json)
    (hab : Alike (fun p => ∃ rule ∈ s.rules, rule.path.pointsAt p = true) a b)
    (hfail : s.failing a = s.failing b) (t t' : Telemetry) :
    ∃ ra rb : List Record,
      (s.scrub a t).2.records.toList = t.records.toList ++ ra ∧
      (s.scrub b t').2.records.toList = t'.records.toList ++ rb ∧
      s.containers a = s.containers b ∧
      ra.map Record.unquoted = rb.map Record.unquoted ∧
      ra.filterMap Record.quote? = c.quotes a ∧ rb.filterMap Record.quote? = c.quotes b ∧
      (ra.map Record.toEntry = rb.map Record.toEntry ↔ c.quotes a = c.quotes b) := by
  obtain rfl := compile_eq_ok hs
  have hmember : Alike OfMember a b := by
    refine hab.mono ?_
    rintro p ⟨rule, -, hpoints⟩
    exact KeyPath.ofMember_of_pointsAt hpoints
  obtain ⟨hunquoted, hcontainers⟩ := Scrubber.reports_of_alike hmember hfail
  have hqa := Scrubber.filterMap_quote?_reports c.maxTargets c.rules a
  have hqb := Scrubber.filterMap_quote?_reports c.maxTargets c.rules b
  refine ⟨_, _, (Scrubber.grows_scrub _ a t).records_eq, (Scrubber.grows_scrub _ b t').records_eq,
    hcontainers, hunquoted, hqa, hqb, fun hentries => ?_, fun hquotes => ?_⟩
  · rw [← hqa, ← hqb, Record.eq_of_map_toEntry hunquoted hentries]
  · rw [Record.eq_of_filterMap_quote? hunquoted (hqa.trans (hquotes.trans hqb.symm))]

/-- Different values stand before and behind the same malformed piece, and in a query string. -/
theorem records_scrub_same :
    let c : Config := ⟨[⟨none, none, "h.cookie", .scrubCookies, ["id"], false⟩,
      ⟨none, none, "query", .scrubQueryString, [], true⟩], none⟩
    let s : Scrubber := ⟨c.rules.map RuleSpec.rule, none⟩
    let event := fun (cookie query : String) => Json.object [
      ("h", .object [("cookie", .string cookie), ("n", .null)]), ("query", .string query)]
    let a := event "id=1; bad" "token=x"
    let b := event "id=2;bad ;c" "other"
    c.compile = .ok s ∧
      Alike (fun p => ∃ rule ∈ s.rules, rule.path.pointsAt p = true) a b ∧
      s.failing a = [[[.member "h", .member "cookie"]], []] ∧ s.failing a = s.failing b ∧
      c.quotes a = ["bad"] ∧
      (s.scrub a .empty).2.records.toList.map Record.toEntry =
        (s.scrub b .empty).2.records.toList.map Record.toEntry := by
  intro c s event a b
  have hs : c.compile = .ok s := rfl
  have hab : Alike (fun p => ∃ rule ∈ s.rules, rule.path.pointsAt p = true) a b := by
    have hcookie : ∃ rule ∈ s.rules,
        rule.path.pointsAt [.member "h", .member "cookie"] = true := by decide
    have hquery : ∃ rule ∈ s.rules, rule.path.pointsAt [.member "query"] = true := by decide
    have hone : Alike (fun p => ∃ rule ∈ s.rules, rule.path.pointsAt p = true) a
        (event "id=2;bad ;c" "token=x") :=
      (Alike.refl _ a).replaceAt (p := [.member "h", .member "cookie"])
        (.strings hcookie "id=1; bad" "id=2;bad ;c")
    exact hone.replaceAt (p := [.member "query"]) (.strings hquery "token=x" "other")
  have hfailing : s.failing a = [[[.member "h", .member "cookie"]], []] := by decide +kernel
  have hsame : s.failing a = s.failing b := by decide +kernel
  have hqa : c.quotes a = ["bad"] := by decide +kernel
  have hqb : c.quotes b = ["bad"] := by decide +kernel
  obtain ⟨ra, rb, ha, hb, -, -, -, -, hiff⟩ :=
    records_scrub c s hs a b hab hsame .empty .empty
  refine ⟨hs, hab, hfailing, hsame, hqa, ?_⟩
  rw [ha, hb]
  exact hiff.mpr (hqa.trans hqb.symm)

/-- A malformed piece is quoted: headers without any equals sign show in the records as they are. -/
theorem records_scrub_quoted :
    let c : Config := ⟨[⟨none, none, "c", .scrubCookies, [], true⟩], none⟩
    let s : Scrubber := ⟨c.rules.map RuleSpec.rule, none⟩
    let event := fun header : String => Json.object [("c", .string header)]
    let a := event "alpha"
    let b := event "beta"
    c.compile = .ok s ∧
      Alike (fun p => ∃ rule ∈ s.rules, rule.path.pointsAt p = true) a b ∧
      s.failing a = s.failing b ∧ s.containers a = s.containers b ∧
      (s.scrub a .empty).2.records.toList.map Record.toEntry ≠
        (s.scrub b .empty).2.records.toList.map Record.toEntry := by
  intro c s event a b
  have hab : Alike (fun p => ∃ rule ∈ s.rules, rule.path.pointsAt p = true) a b := by
    have hpoints : ∃ rule ∈ s.rules, rule.path.pointsAt [.member "c"] = true := by decide
    exact (Alike.refl _ a).replaceAt (p := [.member "c"]) (.strings hpoints "alpha" "beta")
  exact ⟨rfl, hab, by decide +kernel, by decide +kernel, by decide +kernel⟩

end Config

end Redaction
