import Redaction.Proofs.Path.Related
import Redaction.Proofs.Scrubbing.OneRule

/-!
# Rules in another order

Rules whose paths are not related do not see each other: neither changes the slots of the other,
so each redacts the same values, gives up at the same target and counts the same failures whether
or not the other has run (`step_comm`). So the rules of a scrubber can be put into any order in
which related rules stand as they did (`scrub_reordered`).
-/

namespace Redaction

open Json

/-! ### Two rules -/

namespace Rule

variable {limit : Option Nat} {a b : Rule}

theorem slots_effect (h : ¬ KeyPath.Related a.path b.path) (event : Json) :
    (a.effect limit event).slots b.path = event.slots b.path :=
  slots_replaceAll fun _ he _ hq => KeyPath.apart_of_not_related h (mem_edits he).1 hq

theorem edits_effect (h : ¬ KeyPath.Related a.path b.path) (event : Json) :
    b.edits limit (a.effect limit event) = b.edits limit event := by
  rw [edits, edits, reach, reach, values, values, slots_effect h]

theorem tally_effect (h : ¬ KeyPath.Related a.path b.path) (event : Json) :
    b.tally limit (a.effect limit event) = b.tally limit event := by
  rw [tally, tally, reach, reach, values, values, slots_effect h]

theorem effect_comm (h : ¬ KeyPath.Related a.path b.path) (event : Json) :
    b.effect limit (a.effect limit event) = a.effect limit (b.effect limit event) := by
  have h' : ¬ KeyPath.Related b.path a.path := fun hr => h hr.symm
  rw [effect, edits_effect h, effect, effect, edits_effect h', effect]
  exact replaceAll_comm fun e he e' he' =>
    KeyPath.apart_of_not_related h (mem_edits he).1 (mem_edits he').1

/-- **Rules with paths that are not related commute.** -/
theorem step_comm (h : ¬ KeyPath.Related a.path b.path) (s : Json × Failures) :
    step limit (step limit s a) b = step limit (step limit s b) a := by
  have h' : ¬ KeyPath.Related b.path a.path := fun hr => h hr.symm
  simp only [step]
  rw [effect_comm h, tally_effect h, tally_effect h', Failures.add_right_comm]

end Rule

/-! ### Many rules -/

section Steps

variable {α β : Type} {f : β → α → β} {R : α → α → Prop}
  (hcomm : ∀ a b s, ¬ R a b → f (f s a) b = f (f s b) a)
include hcomm

/-- A step that is taken before others with which it commutes. -/
theorem foldl_front (a : α) (before after : List α) (hfree : ∀ b ∈ before, ¬ R a b) (s : β) :
    (before ++ a :: after).foldl f s = (before ++ after).foldl f (f s a) := by
  induction before generalizing s with
  | nil => rfl
  | cons b before ih =>
    rw [List.cons_append, List.cons_append, List.foldl_cons, List.foldl_cons,
      ih fun c hc => hfree c (List.mem_cons_of_mem b hc), hcomm a b s (hfree b List.mem_cons_self)]

/-- Steps taken in another order, in which those that do not commute stand as they did. -/
theorem foldl_reorder (order sorted : List (α × Nat)) (hperm : order.Perm sorted)
    (hsorted : sorted.Pairwise fun a b => a.2 < b.2)
    (horder : order.Pairwise fun a b => R a.1 b.1 → a.2 < b.2) (s : β) :
    (order.map Prod.fst).foldl f s = (sorted.map Prod.fst).foldl f s := by
  induction order generalizing sorted s with
  | nil => rw [List.nil_perm.mp hperm]
  | cons a order ih =>
    obtain ⟨before, after, rfl⟩ := List.append_of_mem (hperm.mem_iff.mp List.mem_cons_self)
    obtain ⟨ha, horder⟩ := List.pairwise_cons.mp horder
    have hrest : order.Perm (before ++ after) := (hperm.trans List.perm_middle).cons_inv
    -- what stood before `a` and now comes after it cannot hold it back
    have hfree : ∀ b ∈ before.map Prod.fst, ¬ R a.1 b := by
      intro b hb hr
      obtain ⟨b, hmem, rfl⟩ := List.mem_map.mp hb
      have hlt := ha b (hrest.mem_iff.mpr (List.mem_append_left after hmem)) hr
      have hgt := (List.pairwise_append.mp hsorted).2.2 b hmem a List.mem_cons_self
      omega
    have htail : (before ++ after).Pairwise fun a b => a.2 < b.2 :=
      hsorted.sublist ((List.sublist_cons_self a after).append_left before)
    have hfront := foldl_front hcomm a.1 (before.map Prod.fst) (after.map Prod.fst) hfree s
    rw [List.map_cons, List.foldl_cons, List.map_append, List.map_cons, hfront, ← List.map_append]
    exact ih _ hrest htail horder (f s a.1)

end Steps

/-- The rules of the first list in another order, in which related rules stand as they did: each
comes with its number in the first list. -/
def Reordered (rules rules' : List Rule) : Prop :=
  ∃ order : List (Rule × Nat), order.Perm rules.zipIdx ∧ order.map Prod.fst = rules' ∧
    order.Pairwise fun a b => KeyPath.Related a.1.path b.1.path → a.2 < b.2

namespace Scrubber

/-- **Rules are independent up to prefixes of their paths.** In any order in which related rules
stand as they did, the rules make the same event and count the same failures. -/
theorem scrub_reordered (s : Scrubber) (rules' : List Rule) (h : Reordered s.rules rules')
    (event : Json) (t : Telemetry) :
    let r := s.scrub event t
    let r' := (⟨rules', s.maxTargets⟩ : Scrubber).scrub event t
    r'.1 = r.1 ∧ r'.2.failures = r.2.failures := by
  obtain ⟨order, hperm, rfl, horder⟩ := h
  have hsorted : (s.rules.zipIdx 0).Pairwise fun a b => a.2 < b.2 := by
    rw [← List.pairwise_map (f := Prod.snd) (R := (· < ·)), List.zipIdx_map_snd]
    exact List.pairwise_lt_range'
  have hcomm : ∀ (a b : Rule) s', ¬ KeyPath.Related a.path b.path →
      Rule.step s.maxTargets (Rule.step s.maxTargets s' a) b =
        Rule.step s.maxTargets (Rule.step s.maxTargets s' b) a :=
    fun a b s' hr => Rule.step_comm hr s'
  have hfold := foldl_reorder hcomm order _ hperm hsorted horder (event, t.failures)
  rw [List.zipIdx_map_fst, ← scrub_eq_foldl_step] at hfold
  have hrun := scrub_eq_foldl_step ⟨order.map Prod.fst, s.maxTargets⟩ event t
  rw [hfold, Prod.mk.injEq] at hrun
  exact hrun

/-- Under a limit of one, the first rule fails at its first target and gives up at its second, and
the second rule gives up because its redactor cannot be named. The second goes first; the third,
whose path is a prefix of the path of the first, stays behind it. -/
theorem scrub_reordered_front :
    let fails : Rule := ⟨none, .ofTexts ["a", "[]", "b"], .cookies .all⟩
    let refuses : Rule := ⟨none, .ofTexts ["c", "[]"],
      ⟨.error ⟨some "no name"⟩, fun _ => .error (.custom "no")⟩⟩
    let wraps : Rule := ⟨none, .ofTexts ["a"], .named "wrap" fun v => .ok (.array [v])⟩
    let event : Json := .object [("a", .array [.object [("b", .string "alpha")],
      .object [("b", .null)]]), ("c", .object [("[]", .null)])]
    let left : Json := .object [("a", .array [.array [.object
      [("b", .string "ERROR WHEN SCRUBBING")], .object [("b", .null)]]]),
      ("c", .object [("[]", .null)])]
    let r := (⟨[fails, refuses, wraps], some 1⟩ : Scrubber).scrub event .empty
    let r' := (⟨[refuses, fails, wraps], some 1⟩ : Scrubber).scrub event .empty
    Reordered [fails, refuses, wraps] [refuses, fails, wraps] ∧ r.1 = left ∧
      r.2.failures = ⟨1, 2⟩ ∧ r'.1 = r.1 ∧ r'.2.failures = r.2.failures := by
  intro fails refuses wraps event left
  have h : Reordered [fails, refuses, wraps] [refuses, fails, wraps] := by
    refine ⟨[(refuses, 1), (fails, 0), (wraps, 2)], List.Perm.swap _ _ _, rfl, ?_⟩
    have hfree : ¬ KeyPath.Related refuses.path fails.path := by decide
    simp [hfree]
  exact ⟨h, rfl, rfl,
    scrub_reordered ⟨[fails, refuses, wraps], some 1⟩ _ h event .empty⟩

end Scrubber

end Redaction
