import Redaction.Proofs.Json.Outline
import Redaction.Proofs.Path.Related
import Redaction.Proofs.Scrubbing.OneRule

/-!
# What scrubbing leaves alone

A position is outside of some paths if none of them points at it or at a part around it. Whatever
the redactors do, a rule changes no outline outside of its path, although the targets of a rule
depend on what the rules before it have left (`outlineAt_effect`). So a scrubber changes nothing
outside of the paths of its rules (`outlineAt_scrub`).
-/

namespace Redaction

open Json

namespace Position

/-- No path points at the position or at a part around it. -/
def Outside (paths : List KeyPath) (p : Position) : Prop :=
  ∀ path ∈ paths, ∀ q, q <+: p → path.pointsAt q = false

instance (paths : List KeyPath) (p : Position) : Decidable (Outside paths p) :=
  decidable_of_iff (∀ path ∈ paths, ∀ n ≤ p.length, path.pointsAt (p.take n) = false)
    ⟨fun h path hpath q hq => by
      rw [List.prefix_iff_eq_take.mp hq]
      exact h path hpath q.length hq.length_le,
    fun h path hpath n _ => h path hpath (p.take n) (List.take_prefix n p)⟩

variable {paths : List KeyPath} {p : Position}

theorem outside_nil (paths : List KeyPath) : Outside paths [] := by
  intro path _ q hq
  rw [List.prefix_nil.mp hq]
  exact KeyPath.not_pointsAt_nil path

theorem not_outside :
    ¬ Outside paths p ↔ ∃ path ∈ paths, ∃ q, q <+: p ∧ path.pointsAt q = true := by
  simp only [Outside, Classical.not_forall, Bool.not_eq_false, exists_prop]

end Position

namespace Rule

/-- A rule leaves every outline outside of its path. -/
theorem outlineAt_effect {limit : Option Nat} {rule : Rule} {p : Position}
    (h : Position.Outside [rule.path] p) (event : Json) :
    (rule.effect limit event).outlineAt p = event.outlineAt p := by
  refine outlineAt_replaceAll fun e he hep => ?_
  have hpoints := (mem_edits he).1
  rw [h rule.path List.mem_cons_self e.1 hep] at hpoints
  cases hpoints

end Rule

namespace Scrubber

theorem outlineAt_foldl_effect {limit : Option Nat} {rules : List Rule} {p : Position}
    (h : Position.Outside (rules.map Rule.path) p) (event : Json) :
    (rules.foldl (Rule.effect limit) event).outlineAt p = event.outlineAt p := by
  refine foldl_effect_keeps (P := fun e => e.outlineAt p = event.outlineAt p) ?_ rfl
  intro r hr e he
  have hrule : Position.Outside [r.path] p := by
    intro path hpath
    rw [List.mem_singleton.mp hpath]
    exact h r.path (List.mem_map_of_mem hr)
  rw [Rule.outlineAt_effect hrule, he]

/-- **Scrubbing leaves alone what is outside of the paths of its rules.** There a part is in the
event that leaves the scrubber if and only if it was in the event before, and it is the same scalar,
an array of the same length, or an object with the same keys in the same order. -/
theorem outlineAt_scrub (s : Scrubber) (event : Json) (t : Telemetry) (p : Position)
    (h : Position.Outside (s.rules.map Rule.path) p) :
    (s.scrub event t).1.outlineAt p = event.outlineAt p := by
  rw [scrub_fst]
  exact outlineAt_foldl_effect h event

/-- The first rule plants an array under `a`, the second walks into it and gives up because its
redactor cannot be named, the third leaves an error marker. -/
theorem outlineAt_scrub_beside :
    let s : Scrubber := ⟨[
      ⟨none, .ofTexts ["a"], .named "plant" fun v => .ok (.array [.object [("b", v)]])⟩,
      ⟨none, .ofTexts ["a", "[]", "b"], ⟨.error ⟨none⟩, fun _ => .panic ⟨none⟩⟩⟩,
      ⟨none, .ofTexts ["c", "[]", "b"], .named "refuse" fun _ => .error (.custom "no")⟩], none⟩
    let event : Json :=
      .object [("c", .array [.object [("b", .null), ("d", .array [.null])]]), ("a", .null)]
    let p : Position := [.member "c", .element 0, .member "d"]
    Position.Outside (s.rules.map Rule.path) p ∧
      (s.scrub event .empty).1.outlineAt p = event.outlineAt p ∧
      event.outlineAt p = some (.array 1) ∧ (s.scrub event .empty).2.failures = ⟨1, 1⟩ := by
  intro s event p
  have h : Position.Outside (s.rules.map Rule.path) p := by decide
  exact ⟨h, outlineAt_scrub s event .empty p h, rfl, rfl⟩

end Scrubber

end Redaction
