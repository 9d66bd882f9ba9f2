import Redaction.Proofs.Json.Printing
import Redaction.Proofs.Traversal
import Redaction.Rules.Json

/-!
# Rules as JSON are read back

Every field of a rule is read back from what is written for it, so the rule is
(`RuleSpec.ofJson?_toJson`), and so are all rules of a configuration. What is written of them is a
document by itself and as the only member of an object (`Config.parse?_rules`,
`Config.parse?_wrapped`).
-/

namespace Redaction

/-! ### One rule -/

theorem readOptionalText?_optionalText (s? : Option String) :
    readOptionalText? (optionalText s?) = some s? := by
  cases s? <;> rfl

theorem readTexts?_map_string (ss : List String) :
    readTexts? (.array (ss.map .string)) = some ss := by
  have hread : ∀ s, readText? (.string s) = some s := fun _ => rfl
  exact mapM_map_eq_some hread ss

namespace RuleSpec

/-- **A rule is read back.** -/
theorem ofJson?_toJson (r : RuleSpec) : ofJson? r.toJson = some r := by
  have haction : Action.ofJson? (.string r.action.text) = some r.action := r.action.ofText?_text
  simp [ofJson?, toJson, fields?, field?, Members.get?, readOptionalText?_optionalText,
    readTexts?_map_string, haction, readText?, readBool?]

open Json in
theorem fits_toJson (r : RuleSpec) (room : Nat) : Fits (room + 2) r.toJson := by
  have htext : ∀ s?, Fits (room + 1) (optionalText s?)
    | none => .null _
    | some s => .string _ s
  have hkeys : Fits (room + 1) (.array (r.keys.map .string)) :=
    .array (List.forall_mem_map.mpr fun s _ => .string room s)
  refine .object ?_ ?_
  · show ["name", "description", "path", "action", "keys", "all_keys"].Nodup
    decide
  · simp only [List.forall_mem_cons]
    exact ⟨htext r.name?, htext r.description?, .string _ _, .string _ _, hkeys, .bool _ _, nofun⟩

end RuleSpec

/-! ### All rules of a configuration -/

namespace Config

theorem ofJson?_rules (c : Config) :
    ofJson? (.object [("rules", c.rulesJson)]) = some ⟨c.rules, none⟩ := by
  have hrules : (c.rules.map RuleSpec.toJson).mapM RuleSpec.ofJson? = some c.rules :=
    mapM_map_eq_some RuleSpec.ofJson?_toJson c.rules
  simp [ofJson?, fields?, field?, Members.get?, rulesJson, hrules]

open Json

theorem fits_rulesJson (c : Config) (room : Nat) : Fits (room + 3) c.rulesJson :=
  .array (List.forall_mem_map.mpr fun r _ => r.fits_toJson room)

/-- The rules are written as an array. -/
theorem parse?_rules (c : Config) : parse? (pretty c.rulesJson ++ "\n") = some c.rulesJson := by
  have hspace : ∀ c ∈ ['\n'], Token.isSpace c = true := List.forall_mem_singleton.mpr rfl
  have htext : pretty c.rulesJson ++ "\n" = String.ofList (prettyText 0 c.rulesJson ++ ['\n']) := by
    rw [String.ofList_append]
    rfl
  rw [htext]
  exact parse?_of_reads ((reads_prettyText (c.fits_rulesJson 124) 0).append_space hspace)

/-- The line that is written is that of a configuration but for the key. -/
theorem parse?_wrapped (c : Config) :
    parse? ("\x7b\"rules\": " ++ (pretty c.rulesJson ++ "\n") ++ "\x7d") =
      some (.object [("rules", c.rulesJson)]) := by
  have hrules : ∀ m ∈ [("rules", c.rulesJson)], Reads 126 (prettyText 0 m.2) m.2 :=
    List.forall_mem_singleton.mpr (reads_prettyText (c.fits_rulesJson 123) 0)
  have htext : "\x7b\"rules\": " ++ (pretty c.rulesJson ++ "\n") ++ "\x7d" =
      String.ofList (Layout.wrapping.object (prettyText 0) [("rules", c.rulesJson)]) := by
    apply String.toList_injective
    simp only [pretty, Layout.object, Layout.member, Layout.wrapping, String.toList_append,
      String.toList_ofList, List.map_cons, List.map_nil, List.intercalate_singleton,
      List.append_assoc]
    rfl
  rw [htext]
  exact parse?_of_reads (Layout.wrapping.reads_object (List.pairwise_singleton _ _) hrules)

end Config

end Redaction
