import Redaction.Cli.Files
import Redaction.Proofs.Text.Cutting
import Redaction.Proofs.Traversal

/-!
# A written file is read back

To write a file changes one place, in which there was no directory. All the directories on the way
to it stay where they are, so the path still leads there, and what is read is what was written
(`Files.read_write`, `Files.node?_write`).
-/

namespace Redaction.Cli.Files

variable {f f' : Files} {a b l l' : Location} {n : Node} {path : String} {xs ys : List String}

/-! ### One place -/

theorem lookup_cons_of_ne {nodes : List (Location × Node)} (h : l' ≠ l) :
    ((l, n) :: nodes).lookup l' = nodes.lookup l' := by
  rw [List.lookup_cons, beq_false_of_ne h]

theorem lookup_filter_of_ne {nodes : List (Location × Node)} (h : l' ≠ l) :
    (nodes.filter (·.1 ≠ l)).lookup l' = nodes.lookup l' := by
  induction nodes with
  | nil => rfl
  | cons p nodes ih =>
    obtain ⟨l₀, n₀⟩ := p
    by_cases hp : l₀ = l
    · subst hp
      rw [List.filter_cons_of_neg (by simp), ih, lookup_cons_of_ne h]
    · rw [List.filter_cons_of_pos (by simpa using hp), List.lookup_cons, List.lookup_cons, ih]

theorem node?_put_of_ne (h : l' ≠ l) : (f.put l n).node? l' = f.node? l' := by
  unfold node? put
  split
  · rfl
  · dsimp only
    rw [lookup_cons_of_ne h, lookup_filter_of_ne h]

theorem node?_put_self (h : l ≠ []) : (f.put l n).node? l = some n := by
  have hempty : ¬ l.isEmpty = true := by
    simpa using h
  rw [node?, if_neg hempty, put]
  simp

theorem ne_nil_of_node? (h : f.node? l ≠ some .directory) : l ≠ [] := by
  rintro rfl
  exact h rfl

/-! ### Following a path -/

theorem walk_cons (name : String) : f.walk a (name :: xs) = .ok b ↔
    f.node? a = some .directory ∧ ∃ c, enter a name = .ok c ∧ f.walk c xs = .ok b := by
  rw [walk]
  split
  · next h =>
    rw [bind_eq_ok_iff]
    exact ⟨fun hwalk => ⟨h, hwalk⟩, fun hwalk => hwalk.2⟩
  · next h =>
    rw [h]
    simp
  · next h =>
    rw [h]
    simp

theorem walk_append :
    f.walk a (xs ++ ys) = .ok b ↔ ∃ c, f.walk a xs = .ok c ∧ f.walk c ys = .ok b := by
  induction xs generalizing a with
  | nil => simp [walk]
  | cons name xs ih =>
    rw [List.cons_append, walk_cons]
    simp only [ih, walk_cons]
    constructor
    · rintro ⟨ha, c, hc, d, hd, hb⟩
      exact ⟨d, ⟨ha, c, hc, hd⟩, hb⟩
    · rintro ⟨d, ⟨ha, c, hc, hd⟩, hb⟩
      exact ⟨ha, c, hc, d, hd, hb⟩

/-- Empty names stay where they are, if there is a directory. -/
theorem walk_of_filter (h : f.walk a (xs.filter (!·.isEmpty)) = .ok b)
    (hb : f.node? b = some .directory) : f.walk a xs = .ok b := by
  induction xs generalizing a with
  | nil => exact h
  | cons name xs ih =>
    by_cases hname : name.isEmpty = true
    · rw [List.filter_cons_of_neg (by simp [hname])] at h
      have ha : f.node? a = some .directory := by
        cases hxs : xs.filter (!·.isEmpty) with
        | nil =>
          rw [hxs] at h
          obtain rfl := Except.ok.inj h
          exact hb
        | cons y ys =>
          rw [hxs] at h
          exact ((walk_cons y).mp h).1
      exact (walk_cons name).mpr ⟨ha, a, by rw [enter, hname]; rfl, ih h⟩
    · rw [List.filter_cons_of_pos (by simpa using hname), walk_cons] at h
      obtain ⟨ha, c, hc, hrest⟩ := h
      exact (walk_cons name).mpr ⟨ha, c, hc, ih hrest⟩

/-- A path leads through directories, so it leads to the same place if something else changes. -/
theorem walk_put (hl : f.node? l ≠ some .directory) (h : f.walk a xs = .ok b) :
    (f.put l n).walk a xs = .ok b := by
  induction xs generalizing a with
  | nil => exact h
  | cons name xs ih =>
    obtain ⟨ha, c, hc, hrest⟩ := (walk_cons name).mp h
    have hne : a ≠ l := by
      rintro rfl
      exact hl ha
    exact (walk_cons name).mpr ⟨(node?_put_of_ne hne).trans ha, c, hc, ih hrest⟩

/-- The last name of a path is empty only if the path ends like that of a directory. -/
theorem names_eq_append (path : String) : ∃ xs last, names path = xs ++ [last] ∧
    (last = "" → path = "" ∨ path.endsWith "/" = true) := by
  have hne := Text.pieces_ne_nil '/' path.toList
  have hpieces := Text.intercalate_pieces '/' path.toList
  obtain ⟨ps, p, hp⟩ : ∃ ps p, Text.pieces '/' path.toList = ps ++ [p] :=
    ⟨_, _, (List.dropLast_concat_getLast hne).symm⟩
  refine ⟨ps.map String.ofList, String.ofList p, ?_, fun hlast => ?_⟩
  · rw [names, hp, List.map_append]
    rfl
  · have hempty : p = [] := by simpa using hlast
    rw [hp, hempty, Text.intercalate_append_singleton, List.append_nil] at hpieces
    by_cases hps : ps = []
    · left
      rw [hps] at hpieces
      exact String.toList_eq_nil_iff.mp hpieces.symm
    · right
      obtain ⟨qs, q, rfl⟩ : ∃ qs q, ps = qs ++ [q] :=
        ⟨_, _, (List.dropLast_concat_getLast hps).symm⟩
      rw [List.flatMap_append, List.flatMap_singleton, ← List.append_assoc] at hpieces
      rw [← String.endsWith_toSlice, String.Slice.endsWith_string_iff, String.copy_toSlice]
      exact ⟨_, hpieces⟩

/-! ### Reading and writing -/

/-- What leads to the place of a file that is to be made: a directory, and a name in it. -/
theorem target_eq_ok (h : f.target path = .ok l) (hl : f.node? l ≠ some .directory) :
    path.utf8ByteSize ≤ maxPath ∧ ∃ xs last parent, names path = xs ++ [last] ∧
      f.walk (f.origin path) xs = .ok parent ∧ f.walk parent [last] = .ok l := by
  unfold target at h
  dsimp only at h
  split at h
  · cases h
  · next hsize =>
    obtain ⟨parent, hparent, h⟩ := bind_eq_ok_iff.mp h
    split at h
    · next hnode =>
      split at h
      · cases h
      · next hends =>
        refine ⟨Nat.not_lt.mp hsize, ?_⟩
        obtain ⟨xs, last, hnames, hlast⟩ := names_eq_append path
        by_cases hempty : last = ""
        · -- then there is no name at all, and the path leads to a directory
          obtain rfl := (hlast hempty).resolve_right hends
          have hnone : (names "").filter (!·.isEmpty) = [] := by decide
          rw [hnone] at h
          obtain rfl := Except.ok.inj h
          exact absurd hnode hl
        · have hfilter : (xs ++ [last]).filter (!·.isEmpty) =
              xs.filter (!·.isEmpty) ++ [last] := by
            rw [List.filter_append, List.filter_cons_of_pos (by simpa using hempty)]
            rfl
          rw [hnames, hfilter, List.dropLast_concat] at hparent
          rw [hnames, hfilter, List.getLast?_concat] at h
          exact ⟨xs, last, parent, hnames, walk_of_filter hparent hnode, h⟩
    · cases h
    · cases h

theorem find_of_target (h : f.target path = .ok l) (hl : f.node? l ≠ some .directory) :
    (f.put l n).find path = .ok l := by
  obtain ⟨hsize, xs, last, parent, hnames, hparent, hlast⟩ := target_eq_ok h hl
  rw [find, if_neg (Nat.not_lt.mpr hsize), hnames]
  exact walk_append.mpr ⟨parent, walk_put hl hparent, walk_put hl hlast⟩

theorem write_eq_ok {content : List UInt8} (h : f.write path content = .ok f') :
    ∃ l, f.target path = .ok l ∧ f.node? l ≠ some .directory ∧ f' = f.put l (.file content) := by
  obtain ⟨l, hl, h⟩ := bind_eq_ok_iff.mp h
  refine ⟨l, hl, ?_⟩
  split at h
  · cases h
  · next hnode => exact ⟨hnode, (Except.ok.inj h).symm⟩

/-- **What is written is read back.** -/
theorem read_write {content : List UInt8} (h : f.write path content = .ok f') :
    f'.read path = .ok content := by
  obtain ⟨l, htarget, hl, rfl⟩ := write_eq_ok h
  rw [read, find_of_target htarget hl]
  dsimp only [Bind.bind, Except.bind]
  rw [node?_put_self (ne_nil_of_node? hl)]
  rfl

/-- **Nothing else changes.** -/
theorem node?_write {content : List UInt8} (h : f.write path content = .ok f')
    (hl : f.target path ≠ .ok l) : f'.node? l = f.node? l := by
  obtain ⟨l', htarget, -, rfl⟩ := write_eq_ok h
  refine node?_put_of_ne ?_
  rintro rfl
  exact hl htarget

end Redaction.Cli.Files
