import Redaction.Cli.Run

/-!
# Runs of commands on a machine

`Runs act m a m'` says that `act` on the machine `m` gives `a` and leaves `m'`, whatever has been
written to the error output before and is written to it now. So what is logged and told to the user
may be passed over. There is a rule for every way in which commands are put together.
-/

namespace Redaction.Cli

/-- The machine with another error output. -/
def Machine.withErrors (m : Machine) (errors : String) : Machine := { m with errors }

/-- A machine before a run: files of its working directory, with their texts, and what is to be
read. -/
def Machine.holding (texts : List (String × String)) (input : String) : Machine :=
  ⟨⟨[], texts.map fun (name, text) => ([name], .file (Text.Utf8.encode text.toList))⟩,
    Text.Utf8.encode input.toList, "", ""⟩

/-- Run on the one machine, the command gives `a` and leaves the other one, but for what it writes
to the error output. -/
def Runs {α : Type} (act : StateM Machine α) (m : Machine) (a : α) (m' : Machine) : Prop :=
  ∀ errors, ∃ errors', act (m.withErrors errors) = (a, m'.withErrors errors')

/-- The same for a command that may fail. -/
abbrev Yields {α : Type} (act : ExceptT Failure (StateM Machine) α) (m : Machine)
    (r : Except Failure α) (m' : Machine) : Prop := Runs act.run m r m'

variable {α β : Type} {m m' m'' : Machine} {a : α}

/-! ### Commands that do not fail -/

namespace Runs

theorem pure (a : α) (m : Machine) : Runs (Pure.pure a) m a m := fun errors => ⟨errors, rfl⟩

theorem bind {x : StateM Machine α} {f : α → StateM Machine β} {b : β} (h : Runs x m a m')
    (h' : Runs (f a) m' b m'') : Runs (x >>= f) m b m'' := by
  intro errors
  obtain ⟨errors', hx⟩ := h errors
  obtain ⟨errors'', hf⟩ := h' errors'
  refine ⟨errors'', ?_⟩
  show (match x (m.withErrors errors) with | (a, m) => f a m) = _
  rw [hx]
  exact hf

theorem forM {as : List α} {f : α → StateM Machine Unit} (h : ∀ a ∈ as, Runs (f a) m () m) :
    Runs (as.forM f) m () m := by
  induction as with
  | nil => exact pure () m
  | cons a as ih =>
    exact (h a List.mem_cons_self).bind (ih fun b hb => h b (List.mem_cons_of_mem a hb))

end Runs

/-! ### Commands that may fail -/

namespace Yields

variable {x : ExceptT Failure (StateM Machine) α} {f : α → ExceptT Failure (StateM Machine) β}
  {r : Except Failure α} {s : Except Failure β} {e : Failure}

theorem pure (a : α) (m : Machine) : Yields (Pure.pure a) m (.ok a) m := fun errors => ⟨errors, rfl⟩

theorem throw (e : Failure) (m : Machine) :
    Yields (MonadExcept.throw e : ExceptT Failure (StateM Machine) α) m (.error e) m :=
  fun errors => ⟨errors, rfl⟩

theorem lift {x : StateM Machine α} (h : Runs x m a m') :
    Yields (liftM x : ExceptT Failure (StateM Machine) α) m (.ok a) m' := by
  intro errors
  obtain ⟨errors', hx⟩ := h errors
  refine ⟨errors', ?_⟩
  show (match x (m.withErrors errors) with | (a, m) => (Except.ok a, m)) = _
  rw [hx]

theorem bind (h : Yields x m (.ok a) m') (h' : Yields (f a) m' s m'') :
    Yields (x >>= f) m s m'' := by
  intro errors
  obtain ⟨errors', hx⟩ := h errors
  obtain ⟨errors'', hf⟩ := h' errors'
  refine ⟨errors'', ?_⟩
  show (match x.run (m.withErrors errors) with | (a, m) => (ExceptT.bindCont f a) m) = _
  rw [hx]
  exact hf

theorem bind_error (h : Yields x m (.error e) m') : Yields (x >>= f) m (.error e) m' := by
  intro errors
  obtain ⟨errors', hx⟩ := h errors
  refine ⟨errors', ?_⟩
  show (match x.run (m.withErrors errors) with | (a, m) => (ExceptT.bindCont f a) m) = _
  rw [hx]
  rfl

theorem map (g : α → β) (h : Yields x m r m') : Yields (g <$> x) m (r.map g) m' := by
  rw [map_eq_pure_bind]
  cases r with
  | ok a => exact h.bind (pure (g a) m')
  | error e => exact h.bind_error

end Yields

end Redaction.Cli
