import Spreadsheet.Fault

/-!
# Actions

Edits run on a state and can stop at a fault. What an action did before the fault stays
done, so that giving all or nothing is a property of an edit that has to be arranged:
`atomically` arranges it.

The smallest actions either look at the state (`query`) or replace it at once (`update`), and both
leave it alone if they end in a fault.
-/

namespace Spreadsheet

/-- A computation on a state that ends in a result or a fault, and in a state either way. -/
abbrev Action (σ : Type) := ExceptT Fault (StateM σ)

namespace Action

variable {σ τ α β : Type}

/-- Runs an action on a state. -/
protected def run (act : Action σ α) (s : σ) : Except Fault α × σ := act s

/-- Looks something up in the state. -/
def query (f : σ → Except Fault α) : Action σ α := fun s ↦ (f s, s)

/-- Replaces the state, or leaves it alone on a fault. -/
def update (f : σ → Except Fault σ) : Action σ Unit := fun s ↦
  match f s with
  | .ok s' => (.ok (), s')
  | .error fault => (.error fault, s)

/-- **All or nothing**: after a fault the state is as it was before the action. -/
def atomically (act : Action σ α) : Action σ α := fun s ↦
  match act.run s with
  | (.ok a, s') => (.ok a, s')
  | (.error fault, _) => (.error fault, s)

/-- Runs an action on a part of the state. -/
def zoom (part : σ → τ) (replace : σ → τ → σ) (act : Action τ α) : Action σ α := fun s ↦
  let (result, t) := act.run (part s)
  (result, replace s t)

/-! ## Equations -/

@[simp] theorem run_pure (a : α) (s : σ) : (pure a : Action σ α).run s = (.ok a, s) := rfl

@[simp] theorem run_throw (fault : Fault) (s : σ) :
    (throw fault : Action σ α).run s = (.error fault, s) := rfl

theorem run_bind (act : Action σ α) (next : α → Action σ β) (s : σ) :
    (act >>= next).run s =
      match act.run s with
      | (.ok a, s') => (next a).run s'
      | (.error fault, s') => (.error fault, s') := by
  simp only [Action.run, bind, ExceptT.bind, ExceptT.mk, StateT.bind]
  obtain ⟨result, s'⟩ := act s
  cases result <;> rfl

@[simp] theorem run_get (s : σ) : (get : Action σ σ).run s = (.ok s, s) := rfl

@[simp] theorem run_modify (f : σ → σ) (s : σ) :
    (modify f : Action σ PUnit).run s = (.ok ⟨⟩, f s) := rfl

@[simp] theorem run_query (f : σ → Except Fault α) (s : σ) : (query f).run s = (f s, s) := rfl

theorem run_query_bind (f : σ → Except Fault α) (next : α → Action σ β) (s : σ) :
    (query f >>= next).run s =
      match f s with
      | .ok a => (next a).run s
      | .error fault => (.error fault, s) := by
  rw [run_bind, run_query]
  cases f s <;> rfl

theorem run_zoom (part : σ → τ) (replace : σ → τ → σ) (act : Action τ α) (s : σ) :
    (zoom part replace act).run s = ((act.run (part s)).1, replace s (act.run (part s)).2) := rfl

theorem run_update (f : σ → Except Fault σ) (s : σ) :
    (update f).run s =
      match f s with
      | .ok s' => (.ok (), s')
      | .error fault => (.error fault, s) := rfl

theorem run_atomically (act : Action σ α) (s : σ) :
    (atomically act).run s =
      match act.run s with
      | (.ok a, s') => (.ok a, s')
      | (.error fault, _) => (.error fault, s) := rfl

theorem state_eq_of_atomically {act : Action σ α} {s s' : σ} {fault : Fault}
    (h : (atomically act).run s = (.error fault, s')) : s' = s := by
  rw [run_atomically] at h
  split at h <;> cases h
  rfl

end Action

end Spreadsheet
