import Spreadsheet.Proofs.Reachable

/-!
# All or nothing

An edit can stop at many places: the cell is not named, the formula is refused, a reference is off
the sheet, the edges close a circle, or a cell further down has no value, when others have new
values already. Wherever it stops, the table is as it was, with the same cells in the same order
and with the same contents.

None of that depends on what the table is like. The tables of a sheet are sound, but here edges may
lead anywhere, values may be any numbers, and formulas may be nonsense. So the argument does not
follow the steps of an edit. It compares the edit with its bare steps (`Sheet.Edit.steps`), which
leave behind whatever they have done when they stop: an edit is its steps, made atomic as a whole.
-/

namespace Spreadsheet

/-! ## Where a way back can begin

Looking at the state changes nothing, so the way back can as well begin after that. It cannot begin
after a step that has changed something. -/

namespace Action

variable {σ α β : Type}

theorem atomically_pure (a : α) : atomically (pure a : Action σ α) = pure a := rfl

theorem atomically_query_bind (look : σ → Except Fault α) (next : α → Action σ β) :
    atomically (query look >>= next) = query look >>= fun a ↦ atomically (next a) := by
  funext s
  change (atomically (query look >>= next)).run s
    = (query look >>= fun a ↦ atomically (next a)).run s
  rw [run_atomically, run_query_bind, run_query_bind]
  cases look s <;> rfl

theorem atomically_get_bind (next : σ → Action σ β) :
    atomically (get >>= next) = get >>= fun s ↦ atomically (next s) := rfl

end Action

namespace Sheet

open Spreadsheet.Action

/-! ## Edits and their steps -/

/-- What can be done to one cell of a sheet. A formula that is applied need not come from a text. -/
inductive Edit
  | evaluate (cell expr : String)
  | remove (cell : String)
  | copy (source target : String)
  | apply (id expr : String) (f : Formula) (base : Position)

namespace Edit

/-- Carries out an edit. -/
def action : Edit → Action Sheet Updates
  | evaluate cell expr => Sheet.evaluate cell expr
  | remove cell => Sheet.remove cell
  | copy source target => Sheet.copy source target
  | apply id expr f base => Sheet.apply id expr f base

/-- Evaluates without a way back. -/
def evaluateSteps (cell expr : String) : Action Sheet Updates := do
  let (id, f, base) ← Action.query (·.settings.accept cell expr)
  onTable (Table.put id (Text.strip expr) f base)

/-- Removes without a way back. -/
def removeSteps (cell : String) : Action Sheet Updates := do
  let id ← Action.query fun s : Sheet ↦ s.settings.locate cell >>= Position.id
  if (← get).table.contains id then onTable (vacate id) else return [(id, 0.0)]

/-- The steps of an edit. Where they stop at a fault, they leave what they have done. -/
def steps : Edit → Action Sheet Updates
  | evaluate cell expr => evaluateSteps cell expr
  | remove cell => removeSteps cell
  | copy source target => do
    let (id, expr) ← Action.query (·.copied source target)
    match expr with
    | none => removeSteps id
    | some expr => evaluateSteps id expr
  | apply id expr f base => onTable (Table.put id expr f base)

theorem evaluate_eq_atomically (cell expr : String) :
    Sheet.evaluate cell expr = atomically (evaluateSteps cell expr) := by
  rw [evaluateSteps, atomically_query_bind]
  rfl

theorem remove_eq_atomically (cell : String) :
    Sheet.remove cell = atomically (removeSteps cell) := by
  rw [removeSteps, atomically_query_bind, Sheet.remove]
  refine congrArg _ (funext fun id ↦ ?_)
  rw [atomically_get_bind]
  refine congrArg _ (funext fun s ↦ ?_)
  rw [apply_ite atomically, atomically_pure]

/-- **An edit is its steps, made atomic.** -/
theorem action_eq_atomically (edit : Edit) : edit.action = atomically edit.steps := by
  cases edit with
  | evaluate cell expr => exact evaluate_eq_atomically cell expr
  | remove cell => exact remove_eq_atomically cell
  | copy source target =>
    rw [steps, atomically_query_bind]
    refine congrArg₂ (· >>= ·) rfl (funext fun (id, expr) ↦ ?_)
    cases expr with
    | none => exact remove_eq_atomically id
    | some expr => exact evaluate_eq_atomically id expr
  | apply id expr f base => rfl

end Edit

/-! ## All or nothing -/

/-- **Edits give all or nothing on any table.** Whatever the table has, an edit that ends in a fault
of any kind leaves the sheet as it was: the same cells in the order of their creation, each with the
same text, formula, value and dependents. It ends in a fault exactly where its steps stop at that
fault, and what they do when they do not stop is done in full. -/
theorem unchanged_of_fault (edit : Edit) (s : Sheet) :
    (∀ fault s', edit.action.run s = (.error fault, s') → s' = s) ∧
    (∀ fault, (edit.action.run s).1 = .error fault ↔ (edit.steps.run s).1 = .error fault) ∧
    ∀ updates s', edit.action.run s = (.ok updates, s') ↔ edit.steps.run s = (.ok updates, s') := by
  rw [edit.action_eq_atomically]
  refine ⟨fun fault s' h ↦ state_eq_of_atomically h, fun fault ↦ ?_, fun updates s' ↦ ?_⟩
  · rw [run_atomically]
    obtain ⟨_ | _, _⟩ := edit.steps.run s <;> rfl
  · rw [run_atomically]
    obtain ⟨_ | _, _⟩ := edit.steps.run s <;> simp

/-- An edge leads to the cell `b1`, whose formula is foreign. The steps of the edit stop there when
the cell `c1` has a new value already, and leave it there. After the edit the old value is back. -/
theorem unchanged_of_fault_midway :
    let double : Formula := .app "*" [.ref ⟨-2, 0, false, false⟩, .num 2.0]
    let linked : Table := (Table.addDependent ∅ "a1" "c1").addDependent "a1" "b1"
    let doubled := (Record.placeholder "c1").withFormula "a1*2" double
    let unknown := (Record.placeholder "b1").withFormula "?" (.foreign "?")
    let table : Table := (linked.insert "c1" doubled).insert "b1" unknown
    let s : Sheet := ⟨"s", .standard, table⟩
    table.valueOf "c1" = 0.0 ∧
      (((Edit.evaluate "a1" "5").steps.run s).2.table.valueOf "c1" = 10.0) ∧
      (evaluate "a1" "5").run s = (.error (.unsupported (.node "?")), s) := by
  intro double linked doubled unknown table s
  have hfault : ((evaluate "a1" "5").run s).1 = .error (.unsupported (.node "?")) := by
    decide +kernel
  have hrun : (Edit.evaluate "a1" "5").action.run s
      = (.error (.unsupported (.node "?")), ((evaluate "a1" "5").run s).2) := Prod.ext hfault rfl
  obtain ⟨hkept, -, -⟩ := unchanged_of_fault (.evaluate "a1" "5") s
  have hstate := hkept _ _ hrun
  rw [hstate] at hrun
  exact ⟨by decide +kernel, by decide +kernel, hrun⟩

end Sheet

end Spreadsheet
