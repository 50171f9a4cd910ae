import Spreadsheet.Action
import Spreadsheet.Formula.Reader
import Spreadsheet.Table.Edges
import Spreadsheet.Table.Walk

/-!
# Recalculation

After an edit every affected cell is computed again, one after the other in the order of `affected`.
Each new value is written before the next cell is computed, so a cell reads the new values of what
it depends on. If a cell cannot be computed, the values written before it stay written.
-/

namespace Spreadsheet

/-- Cells with their new values, in the order in which they were computed. -/
abbrev Updates := List (String × Float)

namespace Table

/-- The value of the formula of a cell, and zero if it has none. -/
def evaluateCell (t : Table) (id : String) : Except Fault Float :=
  match t.formula? id with
  | none => .ok 0.0
  | some f => do
    let base ← Position.read id
    f.evaluate t.valueOf base

/-- Computes one cell and writes its value. -/
def recalculate (id : String) : Action Table (String × Float) := do
  let value ← Action.query (evaluateCell · id)
  modify fun t ↦ t.modify id (·.withValue value)
  return (id, value)

/-- Computes all cells that an edit of `origin` affects. A cycle is found before anything is
written. -/
def propagate (origin : String) : Action Table Updates := do
  let ids ← Action.query (affected · origin)
  ids.mapM recalculate

/-- Gives a cell a formula and computes the cell, but nothing that reads it. -/
def install (id expr : String) (f : Formula) (base : Position) : Action Table Float := do
  Action.update (assign · id expr f base)
  let value ← Action.query fun t : Table ↦ f.evaluate t.valueOf base
  modify fun t ↦ t.modify id (·.withValue value)
  return value

/-- Reads a formula where it is to stand, and installs it there. -/
def setFormula (id expr : String) : Action Table Float := do
  let (base, f) ← Action.query fun _ ↦ do
    let base ← Position.read id
    return (base, ← Formula.read expr base)
  install id expr f base

end Table

end Spreadsheet
