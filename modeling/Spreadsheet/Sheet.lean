import Spreadsheet.Formula.Printer
import Spreadsheet.Settings
import Spreadsheet.Table.Order
import Spreadsheet.Table.Recalculation

/-!
# Sheets

A sheet is a cell table inside bounds. Cells are named by any spelling of a position without
anchors, and the table has them under their canonical ids.

Every edit gives all or nothing: it ends with the formulas, edges and values in step, or in a fault
with the table as it was before. The result of an edit is the list of new values, the edited cell
first and then the cells that it affects.
-/

namespace Spreadsheet

open Text

/-- A named table of cells with the settings that bound it. -/
structure Sheet where
  name : String
  settings : Settings
  table : Table

/-- The formula text and the value of a cell. -/
structure CellView where
  expr : String
  value : Float
  deriving DecidableEq

namespace Settings

/-- The position of a cell that is named inside the bounds of a sheet. -/
def locate (s : Settings) (text : String) : Except Fault Position := do
  let r ← CellRef.read text
  if r.colAnchored || r.rowAnchored then throw (.malformed (.anchoredId text))
  if s.inBounds r.position then return r.position
  else throw (.malformed (.outOfBounds text))

/-- Refuses a formula at `base` with a reference out of bounds. -/
def checkReferences (s : Settings) (f : Formula) (base : Position) : Except Fault Unit := do
  let ids ← f.references base
  ids.forM fun id ↦ do let _ ← s.locate id

end Settings

namespace Sheet

/-- A sheet without cells. -/
def empty (name : String) (settings : Settings) : Sheet := ⟨name, settings, ∅⟩

/-- Runs an action on the table of a sheet. -/
def onTable {α : Type} (act : Action Table α) : Action Sheet α :=
  Action.zoom Sheet.table (fun s t ↦ { s with table := t }) act

/-! ## Edits -/

/-- Gives a cell a formula and computes everything that it affects. -/
def apply (id expr : String) (f : Formula) (base : Position) : Action Sheet Updates :=
  Action.atomically <| onTable do
    let value ← Table.install id expr f base
    let updates ← Table.propagate id
    return (id, value) :: updates

/-- Reads a formula for a cell and applies it. Blanks around the text are not kept. -/
def evaluate (cell expr : String) : Action Sheet Updates := do
  let (id, f, base) ← Action.query fun s : Sheet ↦ do
    let base ← s.settings.locate cell
    let f ← Formula.read (strip expr) base
    s.settings.checkReferences f base
    return (← base.id, f, base)
  apply id (strip expr) f base

/-- Takes the formula out of a cell of the table, and the cell with it unless something reads it. -/
def vacate (id : String) : Action Table Updates := do
  Action.update (·.retract id)
  modify fun t ↦ t.modify id Record.cleared
  let updates ← Table.propagate id
  modify fun t ↦ if (t.dependents id).isEmpty then t.erase id else t
  return (id, 0.0) :: updates

/-- Takes the formula out of a cell, which is worth zero from then on. -/
def remove (cell : String) : Action Sheet Updates := do
  let id ← Action.query fun s : Sheet ↦ do (← s.settings.locate cell).id
  if (← get).table.contains id then Action.atomically (onTable (vacate id))
  else return [(id, 0.0)]

/-- Copies the formula of one cell to another. Free references move along, anchored ones stay. A
cell without a formula empties the other one. -/
def copy (source target : String) : Action Sheet Updates := do
  let (id, expr) ← Action.query fun s : Sheet ↦ do
    let source ← s.settings.locate source
    let target ← s.settings.locate target
    match s.table.formula? (← source.id) with
    | none => return (← target.id, none)
    | some f => return (← target.id, some (← f.write target))
  match expr with
  | none => remove id
  | some expr => evaluate id expr

/-- Takes out every cell. -/
def clear : Action Sheet Unit := modify fun s ↦ { s with table := ∅ }

/-! ## Views -/

/-- A cell with the text of its formula. -/
abbrev Entry := String × String

/-- The formula text and the value of a cell. Both are empty for a cell without a record. -/
def view (s : Sheet) (cell : String) : Except Fault CellView := do
  let id ← (← s.settings.locate cell).id
  match s.table.get? id with
  | some r => return ⟨r.expr, r.value⟩
  | none => return ⟨"", 0.0⟩

/-- The cells with formulas, each after those that it reads, with their records. -/
def rows (s : Sheet) : Except Fault (List (String × Record)) :=
  s.table.topologicalOrder.map fun ids ↦ ids.filterMap fun id ↦ (s.table.get? id).map (id, ·)

/-- The formula texts of a sheet. -/
def dump (s : Sheet) : Except Fault (List Entry) :=
  s.rows.map fun rows ↦ rows.map fun (id, r) ↦ (id, r.expr)

/-- The formula texts of a sheet with their values. -/
def dumpValues (s : Sheet) : Except Fault (List (String × String × Float)) :=
  s.rows.map fun rows ↦ rows.map fun (id, r) ↦ (id, r.expr, r.value)

/-- A sheet in one line. -/
def display (s : Sheet) : String :=
  "<Spreadsheet " ++ quoted s.name ++ " cells=" ++ Numeral.write s.table.size ++ ">"

/-! ## Replaying -/

/-- Evaluates formula texts one after the other. -/
def evaluateAll (entries : List Entry) : Action Sheet Unit :=
  entries.forM fun (cell, expr) ↦ do let _ ← evaluate cell expr

/-- The sheet that the formula texts of a sheet make anew. -/
def replay (s : Sheet) : Except Fault Sheet := do
  let entries ← s.dump
  match (evaluateAll entries).run (empty s.name s.settings) with
  | (.ok (), made) => return made
  | (.error fault, _) => throw fault

/-- The sheet with one more formula text, or unchanged if the text is at fault in a way that users
get to see. -/
def absorb (s : Sheet) (entry : Entry) : Except Fault Sheet :=
  match (evaluate entry.1 entry.2).run s with
  | (.ok _, s') => .ok s'
  | (.error fault, s') => if fault.code?.isSome then .ok s' else .error fault

/-- The sheet that texts from elsewhere make, as far as they are any good. -/
def ofEntries (name : String) (settings : Settings) (entries : List Entry) : Except Fault Sheet :=
  entries.foldlM absorb (empty name settings)

end Sheet

end Spreadsheet
