import Spreadsheet.Sheet
import Spreadsheet.Store

/-!
# Workbooks

A workbook answers requests on many sheets that a store keeps. A sheet is made from its stored texts
when it is first asked for, and is held in memory from then on. Every edit is written through: what
the sheet has after the edit is what the store is told.

If the store fails, the sheet in memory may be ahead of it. The workbook then forgets the sheet, so
that the next request makes it anew from what the store has.

Faults that users get to see become replies. Any other fault escapes.
-/

namespace Spreadsheet

/-- Sheets by name, backed by a store. -/
structure Workbook where
  /-- The settings of all sheets. -/
  settings : Settings
  /-- Where the formula texts are kept. -/
  store : Store
  /-- The sheets that are held in memory. -/
  loaded : OrderedMap String Sheet

/-- What a user gets to see of a request. -/
inductive Reply (α : Type)
  /-- The request was carried out. -/
  | done (value : α)
  /-- The request was refused. -/
  | failed (report : Report)
  deriving DecidableEq

namespace Workbook

/-- A workbook over a store, with no sheet in memory. -/
def overStore (settings : Settings) (store : Store) : Workbook := ⟨settings, store, ∅⟩

/-- The workbook with a sheet held in memory. -/
def hold (w : Workbook) (name : String) (sheet : Sheet) : Workbook :=
  { w with loaded := w.loaded.insert name sheet }

/-- The workbook without a sheet in memory. -/
def forget (w : Workbook) (name : String) : Workbook := { w with loaded := w.loaded.erase name }

/-! ## The store -/

/-- Uses the store for a sheet. If that fails, the sheet is forgotten and the reason reported. -/
def storing {α : Type} (action : StoreAction) (name : String) (use : Store → Except String α) :
    Action Workbook α := do
  match use (← get).store with
  | .ok result => return result
  | .error reason =>
    modify (·.forget name)
    throw (.store action name reason)

/-- Changes the store for a sheet. -/
def changeStore (action : StoreAction) (name : String) (change : Store → Except String Store) :
    Action Workbook Unit := do
  let store ← storing action name change
  modify fun w ↦ { w with store := store }

/-! ## Sheets -/

/-- The sheet of a name, made from its stored texts unless it is in memory. -/
def sheet (name : String) : Action Workbook Sheet := do
  let w ← get
  match w.loaded.get? name with
  | some sheet => return sheet
  | none =>
    let entries ← storing .load name (·.load name)
    let made ← Action.query fun _ ↦ Sheet.ofEntries name w.settings entries
    modify (·.hold name made)
    return made

/-- Runs an action on the sheet of a name. -/
def onSheet {α : Type} (name : String) (act : Action Sheet α) : Action Workbook α := do
  let (result, changed) := act.run (← sheet name)
  modify (·.hold name changed)
  Action.query fun _ ↦ result

/-- Tells the store what a cell of a sheet has now. -/
def writeThrough (name cell : String) : Action Workbook Unit := do
  let id ← Action.query fun _ ↦ do (← Position.read cell).id
  let view ← onSheet name (Action.query (·.view id))
  changeStore .save name fun store ↦
    if view.expr.isEmpty then store.remove name id else store.set name id view.expr

/-- Edits the sheet of a name and writes the edited cell through. -/
def edit {α : Type} (name cell : String) (act : Action Sheet α) : Action Workbook α := do
  let result ← onSheet name act
  writeThrough name cell
  return result

/-! ## Requests -/

/-- What a workbook can be asked about one of its sheets. -/
inductive Request
  | evaluate (cell expr : String)
  | remove (cell : String)
  | copy (source target : String)
  | query (cell : String)
  | clear
  | dump
  | dumpValues
  deriving DecidableEq

/-- What comes of a request. -/
inductive Answer
  | updates (updates : Updates)
  | view (view : CellView)
  | entries (entries : List Sheet.Entry)
  | values (rows : List (String × String × Float))
  | nothing
  deriving DecidableEq

/-- Carries out a request on the sheet of a name. -/
def carryOut (name : String) : Request → Action Workbook Answer
  | .evaluate cell expr => return .updates (← edit name cell (Sheet.evaluate cell expr))
  | .remove cell => return .updates (← edit name cell (Sheet.remove cell))
  | .copy source target => return .updates (← edit name target (Sheet.copy source target))
  | .query cell => return .view (← onSheet name (Action.query (·.view cell)))
  | .clear => do
    onSheet name Sheet.clear
    changeStore .clear name (·.clear name)
    return .nothing
  | .dump => return .entries (← onSheet name (Action.query (·.dump)))
  | .dumpValues => return .values (← onSheet name (Action.query (·.dumpValues)))

/-- Turns a fault that users get to see into a reply. -/
def reporting {α : Type} (act : Action Workbook α) : Action Workbook (Reply α) := fun w ↦
  match act.run w with
  | (.ok value, w') => (.ok (.done value), w')
  | (.error fault, w') =>
    match fault.report? with
    | some report => (.ok (.failed report), w')
    | none => (.error fault, w')

/-- Answers a request on the sheet of a name. -/
def perform (name : String) (request : Request) : Action Workbook (Reply Answer) :=
  reporting (carryOut name request)

/-- The workbook as it starts over the store that it leaves behind. -/
def restarted (w : Workbook) : Workbook := overStore w.settings w.store

end Workbook

end Spreadsheet
