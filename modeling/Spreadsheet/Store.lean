import Spreadsheet.IdSet
import Spreadsheet.OrderedMap
import Spreadsheet.Text.Quoted

/-!
# Stores

A store keeps the formula texts of sheets, by sheet name and cell id, and understands none of them.
Cells come back in the order in which they were first set.

Each method of a store can be out of order. It then fails with a reason of its own before it does
anything. What the store holds is not affected by that.
-/

namespace Spreadsheet

open Text

/-- The methods of a store that can be out of order. -/
inductive StoreMethod
  | load
  | set
  | remove
  | clear
  deriving DecidableEq, Repr

/-- The texts of sheets, and which methods are out of order. -/
structure Store where
  /-- Formula texts by sheet name and cell id. -/
  sheets : OrderedMap String (OrderedMap String String) := ∅
  /-- Why a method fails, if it does. -/
  outage : StoreMethod → Option String := fun _ ↦ none

namespace Store

instance : Inhabited Store := ⟨{}⟩

/-- Does something to a store by a method, unless that is out of order. -/
def attempt {α : Type} (s : Store) (method : StoreMethod) (result : α) : Except String α :=
  match s.outage method with
  | some reason => .error reason
  | none => .ok result

/-- The store with a method out of order for a reason, or in order again. -/
def withOutage (s : Store) (method : StoreMethod) (reason : Option String) : Store :=
  { s with outage := fun m ↦ if m = method then reason else s.outage m }

/-- The cells of a sheet, with none for a sheet that is not known. -/
def cells (s : Store) (sheet : String) : OrderedMap String String := (s.sheets.get? sheet).getD ∅

/-- The formula text of a cell, empty for a cell that is not known. -/
def text (s : Store) (sheet cell : String) : String := ((s.cells sheet).get? cell).getD ""

/-- All cells of a sheet with their texts. -/
def load (s : Store) (sheet : String) : Except String (List (String × String)) :=
  s.attempt .load (s.cells sheet).entries

/-- Keeps the text of a cell. -/
def set (s : Store) (sheet cell text : String) : Except String Store :=
  s.attempt .set { s with sheets := s.sheets.insert sheet ((s.cells sheet).insert cell text) }

/-- Forgets a cell. The sheet stays known. -/
def remove (s : Store) (sheet cell : String) : Except String Store :=
  s.attempt .remove { s with sheets := s.sheets.modify sheet (·.erase cell) }

/-- Forgets a sheet. -/
def clear (s : Store) (sheet : String) : Except String Store :=
  s.attempt .clear { s with sheets := s.sheets.erase sheet }

/-- The store in one line, with the names of its sheets in ascending order. -/
def display (s : Store) : String :=
  "<MemoryStore sheets=" ++ quotedList (IdSet.ofList s.sheets.keys).ids ++ ">"

end Store

end Spreadsheet
