import Spreadsheet.Formula.Value
import Spreadsheet.IdSet
import Spreadsheet.OrderedMap

/-!
# Cell tables

What a sheet holds: a record for each cell that has a formula or is referenced by one. A record
without a formula is a placeholder. It stands for an empty cell that some formula reads.

A record knows the id of its cell. It is given the id under which it is kept when it is made, and no
operation changes it.

Edges between cells are kept as ids, on the side of the cell that is read: `dependents` are the
cells to look at when the value of this one changes. The table takes them as they come. That they
agree with the formulas is the business of whoever edits the table.

Ids are plain keys here and need not be canonical, or name cells at all.
-/

namespace Spreadsheet

/-! ## Records -/

/-- What is known of one cell. -/
structure Record where
  /-- The id of the cell. -/
  id : String
  /-- The formula as it was written, empty for a placeholder. -/
  expr : String := ""
  /-- The formula. -/
  formula : Option Formula := none
  /-- The value that was computed last. -/
  value : Float := 0.0
  /-- The cells with a formula that reads this one. -/
  dependents : IdSet := ∅
  deriving DecidableEq

namespace Record

/-- The record of a cell that is only known because it is referenced. -/
def placeholder (id : String) : Record := { id }

/-- Whether a record has no formula. -/
def isPlaceholder (r : Record) : Bool := r.formula.isNone

/-- The record with a value. -/
def withValue (r : Record) (value : Float) : Record := { r with value := value }

/-- The record with a formula and its text. -/
def withFormula (r : Record) (expr : String) (f : Formula) : Record :=
  { r with expr := expr, formula := some f }

/-- The record without its formula and value. -/
def cleared (r : Record) : Record := { r with expr := "", formula := none, value := 0.0 }

/-- The record with one more dependent. -/
def addDependent (r : Record) (id : String) : Record :=
  { r with dependents := r.dependents.insert id }

/-- The record with one dependent less. -/
def dropDependent (r : Record) (id : String) : Record :=
  { r with dependents := r.dependents.erase id }

end Record

/-! ## Tables -/

/-- Records by cell id, in the order of their creation. -/
abbrev Table := OrderedMap String Record

namespace Table

/-- The ids of the cells, in the order of their creation. -/
abbrev ids (t : Table) : List String := t.keys

/-- The records of the cells, in the order of their creation. -/
def records (t : Table) : List Record := t.entries.map Prod.snd

/-- The formula of a cell. -/
def formula? (t : Table) (id : String) : Option Formula := (t.get? id).bind Record.formula

/-- Whether a cell has a formula. -/
def hasFormula (t : Table) (id : String) : Bool := (t.formula? id).isSome

/-- The value of a cell. A cell without a record is worth zero. -/
def valueOf (t : Table) (id : String) : Float :=
  match t.get? id with
  | some r => r.value
  | none => 0.0

/-- The cells that are kept as readers of a cell. -/
def dependents (t : Table) (id : String) : IdSet :=
  match t.get? id with
  | some r => r.dependents
  | none => ∅

/-- The table with a record for a cell, a placeholder if there was none. -/
def ensure (t : Table) (id : String) : Table :=
  if t.contains id then t else t.insert id (.placeholder id)

/-- The table with a value at a cell, whatever its formula says. -/
def setValue (t : Table) (id : String) (value : Float) : Table :=
  (t.ensure id).modify id (·.withValue value)

/-- The table with one more reader of a cell. -/
def addDependent (t : Table) (id reader : String) : Table :=
  (t.ensure id).modify id (·.addDependent reader)

/-- The table with one reader of a cell less. Without a record there is none. -/
def dropDependent (t : Table) (id reader : String) : Table :=
  t.modify id (·.dropDependent reader)

/-- The table in one line. -/
def display (t : Table) : String := "<CellTable cells=" ++ Numeral.write t.size ++ ">"

theorem get?_ensure (t : Table) (id other : String) :
    (t.ensure id).get? other =
      if other = id then some ((t.get? id).getD (.placeholder id)) else t.get? other := by
  unfold ensure
  split
  · rename_i h
    split
    · rename_i heq
      obtain ⟨r, hr⟩ := Option.isSome_iff_exists.mp h
      rw [heq, hr]; rfl
    · rfl
  · rename_i h
    have hnone : t.get? id = none := by simpa [OrderedMap.contains] using h
    rw [OrderedMap.get?_insert, hnone]; rfl

end Table

end Spreadsheet
