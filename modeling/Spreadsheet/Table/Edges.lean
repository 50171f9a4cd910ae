import Spreadsheet.Table.Basic

/-!
# Formulas and edges

The only way to give a cell a formula is `assign`, which moves the edges along: the cell leaves the
dependents of what its old formula reads and joins the dependents of what its new formula reads.
`retract` is the first half. Both look at everything that can fail before they change anything, so a
fault means that nothing was done.

The stored formula is read back at the position that the id of its cell names. A formula may have
been assigned at another position, and then the edges of its assignment are not found again.
-/

namespace Spreadsheet

namespace Table

/-- The cells that the formula of a cell reads. -/
def dependencies (t : Table) (id : String) : Except Fault (List String) :=
  match t.formula? id with
  | none => .ok []
  | some f => do
    let base ← Position.read id
    f.references base

/-- The table without the edges to a cell from what its formula reads. The formula stays. -/
def retract (t : Table) (id : String) : Except Fault Table :=
  (t.dependencies id).map fun refs ↦ refs.foldl (·.dropDependent · id) t

/-- The table with a formula at a cell, for which references are taken from `base`, and with the
edges that belong to it. A cell cannot read itself. -/
def assign (t : Table) (id expr : String) (f : Formula) (base : Position) :
    Except Fault Table := do
  let refs ← f.references base
  if id ∈ refs then throw (.circular (.itself id))
  let retracted ← t.retract id
  let linked := refs.foldl (·.addDependent · id) retracted
  return (linked.ensure id).modify id (·.withFormula expr f)

end Table

end Spreadsheet
