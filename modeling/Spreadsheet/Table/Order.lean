import Spreadsheet.Table.Edges

/-!
# The order of formulas

`topologicalOrder` lists the cells with formulas so that every cell comes after those that it reads.
Among the cells that may come next it takes the one with the smallest id, so the order is a function
of the formulas alone.

Every cell waits for as many cells as its formula reads. Listing a cell releases its dependents by
one, and a cell that waits for none is ready. Cells on a cycle, and cells that read them, wait
forever: they are what is left when no cell is ready, and the fault names them.
-/

namespace Spreadsheet

namespace Table

/-! ## Releasing -/

/-- Cells with the number of cells that each is waiting for. -/
abbrev Waiting := List (String × Nat)

/-- What the cells wait for once the dependents of a listed cell are released by one. -/
def release (dependents : IdSet) (waiting : Waiting) : Waiting :=
  waiting.map fun (id, count) ↦ (id, if id ∈ dependents then count - 1 else count)

/-- The cells that wait for none. -/
def released (waiting : Waiting) : List String :=
  (waiting.filter fun (_, count) ↦ count == 0).map Prod.fst

/-- The cells that still wait. -/
def blocked (waiting : Waiting) : Waiting := waiting.filter fun (_, count) ↦ count != 0

private theorem length_released_add_length_blocked (waiting : Waiting) :
    (released waiting).length + (blocked waiting).length = waiting.length := by
  induction waiting with
  | nil => rfl
  | cons e rest ih =>
    obtain ⟨id, count⟩ := e
    simp only [released, blocked, List.length_map] at ih
    simp only [released, blocked, List.filter_cons, List.length_map]
    by_cases h : count = 0
    · simp [h]; omega
    · simp [h]; omega

/-! ## Listing -/

/-- Lists the smallest ready cell and releases its dependents, as long as there is one. The result
has the cells that still wait, too. -/
def drain (dependents : String → IdSet) (waiting : Waiting) (ready : IdSet) :
    List String × Waiting :=
  match h : ready.popMin? with
  | none => ([], waiting)
  | some (id, rest) =>
    let next := release (dependents id) waiting
    let (ids, left) := drain dependents (blocked next) ((released next).foldl IdSet.insert rest)
    (id :: ids, left)
termination_by waiting.length + ready.ids.length
decreasing_by
  have hpop := IdSet.length_of_popMin? h
  have hinsert := IdSet.length_foldl_insert_le (released next) rest
  have hsplit := length_released_add_length_blocked next
  have hnext : next.length = waiting.length := List.length_map _
  change (blocked next).length + ((released next).foldl IdSet.insert rest).ids.length < _
  omega

/-- The cells with formulas, as their records call them. -/
def formulaCells (t : Table) : List String :=
  (t.records.filter fun r ↦ !r.isPlaceholder).map Record.id

/-- The cells with formulas, each with the number of such cells that it reads. -/
def counts (t : Table) : Except Fault Waiting :=
  let formulas := t.formulaCells
  formulas.mapM fun id ↦
    (t.dependencies id).map fun refs ↦ (id, (refs.filter (· ∈ formulas)).length)

/-- The cells with formulas, each after those that it reads. -/
def topologicalOrder (t : Table) : Except Fault (List String) := do
  let waiting ← t.counts
  let (ids, left) := drain t.dependents (blocked waiting) (IdSet.ofList (released waiting))
  if left.isEmpty then return ids
  else throw (.circular (.among (IdSet.ofList (left.map Prod.fst)).ids))

end Table

end Spreadsheet
