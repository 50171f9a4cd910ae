import Spreadsheet.Graph
import Spreadsheet.Table.Basic

/-!
# What an edit affects

A cell with a formula is affected by an edit if it can be reached from the edited cell along the
dependents, through cells with formulas. `affected` lists these cells in an order in which they can
be computed. Edges to cells without a formula lead nowhere.
-/

namespace Spreadsheet

namespace Table

/-- The dependents of a cell that have a formula, in ascending order. -/
def readers (t : Table) (id : String) : List String := (t.dependents id).ids.filter t.hasFormula

theorem mem_readers {t : Table} {u v : String} :
    v ∈ t.readers u ↔ v ∈ t.dependents u ∧ t.hasFormula v = true := by
  rw [readers, List.mem_filter, IdSet.mem_def]

theorem mem_ids_of_hasFormula {t : Table} {id : String} (h : t.hasFormula id = true) :
    id ∈ t.ids := by
  rw [OrderedMap.mem_keys_iff]
  simp only [hasFormula, formula?, Option.isSome_iff_exists, Option.bind_eq_some_iff] at h
  obtain ⟨_, r, hr, _⟩ := h
  exact ⟨r, hr⟩

/-- The cells, with an edge to each reader that has a formula. -/
def readersGraph (t : Table) : Graph where
  nodes := t.ids
  next := t.readers
  mem_nodes_of_mem_next h := mem_ids_of_hasFormula (mem_readers.mp h).2
  nodup_next id := (t.dependents id).nodup.sublist List.filter_sublist

/-- The cells that an edit of `origin` affects, each before all those that read it. A cycle among
them is a fault. The origin itself is left out. -/
def affected (t : Table) (origin : String) : Except Fault (List String) :=
  match t.readersGraph.walk origin with
  | .ok ids => .ok ids
  | .error cycle => .error (.circular (.path cycle))

end Table

end Spreadsheet
