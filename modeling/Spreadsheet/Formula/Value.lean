import Spreadsheet.Formula.Basic
import Spreadsheet.Formula.Operation

/-!
# Values and readings of formulas

What a formula is worth depends on the values of the cells that it references, and on nothing else.
`references` lists those cells, and `evaluate` looks each of them up by its id.
-/

namespace Spreadsheet

namespace Formula

/-- Evaluation in the cell at `base`, where `valueOf` gives the values of cells. -/
def evaluator (valueOf : String → Float) (base : Position) : Algebra Float where
  num value := .ok value
  ref target := (target.idAt base).map valueOf
  app := Operation.apply
  foreign text := .error (.unsupported (.node text))

/-- The value of a formula in the cell at `base`, where `valueOf` gives the values of cells. -/
def evaluate (f : Formula) (valueOf : String → Float) (base : Position) : Except Fault Float :=
  f.foldM (evaluator valueOf base)

/-- The ids of the cells that a formula in the cell at `base` references, in the order in which they
first appear, without repetitions. -/
def references (f : Formula) (base : Position) : Except Fault (List String) :=
  (f.refs.mapM fun r : CellRef ↦ r.idAt base).map List.eraseDups

end Formula

end Spreadsheet
