import Spreadsheet.Table.Basic

/-!
# Agreement of tables

Two tables agree if they have the same cells with the same contents, whatever the order in which the
cells were created. Numbers are compared as numbers: the two zeros agree. NaN agrees with itself, so
every table agrees with itself.
-/

namespace Spreadsheet

/-- Whether two floats are equal as numbers, or both no number. -/
def sameNumber (a b : Float) : Bool := a == b || (a.isNaN && b.isNaN)

/-- Whether two nodes differ at most in how a number is represented. -/
def Node.agrees : Node → Node → Bool
  | num a, num b => sameNumber a b
  | a, b => a == b

/-- Whether two formulas have the same shape and agree node by node. -/
def Formula.agrees (f g : Formula) : Bool :=
  f.nodes.length == g.nodes.length && (f.nodes.zip g.nodes).all fun (a, b) ↦ a.agrees b

/-- Whether two records have the same contents. -/
def Record.agrees (r s : Record) : Bool :=
  r.id == s.id && r.expr == s.expr && sameNumber r.value s.value &&
    r.dependents.ids == s.dependents.ids &&
    match r.formula, s.formula with
    | none, none => true
    | some f, some g => f.agrees g
    | _, _ => false

/-- Whether two tables have the same cells with the same contents. -/
def Table.agrees (t u : Table) : Bool :=
  t.size == u.size && t.entries.all fun (id, r) ↦ (u.get? id).any r.agrees

end Spreadsheet
