import Spreadsheet.Formula.Basic
import Spreadsheet.Formula.Operation
import Spreadsheet.Numeral.Shortest

/-!
# Writing formulas

A formula is written for a cell: references are spelled as they read in that cell. Parentheses are
written where the grammar needs them and nowhere else. An operand is in parentheses if it binds less
tightly than its place asks for: a left operand has to bind as tightly as its operator, a right
operand more tightly, and the operand of a sign as tightly as a sign.

Whole numbers below `10 ^ 16` are written without a point, all other numbers as the shortest decimal
text that reads back.
-/

namespace Spreadsheet

namespace Formula

/-! ## Binding strength -/

/-- How tightly the outermost operation of a text binds. -/
inductive Binding
  | sum
  | product
  | sign
  | atom
  deriving DecidableEq, Repr, Inhabited

namespace Binding

/-- Greater numbers bind more tightly. -/
def strength : Binding → Nat
  | sum => 1
  | product => 2
  | sign => 3
  | atom => 4

/-- The binding of an operator sign between two operands. -/
def ofOperator? : String → Option Binding
  | "+" | "-" => some sum
  | "*" | "/" => some product
  | _ => none

end Binding

/-- The text of a formula, and how tightly its outermost operation binds. -/
structure Written where
  text : String
  binding : Binding
  deriving Inhabited

namespace Written

/-- The text where an operand of at least the given strength has to stand. -/
def atLeast (w : Written) (strength : Nat) : String :=
  if w.binding.strength < strength then "(" ++ w.text ++ ")" else w.text

end Written

/-! ## Numbers -/

/-- The text of a number in a formula. -/
def numberText (v : Float) : String :=
  if v.isFinite then
    match Binary64.whole? (Binary64.rank v) with
    | some n =>
      if n < 10 ^ 16 then
        Numeral.write (if Binary64.negative v then -(n : Int) else n)
      else Binary64.write v
    | none => Binary64.write v
  else Binary64.write v

/-! ## Formulas -/

/-- The text of an application of which the operands are written. -/
def writeApp (fn : String) (args : List Written) : Except Fault Written :=
  match fn, args with
  | "-", [arg] => .ok ⟨"-" ++ arg.atLeast Binding.sign.strength, .sign⟩
  | fn, args =>
    match Binding.ofOperator? fn with
    | none => .ok ⟨fn ++ "(" ++ String.intercalate ", " (args.map Written.text) ++ ")", .atom⟩
    | some binding =>
      match args with
      | [left, right] =>
        .ok ⟨left.atLeast binding.strength ++ " " ++ fn ++ " "
          ++ right.atLeast (binding.strength + 1), binding⟩
      | _ => .error (.operands fn args.length)

/-- How a formula is written in the cell at `base`. -/
def printer (base : Position) : Algebra Written where
  num value := .ok ⟨numberText value, .atom⟩
  ref target := (target.text base).map (⟨·, .atom⟩)
  app := writeApp
  foreign text := .error (.unwritable text)

/-- The text of a formula in the cell at `base`. -/
def write (f : Formula) (base : Position) : Except Fault String :=
  (f.foldM (printer base)).map Written.text

end Formula

end Spreadsheet
