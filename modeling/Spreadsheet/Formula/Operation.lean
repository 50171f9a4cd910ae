import Spreadsheet.Fault
import Spreadsheet.Numeral.Decimal

/-!
# The operations of formulas

The fixed library that applications draw on: the four arithmetic operators and two functions of two
arguments. The minus sign stands for two operations, told apart by the number of operands.

Arithmetic is that of binary64 floats: a quotient by zero is a signed infinity or NaN, never a
fault.
-/

namespace Spreadsheet

/-- An operation of the library. -/
inductive Operation
  | add
  | sub
  | mul
  | div
  | min
  | max
  deriving DecidableEq, Repr

namespace Operation

/-- The operation of a name. -/
def ofName? : String → Option Operation
  | "+" => some add
  | "-" => some sub
  | "*" => some mul
  | "/" => some div
  | "min" => some min
  | "max" => some max
  | _ => none

/-- Whether an operation takes that many operands. -/
def takes : Operation → Nat → Bool
  | sub, n => n == 1 || n == 2
  | _, n => n == 2

/-- The smaller of two floats, the first one if they are equal, and NaN if either is NaN. -/
def lesser (a b : Float) : Float :=
  if a.isNaN || b.isNaN then Binary64.nan else if b < a then b else a

/-- The greater of two floats, the first one if they are equal, and NaN if either is NaN. -/
def greater (a b : Float) : Float :=
  if a.isNaN || b.isNaN then Binary64.nan else if a < b then b else a

/-- The value of an operation, if it takes that many operands. -/
def value? : Operation → List Float → Option Float
  | add, [a, b] => some (a + b)
  | sub, [a] => some (-a)
  | sub, [a, b] => some (a - b)
  | mul, [a, b] => some (a * b)
  | div, [a, b] => some (a / b)
  | min, [a, b] => some (lesser a b)
  | max, [a, b] => some (greater a b)
  | _, _ => none

/-- **An operation has a value exactly for as many operands as it takes.** -/
theorem isSome_value? (op : Operation) (args : List Float) :
    (op.value? args).isSome = op.takes args.length := by
  rcases args with _ | ⟨a, _ | ⟨b, _ | ⟨c, rest⟩⟩⟩ <;> cases op <;> simp [value?, takes]

/-- Whether the library has a name. -/
def isName (name : String) : Bool := (ofName? name).isSome

/-- Whether the library has a name with that many operands. -/
def accepts (name : String) (count : Nat) : Bool := (ofName? name).any (·.takes count)

/-- The value of the operation of a name. -/
def apply (name : String) (args : List Float) : Except Fault Float :=
  match ofName? name with
  | none => .error (.unsupported (.function name))
  | some op =>
    match op.value? args with
    | some value => .ok value
    | none => .error (.unsupported (.arguments name args.length))

end Operation

end Spreadsheet
