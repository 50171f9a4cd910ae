import Spreadsheet.Text.Blank
import Spreadsheet.Text.Digit

/-!
# Integer numerals

Integers are unbounded, but a numeral of more than `maxDigits` digits is neither read nor written.
The limit counts leading zeros and leaves out a sign and separators.

Rows are bare digits (`read?`). An integer that somebody typed may have a sign, padding around it,
and single underscores between its digits (`readSigned?`).
-/

namespace Spreadsheet.Numeral

open Text

/-- The longest numeral that is read or written as an integer. -/
def maxDigits : Nat := 4300

/-- The ASCII digits of a number, without leading zeros. -/
def digits (n : Nat) : List Char := Nat.toDigits 10 n

/-- The numeral of an integer of any size. -/
def write (n : Int) : String :=
  String.ofList (if n < 0 then '-' :: digits n.natAbs else digits n.natAbs)

/-- Whether the numeral of an integer is short enough to be written. -/
def isWritable (n : Int) : Bool := decide ((digits n.natAbs).length ≤ maxDigits)

/-- Writes an integer, unless its numeral is too long. -/
def write? (n : Int) : Option String := if isWritable n then some (write n) else none

/-- Reads a row of digits, unless there are too many of them. -/
def read? (ds : List Char) : Option Nat :=
  if ds.length ≤ maxDigits then some (ofDigits ds) else none

/-- The digits of a numeral, without the underscores. Each of those stands between two digits. -/
def withoutUnderscores? : List Char → Option (List Char)
  | [] => none
  | [c] => if isDigit c then some [c] else none
  | c :: '_' :: rest => if isDigit c then (withoutUnderscores? rest).map (c :: ·) else none
  | c :: rest => if isDigit c then (withoutUnderscores? rest).map (c :: ·) else none

/-- Reads an integer with an optional sign, unless it has too many digits. -/
def readSigned? (cs : List Char) : Option Int :=
  let (negative, cs) := match cs.dropWhile isPadding with
    | '-' :: cs => (true, cs)
    | '+' :: cs => (false, cs)
    | cs => (false, cs)
  let isInside : Char → Bool := fun c ↦ !isPadding c
  if (cs.dropWhile isInside).all isPadding then
    ((withoutUnderscores? (cs.takeWhile isInside)).bind read?).map fun n ↦
      if negative then -(n : Int) else n
  else none

theorem digits_ne_nil (n : Nat) : digits n ≠ [] := Nat.toDigits_ne_nil

end Spreadsheet.Numeral
