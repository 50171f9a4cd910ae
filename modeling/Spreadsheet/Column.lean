import Spreadsheet.Fault

/-!
# Columns

Columns are counted from one and spelled with letters: `a` to `z`, then `aa`, `ab` and so on. This
is positional notation with the twenty-six digits one to twenty-six and no zero, so every positive
number has exactly one spelling and shorter spellings come first.
-/

namespace Spreadsheet.Column

open Text

/-! ## Letters and numbers -/

/-- The letter at a place of the alphabet, `a` being at place zero. -/
def letter (place : Nat) : Char := Char.ofNat ('a'.toNat + place)

/-- What a letter counts as a digit, in either case: `a` counts one and `z` twenty-six. -/
def digit (c : Char) : Nat :=
  if 'a' ≤ c then c.toNat - 'a'.toNat + 1 else c.toNat - 'A'.toNat + 1

/-- The letters of a column, the last one first. Subtracting one before each division makes up for
the missing zero. -/
def reversedLetters (col : Nat) : List Char :=
  if h : col = 0 then [] else letter ((col - 1) % 26) :: reversedLetters ((col - 1) / 26)
termination_by col
decreasing_by exact Nat.lt_of_le_of_lt (Nat.div_le_self _ _) (Nat.sub_one_lt h)

/-- The lower-case letters of a column. -/
def letters (col : Nat) : List Char := (reversedLetters col).reverse

/-- The column that letters spell. -/
def number (cs : List Char) : Nat := cs.foldl (fun n c ↦ 26 * n + digit c) 0

/-! ## Checked forms -/

/-- Reads the letters of a column. -/
def read (text : String) : Except Fault Nat :=
  let cs := text.toList
  if !cs.isEmpty && cs.all isLetter then .ok (number cs) else .error (.columnLetters text)

/-- Writes a column, which has to be positive. -/
def write (col : Int) : Except Fault String :=
  if 1 ≤ col then .ok (String.ofList (letters col.toNat))
  else if Numeral.isWritable col then .error (.columnNumber col)
  else .error .longNumeral

end Spreadsheet.Column
