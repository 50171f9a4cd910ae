import Spreadsheet.Numeral.Binary64
import Spreadsheet.Text.Digit

/-!
# Decimal numerals

A decimal numeral is digits with an optional point and an optional exponent, as in `12`, `1.5`,
`.5`, `2.` and `6.02e23`. This file says how the longest numeral at the front of a text is found,
which decimal fraction it spells, and which float is nearest to it.

## Exponents of any size

The exponent of a numeral is unbounded, so the power of ten it names must not be computed as it
stands. `Decimal.rank` caps it where the outcome is settled: far enough up every nonzero numeral is
past the finite floats, and far enough down every numeral rounds to zero.
-/

namespace Spreadsheet

/-- The decimal fraction `digits * 10 ^ exponent`. -/
structure Decimal where
  /-- The digits, as one number. -/
  digits : Nat
  /-- The power of ten that the digits count. -/
  exponent : Int
  deriving DecidableEq

namespace Decimal

/-- The rank of the float nearest to a decimal fraction. -/
def rank (d : Decimal) : Nat :=
  if 0 ≤ d.exponent then
    Binary64.nearest (d.digits * 10 ^ min d.exponent.toNat 400 * 2 ^ 1074) 1
  else
    Binary64.nearest (d.digits * 2 ^ 1074) (10 ^ min (-d.exponent).toNat (d.digits.log2 + 400))

/-- The float nearest to a decimal fraction. -/
def toFloat (d : Decimal) : Float := Binary64.ofRank false d.rank

end Decimal

/-! ## Numerals in a text -/

/-- The parts of a numeral as they stand in a text. -/
structure DecimalText where
  /-- The digits before the point. -/
  whole : List Char
  /-- Whether there is a point. -/
  point : Bool
  /-- The digits after the point. -/
  fraction : List Char
  /-- The exponent mark with its sign, or nothing. -/
  mark : List Char
  /-- The digits of the exponent. -/
  exponent : List Char

namespace DecimalText

open Text

/-- An exponent at the front of a text: its mark with the sign, and its digits. A mark without
digits after it is no exponent. -/
def scanExponent : List Char → List Char × List Char
  | [] => ([], [])
  | e :: rest =>
    if e = 'e' ∨ e = 'E' then
      let (sign, rest) := match rest with
        | s :: after => if s = '+' ∨ s = '-' then ([s], after) else ([], rest)
        | [] => ([], [])
      match rest.takeWhile isDigit with
      | [] => ([], [])
      | ds => (e :: sign, ds)
    else ([], [])

/-- The longest numeral at the front of a text. -/
def scan (cs : List Char) : DecimalText :=
  let whole := cs.takeWhile isDigit
  match cs.dropWhile isDigit with
  | '.' :: rest =>
    let (mark, exponent) := scanExponent (rest.dropWhile isDigit)
    ⟨whole, true, rest.takeWhile isDigit, mark, exponent⟩
  | rest =>
    let (mark, exponent) := scanExponent rest
    ⟨whole, false, [], mark, exponent⟩

/-- The numeral as it stands in the text. -/
def text (d : DecimalText) : List Char :=
  d.whole ++ (if d.point then ['.'] else []) ++ d.fraction ++ d.mark ++ d.exponent

/-- A point alone is no numeral: there has to be a digit before or after it. -/
def hasDigits (d : DecimalText) : Bool := !d.whole.isEmpty || !d.fraction.isEmpty

/-- The decimal fraction that a numeral spells. -/
def value (d : DecimalText) : Decimal where
  digits := ofDigits (d.whole ++ d.fraction)
  exponent :=
    (if d.mark.contains '-' then -(ofDigits d.exponent : Int) else ofDigits d.exponent)
      - d.fraction.length

/-- The longest numeral at the front of a text, as it stands there. -/
def lexeme? (cs : List Char) : Option (List Char) :=
  let d := scan cs
  if d.hasDigits then some d.text else none

end DecimalText

namespace DecimalText

theorem text_ne_nil_of_lexeme? {cs text : List Char} (h : lexeme? cs = some text) : text ≠ [] := by
  simp only [lexeme?] at h
  split at h
  · rename_i hdigits
    cases h
    intro hnil
    simp only [DecimalText.text, List.append_eq_nil_iff] at hnil
    simp [hasDigits, hnil] at hdigits
  · cases h

end DecimalText

/-! ## Floats in a text -/

namespace Binary64

/-- The float that stands for no number. -/
def nan : Float := .ofBits 0x7ff8000000000000

/-- Reads a float with an optional sign: a numeral, `inf` or `nan`. -/
def read? (s : String) : Option Float :=
  let (sign, cs) := match s.toList with
    | '-' :: cs => (true, cs)
    | '+' :: cs => (false, cs)
    | cs => (false, cs)
  if cs = ['i', 'n', 'f'] then some (ofRank sign infinity)
  else if cs = ['n', 'a', 'n'] then some nan
  else
    let d := DecimalText.scan cs
    if d.hasDigits && d.text == cs then some (ofRank sign d.value.rank) else none

end Binary64

end Spreadsheet
