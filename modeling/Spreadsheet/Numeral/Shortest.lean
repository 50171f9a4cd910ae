import Spreadsheet.Numeral.Decimal
import Spreadsheet.Numeral.Integer

/-!
# Shortest decimal text of a float

A float is written with the fewest digits that read back as the same float, and of those with the
digits nearest to its exact value. The exact value of a float is a decimal fraction too, so every
shorter candidate is a cut through its digits: the cut itself or the next number up.

The text is positional where the point falls at most sixteen digits to the right of the first digit
or three zeros to its left, and has an exponent elsewhere.
-/

namespace Spreadsheet

namespace Decimal

/-- The exact value of a finite float. -/
def ofRank (r : Nat) : Decimal := ⟨Binary64.units r * 5 ^ 1074, -1074⟩

/-- How many digits a positive number has. The logarithm of two gives it up to one. -/
def digitCount (n : Nat) : Nat :=
  let guess := n.log2 * 30103 / 100000
  if 10 ^ (guess + 1) ≤ n then guess + 2 else if 10 ^ guess ≤ n then guess + 1 else guess

/-- The two cuts through a decimal fraction that drop its last `places` digits, the nearer one
first. Of two equally near ones the even one is first. -/
def cuts (d : Decimal) (places : Nat) : List Decimal :=
  let q := d.digits / 10 ^ places
  let r := d.digits % 10 ^ places
  let low : Decimal := ⟨q, d.exponent + places⟩
  let high : Decimal := ⟨q + 1, d.exponent + places⟩
  if 2 * r < 10 ^ places ∨ (2 * r = 10 ^ places ∧ q % 2 = 0) then [low, high] else [high, low]

/-- Zeros at the end of the digits move into the exponent. -/
def trimZeros (d : Decimal) : Decimal :=
  if h : d.digits ≠ 0 ∧ d.digits % 10 = 0 then
    trimZeros ⟨d.digits / 10, d.exponent + 1⟩
  else d
termination_by d.digits
decreasing_by exact Nat.div_lt_self (Nat.pos_of_ne_zero h.1) (by decide)

/-- The shortest decimal fraction that reads back as the float of the given finite rank, and of
those the nearest to it. Seventeen digits are always enough; the exact value stands in case not. -/
def shortest (r : Nat) : Decimal :=
  let exact := ofRank r
  let count := digitCount exact.digits
  let found := (List.range 17).findSome? fun k ↦
    (exact.cuts (count - (k + 1))).find? fun d ↦ d.rank == r
  trimZeros (found.getD exact)

/-- The text of a decimal fraction: at least one digit on either side of the point, or one digit
before the point and an exponent of at least two digits. -/
def layout (d : Decimal) : List Char :=
  let ds := Numeral.digits d.digits
  let point : Int := ds.length + d.exponent
  if -4 < point ∧ point ≤ 0 then
    '0' :: '.' :: List.replicate (-point).toNat '0' ++ ds
  else if 0 < point ∧ point ≤ 16 then
    let before := ds.take point.toNat
    let after := ds.drop point.toNat
    before ++ List.replicate (point.toNat - ds.length) '0'
      ++ '.' :: (if after.isEmpty then ['0'] else after)
  else
    let power := Numeral.digits (point - 1).natAbs
    ds.take 1 ++ (if (ds.drop 1).isEmpty then [] else '.' :: ds.drop 1)
      ++ 'e' :: (if point - 1 < 0 then '-' else '+')
      :: (if power.length < 2 then '0' :: power else power)

end Decimal

namespace Binary64

/-- The whole number of a finite rank, if its magnitude is one. -/
def whole? (r : Nat) : Option Nat :=
  if units r % 2 ^ 1074 = 0 then some (units r / 2 ^ 1074) else none

/-- The text of a float. -/
def write (v : Float) : String :=
  if v.isNaN then "nan"
  else
    let sign := if negative v then ['-'] else []
    let r := rank v
    if r = infinity then String.ofList (sign ++ ['i', 'n', 'f'])
    else if r = 0 then String.ofList (sign ++ ['0', '.', '0'])
    else String.ofList (sign ++ (Decimal.shortest r).layout)

end Binary64

end Spreadsheet
