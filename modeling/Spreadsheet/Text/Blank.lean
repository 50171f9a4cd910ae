import Spreadsheet.Text.CodePoint

/-!
# Blanks

The blanks of the Unicode standard, and trimming. Blanks separate the tokens of a formula and may
surround a cell reference. The zero-width space and the byte order mark are no blanks.
-/

namespace Spreadsheet.Text

/-- Code points of blanks: the white space of the standard and the four information separators. -/
def blankRanges : List (Nat × Nat) :=
  [(0x9, 0xd), (0x1c, 0x20), (0x85, 0x85), (0xa0, 0xa0), (0x1680, 0x1680), (0x2000, 0x200a),
   (0x2028, 0x2029), (0x202f, 0x202f), (0x205f, 0x205f), (0x3000, 0x3000)]

/-- A blank is skipped between tokens and at both ends of a text. -/
def isBlank (c : Char) : Bool := inRanges c.toNat blankRanges

/-- A blank that may stand around an integer: any but the information separators. -/
def isPadding (c : Char) : Bool := isBlank c && !inRanges c.toNat [(0x1c, 0x1f)]

/-- What is left after the blanks at the front. -/
def trimStart (cs : List Char) : List Char := cs.dropWhile isBlank

/-- What is left before the blanks at the end. -/
def trimEnd (cs : List Char) : List Char := (cs.reverse.dropWhile isBlank).reverse

/-- A text without the blanks at both of its ends. -/
def trim (cs : List Char) : List Char := trimEnd (trimStart cs)

/-- `trim` on strings. -/
def strip (s : String) : String := String.ofList (trim s.toList)

@[simp] theorem toList_strip (s : String) : (strip s).toList = trim s.toList :=
  String.toList_ofList

end Spreadsheet.Text
