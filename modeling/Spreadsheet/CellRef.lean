import Spreadsheet.Column
import Spreadsheet.Text.Blank

/-!
# Cell references

A cell reference names a column and a row, as in `b7`. Each of the two may be anchored with a dollar
sign. An anchored part is a fixed place. A free part is an offset from the cell that the formula
stands in, so the same reference in another cell names another place.

## Positions and references

A `Position` is a place on the unbounded sheet, and may lie before the first column or row. Seen
from a position, a reference is resolved to a place (`resolve`) and a place is expressed as a
reference (`relativeTo`). A reference that is read without regard to a cell is relative to `origin`,
so its free parts are plain places.

`id` writes a position in its one canonical way, and `read` reads every spelling: either letter
case, any decimal digits, leading zeros, anchors, blanks around it.
-/

namespace Spreadsheet

open Text Numeral

/-! ## Positions -/

/-- A place by column and row, both counted from one on the sheet. -/
structure Position where
  col : Int
  row : Int
  deriving DecidableEq, Repr

namespace Position

/-- The place from which offsets are plain places. -/
def origin : Position := ⟨0, 0⟩

/-- Whether a position lies on the unbounded sheet. -/
def onSheet (p : Position) : Bool := decide (1 ≤ p.col) && decide (1 ≤ p.row)

/-- Refuses a position off the sheet. The wording shows both numbers, so both have to be short
enough to write. -/
def check (p : Position) : Except Fault Unit :=
  if p.onSheet then .ok ()
  else if isWritable p.col && isWritable p.row then .error (.malformed (.offSheet p.col p.row))
  else .error .longNumeral

/-- The canonical id of the cell at a position: lower-case letters and ASCII digits. -/
def id (p : Position) : Except Fault String := do
  p.check
  match write? p.row with
  | some row => return String.ofList (Column.letters p.col.toNat) ++ row
  | none => throw .longNumeral

end Position

/-! ## References -/

/-- A reference: a place where anchored, an offset where free. -/
structure CellRef where
  col : Int
  row : Int
  colAnchored : Bool
  rowAnchored : Bool
  deriving DecidableEq, Repr

namespace CellRef

/-- The numbers of a reference taken as a place. -/
def position (r : CellRef) : Position := ⟨r.col, r.row⟩

/-- The place that a reference names from `base`, with the anchors kept. -/
def resolve (r : CellRef) (base : Position) : CellRef :=
  { r with
    col := if r.colAnchored then r.col else base.col + r.col
    row := if r.rowAnchored then r.row else base.row + r.row }

/-- The reference that names a place from `base`. -/
def relativeTo (r : CellRef) (base : Position) : CellRef :=
  { r with
    col := if r.colAnchored then r.col else r.col - base.col
    row := if r.rowAnchored then r.row else r.row - base.row }

theorem resolve_relativeTo (r : CellRef) (base : Position) :
    (r.relativeTo base).resolve base = r := by
  obtain ⟨col, row, ca, ra⟩ := r
  cases ca <;> cases ra <;> simp only [resolve, relativeTo, mk.injEq, Bool.false_eq_true, if_false,
    if_true, and_true, true_and] <;> omega

theorem relativeTo_resolve (r : CellRef) (base : Position) :
    (r.resolve base).relativeTo base = r := by
  obtain ⟨col, row, ca, ra⟩ := r
  cases ca <;> cases ra <;> simp only [resolve, relativeTo, mk.injEq, Bool.false_eq_true, if_false,
    if_true, and_true, true_and] <;> omega

/-- The canonical id of the cell that a reference names from `base`. -/
def idAt (r : CellRef) (base : Position) : Except Fault String := (r.resolve base).position.id

/-! ## Writing -/

/-- The dollar sign of an anchored part. -/
def anchorText (anchored : Bool) : List Char := if anchored then ['$'] else []

/-- The text of a reference in the cell at `base`, its anchors kept. -/
def text (r : CellRef) (base : Position) : Except Fault String := do
  let place := r.resolve base
  place.position.check
  match write? place.row with
  | some row =>
    return String.ofList (anchorText r.colAnchored ++ Column.letters place.col.toNat
      ++ anchorText r.rowAnchored) ++ row
  | none => throw .longNumeral

/-! ## Reading -/

/-- The parts of a reference as they stand in a text. -/
structure Spelling where
  colAnchored : Bool
  letters : List Char
  rowAnchored : Bool
  digits : List Char

namespace Spelling

/-- A dollar sign at the front of a text, and what comes after it. -/
def scanAnchor : List Char → Bool × List Char
  | '$' :: rest => (true, rest)
  | cs => (false, cs)

/-- The longest reference at the front of a text: letters and then digits, each maybe anchored. -/
def scan? (cs : List Char) : Option Spelling :=
  let (colAnchored, cs) := scanAnchor cs
  let letters := cs.takeWhile isLetter
  let (rowAnchored, cs) := scanAnchor (cs.dropWhile isLetter)
  let digits := cs.takeWhile isDigit
  if letters.isEmpty || digits.isEmpty then none
  else some ⟨colAnchored, letters, rowAnchored, digits⟩

/-- The reference as it stands in the text. -/
def text (s : Spelling) : List Char :=
  anchorText s.colAnchored ++ s.letters ++ anchorText s.rowAnchored ++ s.digits

theorem text_ne_nil_of_scan? {cs : List Char} {s : Spelling} (h : scan? cs = some s) :
    s.text ≠ [] := by
  simp only [scan?] at h
  split at h
  · cases h
  · rename_i hne
    cases h
    simp only [Bool.or_eq_true, List.isEmpty_iff, not_or] at hne
    simp [text, hne]

end Spelling

/-- Reads a reference without regard to a cell. Rows are counted from one. -/
def read (text : String) : Except Fault CellRef :=
  let cs := trim text.toList
  match Spelling.scan? cs with
  | none => .error (.malformed (.reference text))
  | some s =>
    if s.text = cs then
      match read? s.digits with
      | none => .error .longNumeral
      | some row =>
        if row = 0 then .error (.malformed (.reference text))
        else .ok ⟨Column.number s.letters, row, s.colAnchored, s.rowAnchored⟩
    else .error (.malformed (.reference text))

/-- Reads a reference that stands in the cell at `base`. -/
def readAt (text : String) (base : Position) : Except Fault CellRef :=
  (read text).map (·.relativeTo base)

end CellRef

namespace Position

/-- Reads the position that a text names; anchors make no difference. -/
def read (text : String) : Except Fault Position := (CellRef.read text).map CellRef.position

end Position

end Spreadsheet
