import Spreadsheet.CellRef
import Spreadsheet.Numeral.Decimal

/-!
# Tokens

A formula is read as a row of tokens: numbers, references, function names, and the operator signs
`+ - * / ( ) ,`. Blanks may stand between tokens and mean nothing.

At each place the first kind in that order that matches makes the token, and takes as much of the
text as it can. So `a1` is a reference and not a name, `2.5e3` is one number, and `2e` is the number
`2` and the name `e`.
-/

namespace Spreadsheet

open Text

/-- A token, as it stands in the text. -/
inductive Token
  | number (text : List Char)
  | ref (text : List Char)
  | name (text : List Char)
  | op (sign : Char)
  deriving DecidableEq, Repr

namespace Token

/-- The characters of a token. -/
def text : Token → List Char
  | number text | ref text | name text => text
  | op sign => [sign]

/-- A token as a message shows it. -/
def display (t : Token) : String := String.ofList t.text

/-! ## The token at the front of a text -/

/-- The signs that are tokens. -/
def isSign (c : Char) : Bool := ['-', '+', '*', '/', '(', ')', ','].contains c

/-- A character that a name starts with. -/
def isNameStart (c : Char) : Bool := isLetter c || c == '_'

/-- A character inside a name. Unlike in numbers and references, only ASCII digits count here. -/
def isNamePart (c : Char) : Bool := isNameStart c || (decide ('0' ≤ c) && decide (c ≤ '9'))

/-- The name at the front of a text. -/
def name? : List Char → Option (List Char)
  | [] => none
  | c :: rest => if isNameStart c then some (c :: rest.takeWhile isNamePart) else none

/-- The sign at the front of a text. -/
def sign? : List Char → Option Char
  | [] => none
  | c :: _ => if isSign c then some c else none

/-- The token at the front of a text. -/
def first? (cs : List Char) : Option Token :=
  match DecimalText.lexeme? cs with
  | some text => some (number text)
  | none =>
    match CellRef.Spelling.scan? cs with
    | some spelling => some (ref spelling.text)
    | none =>
      match name? cs with
      | some text => some (name text)
      | none => (sign? cs).map op

theorem text_ne_nil_of_first? {cs : List Char} {t : Token} (h : first? cs = some t) :
    t.text ≠ [] := by
  unfold first? at h
  split at h
  · rename_i text htext
    cases h
    exact DecimalText.text_ne_nil_of_lexeme? htext
  · split at h
    · rename_i spelling hspelling
      cases h
      exact CellRef.Spelling.text_ne_nil_of_scan? hspelling
    · split at h
      · rename_i text htext
        cases h
        unfold name? at htext
        split at htext
        · cases htext
        · split at htext <;> cases htext
          exact List.cons_ne_nil _ _
      · obtain ⟨sign, -, rfl⟩ := Option.map_eq_some_iff.mp h
        exact List.cons_ne_nil _ _

/-! ## All tokens of a text -/

/-- The tokens of a text of which the first `index` characters are already read. Where no token
starts, the character and its index are to blame. -/
def scanFrom (index : Nat) (cs : List Char) : Except Fault (List Token) :=
  match hskip : cs.dropWhile isBlank with
  | [] => .ok []
  | c :: rest =>
    let index := index + (cs.takeWhile isBlank).length
    match hfirst : first? (c :: rest) with
    | none => .error (.malformed (.character c index))
    | some t =>
      (scanFrom (index + t.text.length) ((c :: rest).drop t.text.length)).map (t :: ·)
termination_by cs.length
decreasing_by
  have htext := List.length_pos_iff.mpr (text_ne_nil_of_first? hfirst)
  have hle : (c :: rest).length ≤ cs.length := hskip ▸ (List.dropWhile_sublist isBlank).length_le
  simp only [List.length_drop, List.length_cons] at hle ⊢
  omega

/-- The tokens of a text. -/
def scan (cs : List Char) : Except Fault (List Token) := scanFrom 0 cs

end Token

end Spreadsheet
