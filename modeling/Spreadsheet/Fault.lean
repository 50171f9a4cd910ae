import Spreadsheet.Text.Quoted
import Spreadsheet.Numeral.Integer

/-!
# Faults

Everything that can go wrong, by cause, and how each cause is worded.

Three families of faults are for users and carry a stable code: a malformed formula or cell id, a
circular reference, and a store that fails. The others are not: an evaluator that meets a node it
has no meaning for, an operator written with the wrong number of operands, an integer numeral past
the limit, and settings that make no sense.
-/

namespace Spreadsheet

open Text Numeral

/-! ## Causes -/

/-- Why a text is not a formula, or a cell reference names no cell. -/
inductive Malformed
  /-- The text is no cell reference. -/
  | reference (text : String)
  /-- A relative reference points past the first column or row. -/
  | offSheet (col row : Int)
  /-- A cell is named with an anchor. -/
  | anchoredId (text : String)
  /-- A cell lies outside the bounds of the sheet. -/
  | outOfBounds (text : String)
  /-- No token starts at this character. -/
  | character (c : Char) (index : Nat)
  /-- There is no token at all. -/
  | empty
  /-- The formula stops where an operand or a closing parenthesis has to come. -/
  | endOfFormula
  /-- This token cannot come here. -/
  | unexpected (token : String)
  /-- Another token stands where the wanted one has to come. -/
  | expected (wanted : Char) (found : String)
  /-- The number is past the finite floats. -/
  | overflow (number : String)
  /-- Signs, parentheses and calls nest deeper than the limit. -/
  | nesting (limit : Nat)
  /-- There is no such function. -/
  | unknownFunction (name : String)
  /-- The function does not take that many arguments. -/
  | argumentCount (name : String) (count : Nat)
  deriving DecidableEq, Repr

/-- How cells depend on themselves. -/
inductive Circular
  /-- The formula of a cell reads the cell. -/
  | itself (id : String)
  /-- A walk along the dependents comes back to a cell it is still below. -/
  | path (ids : List String)
  /-- These cells lie on a cycle or read one that does. -/
  | among (ids : List String)
  deriving DecidableEq, Repr

/-- What has no value. -/
inductive Unsupported
  /-- The name stands for no function. -/
  | function (name : String)
  /-- The function does not take that many arguments. -/
  | arguments (name : String) (count : Nat)
  /-- The node is no number, no reference and no application. -/
  | node (text : String)
  deriving DecidableEq, Repr

/-- Why settings are refused. -/
inductive BadSetting
  /-- The value is no integer. -/
  | notInteger (name text : String)
  /-- The value is an integer below one. -/
  | belowOne (name : String) (value : Int)
  /-- There is no such log level. -/
  | logLevel (name : String)
  deriving DecidableEq, Repr

/-- What a store is asked for. -/
inductive StoreAction
  | load
  | save
  | clear
  deriving DecidableEq, Repr

/-- Everything that can go wrong. -/
inductive Fault
  /-- A formula or a cell id is malformed. -/
  | malformed (cause : Malformed)
  /-- An edit would make a cell depend on itself. -/
  | circular (cause : Circular)
  /-- The store failed, for a reason of its own. -/
  | store (action : StoreAction) (sheet reason : String)
  /-- The evaluator met something without a value. -/
  | unsupported (cause : Unsupported)
  /-- An operator cannot be written with that many operands. -/
  | operands (operator : String) (count : Nat)
  /-- The node has no written form. -/
  | unwritable (text : String)
  /-- An integer numeral is longer than the limit. -/
  | longNumeral
  /-- The text spells no column. -/
  | columnLetters (text : String)
  /-- Columns are counted from one. -/
  | columnNumber (col : Int)
  /-- A setting is refused. -/
  | setting (cause : BadSetting)
  deriving DecidableEq, Repr

/-! ## Wording -/

/-- A count of arguments in a message. -/
private def countText (n : Nat) : String := String.ofList (digits n)

namespace Malformed

/-- The wording of a malformed formula or cell id. -/
def message : Malformed → String
  | reference text => "bad cell reference " ++ quoted text
  | offSheet col row =>
    "reference falls outside the sheet (col=" ++ write col ++ ", row=" ++ write row ++ ")"
  | anchoredId text => "bad cell id " ++ quoted text
  | outOfBounds text => "cell id " ++ quoted text ++ " is outside the sheet"
  | character c index =>
    "unexpected character " ++ quoted (String.ofList [c]) ++ " at " ++ countText index
  | empty => "empty formula"
  | endOfFormula => "unexpected end of formula"
  | unexpected token => "unexpected " ++ quoted token
  | expected wanted found =>
    "expected " ++ quoted (String.ofList [wanted]) ++ ", got " ++ quoted found
  | overflow number => "number " ++ quoted number ++ " is out of range"
  | nesting limit => "formula nested more than " ++ countText limit ++ " levels deep"
  | unknownFunction name => "unknown function " ++ quoted name
  | argumentCount name count => name ++ " does not take " ++ countText count ++ " argument(s)"

end Malformed

namespace Circular

/-- The wording of a circular reference. -/
def message : Circular → String
  | itself id => id ++ " references itself"
  | path ids => "circular reference: " ++ String.intercalate " -> " ids
  | among ids => "circular reference involving " ++ quotedList ids

end Circular

namespace Unsupported

/-- The wording of a missing meaning. -/
def message : Unsupported → String
  | function name => "unsupported function " ++ quoted name
  | arguments name count =>
    "function " ++ quoted name ++ " does not accept " ++ countText count ++ " argument(s)"
  | node text => "unsupported AST node " ++ quoted text

end Unsupported

namespace BadSetting

/-- The wording of a refused setting. -/
def message : BadSetting → String
  | notInteger name text => name ++ " must be an integer, got " ++ quoted text
  | belowOne name value => name ++ " must be >= 1, got " ++ write value
  | logLevel name => "Unknown log level: " ++ quoted name

end BadSetting

namespace StoreAction

/-- The verb for an action in a message. -/
def verb : StoreAction → String
  | load => "load"
  | save => "save"
  | clear => "clear"

end StoreAction

/-! ## Codes -/

/-- The stable codes of the faults that users get to see. -/
inductive Code
  | general
  | malformed
  | circular
  | store
  deriving DecidableEq, Repr

namespace Code

/-- The written form of a code. -/
def text : Code → String
  | general => "SPREADSHEET"
  | malformed => "SYNTAX"
  | circular => "CIRCULAR_REF"
  | store => "STORE"

end Code

namespace Fault

/-- The wording of a fault. -/
def message : Fault → String
  | malformed cause => cause.message
  | circular cause => cause.message
  | store action sheet reason =>
    "cannot " ++ action.verb ++ " spreadsheet " ++ quoted sheet ++ ": " ++ reason
  | unsupported cause => cause.message
  | operands operator count =>
    "operator " ++ operator ++ " cannot be written with " ++ countText count ++ " operands"
  | unwritable text => "node " ++ quoted text ++ " has no written form"
  | longNumeral => "an integer has more than " ++ countText maxDigits ++ " digits"
  | columnLetters text => "Invalid column letters: " ++ quoted text
  | columnNumber col => "Column index must be >= 1, got " ++ write col
  | setting cause => cause.message

/-- The code of a fault that users get to see, and `none` for the others. -/
def code? : Fault → Option Code
  | malformed _ => some .malformed
  | circular _ => some .circular
  | store .. => some .store
  | _ => none

end Fault

/-! ## Reports -/

/-- A fault as users get to see it: its code and its wording. -/
structure Report where
  /-- The written code. -/
  code : String
  /-- The wording. -/
  message : String
  deriving DecidableEq, Repr

namespace Report

/-- A report in one line, under the title of its kind. -/
def display (title : String) (report : Report) : String :=
  title ++ "(" ++ report.code ++ ": " ++ quoted report.message ++ ")"

end Report

/-- The report of a fault that users get to see. -/
def Fault.report? (fault : Fault) : Option Report :=
  fault.code?.map fun code ↦ ⟨code.text, fault.message⟩

end Spreadsheet
