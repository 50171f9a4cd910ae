import Spreadsheet.Formula.Basic
import Spreadsheet.Formula.Operation
import Spreadsheet.Formula.Token

/-!
# Reading formulas

Formulas are read by recursive descent over their tokens, with one token of lookahead:

```text
sum     :=  product (('+' | '-') product)*
product :=  operand (('*' | '/') operand)*
operand :=  '-' operand  |  number  |  reference
         |  name '(' sum (',' sum)* ')'  |  '(' sum ')'
```

Chains of operators are left-associative. Signs, parentheses and calls may nest `maxNesting` deep
along any branch. The depth that is left is what the recursion descends on, so reading needs no
other reason to end, and a chain ends because every operand takes at least one token: that is the
proof that a `Prefix` carries.
-/

namespace Spreadsheet

open Text

namespace Formula

/-! ## Readers -/

/-- What was read from the front of a list of tokens, with the tokens after it. They are fewer than
a bound. -/
structure Prefix (α : Type) (bound : Nat) where
  /-- What was read. -/
  value : α
  /-- The tokens after it. -/
  rest : List Token
  /-- Something was taken. -/
  length_lt : rest.length < bound

/-- A reader takes at least one token from the front of a list, or finds a fault. -/
abbrev Reader := (ts : List Token) → Except Fault (Prefix Formula ts.length)

/-- A fault of the text. -/
def malformed {α : Type} (cause : Malformed) : Except Fault α := .error (.malformed cause)

/-- Takes the sign that has to come next. -/
def expect (wanted : Char) (ts : List Token) : Except Fault (Prefix Unit ts.length) :=
  match ts with
  | [] => malformed .endOfFormula
  | .op sign :: rest =>
    if sign = wanted then .ok ⟨(), rest, Nat.lt_succ_self _⟩
    else malformed (.expected wanted (Token.op sign).display)
  | t :: _ => malformed (.expected wanted t.display)

/-! ## Chains -/

/-- Takes operators of the given signs with their right operands, as long as there are any. The
formula so far is the left operand of the next one. -/
def chainFrom (isOperator : Char → Bool) (operand : Reader) {bound : Nat} (left : Formula)
    (ts : List Token) (h : ts.length < bound) : Except Fault (Prefix Formula bound) :=
  match ts with
  | .op sign :: after =>
    if isOperator sign then
      match operand after with
      | .error fault => .error fault
      | .ok right =>
        have hafter : after.length < bound := Nat.lt_of_succ_lt h
        chainFrom isOperator operand (.app (String.ofList [sign]) [left, right.value]) right.rest
          (Nat.lt_trans right.length_lt hafter)
    else .ok ⟨left, .op sign :: after, h⟩
  | ts => .ok ⟨left, ts, h⟩
termination_by ts.length
decreasing_by exact Nat.lt_succ_of_lt right.length_lt

/-- Operands joined by operators of the given signs. -/
def chain (isOperator : Char → Bool) (operand : Reader) : Reader := fun ts ↦
  match operand ts with
  | .error fault => .error fault
  | .ok first => chainFrom isOperator operand first.value first.rest first.length_lt

/-- The arguments after the first, each after a comma. They come out last first, before the
arguments that are there already. -/
def argumentsFrom (argument : Reader) {bound : Nat} (args : List Formula)
    (ts : List Token) (h : ts.length < bound) : Except Fault (Prefix (List Formula) bound) :=
  match ts with
  | .op sign :: after =>
    if sign = ',' then
      match argument after with
      | .error fault => .error fault
      | .ok next =>
        have hafter : after.length < bound := Nat.lt_of_succ_lt h
        argumentsFrom argument (next.value :: args) next.rest (Nat.lt_trans next.length_lt hafter)
    else .ok ⟨args, .op sign :: after, h⟩
  | ts => .ok ⟨args, ts, h⟩
termination_by ts.length
decreasing_by exact Nat.lt_succ_of_lt next.length_lt

/-! ## The grammar -/

/-- Signs of a sum. -/
def isAdditive (sign : Char) : Bool := sign == '+' || sign == '-'

/-- Signs of a product. -/
def isMultiplicative (sign : Char) : Bool := sign == '*' || sign == '/'

/-- A sum of products of operands. -/
def sumOf (operand : Reader) : Reader := chain isAdditive (chain isMultiplicative operand)

/-- A sum in parentheses, of which the opening one is already taken. -/
def parenthesized (sum : Reader) : Reader := fun ts ↦ do
  let inner ← sum ts
  let close ← expect ')' inner.rest
  return ⟨inner.value, close.rest, Nat.lt_trans close.length_lt inner.length_lt⟩

/-- The call of a function, of which the name is already taken. Names are known in either letter
case. -/
def call (sum : Reader) (name : List Char) (ts : List Token) :
    Except Fault (Prefix Formula ts.length) := do
  let fn := String.ofList (name.map Char.toLower)
  if !Operation.isName fn then malformed (.unknownFunction (String.ofList name))
  else
    let opening ← expect '(' ts
    let first ← sum opening.rest
    let args ← argumentsFrom sum [first.value] first.rest first.length_lt
    let close ← expect ')' args.rest
    let count := args.value.length
    if Operation.accepts fn count then
      return ⟨.app fn args.value.reverse, close.rest, Nat.lt_trans close.length_lt
        (Nat.lt_trans args.length_lt opening.length_lt)⟩
    else malformed (.argumentCount fn count)

/-- The deepest nesting of signs, parentheses and calls. -/
def maxNesting : Nat := 100

/-- An operand of a formula in the cell at `base`, with the given depth of nesting left. -/
def operand (base : Position) : (depth : Nat) → Reader
  | _, [] => malformed .endOfFormula
  | _, .number text :: rest =>
    let value := (DecimalText.scan text).value
    if value.rank = Binary64.infinity then malformed (.overflow (String.ofList text))
    else .ok ⟨.num value.toFloat, rest, Nat.lt_succ_self _⟩
  | _, .ref text :: rest => do
    let target ← CellRef.readAt (String.ofList text) base
    return ⟨.ref target, rest, Nat.lt_succ_self _⟩
  | 0, .op sign :: _ =>
    if sign = '-' ∨ sign = '(' then malformed (.nesting maxNesting)
    else malformed (.unexpected (Token.op sign).display)
  | 0, .name _ :: _ => malformed (.nesting maxNesting)
  | depth + 1, .op sign :: rest =>
    if sign = '-' then do
      let inner ← operand base depth rest
      return ⟨.app "-" [inner.value], inner.rest, Nat.lt_succ_of_lt inner.length_lt⟩
    else if sign = '(' then do
      let inner ← parenthesized (sumOf (operand base depth)) rest
      return ⟨inner.value, inner.rest, Nat.lt_succ_of_lt inner.length_lt⟩
    else malformed (.unexpected (Token.op sign).display)
  | depth + 1, .name name :: rest => do
    let inner ← call (sumOf (operand base depth)) name rest
    return ⟨inner.value, inner.rest, Nat.lt_succ_of_lt inner.length_lt⟩

/-- The formula that the tokens spell in the cell at `base`. -/
def ofTokens (base : Position) (ts : List Token) : Except Fault Formula :=
  if ts.isEmpty then malformed .empty
  else do
    let whole ← sumOf (operand base maxNesting) ts
    match whole.rest with
    | [] => return whole.value
    | t :: _ => malformed (.unexpected t.display)

/-! ## Texts -/

/-- The part of a text that spells the formula: blanks at the ends and one equals sign in front do
not belong to it. -/
def body (text : String) : List Char :=
  match trim text.toList with
  | '=' :: cs => cs
  | cs => cs

/-- Reads a formula that stands in the cell at `base`. -/
def read (text : String) (base : Position) : Except Fault Formula := do
  let ts ← Token.scan (body text)
  ofTokens base ts

end Formula

end Spreadsheet
