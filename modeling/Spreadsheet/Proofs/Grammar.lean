import Spreadsheet.Proofs.NumberText
import Spreadsheet.Proofs.Reader

/-!
# The grammar of formulas

`Spells base phrase depth ts f` is the grammar, as derivations and without a reader: the tokens `ts`
are a phrase that spells the formula `f` in the cell at `base`, and nest at most `depth` deep along
any branch. Reading a formula is equivalent to it, so a text has at most one formula and the reader
finds it.

## Both directions

Soundness goes by the nesting depth, one lemma for each way to make a reader, as a reader says what
it took by what it leaves. Completeness goes by the derivation. An operand is taken whatever follows
it, but a chain goes on as long as operators do. So what a derivation of a chain gives is not where
its reader stops: it is that the reader gets to the end of the phrase with the formula in hand, and
goes on from there (`Reads`).
-/

namespace Spreadsheet

open Text Numeral

/-! ## Tokens of a text -/

namespace CellRef.Spelling

/-- The reference that is spelled, without regard to a cell. -/
def place (s : Spelling) : CellRef :=
  ⟨Column.number s.letters, ofDigits s.digits, s.colAnchored, s.rowAnchored⟩

variable {s : Spelling}

/-- **What a well-spelled reference reads as**: its row counts from one and is not too long. -/
theorem WellSpelled.readAt_text_eq_ok_iff (h : s.WellSpelled) {base : Position} {r : CellRef} :
    readAt (String.ofList s.text) base = .ok r ↔
      s.digits.length ≤ maxDigits ∧ 1 ≤ ofDigits s.digits ∧ r = s.place.relativeTo base := by
  rw [readAt, read_of_trim_eq h (by rw [String.toList_ofList, h.trim_text]), read?]
  split
  · rename_i hlong
    simp only [ite_eq_right_iff, reduceCtorEq, imp_false] at hlong
    simp [Except.map, hlong]
  · rename_i row hrow
    simp only [Option.ite_none_right_eq_some, Option.some_inj] at hrow
    obtain ⟨hlen, rfl⟩ := hrow
    by_cases hzero : ofDigits s.digits = 0
    · simp [hzero, Except.map]
    · rw [if_neg hzero]
      simp [Except.map, hlen, Nat.one_le_iff_ne_zero, hzero, place, eq_comm]

theorem WellSpelled.hasLongRow_iff (h : s.WellSpelled) :
    HasLongRow (String.ofList s.text) ↔ maxDigits < s.digits.length := by
  have htrim : trim (String.ofList s.text).toList = s.text := by
    rw [String.toList_ofList, h.trim_text]
  constructor
  · rintro ⟨s', h', htext, hlong⟩
    have hsame : some s = some s' := by rw [← h.scan?_text, ← h'.scan?_text, htext, htrim]
    rwa [Option.some_inj.mp hsame]
  · exact fun hlong ↦ ⟨s, h, htrim.symm, hlong⟩

/-- A reference may go on with more digits, but it does not go away. -/
theorem WellSpelled.scan?_append_ne_none (h : s.WellSpelled) (rest : List Char) :
    scan? (s.text ++ rest) ≠ none := by
  let longer : Spelling := { s with digits := s.digits ++ rest.takeWhile Text.isDigit }
  have hlonger : longer.WellSpelled :=
    ⟨h.letters_ne_nil, h.isLetter, List.append_ne_nil_of_left_ne_nil h.digits_ne_nil _,
      List.forall_mem_append.mpr ⟨h.isDigit, fun c hc ↦ List.mem_takeWhile_imp hc⟩⟩
  have htext : s.text ++ rest = longer.text ++ rest.dropWhile Text.isDigit := by
    simp [longer, text]
  have hstop : ∀ c ∈ (rest.dropWhile Text.isDigit).head?, Text.isDigit c = false := by
    intro c hc
    have := List.head?_dropWhile_not Text.isDigit rest
    rw [Option.mem_def.mp hc] at this
    exact this
  rw [htext, hlonger.scan?_append hstop]
  exact Option.some_ne_none _

theorem scan?_eq_none_of_prefix {cs ds : List Char} (h : scan? cs = none) (hfront : ds <+: cs) :
    scan? ds = none := by
  cases hscan : scan? ds with
  | none => rfl
  | some s =>
    obtain ⟨rest, hrest⟩ := (text_prefix_of_scan? hscan).trans hfront
    have hsome := (wellSpelled_of_scan? hscan).scan?_append_ne_none rest
    rw [hrest] at hsome
    exact absurd h hsome

end CellRef.Spelling

namespace Token

/-- The text of a token is what its kind says. No reference starts a name. -/
inductive WellFormed : Token → Prop
  | number {t : DecimalText} (wellSpelled : t.WellSpelled) : WellFormed (number t.text)
  | ref {s : CellRef.Spelling} (wellSpelled : s.WellSpelled) : WellFormed (ref s.text)
  | name {c : Char} {rest : List Char} (start : isNameStart c = true)
      (parts : ∀ d ∈ rest, isNamePart d = true)
      (not_ref : CellRef.Spelling.scan? (c :: rest) = none) : WellFormed (name (c :: rest))
  | op {sign : Char} (isSign : isSign sign = true) : WellFormed (op sign)

theorem exists_of_name? {cs text : List Char} (h : name? cs = some text) :
    ∃ c rest, cs = c :: rest ∧ text = c :: rest.takeWhile isNamePart ∧ isNameStart c = true := by
  unfold name? at h
  split at h
  · cases h
  · simp only [Option.ite_none_right_eq_some, Option.some_inj] at h
    exact ⟨_, _, rfl, h.2.symm, h.1⟩

theorem exists_of_sign? {cs : List Char} {sign : Char} (h : sign? cs = some sign) :
    ∃ rest, cs = sign :: rest ∧ isSign sign = true := by
  unfold sign? at h
  split at h
  · cases h
  · simp only [Option.ite_none_right_eq_some, Option.some_inj] at h
    obtain ⟨hsign, rfl⟩ := h
    exact ⟨_, rfl, hsign⟩

/-- **The first token of a text** is well formed, and stands at the front of the text. -/
theorem wellFormed_of_first? {cs : List Char} {t : Token} (h : first? cs = some t) :
    t.WellFormed ∧ t.text <+: cs := by
  unfold first? at h
  split at h
  · rename_i text hlexeme
    cases h
    simp only [DecimalText.lexeme?, Option.ite_none_right_eq_some, Option.some_inj] at hlexeme
    obtain ⟨hdigits, rfl⟩ := hlexeme
    exact ⟨.number (DecimalText.wellSpelled_scan hdigits), DecimalText.text_prefix_scan cs⟩
  · split at h
    · rename_i s hscan
      cases h
      exact ⟨.ref (CellRef.Spelling.wellSpelled_of_scan? hscan),
        CellRef.Spelling.text_prefix_of_scan? hscan⟩
    · rename_i hscan
      split at h
      · rename_i text htext
        cases h
        obtain ⟨c, rest, rfl, rfl, hstart⟩ := exists_of_name? htext
        have hfront : c :: rest.takeWhile isNamePart <+: c :: rest :=
          (List.prefix_cons_inj c).mpr (List.takeWhile_prefix isNamePart)
        exact ⟨.name hstart (fun d hd ↦ List.mem_takeWhile_imp hd)
          (CellRef.Spelling.scan?_eq_none_of_prefix hscan hfront), hfront⟩
      · obtain ⟨sign, hsign, rfl⟩ := Option.map_eq_some_iff.mp h
        obtain ⟨rest, rfl, hisSign⟩ := exists_of_sign? hsign
        exact ⟨.op hisSign, rest, rfl⟩

/-- All tokens are well formed, as those of a text are. -/
def AllWellFormed (ts : List Token) : Prop := ∀ t ∈ ts, t.WellFormed

theorem AllWellFormed.tail {t : Token} {ts : List Token} (h : AllWellFormed (t :: ts)) :
    AllWellFormed ts := (List.forall_mem_cons.mp h).2

theorem AllWellFormed.left {ts us : List Token} (h : AllWellFormed (ts ++ us)) :
    AllWellFormed ts := (List.forall_mem_append.mp h).1

theorem AllWellFormed.right {ts us : List Token} (h : AllWellFormed (ts ++ us)) :
    AllWellFormed us := (List.forall_mem_append.mp h).2

theorem allWellFormed_of_scanFrom {index : Nat} {cs : List Char} {ts : List Token}
    (h : scanFrom index cs = .ok ts) : AllWellFormed ts := by
  fun_induction scanFrom index cs generalizing ts with
  | case1 =>
    cases h
    exact fun t ht ↦ absurd ht List.not_mem_nil
  | case2 => cases h
  | case3 index cs c rest hskip index' t hfirst =>
    rename_i ih
    obtain ⟨ts', hts', rfl⟩ := Outcome.map_eq_ok_iff.mp h
    exact List.forall_mem_cons.mpr ⟨(wellFormed_of_first? hfirst).1, ih hts'⟩

/-- If the token is a reference, its row is short enough to be read. -/
def ShortRow (t : Token) : Prop :=
  ∀ s : CellRef.Spelling, s.WellSpelled → t = ref s.text → s.digits.length ≤ maxDigits

/-- The rows of all references are short enough to be read. -/
def ShortRows (ts : List Token) : Prop := ∀ t ∈ ts, t.ShortRow

section ShortRows

variable {t : Token} {ts us : List Token}

theorem ShortRows.tail (h : ShortRows (t :: ts)) : ShortRows ts := (List.forall_mem_cons.mp h).2

theorem ShortRows.left (h : ShortRows (ts ++ us)) : ShortRows ts := (List.forall_mem_append.mp h).1

theorem ShortRows.right (h : ShortRows (ts ++ us)) : ShortRows us := (List.forall_mem_append.mp h).2

theorem ShortRows.append (h : ShortRows ts) (h' : ShortRows us) : ShortRows (ts ++ us) :=
  List.forall_mem_append.mpr ⟨h, h'⟩

theorem shortRows_nil : ShortRows [] := nofun

theorem shortRows_number (text : List Char) : ShortRows [number text] := by
  refine List.forall_mem_singleton.mpr fun s _ heq ↦ ?_
  cases heq

theorem shortRows_ref {s : CellRef.Spelling} (h : s.WellSpelled)
    (hshort : s.digits.length ≤ maxDigits) : ShortRows [ref s.text] := by
  refine List.forall_mem_singleton.mpr fun s' h' heq ↦ ?_
  have hsame : some s = some s' := by rw [← h.scan?_text, ← h'.scan?_text, ref.inj heq]
  rwa [← Option.some_inj.mp hsame]

theorem ShortRows.op (h : ShortRows ts) (sign : Char) : ShortRows (op sign :: ts) :=
  List.forall_mem_cons.mpr ⟨nofun, h⟩

theorem ShortRows.name (h : ShortRows ts) (text : List Char) : ShortRows (name text :: ts) :=
  List.forall_mem_cons.mpr ⟨nofun, h⟩

end ShortRows

/-- In a text that is no longer than a numeral may be, every row is short. -/
theorem shortRows_of_scan {cs : List Char} {ts : List Token} (h : scan cs = .ok ts)
    (hlen : cs.length ≤ maxDigits) : ShortRows ts := by
  rintro t ht s - rfl
  have hdigits : s.digits.length ≤ s.text.length := (List.suffix_append _ _).length_le
  exact hdigits.trans ((ref_infix_of_scanFrom h ht).length_le.trans hlen)

theorem eq_min_or_max_of_isName {c : Char} {rest : List Char} (hstart : isNameStart c = true)
    (h : Operation.isName (String.ofList ((c :: rest).map Char.toLower)) = true) :
    String.ofList ((c :: rest).map Char.toLower) = "min" ∨
      String.ofList ((c :: rest).map Char.toLower) = "max" := by
  have hlower : c.toLower ∉ ['+', '-', '*', '/'] := by
    simp only [isNameStart, Bool.or_eq_true, beq_iff_eq] at hstart
    rcases hstart with hletter | rfl
    · exact forall_isLetter (p := fun c ↦ c.toLower ∉ ['+', '-', '*', '/']) (by decide) hletter
    · decide
  have hne : ∀ sign ∈ ['+', '-', '*', '/'],
      String.ofList ((c :: rest).map Char.toLower) ≠ String.ofList [sign] := by
    intro sign hsign heq
    have hhead := String.ofList_injective heq
    rw [List.map_cons, List.cons.injEq] at hhead
    exact hlower (hhead.1 ▸ hsign)
  unfold Operation.isName Operation.ofName? at h
  split at h
  · exact absurd ‹_› (hne '+' (by decide))
  · exact absurd ‹_› (hne '-' (by decide))
  · exact absurd ‹_› (hne '*' (by decide))
  · exact absurd ‹_› (hne '/' (by decide))
  · exact .inl ‹_›
  · exact .inr ‹_›
  · cases h

end Token

namespace Formula

/-! ## Derivations -/

/-- The kinds of phrases, the loosest one first. -/
inductive Phrase
  | sum
  | product
  | operand
  deriving DecidableEq

/-- The grammar. Chains grow at their right end, which makes them left-associative. -/
inductive Spells (base : Position) : Phrase → Nat → List Token → Formula → Prop
  | number {depth : Nat} {text : List Char}
      (finite : (DecimalText.scan text).value.rank ≠ Binary64.infinity) :
      Spells base .operand depth [.number text] (.num (DecimalText.scan text).value.toFloat)
  | ref {depth : Nat} {s : CellRef.Spelling} (wellSpelled : s.WellSpelled)
      (one_le_row : 1 ≤ ofDigits s.digits) :
      Spells base .operand depth [.ref s.text] (.ref (s.place.relativeTo base))
  | sign {depth : Nat} {ts : List Token} {f : Formula} (operand : Spells base .operand depth ts f) :
      Spells base .operand (depth + 1) (.op '-' :: ts) (.app "-" [f])
  | group {depth : Nat} {ts : List Token} {f : Formula} (sum : Spells base .sum depth ts f) :
      Spells base .operand (depth + 1) (.op '(' :: (ts ++ [.op ')'])) f
  | call {depth : Nat} {name : List Char} {fn : String} {ts us : List Token} {f g : Formula}
      (lower : String.ofList (name.map Char.toLower) = fn) (known : fn = "min" ∨ fn = "max")
      (first : Spells base .sum depth ts f) (second : Spells base .sum depth us g) :
      Spells base .operand (depth + 1)
        (.name name :: .op '(' :: (ts ++ .op ',' :: (us ++ [.op ')']))) (.app fn [f, g])
  | product {depth : Nat} {ts : List Token} {f : Formula}
      (operand : Spells base .operand depth ts f) : Spells base .product depth ts f
  | times {depth : Nat} {sign : Char} {ts us : List Token} {f g : Formula}
      (left : Spells base .product depth ts f) (operator : isMultiplicative sign = true)
      (right : Spells base .operand depth us g) :
      Spells base .product depth (ts ++ .op sign :: us) (.app (String.ofList [sign]) [f, g])
  | sum {depth : Nat} {ts : List Token} {f : Formula}
      (product : Spells base .product depth ts f) : Spells base .sum depth ts f
  | plus {depth : Nat} {sign : Char} {ts us : List Token} {f g : Formula}
      (left : Spells base .sum depth ts f) (operator : isAdditive sign = true)
      (right : Spells base .product depth us g) :
      Spells base .sum depth (ts ++ .op sign :: us) (.app (String.ofList [sign]) [f, g])

variable {base : Position} {depth : Nat} {phrase : Phrase} {ts us rest : List Token}
  {f g left : Formula}

theorem Spells.mono (h : Spells base phrase depth ts f) {depth' : Nat} (hle : depth ≤ depth') :
    Spells base phrase depth' ts f := by
  induction h generalizing depth' with
  | number finite => exact .number finite
  | ref wellSpelled one_le_row => exact .ref wellSpelled one_le_row
  | sign _ ih =>
    obtain ⟨d, rfl⟩ := Nat.exists_eq_add_of_lt (Nat.lt_of_succ_le hle)
    exact .sign (ih (by omega))
  | group _ ih =>
    obtain ⟨d, rfl⟩ := Nat.exists_eq_add_of_lt (Nat.lt_of_succ_le hle)
    exact .group (ih (by omega))
  | call lower known _ _ ihFirst ihSecond =>
    obtain ⟨d, rfl⟩ := Nat.exists_eq_add_of_lt (Nat.lt_of_succ_le hle)
    exact .call lower known (ihFirst (by omega)) (ihSecond (by omega))
  | product _ ih => exact .product (ih hle)
  | times _ operator _ ihLeft ihRight => exact .times (ihLeft hle) operator (ihRight hle)
  | sum _ ih => exact .sum (ih hle)
  | plus _ operator _ ihLeft ihRight => exact .plus (ihLeft hle) operator (ihRight hle)

/-! ## What readers take -/

/-- The reader takes a formula from the front of the tokens and leaves the rest. -/
def Reader.Takes (reader : Reader) (ts : List Token) (f : Formula) (rest : List Token) : Prop :=
  ∃ h, reader ts = .ok ⟨f, rest, h⟩

/-- With the formula `left` in hand, a chain takes operators and operands from the front of the
tokens, up to the formula `f`, and leaves the rest. -/
def Extends (isOperator : Char → Bool) (operand : Reader) (left : Formula) (ts : List Token)
    (f : Formula) (rest : List Token) : Prop :=
  ∀ bound (h : ts.length < bound), ∃ h', chainFrom isOperator operand left ts h = .ok ⟨f, rest, h'⟩

/-- The tokens do not go on with one of the operators. -/
def Stops (isOperator : Char → Bool) (ts : List Token) : Prop :=
  ∀ sign, ts.head? = some (.op sign) → isOperator sign = false

section Chains

variable {isOperator : Char → Bool} {operand : Reader}

theorem extends_of_stops (h : Stops isOperator rest) :
    Extends isOperator operand f rest f rest := by
  intro bound hlt
  refine ⟨hlt, ?_⟩
  unfold chainFrom
  split
  · rename_i sign after hlt
    rw [if_neg (Bool.eq_false_iff.mp (h sign rfl))]
  · rfl

theorem extends_operator {sign : Char} {after : List Token} (hsign : isOperator sign = true)
    (hright : operand.Takes after g us)
    (h : Extends isOperator operand (.app (String.ofList [sign]) [left, g]) us f rest) :
    Extends isOperator operand left (.op sign :: after) f rest := by
  intro bound hlt
  obtain ⟨hus, hright⟩ := hright
  rw [chainFrom, if_pos hsign]
  simp only [hright]
  exact h _ _

theorem takes_chain (hfirst : operand.Takes ts left us)
    (h : Extends isOperator operand left us f rest) :
    (chain isOperator operand).Takes ts f rest := by
  obtain ⟨hus, hfirst⟩ := hfirst
  unfold Reader.Takes chain
  simp only [hfirst]
  exact h _ _

end Chains

/-! ## Completeness -/

/-- The reader of products in the cell at `base`. -/
def product (base : Position) (depth : Nat) : Reader := chain isMultiplicative (operand base depth)

/-- What a derivation says about the reader of its phrase. -/
def Reads (base : Position) (phrase : Phrase) (depth : Nat) (ts : List Token) (f : Formula) :
    Prop :=
  match phrase with
  | .operand => ∀ rest, (operand base depth).Takes (ts ++ rest) f rest
  | .product => ∀ rest g us, Extends isMultiplicative (operand base depth) f rest g us →
      (product base depth).Takes (ts ++ rest) g us
  | .sum => ∀ rest g us, Stops isMultiplicative rest →
      Extends isAdditive (product base depth) f rest g us →
      (sumOf (operand base depth)).Takes (ts ++ rest) g us

theorem expect_self (sign : Char) (rest : List Token) :
    expect sign (.op sign :: rest) = .ok ⟨(), rest, Nat.lt_succ_self _⟩ := if_pos rfl

/-- A sum is taken whole if neither a sum nor a product goes on after it. -/
theorem Reads.takes_sum (h : Reads base .sum depth ts f) (hadd : Stops isAdditive rest)
    (hmul : Stops isMultiplicative rest) :
    (sumOf (operand base depth)).Takes (ts ++ rest) f rest :=
  h rest f rest hmul (extends_of_stops hadd)

theorem stops_op {isOperator : Char → Bool} {sign : Char} (h : isOperator sign = false) :
    Stops isOperator (.op sign :: rest) := by
  intro other hother
  cases hother
  exact h

theorem takes_sign (h : (operand base depth).Takes ts f rest) :
    (operand base (depth + 1)).Takes (.op '-' :: ts) (.app "-" [f]) rest := by
  obtain ⟨hlt, h⟩ := h
  refine ⟨Nat.lt_succ_of_lt hlt, ?_⟩
  rw [operand, if_pos rfl, h]
  rfl

theorem takes_group (h : (sumOf (operand base depth)).Takes ts f (.op ')' :: rest)) :
    (operand base (depth + 1)).Takes (.op '(' :: ts) f rest := by
  obtain ⟨hlt, h⟩ := h
  refine ⟨Nat.lt_succ_of_lt (Nat.lt_of_succ_lt hlt), ?_⟩
  rw [operand, if_neg (by decide), if_pos rfl, parenthesized, h]
  rfl

theorem takes_call {name : List Char} {fn : String}
    (lower : String.ofList (name.map Char.toLower) = fn) (known : fn = "min" ∨ fn = "max")
    (hfirst : (sumOf (operand base depth)).Takes ts f (.op ',' :: us))
    (hsecond : (sumOf (operand base depth)).Takes us g (.op ')' :: rest)) :
    (operand base (depth + 1)).Takes (.name name :: .op '(' :: ts) (.app fn [f, g]) rest := by
  obtain ⟨hlt, hfirst⟩ := hfirst
  obtain ⟨hlt', hsecond⟩ := hsecond
  have hname : Operation.isName fn = true := by
    rcases known with rfl | rfl <;> decide
  have haccepts : Operation.accepts fn 2 = true := by
    rcases known with rfl | rfl <;> decide
  refine ⟨by simp at hlt hlt' ⊢; omega, ?_⟩
  rw [operand, call, lower, hname]
  simp only [Bool.not_true, Bool.false_eq_true, if_false, expect_self, Outcome.ok_bind, hfirst]
  rw [argumentsFrom]
  simp only [if_true, hsecond]
  rw [argumentsFrom]
  simp only [show ¬ (')' = ',') by decide, if_false, Outcome.ok_bind, expect_self]
  simp [haccepts]

/-- **A derivation is read.** -/
theorem Spells.reads (h : Spells base phrase depth ts f) (hrows : Token.ShortRows ts) :
    Reads base phrase depth ts f := by
  induction h with
  | @number depth text finite =>
    intro rest
    refine ⟨Nat.lt_succ_self _, ?_⟩
    unfold operand
    simp [finite]
  | @ref depth s wellSpelled one_le_row =>
    intro rest
    have hread : CellRef.readAt (String.ofList s.text) base = .ok (s.place.relativeTo base) :=
      wellSpelled.readAt_text_eq_ok_iff.mpr
        ⟨hrows _ List.mem_cons_self s wellSpelled rfl, one_le_row, rfl⟩
    refine ⟨Nat.lt_succ_self _, ?_⟩
    unfold operand
    simp [hread]
  | sign _ ih =>
    intro rest
    exact takes_sign (ih hrows.tail rest)
  | @group depth ts f _ ih =>
    intro rest
    have hts := ih hrows.tail.left
    rw [List.cons_append, List.append_assoc]
    exact takes_group (hts.takes_sum (stops_op (by decide)) (stops_op (by decide)))
  | @call depth name fn ts us f g lower known _ _ ihFirst ihSecond =>
    intro rest
    have hts := ihFirst hrows.tail.tail.left
    have hus := ihSecond hrows.tail.tail.right.tail.left
    simp only [List.cons_append, List.append_assoc]
    exact takes_call lower known (hts.takes_sum (stops_op (by decide)) (stops_op (by decide)))
      (hus.takes_sum (stops_op (by decide)) (stops_op (by decide)))
  | product _ ih =>
    intro rest g us hextends
    exact takes_chain (ih hrows rest) hextends
  | @times depth sign ts us f g _ operator _ ihLeft ihRight =>
    intro rest k vs hextends
    have hright := ihRight hrows.right.tail rest
    rw [List.append_assoc, List.cons_append]
    exact ihLeft hrows.left _ _ _ (extends_operator operator hright hextends)
  | sum _ ih =>
    intro rest g us hstops hextends
    exact takes_chain (ih hrows rest _ _ (extends_of_stops hstops)) hextends
  | @plus depth sign ts us f g _ operator _ ihLeft ihRight =>
    intro rest k vs hstops hextends
    have hright := ihRight hrows.right.tail rest g rest (extends_of_stops hstops)
    have hsign : isMultiplicative sign = false := by
      rcases (by simpa [isAdditive] using operator) with rfl | rfl <;> decide
    rw [List.append_assoc, List.cons_append]
    exact ihLeft hrows.left _ _ _ (stops_op hsign) (extends_operator operator hright hextends)

/-! ## Soundness -/

/-- The tokens are a phrase that spells the formula, and their rows are short enough to be read. -/
structure Legible (base : Position) (phrase : Phrase) (depth : Nat) (ts : List Token)
    (f : Formula) : Prop where
  spells : Spells base phrase depth ts f
  shortRows : Token.ShortRows ts

theorem Legible.operator {left right : Phrase} {sign : Char} (h : Legible base left depth ts f)
    (h' : Legible base right depth us g)
    (hrule : Spells base left depth ts f → Spells base right depth us g →
      Spells base left depth (ts ++ .op sign :: us) (.app (String.ofList [sign]) [f, g])) :
    Legible base left depth (ts ++ .op sign :: us) (.app (String.ofList [sign]) [f, g]) :=
  ⟨hrule h.spells h'.spells, h.shortRows.append (h'.shortRows.op sign)⟩

/-- What the reader takes from the front of the tokens of a text is a phrase, which spells what the
reader makes of it. -/
def Reader.Derives (base : Position) (phrase : Phrase) (depth : Nat) (reader : Reader) : Prop :=
  ∀ ts f rest, Token.AllWellFormed ts → reader.Takes ts f rest →
    ∃ us, ts = us ++ rest ∧ Legible base phrase depth us f

theorem eq_of_expect {wanted : Char} {taken : Prefix Unit ts.length}
    (h : expect wanted ts = .ok taken) : ts = .op wanted :: taken.rest := by
  unfold expect at h
  split at h
  · cases h
  · split at h
    · rename_i hsign
      cases h
      rw [hsign]
    · cases h
  · cases h

section Readers

variable {isOperator : Char → Bool} {reader sum : Reader} {tight loose : Phrase}

/-- Each operator with its right operand makes the phrase that is taken so far longer. -/
theorem derives_chainFrom (hreader : reader.Derives base tight depth)
    (hgrow : ∀ {us vs f g sign}, Legible base loose depth us f → isOperator sign = true →
      Legible base tight depth vs g →
      Legible base loose depth (us ++ .op sign :: vs) (.app (String.ofList [sign]) [f, g]))
    (hus : Legible base loose depth us left) (hts : Token.AllWellFormed ts) {bound : Nat}
    (hlt : ts.length < bound) {taken : Prefix Formula bound}
    (h : chainFrom isOperator reader left ts hlt = .ok taken) :
    ∃ vs, ts = vs ++ taken.rest ∧ Legible base loose depth (us ++ vs) taken.value := by
  fun_induction chainFrom isOperator reader left ts hlt generalizing us with
  | case1 => cases h
  | case2 left sign after hlt hsign right hright hafter hrest ih =>
    obtain ⟨vs, hvs, hspells⟩ := hreader after _ _ hts.tail ⟨right.length_lt, hright⟩
    have hwell : Token.AllWellFormed (vs ++ right.rest) := hvs ▸ hts.tail
    obtain ⟨ws, hws, hall⟩ := ih (hgrow hus hsign hspells) hwell.right h
    refine ⟨.op sign :: (vs ++ ws), ?_, ?_⟩
    · rw [hvs, hws]
      simp
    · simpa using hall
  | case3 =>
    cases h
    exact ⟨[], rfl, by rwa [List.append_nil]⟩
  | case4 =>
    cases h
    exact ⟨[], rfl, by rwa [List.append_nil]⟩

theorem derives_chain (hreader : reader.Derives base tight depth)
    (hfirst : ∀ {us f}, Legible base tight depth us f → Legible base loose depth us f)
    (hgrow : ∀ {us vs f g sign}, Legible base loose depth us f → isOperator sign = true →
      Legible base tight depth vs g →
      Legible base loose depth (us ++ .op sign :: vs) (.app (String.ofList [sign]) [f, g])) :
    (chain isOperator reader).Derives base loose depth := by
  intro ts f rest hts htakes
  obtain ⟨hlt, h⟩ := htakes
  unfold chain at h
  split at h
  · cases h
  · rename_i first hok
    obtain ⟨us, hus, hspells⟩ := hreader ts _ _ hts ⟨first.length_lt, hok⟩
    have hwell : Token.AllWellFormed (us ++ first.rest) := hus ▸ hts
    obtain ⟨vs, hvs, hall⟩ := derives_chainFrom hreader hgrow (hfirst hspells) hwell.right _ h
    refine ⟨us ++ vs, ?_, hall⟩
    rw [hus, hvs, List.append_assoc]

theorem derives_sumOf (hreader : reader.Derives base .operand depth) :
    (sumOf reader).Derives base .sum depth := by
  have hproduct : (chain isMultiplicative reader).Derives base .product depth :=
    derives_chain hreader (fun h ↦ ⟨.product h.spells, h.shortRows⟩)
      fun h hsign h' ↦ h.operator h' (.times · hsign)
  exact derives_chain hproduct (fun h ↦ ⟨.sum h.spells, h.shortRows⟩)
    fun h hsign h' ↦ h.operator h' (.plus · hsign)

theorem derives_argumentsFrom (hsum : sum.Derives base .sum depth) (hts : Token.AllWellFormed ts)
    {args : List Formula} {bound : Nat} (hlt : ts.length < bound)
    {taken : Prefix (List Formula) bound} (h : argumentsFrom sum args ts hlt = .ok taken) :
    ∃ more : List (List Token × Formula),
      ts = more.flatMap (fun a ↦ .op ',' :: a.1) ++ taken.rest ∧
        taken.value = (more.map Prod.snd).reverse ++ args ∧
          ∀ a ∈ more, Legible base .sum depth a.1 a.2 := by
  fun_induction argumentsFrom sum args ts hlt with
  | case1 => cases h
  | case2 args after next hnext hlt hafter hrest ih =>
    obtain ⟨vs, hvs, hspells⟩ := hsum after _ _ hts.tail ⟨next.length_lt, hnext⟩
    have hwell : Token.AllWellFormed (vs ++ next.rest) := hvs ▸ hts.tail
    obtain ⟨more, hmore, hvalue, hall⟩ := ih hwell.right h
    refine ⟨(vs, next.value) :: more, ?_, ?_, ?_⟩
    · calc Token.op ',' :: after = .op ',' :: (vs ++ next.rest) := congrArg _ hvs
        _ = _ := by rw [hmore]; simp
    · rw [hvalue]
      simp
    · exact List.forall_mem_cons.mpr ⟨hspells, hall⟩
  | case3 =>
    cases h
    exact ⟨[], rfl, rfl, List.forall_mem_nil _⟩
  | case4 =>
    cases h
    exact ⟨[], rfl, rfl, List.forall_mem_nil _⟩

theorem derives_parenthesized (hsum : sum.Derives base .sum depth) (hts : Token.AllWellFormed ts)
    {taken : Prefix Formula ts.length} (h : parenthesized sum ts = .ok taken) :
    ∃ us, ts = us ++ .op ')' :: taken.rest ∧ Legible base .sum depth us taken.value := by
  obtain ⟨inner, hinner, h⟩ := Outcome.bind_eq_ok_iff.mp h
  obtain ⟨close, hclose, h⟩ := Outcome.bind_eq_ok_iff.mp h
  cases h
  obtain ⟨us, hus, hspells⟩ := hsum ts _ _ hts ⟨inner.length_lt, hinner⟩
  exact ⟨us, eq_of_expect hclose ▸ hus, hspells⟩

theorem two_arguments {fn : String} {count : Nat} (known : fn = "min" ∨ fn = "max")
    (h : Operation.accepts fn count = true) : count = 2 := by
  rcases known with rfl | rfl <;> exact beq_iff_eq.mp h

theorem derives_call (hsum : sum.Derives base .sum depth) {name : List Char}
    (hts : Token.AllWellFormed (.name name :: ts)) {taken : Prefix Formula ts.length}
    (h : call sum name ts = .ok taken) :
    ∃ us, .name name :: ts = us ++ taken.rest ∧
      Legible base .operand (depth + 1) us taken.value := by
  rw [call] at h
  dsimp only at h
  split at h
  · cases h
  · rename_i hisName
    rw [Bool.not_eq_true', Bool.not_eq_false] at hisName
    have known : String.ofList (name.map Char.toLower) = "min" ∨
        String.ofList (name.map Char.toLower) = "max" := by
      cases hts _ List.mem_cons_self with
      | name start parts not_ref => exact Token.eq_min_or_max_of_isName start hisName
    obtain ⟨opening, hopening, h⟩ := Outcome.bind_eq_ok_iff.mp h
    obtain ⟨first, hfirst, h⟩ := Outcome.bind_eq_ok_iff.mp h
    obtain ⟨args, hargs, h⟩ := Outcome.bind_eq_ok_iff.mp h
    obtain ⟨close, hclose, h⟩ := Outcome.bind_eq_ok_iff.mp h
    split at h
    · rename_i haccepts
      cases h
      have hopen := eq_of_expect hopening
      have hwell : Token.AllWellFormed opening.rest := (hopen ▸ hts.tail).tail
      obtain ⟨us, hus, hspells⟩ := hsum _ _ _ hwell ⟨first.length_lt, hfirst⟩
      have hrestWell : Token.AllWellFormed (us ++ first.rest) := hus ▸ hwell
      obtain ⟨more, hmore, hvalue, hall⟩ := derives_argumentsFrom hsum hrestWell.right _ hargs
      have hcount : more.length = 1 := by
        have := two_arguments known haccepts
        rw [hvalue] at this
        simpa using this
      obtain ⟨⟨vs, g⟩, rfl⟩ := List.length_eq_one_iff.mp hcount
      refine ⟨.name name :: .op '(' :: (us ++ .op ',' :: (vs ++ [.op ')'])), ?_, ?_⟩
      · calc Token.name name :: ts = .name name :: .op '(' :: opening.rest := congrArg _ hopen
          _ = .name name :: .op '(' :: (us ++ first.rest) := by rw [← hus]
          _ = .name name :: .op '(' :: (us ++ .op ',' :: (vs ++ args.rest)) := by rw [hmore]; simp
          _ = .name name :: .op '(' :: (us ++ .op ',' :: (vs ++ .op ')' :: close.rest)) :=
            congrArg (fun rest ↦ _ :: _ :: (us ++ _ :: (vs ++ rest))) (eq_of_expect hclose)
          _ = _ := by simp
      · rw [hvalue]
        have hsecond := hall _ List.mem_cons_self
        exact ⟨.call rfl known hspells.spells hsecond.spells, ((hspells.shortRows.append
          ((hsecond.shortRows.append (Token.shortRows_nil.op ')')).op ',')).op '(').name name⟩
    · cases h

theorem spells_of_takes_number {text : List Char}
    (h : (operand base depth).Takes (.number text :: ts) f rest) :
    ts = rest ∧ Legible base .operand depth [.number text] f := by
  obtain ⟨hlt, h⟩ := h
  unfold operand at h
  dsimp only at h
  split at h
  · cases h
  · cases h
    exact ⟨rfl, .number ‹_›, Token.shortRows_number text⟩

theorem spells_of_takes_ref {text : List Char} (hwell : (Token.ref text).WellFormed)
    (h : (operand base depth).Takes (.ref text :: ts) f rest) :
    ts = rest ∧ Legible base .operand depth [.ref text] f := by
  obtain ⟨hlt, h⟩ := h
  cases hwell with
  | @ref s wellSpelled =>
    unfold operand at h
    obtain ⟨target, htarget, h⟩ := Outcome.bind_eq_ok_iff.mp h
    cases h
    obtain ⟨hshort, hrow, rfl⟩ := wellSpelled.readAt_text_eq_ok_iff.mp htarget
    exact ⟨rfl, .ref wellSpelled hrow, Token.shortRows_ref wellSpelled hshort⟩

/-- **What an operand reader takes is an operand**, by induction on the nesting depth. -/
theorem derives_operand (base : Position) (depth : Nat) :
    (operand base depth).Derives base .operand depth := by
  induction depth using Nat.strong_induction_on with
  | _ depth ih =>
    rintro (_ | ⟨t, ts⟩) f rest hts htakes
    · obtain ⟨_, h⟩ := htakes
      cases depth <;> cases h
    cases t with
    | number text =>
      obtain ⟨rfl, hspells⟩ := spells_of_takes_number htakes
      exact ⟨_, rfl, hspells⟩
    | ref text =>
      obtain ⟨rfl, hspells⟩ := spells_of_takes_ref (hts _ List.mem_cons_self) htakes
      exact ⟨_, rfl, hspells⟩
    | op sign =>
      obtain ⟨_, h⟩ := htakes
      cases depth with
      | zero =>
        rw [operand] at h
        split at h <;> cases h
      | succ depth =>
        have hinner := ih depth depth.lt_succ_self
        rw [operand] at h
        split at h
        · rename_i hsign
          obtain ⟨inner, htaken, h⟩ := Outcome.bind_eq_ok_iff.mp h
          cases h
          obtain ⟨us, hus, hspells⟩ := hinner ts _ _ hts.tail ⟨inner.length_lt, htaken⟩
          exact ⟨.op sign :: us, by rw [List.cons_append, ← hus], hsign ▸ .sign hspells.spells,
            hspells.shortRows.op sign⟩
        · split at h
          · rename_i hsign
            obtain ⟨inner, htaken, h⟩ := Outcome.bind_eq_ok_iff.mp h
            cases h
            obtain ⟨us, hus, hspells⟩ :=
              derives_parenthesized (derives_sumOf hinner) hts.tail htaken
            refine ⟨.op sign :: (us ++ [.op ')']), ?_, hsign ▸ .group hspells.spells,
              (hspells.shortRows.append (Token.shortRows_nil.op ')')).op sign⟩
            rw [List.cons_append, List.append_assoc, List.singleton_append, ← hus]
          · cases h
    | name name =>
      obtain ⟨_, h⟩ := htakes
      cases depth with
      | zero => cases h
      | succ depth =>
        obtain ⟨inner, htaken, h⟩ := Outcome.bind_eq_ok_iff.mp h
        cases h
        exact derives_call (derives_sumOf (ih depth depth.lt_succ_self)) hts htaken

end Readers

/-! ## Reading is the grammar -/

/-- The tokens are a formula of the grammar, and spell `f` in the cell at `base`. -/
def Derives (base : Position) (ts : List Token) (f : Formula) : Prop :=
  Spells base .sum maxNesting ts f

/-- **Tokens that are read are a formula**, and no row in them is too long. -/
theorem legible_of_ofTokens (hts : Token.AllWellFormed ts) (h : ofTokens base ts = .ok f) :
    Legible base .sum maxNesting ts f := by
  unfold ofTokens at h
  split at h
  · cases h
  · obtain ⟨whole, hwhole, h⟩ := Outcome.bind_eq_ok_iff.mp h
    split at h
    · rename_i hrest
      cases h
      obtain ⟨us, hus, hspells⟩ := derives_sumOf (derives_operand base maxNesting) ts _ _ hts
        ⟨whole.length_lt, hwhole⟩
      rw [hrest, List.append_nil] at hus
      exact hus ▸ hspells
    · cases h

theorem derives_of_ofTokens (hts : Token.AllWellFormed ts) (h : ofTokens base ts = .ok f) :
    Derives base ts f := (legible_of_ofTokens hts h).spells

theorem ofTokens_of_derives (hrows : Token.ShortRows ts) (h : Derives base ts f) :
    ofTokens base ts = .ok f := by
  have hnil (isOperator : Char → Bool) : Stops isOperator [] := nofun
  have htakes := (Spells.reads h hrows).takes_sum (hnil _) (hnil _)
  rw [List.append_nil] at htakes
  obtain ⟨hlt, hread⟩ := htakes
  have hne : ts.isEmpty = false := List.isEmpty_eq_false_iff.mpr (List.ne_nil_of_length_pos hlt)
  rw [ofTokens, hne, hread]
  rfl

/-- **Reading follows the grammar.** -/
theorem ofTokens_eq_ok_iff (hts : Token.AllWellFormed ts) (hrows : Token.ShortRows ts) :
    ofTokens base ts = .ok f ↔ Derives base ts f :=
  ⟨derives_of_ofTokens hts, ofTokens_of_derives hrows⟩

theorem malformed_of_ofTokens {fault : Fault} (hts : Token.AllWellFormed ts)
    (hrows : Token.ShortRows ts) (h : ofTokens base ts = .error fault) :
    ∃ cause, fault = .malformed cause := by
  rcases blames_ofTokens h with hcause | ⟨-, text, hmem, hrow⟩
  · exact hcause
  · cases hts _ hmem with
    | @ref s wellSpelled =>
      have hshort := hrows _ hmem s wellSpelled rfl
      exact absurd (wellSpelled.hasLongRow_iff.mp hrow) (Nat.not_lt_of_le hshort)

/-- **Reading accepts exactly the grammar.** If the rows of a text are short enough to be read, then
it is read exactly as the grammar derives its tokens, which is in one way at most; and without a
derivation it is malformed. -/
theorem read_iff_derives (text : String) (base : Position)
    (hrows : ∀ ts, Token.scan (body text) = .ok ts → Token.ShortRows ts) :
    (∀ f, read text base = .ok f ↔
      ∃ ts, Token.scan (body text) = .ok ts ∧ Derives base ts f) ∧
    (∀ ts f g, Token.scan (body text) = .ok ts → Derives base ts f → Derives base ts g → f = g) ∧
    ((¬ ∃ ts f, Token.scan (body text) = .ok ts ∧ Derives base ts f) →
      ∃ cause, read text base = .error (.malformed cause)) := by
  have hiff {ts : List Token} (hscan : Token.scan (body text) = .ok ts) (f : Formula) :
      ofTokens base ts = .ok f ↔ Derives base ts f :=
    ofTokens_eq_ok_iff (Token.allWellFormed_of_scanFrom hscan) (hrows ts hscan)
  refine ⟨fun f ↦ ?_, fun ts f g hscan hf hg ↦ ?_, fun hnone ↦ ?_⟩
  · rw [read, Outcome.bind_eq_ok_iff]
    exact exists_congr fun ts ↦ and_congr_right fun hscan ↦ hiff hscan f
  · have heq := ((hiff hscan f).mpr hf).symm.trans ((hiff hscan g).mpr hg)
    cases heq
    rfl
  · cases hread : read text base with
    | ok f =>
      obtain ⟨ts, hscan, hts⟩ := Outcome.bind_eq_ok_iff.mp hread
      exact absurd ⟨ts, f, hscan, (hiff hscan f).mp hts⟩ hnone
    | error fault =>
      rcases Outcome.bind_eq_error_iff.mp hread with hscan | ⟨ts, hscan, hts⟩
      · obtain ⟨cause, rfl⟩ := Token.fault_of_scanFrom hscan
        exact ⟨cause, rfl⟩
      · obtain ⟨cause, rfl⟩ := malformed_of_ofTokens (Token.allWellFormed_of_scanFrom hscan)
          (hrows ts hscan) hts
        exact ⟨cause, rfl⟩

/-- A chain of differences in the cell `c3`, with a call in capitals at its end. -/
theorem read_iff_derives_chain :
    (∀ ts, Token.scan (body "=2-a1-MIN($b2, -3*c4)") = .ok ts → Token.ShortRows ts) ∧
      ∃ ts, Token.scan (body "=2-a1-MIN($b2, -3*c4)") = .ok ts ∧
        Derives ⟨3, 3⟩ ts
          (.app "-" [.app "-" [.num (Decimal.toFloat ⟨2, 0⟩), .ref ⟨-2, -2, false, false⟩],
            .app "min" [.ref ⟨2, -1, true, false⟩,
              .app "*" [.app "-" [.num (Decimal.toFloat ⟨3, 0⟩)],
                .ref ⟨0, 1, false, false⟩]]]) := by
  have hrows : ∀ ts, Token.scan (body "=2-a1-MIN($b2, -3*c4)") = .ok ts → Token.ShortRows ts :=
    fun ts hts ↦ Token.shortRows_of_scan hts (by decide +kernel)
  exact ⟨hrows, ((read_iff_derives "=2-a1-MIN($b2, -3*c4)" ⟨3, 3⟩ hrows).1 _).mp
    (by decide +kernel)⟩

end Formula

end Spreadsheet
