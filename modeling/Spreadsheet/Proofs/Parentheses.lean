import Spreadsheet.Proofs.Layout
import Spreadsheet.Proofs.RoundTrip

/-!
# Parentheses

A formula is written with as few parentheses as can be: whatever text is read as the formula, in
whatever cell, has at least as many. So no pair of parentheses can be taken out of what is written,
since what is left has fewer and is read as another formula, if at all.

Parentheses are no part of longer tokens, so they are counted among the tokens of a derivation. The
induction compares the derivation of any text with what is written for its formula in the same
place. What is written there is put in parentheses only if it binds less tightly than its place asks
for, and no derivation gets a loose phrase into a tight place but by a group.
-/

namespace Spreadsheet

open Text Numeral

/-! ## Counting parentheses -/

/-- How many opening parentheses a text has. -/
def Formula.parens (s : String) : Nat := s.toList.count '('

namespace Token

variable {t : Token} {ts : List Token}

theorem WellFormed.count_open (h : t.WellFormed) : t.text.count '(' = [t].count (.op '(') := by
  cases hop : t.isOp with
  | false =>
    have htext : t.text.count '(' = 0 := by
      refine List.count_eq_zero.mpr fun hmem ↦ ?_
      exact absurd (h.isInside hop '(' hmem) (by decide)
    have htoken : [t].count (.op '(') = 0 := by
      refine List.count_eq_zero.mpr fun hmem ↦ ?_
      obtain rfl := List.mem_singleton.mp hmem
      cases hop
    rw [htext, htoken]
  | true =>
    cases t with
    | op sign =>
      by_cases hsign : sign = '('
      · subst hsign
        rfl
      · simp [text, hsign]
    | _ => cases hop

theorem AllWellFormed.count_open (h : AllWellFormed ts) :
    (ts.map text).flatten.count '(' = ts.count (.op '(') := by
  induction ts with
  | nil => rfl
  | cons t ts ih =>
    rw [List.map_cons, List.flatten_cons, List.count_append, ih h.tail,
      (h t List.mem_cons_self).count_open, ← List.count_append, List.singleton_append]

end Token

namespace Formula

variable {base base' : Position} {phrase : Phrase} {depth : Nat} {ts us : List Token} {f : Formula}
  {text text' : String} {w : Written}

/-- **The parentheses of a text are tokens.** -/
theorem parens_eq_count (h : Token.scan (body text) = .ok ts) :
    parens text = ts.count (.op '(') := by
  obtain ⟨marked, -, hlayout⟩ := exists_layout_of_scan h
  rw [parens, hlayout.count_eq (by decide), pieces, List.flatten_append, List.count_append,
    (Token.allWellFormed_of_scanFrom h).count_open]
  cases marked <;> simp

@[simp] theorem parens_append (s s' : String) : parens (s ++ s') = parens s + parens s' := by
  simp [parens]

theorem parens_eq_zero {s : String} (h : '(' ∉ s.toList) : parens s = 0 :=
  List.count_eq_zero.mpr h

theorem parens_atLeast (w : Written) (n : Nat) :
    parens (w.atLeast n) = parens w.text + if w.binding.strength < n then 1 else 0 := by
  unfold Written.atLeast
  split
  · have hopen : parens "(" = 1 := by decide
    have hclose : parens ")" = 0 := by decide
    rw [parens_append, parens_append, hopen, hclose, Nat.add_zero, Nat.add_comm]
  · rfl

theorem parens_atLeast_of_le {n : Nat} (h : n ≤ w.binding.strength) :
    parens (w.atLeast n) = parens w.text := by
  rw [parens_atLeast, if_neg (Nat.not_lt_of_le h), Nat.add_zero]

theorem parens_le_atLeast {n : Nat} : parens w.text ≤ parens (w.atLeast n) := by
  rw [parens_atLeast]
  exact Nat.le_add_right _ _

theorem parens_atLeast_le (w : Written) (n : Nat) : parens (w.atLeast n) ≤ parens w.text + 1 := by
  rw [parens_atLeast]
  split <;> omega

theorem parens_atLeast_mono (w : Written) {m n : Nat} (h : m ≤ n) :
    parens (w.atLeast m) ≤ parens (w.atLeast n) := by
  rw [parens_atLeast, parens_atLeast]
  split <;> split <;> omega

theorem parens_ofList_eq_zero {cs : List Char} (h : ∀ c ∈ cs, Token.isInside c = true) :
    parens (String.ofList cs) = 0 := by
  refine parens_eq_zero fun hmem ↦ ?_
  rw [String.toList_ofList] at hmem
  exact absurd (h '(' hmem) (by decide)

theorem parens_numberText {d : Decimal} (finite : d.rank ≠ Binary64.infinity) :
    parens (numberText d.toFloat) = 0 := by
  obtain ⟨t, hwell, -, htext⟩ := writesRank_toFloat finite
  rw [htext]
  exact parens_ofList_eq_zero (Token.isInside_of_mem_number hwell)

theorem parens_ref {r : CellRef} (h : r.text base = .ok text) : parens text = 0 := by
  obtain ⟨hnamed, rfl⟩ := CellRef.text_eq_ok_iff.mp h
  have hword := Token.isWord_of_mem_ref (CellRef.wellSpelled_spelling hnamed)
  exact parens_ofList_eq_zero fun c hc ↦ Token.isInside_of_isWord (hword c hc)

theorem parens_operator_le {sign : Char} {binding : Binding} {left right : Written}
    {loose tight : Nat}
    (hsign : Binding.ofOperator? (String.ofList [sign]) = some binding)
    (hloose : binding.strength = loose) (htight : binding.strength + 1 = tight)
    (hw : writeApp (String.ofList [sign]) [left, right] = .ok w)
    (hleft : parens (left.atLeast loose) ≤ ts.count (.op '('))
    (hright : parens (right.atLeast tight) ≤ us.count (.op '(')) :
    parens (w.atLeast loose) ≤ (ts ++ .op sign :: us).count (.op '(') := by
  subst hloose htight
  have hne : sign ≠ '(' := by
    rintro rfl
    cases hsign
  have htext : parens (String.ofList [sign]) = 0 := by
    refine parens_eq_zero ?_
    rw [String.toList_ofList, List.mem_singleton]
    exact hne.symm
  have hblank : parens " " = 0 := by decide
  have hwritten : parens (w.atLeast binding.strength) =
      parens (left.atLeast binding.strength) + parens (right.atLeast (binding.strength + 1)) := by
    rw [eq_of_writeApp_operator hsign hw, parens_atLeast_of_le (Nat.le_refl _)]
    simp only [parens_append, htext, hblank, Nat.add_zero]
  rw [hwritten, List.count_append, List.count_cons_of_ne (by simpa using hne)]
  exact Nat.add_le_add hleft hright

theorem parens_call {fn : String} {first second : Written} (known : fn = "min" ∨ fn = "max")
    (hw : writeApp fn [first, second] = .ok w) :
    parens (w.atLeast Phrase.operand.strength) = parens first.text + parens second.text + 1 := by
  have hargs : String.intercalate ", " [first.text, second.text] =
      first.text ++ ", " ++ second.text := rfl
  have hfn : parens fn = 0 := by rcases known with rfl | rfl <;> decide
  have hopen : parens "(" = 1 := by decide
  have hcomma : parens ", " = 0 := by decide
  have hclose : parens ")" = 0 := by decide
  rw [eq_of_writeApp_call known hw, parens_atLeast_of_le (show 3 ≤ 4 by decide), hargs]
  simp only [parens_append, hfn, hopen, hcomma, hclose]
  omega

/-! ## The fewest parentheses -/

/-- **A derivation has at least the parentheses that are written** for its formula in its place, in
any cell. -/
theorem Spells.parens_le (h : Spells base phrase depth ts f)
    (hw : f.foldM (printer base') = .ok w) :
    parens (w.atLeast phrase.strength) ≤ ts.count (.op '(') := by
  induction h generalizing w with
  | number finite =>
    rw [foldM_num] at hw
    cases hw
    rw [parens_atLeast_of_le (show 3 ≤ 4 by decide), parens_numberText finite]
    exact Nat.zero_le _
  | ref wellSpelled one_le_row =>
    rw [foldM_ref] at hw
    obtain ⟨text, htext, rfl⟩ := Outcome.map_eq_ok_iff.mp hw
    rw [parens_atLeast_of_le (show 3 ≤ 4 by decide), parens_ref htext]
    exact Nat.zero_le _
  | sign _ ih =>
    obtain ⟨part, hpart, hw⟩ := exists_written_one hw
    cases hw
    have hminus : parens "-" = 0 := by decide
    rw [parens_atLeast_of_le (Nat.le_refl 3), parens_append, hminus, Nat.zero_add,
      List.count_cons_of_ne (by decide)]
    exact ih hpart
  | @group depth ts f _ ih =>
    have hcount : (Token.op '(' :: (ts ++ [.op ')'])).count (.op '(') = ts.count (.op '(') + 1 := by
      rw [List.count_cons_self, List.count_append]
      rfl
    -- what was in parentheses may be written without, but not with more
    rw [hcount]
    exact (parens_atLeast_le _ _).trans (Nat.succ_le_succ (parens_le_atLeast.trans (ih hw)))
  | @call depth name fn ts us f g lower known _ _ ihFirst ihSecond =>
    obtain ⟨first, second, hfirst, hsecond, hw⟩ := exists_written_two hw
    have hcount :
        (Token.name name :: .op '(' :: (ts ++ .op ',' :: (us ++ [.op ')']))).count (.op '(')
          = ts.count (.op '(') + us.count (.op '(') + 1 := by
      simp
    rw [hcount, parens_call known hw]
    exact Nat.succ_le_succ (Nat.add_le_add (parens_le_atLeast.trans (ihFirst hfirst))
      (parens_le_atLeast.trans (ihSecond hsecond)))
  | product _ ih => exact (parens_atLeast_mono w (by decide)).trans (ih hw)
  | times _ operator _ ihLeft ihRight =>
    obtain ⟨left, right, hleft, hright, hw⟩ := exists_written_two hw
    exact parens_operator_le (ofOperator?_of_isMultiplicative operator) rfl rfl hw (ihLeft hleft)
      (ihRight hright)
  | sum _ ih => exact (parens_atLeast_mono w (by decide)).trans (ih hw)
  | plus _ operator _ ihLeft ihRight =>
    obtain ⟨left, right, hleft, hright, hw⟩ := exists_written_two hw
    exact parens_operator_le (ofOperator?_of_isAdditive operator)
      rfl rfl hw (ihLeft hleft) (ihRight hright)

/-- **A formula is written with the fewest parentheses.** Whatever text is read as the formula, in
whatever cell, has at least as many. So if two parentheses that match, or any two, are taken out of
what is written, what is left is not read as the formula. -/
theorem write_fewest_parens {s : String} (hwrite : f.write base = .ok s) :
    (∀ text base', read text base' = .ok f → parens s ≤ parens text) ∧
    ∀ front inner back, s.toList = front ++ '(' :: (inner ++ ')' :: back) →
      read (String.ofList (front ++ inner ++ back)) base ≠ .ok f := by
  obtain ⟨w, hw, rfl⟩ := Outcome.map_eq_ok_iff.mp hwrite
  have hfewest {text : String} {base' : Position} (h : read text base' = .ok f) :
      parens w.text ≤ parens text := by
    obtain ⟨ts, hscan, hts⟩ := Outcome.bind_eq_ok_iff.mp h
    rw [parens_eq_count hscan]
    have hspells := derives_of_ofTokens (Token.allWellFormed_of_scanFrom hscan) hts
    exact parens_le_atLeast.trans (Spells.parens_le hspells hw)
  refine ⟨fun text base' ↦ hfewest, fun front inner back hcut hread ↦ ?_⟩
  -- one parenthesis is gone, so what is left has too few
  have hle := hfewest hread
  have hmore : parens w.text = parens (String.ofList (front ++ inner ++ back)) + 1 := by
    rw [parens, hcut, parens, String.toList_ofList]
    simp
    omega
  omega

/-- A product with a difference in a difference on its left, and the two pairs of
parentheses that it needs. -/
theorem write_fewest_parens_product :
    let f : Formula := .app "*" [
      .app "-" [.ref ⟨-1, -1, false, false⟩,
        .app "-" [.num (Decimal.toFloat ⟨2, 0⟩), .ref ⟨2, -1, true, false⟩]],
      .app "min" [.num (Decimal.toFloat ⟨1, 0⟩), .ref ⟨0, 3, false, true⟩]]
    f.write ⟨4, 5⟩ = .ok "(c4 - (2 - $b4)) * min(1, d$3)" ∧
      (read "((c4)-((2)-$B4))*(Min(1,d$3))" ⟨4, 5⟩ = .ok f ∧
        parens "(c4 - (2 - $b4)) * min(1, d$3)" ≤ parens "((c4)-((2)-$B4))*(Min(1,d$3))") ∧
      read "(c4 - 2 - $b4) * min(1, d$3)" ⟨4, 5⟩ ≠ .ok f ∧
      read "c4 - (2 - $b4) * min(1, d$3)" ⟨4, 5⟩ ≠ .ok f := by
  intro f
  have hwrite : f.write ⟨4, 5⟩ = .ok "(c4 - (2 - $b4)) * min(1, d$3)" := by decide +kernel
  have hread : read "((c4)-((2)-$B4))*(Min(1,d$3))" ⟨4, 5⟩ = .ok f := by decide +kernel
  obtain ⟨hfewest, hnot⟩ := write_fewest_parens hwrite
  refine ⟨hwrite, ⟨hread, hfewest _ _ hread⟩, ?_, ?_⟩
  · exact hnot "(c4 - ".toList "2 - $b4".toList ") * min(1, d$3)".toList rfl
  · exact hnot [] "c4 - (2 - $b4)".toList " * min(1, d$3)".toList rfl

end Formula

end Spreadsheet
