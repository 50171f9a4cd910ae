import Spreadsheet.Proofs.Lexing

/-!
# Writing and reading back

A formula that was read is written so that reading gives it back, in the cell that it was read for
and in any other cell in which all of its references still name cells.

The formula comes from a derivation, and the written text has a derivation too, which is what the
induction builds. Parentheses are written only where the derivation had them: an operand that binds
less tightly than its place asks for can only have come there in parentheses. So the written text
never nests deeper than the text that was read, and the induction carries how much room is left
(`Fits`).
-/

namespace Spreadsheet

open Text Numeral

/-! ## References -/

namespace CellRef

/-- The parts of the text of a place. -/
def spelling (r : CellRef) : Spelling :=
  ⟨r.colAnchored, Column.letters r.col.toNat, r.rowAnchored, digits r.row.toNat⟩

variable {r : CellRef} {base : Position} {text : String}

theorem wellSpelled_spelling (h : r.position.Named) : r.spelling.WellSpelled where
  letters_ne_nil := h.wellSpelled.letters_ne_nil
  isLetter := h.wellSpelled.isLetter
  digits_ne_nil := h.wellSpelled.digits_ne_nil
  isDigit := h.wellSpelled.isDigit

/-- **A place is spelled by its text.** -/
theorem place_spelling (h : r.position.Named) : r.spelling.place = r := by
  have hcol : 1 ≤ r.col := h.one_le_col
  have hrow : 1 ≤ r.row := h.one_le_row
  obtain ⟨col, row, colAnchored, rowAnchored⟩ := r
  dsimp only at hcol hrow
  simp only [Spelling.place, spelling, Column.number_letters, ofDigits_digits]
  congr 1
  · omega
  · omega

theorem one_le_ofDigits_spelling (h : r.position.Named) : 1 ≤ ofDigits r.spelling.digits := by
  have hrow : 1 ≤ r.row := h.one_le_row
  rw [spelling, ofDigits_digits]
  omega

theorem length_digits_spelling (h : r.position.Named) : r.spelling.digits.length ≤ maxDigits := by
  have hrow : 1 ≤ r.row := h.one_le_row
  have hwritable := h.isWritable
  rw [isWritable, decide_eq_true_iff] at hwritable
  rwa [show r.position.row.natAbs = r.row.toNat by simp only [position]; omega] at hwritable

theorem text_spelling (hrow : 1 ≤ r.row) :
    String.ofList (anchorText r.colAnchored ++ Column.letters r.col.toNat ++
      anchorText r.rowAnchored)
      ++ write r.row = String.ofList r.spelling.text := by
  have hnonneg : ¬ r.row < 0 := by omega
  have habs : r.row.natAbs = r.row.toNat := by omega
  rw [write, if_neg hnonneg, habs, ← String.ofList_append]
  rfl

/-- **Which references can be written in a cell**, and how. -/
theorem text_eq_ok_iff :
    r.text base = .ok text ↔
      (r.resolve base).position.Named ∧ text = String.ofList (r.resolve base).spelling.text := by
  rw [CellRef.text, Outcome.bind_eq_ok_iff]
  constructor
  · rintro ⟨_, hcheck, hrow⟩
    obtain ⟨hcol, hone⟩ := Position.check_eq_ok_iff.mp hcheck
    by_cases hwritable : isWritable (r.resolve base).row = true
    · rw [write?, if_pos hwritable] at hrow
      cases hrow
      exact ⟨⟨hcol, hone, hwritable⟩, text_spelling hone⟩
    · rw [write?, if_neg hwritable] at hrow
      cases hrow
  · rintro ⟨h, rfl⟩
    refine ⟨(), Position.check_eq_ok_iff.mpr ⟨h.one_le_col, h.one_le_row⟩, ?_⟩
    have hwritable : isWritable (r.resolve base).row = true := h.isWritable
    rw [write?, if_pos hwritable]
    exact congrArg _ (text_spelling h.one_le_row)

/-- **A reference is not written because it names no cell**, if its numbers are short enough to be
written. -/
theorem fault_of_text {fault : Fault} (h : r.text base = .error fault)
    (hcol : isWritable (r.resolve base).col = true)
    (hrow : isWritable (r.resolve base).row = true) :
    ((r.resolve base).col < 1 ∨ (r.resolve base).row < 1) ∧ ∃ cause, fault = .malformed cause := by
  rw [CellRef.text, Outcome.bind_eq_error_iff] at h
  rcases h with hcheck | ⟨_, -, h⟩
  · have hoff : ¬ (1 ≤ (r.resolve base).col ∧ 1 ≤ (r.resolve base).row) := fun hon ↦ by
      rw [Position.check_eq_ok_iff.mpr hon] at hcheck
      cases hcheck
    unfold Position.check at hcheck
    split at hcheck
    · cases hcheck
    · rw [if_pos (by rw [Bool.and_eq_true]; exact ⟨hcol, hrow⟩)] at hcheck
      cases hcheck
      exact ⟨by omega, _, rfl⟩
  · rw [write?, if_pos hrow] at h
    cases h

end CellRef

namespace Formula

/-! ## Binding and phrases -/

/-- The kind of phrase that a text of the given binding is. -/
def Binding.phrase : Binding → Phrase
  | .sum => .sum
  | .product => .product
  | .sign => .operand
  | .atom => .operand

/-- How tightly a phrase binds at least. -/
def Phrase.strength : Phrase → Nat
  | .sum => 1
  | .product => 2
  | .operand => 3

variable {base : Position} {phrase loose : Phrase} {depth : Nat} {ts us : List Token}
  {f g : Formula}

theorem Spells.loosen (h : Spells base phrase depth ts f)
    (hle : loose.strength ≤ phrase.strength) : Spells base loose depth ts f := by
  match phrase, loose with
  | .sum, .sum => exact h
  | .product, .sum => exact .sum h
  | .product, .product => exact h
  | .operand, .sum => exact .sum (.product h)
  | .operand, .product => exact .product h
  | .operand, .operand => exact h
  | .sum, .product => exact absurd hle (by decide)
  | .sum, .operand => exact absurd hle (by decide)
  | .product, .operand => exact absurd hle (by decide)

/-! ## Texts that read back -/

/-- The text reads back as the formula where a phrase of the given kind has to stand. -/
def ReadsBack (base : Position) (phrase : Phrase) (depth : Nat) (text : String)
    (f : Formula) : Prop :=
  ∃ ts, Token.Lexes text.toList ts ∧ Token.ShortRows ts ∧ Spells base phrase depth ts f

section ReadsBack

variable {text text' : String}

theorem writesRank_toFloat {d : Decimal} (finite : d.rank ≠ Binary64.infinity) :
    WritesRank d.rank (numberText d.toFloat) := by
  have hlt : d.rank < Binary64.infinity := Nat.lt_of_le_of_ne d.rank_le_infinity finite
  have hrank : Binary64.rank d.toFloat = d.rank :=
    (Binary64.rank_ofRank false d.rank).trans (Nat.min_eq_left (Nat.le_of_lt hlt))
  exact writesRank_numberText hrank (Binary64.negative_ofRank false d.rank) hlt

theorem readsBack_number {d : Decimal} (finite : d.rank ≠ Binary64.infinity) :
    ReadsBack base .operand depth (numberText d.toFloat) (.num d.toFloat) := by
  obtain ⟨t, hwell, hvalue, htext⟩ := writesRank_toFloat finite
  have hfinite : (DecimalText.scan t.text).value.rank ≠ Binary64.infinity := by
    rwa [hwell.scan_text, hvalue]
  have hfloat : (DecimalText.scan t.text).value.toFloat = d.toFloat := by
    rw [hwell.scan_text, Decimal.toFloat, Decimal.toFloat, hvalue]
  refine ⟨[.number t.text], ?_, Token.shortRows_number t.text, ?_⟩
  · rw [htext, String.toList_ofList]
    exact Token.lexes_number hwell
  · exact hfloat ▸ .number hfinite

theorem readsBack_ref {r : CellRef} (h : r.text base = .ok text) :
    ReadsBack base .operand depth text (.ref r) := by
  obtain ⟨hnamed, rfl⟩ := CellRef.text_eq_ok_iff.mp h
  have hspelled := CellRef.wellSpelled_spelling hnamed
  have hplace : (r.resolve base).spelling.place.relativeTo base = r := by
    rw [CellRef.place_spelling hnamed, CellRef.relativeTo_resolve]
  refine ⟨[.ref (r.resolve base).spelling.text], ?_, ?_, ?_⟩
  · rw [String.toList_ofList]
    exact Token.lexes_ref hspelled
  · exact Token.shortRows_ref hspelled (CellRef.length_digits_spelling hnamed)
  · have hspells : Spells base .operand depth _ (.ref _) :=
      .ref hspelled (CellRef.one_le_ofDigits_spelling hnamed)
    rwa [hplace] at hspells

theorem ReadsBack.sign (h : ReadsBack base .operand depth text f) :
    ReadsBack base .operand (depth + 1) ("-" ++ text) (.app "-" [f]) := by
  obtain ⟨ts, hlexes, hrows, hspells⟩ := h
  refine ⟨_, ?_, ?_, .sign hspells⟩
  · simpa using hlexes.sign
  · exact hrows.op '-'

theorem ReadsBack.group (h : ReadsBack base .sum depth text f) :
    ReadsBack base .operand (depth + 1) ("(" ++ text ++ ")") f := by
  obtain ⟨ts, hlexes, hrows, hspells⟩ := h
  refine ⟨_, ?_, ?_, .group hspells⟩
  · simpa using hlexes.group
  · exact (hrows.append (Token.shortRows_nil.op ')')).op '('

theorem ReadsBack.operator {sign : Char} {left right : Phrase}
    (h : ReadsBack base left depth text f) (h' : ReadsBack base right depth text' g)
    (hsign : Token.isSign sign = true)
    (hrule : ∀ {ts us}, Spells base left depth ts f → Spells base right depth us g →
      Spells base left depth (ts ++ .op sign :: us) (.app (String.ofList [sign]) [f, g])) :
    ReadsBack base left depth (text ++ " " ++ String.ofList [sign] ++ " " ++ text')
      (.app (String.ofList [sign]) [f, g]) := by
  obtain ⟨ts, hlexes, hrows, hspells⟩ := h
  obtain ⟨us, hlexes', hrows', hspells'⟩ := h'
  refine ⟨_, ?_, ?_, hrule hspells hspells'⟩
  · have := hlexes.operator hlexes' hsign
    simpa using this
  · exact hrows.append (hrows'.op sign)

theorem ReadsBack.call {fn : String} (hfn : fn = "min" ∨ fn = "max")
    (h : ReadsBack base .sum depth text f) (h' : ReadsBack base .sum depth text' g) :
    ReadsBack base .operand (depth + 1) (fn ++ "(" ++ String.intercalate ", " [text, text'] ++ ")")
      (.app fn [f, g]) := by
  obtain ⟨ts, hlexes, hrows, hspells⟩ := h
  obtain ⟨us, hlexes', hrows', hspells'⟩ := h'
  have hlower : String.ofList (fn.toList.map Char.toLower) = fn := by
    rcases hfn with rfl | rfl <;> decide
  refine ⟨_, ?_, ?_, .call hlower hfn hspells hspells'⟩
  · have := hlexes.call hlexes' hfn
    simpa using this
  · exact ((hrows.append ((hrows'.append (Token.shortRows_nil.op ')')).op ',')).op '(').name _

end ReadsBack

/-! ## Texts in their places -/

/-- What is written for a formula reads back as the phrase that it is. Where it will have to be put
in parentheses to be a phrase of the given kind, there is room for them. -/
def Fits (base : Position) (phrase : Phrase) (depth : Nat) (w : Written) (f : Formula) : Prop :=
  ∃ m, ReadsBack base w.binding.phrase m w.text f ∧ m ≤ depth ∧
    (w.binding.strength < phrase.strength → m < depth)

theorem le_strength_phrase {binding : Binding} (h : phrase.strength ≤ binding.strength) :
    phrase.strength ≤ binding.phrase.strength := by
  cases binding <;> cases phrase <;> first | decide | exact absurd h (by decide)

theorem one_le_strength (phrase : Phrase) : Phrase.sum.strength ≤ phrase.strength := by
  cases phrase <;> decide

theorem strength_le_operand (phrase : Phrase) : phrase.strength ≤ Phrase.operand.strength := by
  cases phrase <;> decide

theorem ReadsBack.loosen {text : String} (h : ReadsBack base phrase depth text f)
    (hle : loose.strength ≤ phrase.strength) {depth' : Nat} (hdepth : depth ≤ depth') :
    ReadsBack base loose depth' text f := by
  obtain ⟨ts, hlexes, hrows, hspells⟩ := h
  exact ⟨ts, hlexes, hrows, (hspells.loosen hle).mono hdepth⟩

section Fits

variable {w : Written}

/-- **Put in its place a text reads back**, in parentheses where it has to be. -/
theorem Fits.atLeast (h : Fits base phrase depth w f) :
    ReadsBack base phrase depth (w.atLeast phrase.strength) f := by
  obtain ⟨m, hreads, hle, hroom⟩ := h
  unfold Written.atLeast
  split
  · rename_i hlt
    have hgroup := (hreads.loosen (one_le_strength _) (Nat.le_refl m)).group
    exact hgroup.loosen (strength_le_operand phrase) (hroom hlt)
  · rename_i hge
    exact hreads.loosen (le_strength_phrase (by omega)) hle

theorem Fits.whole (h : Fits base .sum depth w f) : ReadsBack base .sum depth w.text f := by
  obtain ⟨m, hreads, hle, -⟩ := h
  exact hreads.loosen (one_le_strength _) hle

/-- What reads back as the phrase that it is fits wherever it is no looser than its place. -/
theorem ReadsBack.fits {text : String} {binding : Binding}
    (h : ReadsBack base binding.phrase depth text f) (hle : phrase.strength ≤ binding.strength) :
    Fits base phrase depth ⟨text, binding⟩ f :=
  ⟨depth, h, Nat.le_refl _, fun hlt ↦ absurd hle (Nat.not_le_of_lt hlt)⟩

theorem Fits.loosen (h : Fits base phrase depth w f) (hle : loose.strength ≤ phrase.strength) :
    Fits base loose depth w f := by
  obtain ⟨m, hreads, hm, hroom⟩ := h
  exact ⟨m, hreads, hm, fun hlt ↦ hroom (by omega)⟩

theorem Fits.group (h : Fits base .sum depth w f) : Fits base .operand (depth + 1) w f := by
  obtain ⟨m, hreads, hm, -⟩ := h
  exact ⟨m, hreads, by omega, fun _ ↦ by omega⟩

end Fits

/-! ## Written formulas -/

section Written

variable {base' : Position} {w : Written}

theorem exists_written {fn : String} {args : List Formula}
    (h : (app fn args).foldM (printer base) = .ok w) :
    ∃ parts, List.Forall₂ (fun f part ↦ f.foldM (printer base) = .ok part) args parts ∧
      writeApp fn parts = .ok w := by
  rw [foldM_app] at h
  obtain ⟨parts, hparts, h⟩ := Outcome.bind_eq_ok_iff.mp h
  exact ⟨parts, Outcome.mapM_eq_ok_iff.mp hparts, h⟩

theorem exists_written_one {fn : String} (h : (app fn [f]).foldM (printer base) = .ok w) :
    ∃ part, f.foldM (printer base) = .ok part ∧ writeApp fn [part] = .ok w := by
  obtain ⟨parts, hparts, h⟩ := exists_written h
  obtain _ | ⟨hpart, _ | _⟩ := hparts
  exact ⟨_, hpart, h⟩

theorem exists_written_two {fn : String} (h : (app fn [f, g]).foldM (printer base) = .ok w) :
    ∃ left right, f.foldM (printer base) = .ok left ∧ g.foldM (printer base) = .ok right ∧
      writeApp fn [left, right] = .ok w := by
  obtain ⟨parts, hparts, h⟩ := exists_written h
  obtain _ | ⟨hleft, _ | ⟨hright, _ | _⟩⟩ := hparts
  exact ⟨_, _, hleft, hright, h⟩

theorem eq_of_writeApp_operator {sign : Char} {binding : Binding} {left right : Written}
    (hsign : Binding.ofOperator? (String.ofList [sign]) = some binding)
    (hw : writeApp (String.ofList [sign]) [left, right] = .ok w) :
    w = ⟨left.atLeast binding.strength ++ " " ++ String.ofList [sign] ++ " "
      ++ right.atLeast (binding.strength + 1), binding⟩ := by
  unfold writeApp at hw
  split at hw
  · cases ‹[left, right] = [_]›
  · rw [hsign] at hw
    cases hw
    rfl

theorem eq_of_writeApp_call {fn : String} {first second : Written} (known : fn = "min" ∨ fn = "max")
    (hw : writeApp fn [first, second] = .ok w) :
    w = ⟨fn ++ "(" ++ String.intercalate ", " [first.text, second.text] ++ ")", .atom⟩ := by
  rcases known with rfl | rfl
  · cases hw
    rfl
  · cases hw
    rfl

section Operators

variable {sign : Char}

theorem ofOperator?_of_isMultiplicative (h : isMultiplicative sign = true) :
    Binding.ofOperator? (String.ofList [sign]) = some .product := by
  rcases (by simpa [isMultiplicative] using h) with rfl | rfl <;> decide

theorem ofOperator?_of_isAdditive (h : isAdditive sign = true) :
    Binding.ofOperator? (String.ofList [sign]) = some .sum := by
  rcases (by simpa [isAdditive] using h) with rfl | rfl <;> decide

theorem isSign_of_isMultiplicative (h : isMultiplicative sign = true) :
    Token.isSign sign = true := by
  rcases (by simpa [isMultiplicative] using h) with rfl | rfl <;> decide

theorem isSign_of_isAdditive (h : isAdditive sign = true) : Token.isSign sign = true := by
  rcases (by simpa [isAdditive] using h) with rfl | rfl <;> decide

end Operators

/-- **What is written for a derived formula fits the place of its derivation**, in any cell in which
it can be written. -/
theorem Spells.fits (h : Spells base phrase depth ts f)
    (hw : f.foldM (printer base') = .ok w) : Fits base' phrase depth w f := by
  induction h generalizing w with
  | number finite =>
    rw [foldM_num] at hw
    cases hw
    exact (readsBack_number finite).fits (by decide)
  | ref wellSpelled one_le_row =>
    rw [foldM_ref] at hw
    obtain ⟨text, htext, rfl⟩ := Outcome.map_eq_ok_iff.mp hw
    exact (readsBack_ref htext).fits (by decide)
  | sign _ ih =>
    obtain ⟨part, hpart, hw⟩ := exists_written_one hw
    cases hw
    exact (ih hpart).atLeast.sign.fits (by decide)
  | group _ ih => exact (ih hw).group
  | call lower known _ _ ihFirst ihSecond =>
    obtain ⟨first, second, hfirst, hsecond, hw⟩ := exists_written_two hw
    obtain rfl := eq_of_writeApp_call known hw
    exact ((ihFirst hfirst).whole.call known (ihSecond hsecond).whole).fits (by decide)
  | product _ ih => exact (ih hw).loosen (by decide)
  | times _ operator _ ihLeft ihRight =>
    obtain ⟨left, right, hleft, hright, hw⟩ := exists_written_two hw
    have htimes := (ihLeft hleft).atLeast.operator (ihRight hright).atLeast
      (isSign_of_isMultiplicative operator) (.times · operator)
    obtain rfl := eq_of_writeApp_operator (ofOperator?_of_isMultiplicative operator) hw
    exact htimes.fits (by decide)
  | sum _ ih => exact (ih hw).loosen (by decide)
  | plus _ operator _ ihLeft ihRight =>
    obtain ⟨left, right, hleft, hright, hw⟩ := exists_written_two hw
    have hplus := (ihLeft hleft).atLeast.operator (ihRight hright).atLeast
      (isSign_of_isAdditive operator) (.plus · operator)
    obtain rfl := eq_of_writeApp_operator (ofOperator?_of_isAdditive operator) hw
    exact hplus.fits (by decide)

theorem ReadsBack.read {text : String} (h : ReadsBack base .sum maxNesting text f) :
    read text base = .ok f := by
  obtain ⟨ts, hlexes, hrows, hspells⟩ := h
  have hscan := hlexes.scan_body
  rw [String.ofList_toList] at hscan
  rw [Formula.read, hscan]
  exact ofTokens_of_derives hrows hspells

theorem ReadsBack.strip_eq {text : String} (h : ReadsBack base phrase depth text f) :
    strip text = text := by
  obtain ⟨ts, hlexes, -, -⟩ := h
  rw [strip, hlexes.trim_eq, String.ofList_toList]

/-- **What is written for a formula that was read reads back**, in whatever cell it is written. -/
theorem readsBack_of_write {text text' : String} (h : Formula.read text base = .ok f)
    (hwrite : f.write base' = .ok text') : ReadsBack base' .sum maxNesting text' f := by
  obtain ⟨ts, hscan, hts⟩ := Outcome.bind_eq_ok_iff.mp h
  obtain ⟨w, hw, rfl⟩ := Outcome.map_eq_ok_iff.mp hwrite
  have hspells := derives_of_ofTokens (Token.allWellFormed_of_scanFrom hscan) hts
  exact (Spells.fits hspells hw).whole

end Written

/-! ## What can be written -/

section Writable

theorem two_operands {fn : String} {binding : Binding} {count : Nat}
    (hfn : Binding.ofOperator? fn = some binding) (h : Operation.accepts fn count = true)
    (hsign : ¬ (fn = "-" ∧ count = 1)) : count = 2 := by
  unfold Binding.ofOperator? at hfn
  split at hfn
  · exact beq_iff_eq.mp h
  · rcases (by simpa [Operation.accepts, Operation.ofName?, Operation.takes] using h) with rfl | rfl
    · exact absurd ⟨rfl, rfl⟩ hsign
    · rfl
  · exact beq_iff_eq.mp h
  · exact beq_iff_eq.mp h
  · cases hfn

theorem exists_writeApp {fn : String} {parts : List Written}
    (h : Operation.accepts fn parts.length = true) : ∃ w, writeApp fn parts = .ok w := by
  unfold writeApp
  split
  · exact ⟨_, rfl⟩
  · rename_i hsign
    split
    · exact ⟨_, rfl⟩
    · rename_i hbinding
      have htwo := two_operands hbinding h fun ⟨hfn, hone⟩ ↦
        (List.length_eq_one_iff.mp hone).elim fun part hpart ↦ hsign part hfn hpart
      obtain ⟨left, right, rfl⟩ := List.length_eq_two.mp htwo
      exact ⟨_, rfl⟩

/-- **Only a reference can keep a supported formula from being written.** -/
theorem exists_ref_of_written_error (hf : f.Supported) {fault : Fault}
    (h : f.foldM (printer base) = .error fault) : ∃ r ∈ f.refs, r.text base = .error fault := by
  induction hf with
  | num value =>
    rw [foldM_num] at h
    cases h
  | ref target =>
    rw [foldM_ref] at h
    exact ⟨target, by simp, Outcome.map_eq_error_iff.mp h⟩
  | @app fn args accepts supported ih =>
    rw [foldM_app] at h
    rcases Outcome.bind_eq_error_iff.mp h with hargs | ⟨parts, hparts, happ⟩
    · obtain ⟨g, hg, hfault⟩ := Outcome.exists_mem_of_mapM_eq_error hargs
      obtain ⟨r, hr, htext⟩ := ih g hg hfault
      rw [refs_app]
      exact ⟨r, List.mem_flatMap.mpr ⟨g, hg, hr⟩, htext⟩
    · obtain ⟨w, hw⟩ := exists_writeApp (length_of_mapM_eq_ok hparts ▸ accepts)
      have := hw.symm.trans happ
      cases this

theorem exists_text_of_written {w : Written} (h : f.foldM (printer base) = .ok w) :
    ∀ r ∈ f.refs, ∃ text, r.text base = .ok text := by
  induction f using induction generalizing w with
  | num value => intro r hr; simp at hr
  | foreign text => intro r hr; simp at hr
  | ref target =>
    rw [foldM_ref] at h
    obtain ⟨text, htext, -⟩ := Outcome.map_eq_ok_iff.mp h
    intro r hr
    rw [refs_ref, List.mem_singleton] at hr
    exact ⟨text, hr ▸ htext⟩
  | app fn args ih =>
    rw [foldM_app] at h
    obtain ⟨parts, hparts, -⟩ := Outcome.bind_eq_ok_iff.mp h
    intro r hr
    rw [refs_app] at hr
    obtain ⟨g, hg, hr⟩ := List.mem_flatMap.mp hr
    obtain ⟨part, hpart⟩ := Outcome.exists_of_mapM_eq_ok hparts hg
    exact ih g hg hpart r hr

/-- **A supported formula is written** exactly where each of its references names a cell. -/
theorem exists_write_iff (hf : f.Supported) :
    (∃ text, f.write base = .ok text) ↔ ∀ r ∈ f.refs, (r.resolve base).position.Named := by
  constructor
  · rintro ⟨text, hwrite⟩ r hr
    obtain ⟨w, hw, -⟩ := Outcome.map_eq_ok_iff.mp hwrite
    obtain ⟨part, hpart⟩ := exists_text_of_written hw r hr
    exact (CellRef.text_eq_ok_iff.mp hpart).1
  · intro hnamed
    refine Outcome.exists_ok_of_no_error fun fault hfault ↦ ?_
    obtain ⟨r, hr, htext⟩ := exists_ref_of_written_error hf (Outcome.map_eq_error_iff.mp hfault)
    have hok := CellRef.text_eq_ok_iff.mpr ⟨hnamed r hr, rfl⟩
    rw [hok] at htext
    cases htext

/-- The numbers of every reference are short enough to be written in the cell at `base`. -/
def ShortAt (f : Formula) (base : Position) : Prop :=
  ∀ r ∈ f.refs, isWritable (r.resolve base).col = true ∧ isWritable (r.resolve base).row = true

instance (f : Formula) (base : Position) : Decidable (f.ShortAt base) :=
  inferInstanceAs (Decidable (∀ r ∈ f.refs, _ ∧ _))

theorem fault_of_write (hf : f.Supported) (hshort : f.ShortAt base) {fault : Fault}
    (h : f.write base = .error fault) :
    (∃ r ∈ f.refs, (r.resolve base).col < 1 ∨ (r.resolve base).row < 1) ∧
      ∃ cause, fault = .malformed cause := by
  obtain ⟨r, hr, htext⟩ := exists_ref_of_written_error hf (Outcome.map_eq_error_iff.mp h)
  obtain ⟨hoff, hcause⟩ := CellRef.fault_of_text htext (hshort r hr).1 (hshort r hr).2
  exact ⟨⟨r, hr, hoff⟩, hcause⟩

end Writable

/-- **Writing undoes reading.** A formula that is read in a cell is written there. Wherever it is
written, reading gives it back. Numbers of too many digits apart, it is not written exactly where
one of its references names no cell, and is malformed there. -/
theorem read_write {text : String} (h : read text base = .ok f) :
    (∃ s, f.write base = .ok s) ∧
    (∀ base' s, f.write base' = .ok s → read s base' = .ok f) ∧
    ∀ base',
      (∀ r ∈ f.refs, isWritable (r.resolve base').col = true ∧
        isWritable (r.resolve base').row = true) →
      ((∃ fault, f.write base' = .error fault) ↔
        ∃ r ∈ f.refs, (r.resolve base').col < 1 ∨ (r.resolve base').row < 1) ∧
      ∀ fault, f.write base' = .error fault → ∃ cause, fault = .malformed cause := by
  have hread := wellRead_of_read h
  refine ⟨?_, ?_, ?_⟩
  · exact (exists_write_iff hread.supported).mpr fun r hr ↦ hread.named hr
  · intro base' s hwrite
    exact (readsBack_of_write h hwrite).read
  · intro base' hwritable
    have hfault {fault : Fault} (hwrite : f.write base' = .error fault) :
        (∃ r ∈ f.refs, (r.resolve base').col < 1 ∨ (r.resolve base').row < 1) ∧
          ∃ cause, fault = .malformed cause :=
      fault_of_write hread.supported hwritable hwrite
    refine ⟨⟨fun ⟨_, hwrite⟩ ↦ (hfault hwrite).1, ?_⟩, fun _ hwrite ↦ (hfault hwrite).2⟩
    rintro ⟨r, hr, hoff⟩
    cases hwrite : f.write base' with
    | error fault => exact ⟨fault, rfl⟩
    | ok s =>
      have hnamed := (exists_write_iff hread.supported).mp ⟨s, hwrite⟩ r hr
      have hcol : 1 ≤ (r.resolve base').col := hnamed.one_le_col
      have hrow : 1 ≤ (r.resolve base').row := hnamed.one_le_row
      omega

/-- Written in the cell `d5`, a formula of the cell `c3` has fewer parentheses and lower case, and
reads back. The cell `a3` is too far to the left for it. -/
theorem read_write_moved :
    let f : Formula := .app "/" [
      .app "*" [
        .app "-" [.ref ⟨-2, -2, false, false⟩,
          .app "-" [.num (Decimal.toFloat ⟨2, 0⟩), .ref ⟨2, -1, true, false⟩]],
        .app "-" [.num (Decimal.toFloat ⟨3, 0⟩)]],
      .app "min" [.num (Decimal.toFloat ⟨1, 22⟩), .ref ⟨0, 3, false, true⟩]]
    read "= (a1-(2 - $B2))*-3 / Min((1e22), c$3)" ⟨3, 3⟩ = .ok f ∧
      read "(b3 - (2 - $b4)) * -3 / min(1e+22, d$3)" ⟨4, 5⟩ = .ok f ∧
      ∃ cause, f.write ⟨1, 3⟩ = .error (.malformed cause) := by
  intro f
  have hread : read "= (a1-(2 - $B2))*-3 / Min((1e22), c$3)" ⟨3, 3⟩ = .ok f := by decide +kernel
  obtain ⟨-, hback, hoff⟩ := read_write hread
  refine ⟨hread, hback ⟨4, 5⟩ _ (by decide +kernel), ?_⟩
  obtain ⟨hiff, hmalformed⟩ := hoff ⟨1, 3⟩ (by decide +kernel)
  obtain ⟨fault, hfault⟩ := hiff.mpr (by decide +kernel)
  obtain ⟨cause, rfl⟩ := hmalformed fault hfault
  exact ⟨cause, hfault⟩

end Formula

end Spreadsheet
