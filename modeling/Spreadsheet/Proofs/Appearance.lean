import Spreadsheet.Proofs.Layout
import Spreadsheet.Proofs.Refusal

/-!
# The appearance of a formula

The letters of a formula, in columns, in names and in the marks of exponents, may stand in either
case. Reading asks of a character only whether it is in some class, and every class has a letter in
both cases or in none. So the tokens of a text in lower case are its tokens in lower case
(`scanFrom_lower`), and two texts with the same letters have tokens with the same letters. A
derivation does not look at the case of its tokens (`Spells.recased`), hence the two texts are read
as the same formula, or neither is read.

The last section puts letter case and layout in one statement.
-/

namespace Spreadsheet

open Text Numeral

/-! ## Characters -/

namespace Text

theorem toLower_eq_self {c : Char} (h : isLetter c = false) : c.toLower = c := by
  refine dif_neg fun hupper ↦ ?_
  have hletter : isLetter c = true := by
    simp only [isLetter, Bool.or_eq_true, Bool.and_eq_true, decide_eq_true_eq]
    exact .inr hupper
  rw [h] at hletter
  cases hletter

/-- What holds a letter in both cases or in none does not change with the case. -/
theorem toLower_congr {α : Type} {p : Char → α}
    (h : ∀ n < 128, isLetter (Char.ofNat n) = true → p (Char.ofNat n).toLower = p (Char.ofNat n))
    (c : Char) : p c.toLower = p c := by
  cases hc : isLetter c with
  | false => rw [toLower_eq_self hc]
  | true => exact forall_isLetter (p := fun c ↦ p c.toLower = p c) h hc

@[simp] theorem isLetter_toLower (c : Char) : isLetter c.toLower = isLetter c :=
  toLower_congr (by decide) c

@[simp] theorem isDigit_toLower (c : Char) : isDigit c.toLower = isDigit c :=
  toLower_congr (by decide +kernel) c

@[simp] theorem isBlank_toLower (c : Char) : isBlank c.toLower = isBlank c :=
  toLower_congr (by decide) c

@[simp] theorem digitValue_toLower (c : Char) : digitValue c.toLower = digitValue c :=
  toLower_congr (by decide +kernel) c

theorem toLower_eq_iff {c d : Char} (hd : isLetter d = false) : c.toLower = d ↔ c = d := by
  cases hc : isLetter c with
  | false => rw [toLower_eq_self hc]
  | true =>
    have hne {c : Char} (hc : isLetter c = true) : c ≠ d := by
      rintro rfl
      rw [hd] at hc
      cases hc
    have hlower : isLetter c.toLower = true := by rw [isLetter_toLower, hc]
    exact iff_of_false (hne hlower) (hne hc)

section Runs

variable {p : Char → Bool} (hp : ∀ c : Char, p c.toLower = p c) (cs : List Char)
include hp

theorem takeWhile_lower :
    (cs.map Char.toLower).takeWhile p = (cs.takeWhile p).map Char.toLower := by
  have hcomp : p ∘ Char.toLower = p := funext hp
  rw [List.takeWhile_map, hcomp]

theorem dropWhile_lower :
    (cs.map Char.toLower).dropWhile p = (cs.dropWhile p).map Char.toLower := by
  have hcomp : p ∘ Char.toLower = p := funext hp
  rw [List.dropWhile_map, hcomp]

end Runs

@[simp] theorem ofDigits_lower (cs : List Char) : ofDigits (cs.map Char.toLower) = ofDigits cs := by
  rw [ofDigits, List.foldl_map, ofDigits]
  simp only [digitValue_toLower]

theorem trim_lower (cs : List Char) : trim (cs.map Char.toLower) = (trim cs).map Char.toLower := by
  simp only [trim, trimEnd, trimStart, dropWhile_lower isBlank_toLower, ← List.map_reverse]

end Text

@[simp] theorem Column.digit_toLower (c : Char) : Column.digit c.toLower = Column.digit c :=
  toLower_congr (by decide) c

@[simp] theorem Column.number_lower (cs : List Char) :
    Column.number (cs.map Char.toLower) = Column.number cs := by
  rw [Column.number, List.foldl_map, Column.number]
  simp only [Column.digit_toLower]

/-! ## Numerals and references -/

namespace DecimalText

/-- The numeral in lower case. -/
def lower (t : DecimalText) : DecimalText where
  whole := t.whole.map Char.toLower
  point := t.point
  fraction := t.fraction.map Char.toLower
  mark := t.mark.map Char.toLower
  exponent := t.exponent.map Char.toLower

theorem text_lower (t : DecimalText) : t.lower.text = t.text.map Char.toLower := by
  obtain ⟨whole, point, fraction, mark, exponent⟩ := t
  cases point <;> simp [text, lower]

theorem hasDigits_lower (t : DecimalText) : t.lower.hasDigits = t.hasDigits := by
  simp [hasDigits, lower]

theorem value_lower (t : DecimalText) : t.lower.value = t.value := by
  have hminus (c : Char) : c.toLower = '-' ↔ c = '-' := toLower_eq_iff (by decide)
  simp [value, lower, hminus, ← List.map_append]

theorem scanExponent_lower (cs : List Char) : scanExponent (cs.map Char.toLower) =
    ((scanExponent cs).1.map Char.toLower, (scanExponent cs).2.map Char.toLower) := by
  have hmark (c : Char) : (c.toLower = 'e' ∨ c.toLower = 'E') ↔ (c = 'e' ∨ c = 'E') :=
    decide_eq_decide.mp (toLower_congr (p := fun c ↦ decide (c = 'e' ∨ c = 'E')) (by decide) c)
  have hsign (c : Char) : (c.toLower = '+' ∨ c.toLower = '-') ↔ (c = '+' ∨ c = '-') :=
    or_congr (toLower_eq_iff (by decide)) (toLower_eq_iff (by decide))
  cases cs with
  | nil => rfl
  | cons e rest =>
    by_cases he : e = 'e' ∨ e = 'E'
    · cases rest with
      | nil => simp [scanExponent, he, hmark]
      | cons s after =>
        -- either way it depends on the digits after the sign whether there is an exponent
        by_cases hs : s = '+' ∨ s = '-'
        · simp only [scanExponent, List.map_cons, if_pos he, if_pos hs, if_pos ((hmark e).mpr he),
            if_pos ((hsign s).mpr hs), takeWhile_lower isDigit_toLower]
          cases after.takeWhile isDigit <;> rfl
        · have hdigits : (s.toLower :: after.map Char.toLower).takeWhile isDigit
              = ((s :: after).takeWhile isDigit).map Char.toLower :=
            takeWhile_lower isDigit_toLower (s :: after)
          simp only [scanExponent, List.map_cons, if_pos he, if_neg hs, if_pos ((hmark e).mpr he),
            if_neg (mt (hsign s).mp hs), hdigits]
          cases (s :: after).takeWhile isDigit <;> rfl
    · simp [scanExponent, he, hmark]

theorem scan_lower (cs : List Char) : scan (cs.map Char.toLower) = (scan cs).lower := by
  unfold scan
  rw [takeWhile_lower isDigit_toLower, dropWhile_lower isDigit_toLower]
  cases cs.dropWhile isDigit with
  | nil => rfl
  | cons c rest =>
    by_cases hc : c = '.'
    · subst hc
      simp [takeWhile_lower isDigit_toLower, dropWhile_lower isDigit_toLower, scanExponent_lower,
        lower]
    · have hlower : c.toLower ≠ '.' := mt (toLower_eq_iff (by decide)).mp hc
      have hexponent := scanExponent_lower (c :: rest)
      rw [List.map_cons] at hexponent
      simp [hc, hlower, lower, hexponent]

theorem lexeme?_lower (cs : List Char) :
    lexeme? (cs.map Char.toLower) = (lexeme? cs).map (List.map Char.toLower) := by
  simp only [lexeme?, scan_lower, hasDigits_lower, text_lower]
  split <;> rfl

end DecimalText

namespace CellRef.Spelling

/-- The reference in lower case. -/
def lower (s : Spelling) : Spelling :=
  { s with letters := s.letters.map Char.toLower, digits := s.digits.map Char.toLower }

theorem text_lower (s : Spelling) : s.lower.text = s.text.map Char.toLower := by
  have hanchor (anchored : Bool) : (anchorText anchored).map Char.toLower =
      anchorText anchored := by
    cases anchored <;> rfl
  simp only [text, lower, List.map_append, hanchor]

theorem scanAnchor_lower (cs : List Char) :
    scanAnchor (cs.map Char.toLower) = ((scanAnchor cs).1, (scanAnchor cs).2.map Char.toLower) := by
  cases cs with
  | nil => rfl
  | cons c cs =>
    by_cases hc : c = '$'
    · subst hc
      rfl
    · have hlower : c.toLower ≠ '$' := mt (toLower_eq_iff (by decide)).mp hc
      simp [scanAnchor, hc, hlower]

theorem scan?_lower (cs : List Char) : scan? (cs.map Char.toLower) = (scan? cs).map lower := by
  simp only [scan?, scanAnchor_lower, takeWhile_lower isLetter_toLower,
    dropWhile_lower isLetter_toLower, takeWhile_lower isDigit_toLower, List.isEmpty_map]
  split <;> rfl

/-- **References with the same letters name the same place**, and their rows are equally long. -/
theorem WellSpelled.place_eq {s s' : Spelling} (h : s.WellSpelled) (h' : s'.WellSpelled)
    (htext : s.text.map Char.toLower = s'.text.map Char.toLower) :
    s.place = s'.place ∧ s.digits.length = s'.digits.length := by
  have hsame : some s.lower = some s'.lower := by
    calc some s.lower = scan? (s.text.map Char.toLower) := by rw [scan?_lower, h.scan?_text]; rfl
      _ = some s'.lower := by rw [htext, scan?_lower, h'.scan?_text]; rfl
  have hplace (s : Spelling) : s.lower.place = s.place := by simp [place, lower]
  have hlength (s : Spelling) : s.lower.digits.length = s.digits.length := List.length_map ..
  rw [← hplace s, ← hplace s', ← hlength s, ← hlength s', Option.some_inj.mp hsame]
  exact ⟨rfl, rfl⟩

end CellRef.Spelling

/-! ## Tokens -/

namespace Token

/-- The token in lower case. -/
def lower : Token → Token
  | number text => number (text.map Char.toLower)
  | ref text => ref (text.map Char.toLower)
  | name text => name (text.map Char.toLower)
  | op sign => op sign

theorem length_text_lower (t : Token) : t.lower.text.length = t.text.length := by
  cases t <;> simp [lower, text]

@[simp] theorem isNameStart_toLower (c : Char) : isNameStart c.toLower = isNameStart c :=
  toLower_congr (by decide) c

@[simp] theorem isNamePart_toLower (c : Char) : isNamePart c.toLower = isNamePart c :=
  toLower_congr (by decide) c

theorem name?_lower (cs : List Char) :
    name? (cs.map Char.toLower) = (name? cs).map (List.map Char.toLower) := by
  cases cs with
  | nil => rfl
  | cons c rest =>
    simp only [name?, List.map_cons, isNameStart_toLower, takeWhile_lower isNamePart_toLower]
    split <;> rfl

theorem sign?_lower (cs : List Char) : sign? (cs.map Char.toLower) = sign? cs := by
  cases cs with
  | nil => rfl
  | cons c rest =>
    have hsign : isSign c.toLower = isSign c := toLower_congr (by decide) c
    simp only [sign?, List.map_cons, hsign]
    split
    · rename_i h
      have hletter : isLetter c = false := by
        rcases eq_of_isSign h with rfl | rfl | rfl | rfl | rfl | rfl | rfl <;> decide
      rw [toLower_eq_self hletter]
    · rfl

theorem first?_lower (cs : List Char) : first? (cs.map Char.toLower) = (first? cs).map lower := by
  unfold first?
  rw [DecimalText.lexeme?_lower, CellRef.Spelling.scan?_lower, name?_lower, sign?_lower]
  cases DecimalText.lexeme? cs with
  | some text => rfl
  | none =>
    cases CellRef.Spelling.scan? cs with
    | some s => simp [lower, CellRef.Spelling.text_lower]
    | none =>
      cases name? cs with
      | some text => rfl
      | none => cases sign? cs <;> rfl

theorem isLetter_eq_false_of_first? {c : Char} {rest : List Char} (h : first? (c :: rest) = none) :
    isLetter c = false := by
  rw [Bool.eq_false_iff]
  intro hletter
  have hname : name? (c :: rest) ≠ none := by simp [name?, isNameStart, hletter]
  unfold first? at h
  split at h
  · cases h
  · split at h
    · cases h
    · split at h
      · cases h
      · exact hname ‹_›

/-- **The tokens of a text in lower case are its tokens in lower case.** -/
theorem scanFrom_lower (index : Nat) (cs : List Char) :
    scanFrom index (cs.map Char.toLower) = (scanFrom index cs).map (List.map lower) := by
  fun_induction scanFrom index cs with
  | case1 index cs hskip =>
    rw [scanFrom_eq, dropWhile_lower isBlank_toLower, hskip]
    rfl
  | case2 index cs c rest hskip index' hfirst =>
    -- the character to blame is no letter, so it is the same in lower case
    have hnone : first? (c.toLower :: rest.map Char.toLower) = none := by
      rw [← List.map_cons, first?_lower, hfirst]
      rfl
    rw [scanFrom_eq, dropWhile_lower isBlank_toLower, hskip, takeWhile_lower isBlank_toLower]
    simp only [List.map_cons, hnone, List.length_map]
    rw [toLower_eq_self (isLetter_eq_false_of_first? hfirst)]
    rfl
  | case3 index cs c rest hskip index' t hfirst =>
    rename_i ih
    have hsome : first? (c.toLower :: rest.map Char.toLower) = some t.lower := by
      rw [← List.map_cons, first?_lower, hfirst]
      rfl
    rw [scanFrom_eq, dropWhile_lower isBlank_toLower, hskip, takeWhile_lower isBlank_toLower]
    simp only [List.map_cons, hsome, List.length_map, length_text_lower]
    rw [← List.map_cons, ← List.map_drop, ih]
    cases scanFrom (index' + t.text.length) ((c :: rest).drop t.text.length) <;> rfl

/-! ### Tokens with the same letters -/

/-- The tokens are the same but for the case of their letters. -/
def SameLetters (ts us : List Token) : Prop := ts.map lower = us.map lower

section SameLetters

variable {t : Token} {ts us vs : List Token} {c : Char} {word : List Char}

theorem exists_of_lower {kind : List Char → Token}
    (hkind : kind = number ∨ kind = ref ∨ kind = name) (h : t.lower = (kind word).lower) :
    ∃ word', t = kind word' ∧ word'.map Char.toLower = word.map Char.toLower := by
  rcases hkind with rfl | rfl | rfl <;> cases t <;> simp_all [lower]

theorem SameLetters.exists_cons (h : SameLetters vs (t :: ts)) :
    ∃ t' ts', vs = t' :: ts' ∧ t'.lower = t.lower ∧ SameLetters ts' ts :=
  List.map_eq_cons_iff.mp h

theorem SameLetters.exists_op_cons (h : SameLetters vs (op c :: ts)) :
    ∃ ts', vs = op c :: ts' ∧ SameLetters ts' ts := by
  obtain ⟨t, ts', rfl, ht, hts⟩ := h.exists_cons
  cases t <;> cases ht
  exact ⟨ts', rfl, hts⟩

theorem SameLetters.exists_append_op (h : SameLetters vs (ts ++ op c :: us)) :
    ∃ ts' us', vs = ts' ++ op c :: us' ∧ SameLetters ts' ts ∧ SameLetters us' us := by
  rw [SameLetters, List.map_append] at h
  obtain ⟨ts', rest, rfl, hts, hrest⟩ := List.map_eq_append_iff.mp h
  obtain ⟨us', rfl, hus⟩ := SameLetters.exists_op_cons hrest
  exact ⟨ts', us', rfl, hts, hus⟩

theorem SameLetters.exists_singleton (h : SameLetters vs [t]) :
    ∃ t', vs = [t'] ∧ t'.lower = t.lower := by
  obtain ⟨t', ts', rfl, ht, hts⟩ := h.exists_cons
  obtain rfl := List.map_eq_nil_iff.mp hts
  exact ⟨t', rfl, ht⟩

theorem ShortRows.recased (h : ShortRows ts) (hts : AllWellFormed ts) (hcase : SameLetters vs ts) :
    ShortRows vs := by
  rintro t' ht' s' hs' rfl
  obtain ⟨t, ht, hlower⟩ : ∃ t ∈ ts, t.lower = (ref s'.text).lower := by
    rw [← List.mem_map, ← hcase]
    exact List.mem_map_of_mem ht'
  obtain ⟨word, rfl, hword⟩ := exists_of_lower (.inr (.inl rfl)) hlower
  cases hts _ ht with
  | @ref s hs =>
    have hrow : s.digits.length ≤ maxDigits := h _ ht s hs rfl
    exact (hs.place_eq hs' hword).2 ▸ hrow

end SameLetters

end Token

/-! ## Formulas in either case -/

namespace Formula

variable {base : Position} {phrase : Phrase} {depth : Nat} {ts ts' : List Token} {f : Formula}

/-- **A derivation does not look at the case of its tokens.** -/
theorem Spells.recased (h : Spells base phrase depth ts f) (hts : Token.AllWellFormed ts')
    (hcase : Token.SameLetters ts' ts) : Spells base phrase depth ts' f := by
  induction h generalizing ts' with
  | @number depth word finite =>
    obtain ⟨t, rfl, ht⟩ := hcase.exists_singleton
    obtain ⟨word', rfl, hword⟩ := Token.exists_of_lower (.inl rfl) ht
    have hvalue : (DecimalText.scan word).value = (DecimalText.scan word').value := by
      rw [← DecimalText.value_lower, ← DecimalText.scan_lower, ← hword, DecimalText.scan_lower,
        DecimalText.value_lower]
    rw [hvalue] at finite ⊢
    exact .number finite
  | @ref depth s wellSpelled one_le_row =>
    obtain ⟨t, rfl, ht⟩ := hcase.exists_singleton
    obtain ⟨word', rfl, hword⟩ := Token.exists_of_lower (.inr (.inl rfl)) ht
    cases hts _ List.mem_cons_self with
    | @ref s' wellSpelled' =>
      have hplace := (wellSpelled.place_eq wellSpelled' hword.symm).1
      have hrow : ofDigits s.digits = ofDigits s'.digits :=
        Int.ofNat.inj (congrArg CellRef.row hplace)
      rw [hplace]
      exact .ref wellSpelled' (hrow ▸ one_le_row)
  | sign _ ih =>
    obtain ⟨ts', rfl, hoperand⟩ := hcase.exists_op_cons
    exact .sign (ih hts.tail hoperand)
  | group _ ih =>
    obtain ⟨vs, rfl, hinner⟩ := hcase.exists_op_cons
    obtain ⟨ts', us', rfl, hsum, hclose⟩ := hinner.exists_append_op
    obtain rfl := List.map_eq_nil_iff.mp hclose
    exact .group (ih hts.tail.left hsum)
  | call lower known _ _ ihFirst ihSecond =>
    obtain ⟨t, vs, rfl, ht, hrest⟩ := hcase.exists_cons
    obtain ⟨word, rfl, hword⟩ := Token.exists_of_lower (.inr (.inr rfl)) ht
    obtain ⟨vs, rfl, hargs⟩ := hrest.exists_op_cons
    obtain ⟨ts', vs, rfl, hfirst, hafter⟩ := hargs.exists_append_op
    obtain ⟨us', vs, rfl, hsecond, hclose⟩ := hafter.exists_append_op
    obtain rfl := List.map_eq_nil_iff.mp hclose
    exact .call (hword ▸ lower) known (ihFirst hts.tail.tail.left hfirst)
      (ihSecond hts.tail.tail.right.tail.left hsecond)
  | product _ ih => exact .product (ih hts hcase)
  | times _ operator _ ihLeft ihRight =>
    obtain ⟨ts', us', rfl, hleft, hright⟩ := hcase.exists_append_op
    exact .times (ihLeft hts.left hleft) operator (ihRight hts.right.tail hright)
  | sum _ ih => exact .sum (ih hts hcase)
  | plus _ operator _ ihLeft ihRight =>
    obtain ⟨ts', us', rfl, hleft, hright⟩ := hcase.exists_append_op
    exact .plus (ihLeft hts.left hleft) operator (ihRight hts.right.tail hright)

/-- The texts are the same but for the case of their letters. -/
def SameLetters (text text' : String) : Prop :=
  text.toList.map Char.toLower = text'.toList.map Char.toLower

instance (text text' : String) : Decidable (SameLetters text text') :=
  inferInstanceAs (Decidable (_ = _))

variable {text text' : String}

theorem SameLetters.symm (h : SameLetters text text') : SameLetters text' text := Eq.symm h

theorem SameLetters.map_body (h : SameLetters text text') :
    (body text).map Char.toLower = (body text').map Char.toLower := by
  have htrim : (trim text.toList).map Char.toLower = (trim text'.toList).map Char.toLower := by
    rw [← trim_lower, h, trim_lower]
  have hhead {cs ds : List Char} (hcs : ('=' :: cs).map Char.toLower = ds.map Char.toLower) :
      ds.head? = some '=' := by
    obtain ⟨c, ds, rfl, hc, -⟩ := List.map_eq_cons_iff.mp hcs.symm
    have heq : c = '=' := (toLower_eq_iff (by decide)).mp hc
    rw [heq, List.head?_cons]
  rcases body_cases text with hmark | ⟨hbody, hnone⟩
  · rw [hmark] at htrim
    rcases body_cases text' with hmark' | ⟨-, hnone'⟩
    · rw [hmark', List.map_cons, List.map_cons] at htrim
      exact (List.cons.inj htrim).2
    · exact absurd (hhead htrim) hnone'
  · rcases body_cases text' with hmark' | ⟨hbody', -⟩
    · rw [hmark'] at htrim
      exact absurd (hhead htrim.symm) hnone
    · rwa [hbody, hbody'] at htrim

/-- **A formula is read in either letter case.** -/
theorem read_of_sameLetters (h : read text base = .ok f) (hcase : SameLetters text text') :
    read text' base = .ok f := by
  obtain ⟨ts, hscan, hts⟩ := Outcome.bind_eq_ok_iff.mp h
  obtain ⟨ts', hscan', hsame⟩ :
      ∃ ts', Token.scan (body text') = .ok ts' ∧ Token.SameLetters ts' ts := by
    refine Outcome.map_eq_ok_iff.mp ?_
    rw [Token.scan, ← Token.scanFrom_lower, ← hcase.map_body, Token.scanFrom_lower, ← Token.scan,
      hscan]
    rfl
  have hwell := Token.allWellFormed_of_scanFrom hscan
  have hread := legible_of_ofTokens hwell hts
  rw [read, hscan', Outcome.ok_bind]
  exact ofTokens_of_derives (hread.shortRows.recased hwell hsame)
    (hread.spells.recased (Token.allWellFormed_of_scanFrom hscan') hsame)

/-! ## The appearance of a formula -/

/-- **Layout and letter case do not matter.** A text that is read as a formula is read as the same
formula in any letter case, with blanks between any two of its tokens or at its ends, however else
its tokens are laid out, and with an equals sign in front if it has none. A text that is not read is
not read in any other letter case. -/
theorem read_appearance (text : String) (base : Position) :
    (∀ f, read text base = .ok f →
      (∀ text', SameLetters text text' → read text' base = .ok f) ∧
      (∃ marked ts, Token.scan (body text) = .ok ts ∧
        (marked = true ↔ (trim text.toList).head? = some '=') ∧
        Layout (pieces marked ts) text.toList ∧
        (∀ front ws back, front ++ back = text.toList → Gap (pieces marked ts) front back →
          Blanks ws → read (String.ofList (front ++ ws ++ back)) base = .ok f) ∧
        ∀ marked' text', Layout (pieces marked' ts) text'.toList → read text' base = .ok f) ∧
      ((trim text.toList).head? ≠ some '=' → ∀ ws rest, ws ++ rest = text.toList → Blanks ws →
        read (String.ofList (ws ++ '=' :: rest)) base = .ok f)) ∧
    ((∀ f, read text base ≠ .ok f) →
      ∀ text', SameLetters text text' → ∀ f, read text' base ≠ .ok f) := by
  refine ⟨fun f h ↦ ?_, fun hnot text' hcase f h ↦ hnot f (read_of_sameLetters h hcase.symm)⟩
  obtain ⟨ts, hscan, -⟩ := Outcome.bind_eq_ok_iff.mp h
  obtain ⟨marked, hmarked, hlayout⟩ := exists_layout_of_scan hscan
  refine ⟨fun text' ↦ read_of_sameLetters h, ⟨marked, ts, hscan, hmarked, hlayout, ?_, ?_⟩, ?_⟩
  · intro front ws back _ hgap hws
    have hfill : Layout (pieces marked ts) (String.ofList (front ++ ws ++ back)).toList := by
      rw [String.toList_ofList]
      exact hgap.fill hws
    exact read_of_layout h hscan hfill
  · exact fun marked' text' ↦ read_of_layout h hscan
  · intro hnone ws rest htext hws
    have hwell := Token.allWellFormed_of_scanFrom hscan
    have hrest : Layout (pieces false ts) rest := by
      cases marked with
      | true => exact absurd (hmarked.mp rfl) hnone
      | false => exact Layout.of_blanks_append (solid_pieces hwell) hws (htext ▸ hlayout)
    have hsign : Layout (pieces true ts) (String.ofList (ws ++ '=' :: rest)).toList := by
      rw [String.toList_ofList]
      exact .piece hws hrest
    exact read_of_layout h hscan hsign

/-- In the cell `c3`, a difference in which the mark of an exponent and the minus stand close
together, and the same text without the second operand. -/
theorem read_appearance_difference :
    let f : Formula := .app "-" [.num (Decimal.toFloat ⟨2, 1⟩),
      .app "min" [.ref ⟨-1, -1, false, false⟩, .ref ⟨0, 3, false, true⟩]]
    read "2e1-Min(B2,c$3)" ⟨3, 3⟩ = .ok f ∧ read "2E1-mIN(b2,C$3)" ⟨3, 3⟩ = .ok f ∧
      read "2e1 -Min(B2,c$3)" ⟨3, 3⟩ = .ok f ∧ read "=2e1-Min(B2,c$3)" ⟨3, 3⟩ = .ok f ∧
      ∀ f, read "2E-" ⟨3, 3⟩ ≠ .ok f := by
  intro f
  have hread : read "2e1-Min(B2,c$3)" ⟨3, 3⟩ = .ok f := by decide +kernel
  obtain ⟨hcase, ⟨marked, ts, hscan, hmarked, -, hgap, -⟩, hsign⟩ :=
    (read_appearance "2e1-Min(B2,c$3)" ⟨3, 3⟩).1 f hread
  refine ⟨hread, hcase _ (by decide), ?_, ?_, ?_⟩
  · -- the gap is behind the number
    let us : List Token := [.op '-', .name "Min".toList, .op '(', .ref "B2".toList, .op ',',
      .ref "c$3".toList, .op ')']
    have hall : Token.scan (body "2e1-Min(B2,c$3)") = .ok ([.number "2e1".toList] ++ us) := by
      decide +kernel
    have hfront : Token.scan "2e1".toList = .ok [.number "2e1".toList] := by decide +kernel
    have hback : Token.scan "-Min(B2,c$3)".toList = .ok us := by decide +kernel
    obtain rfl : marked = false := Bool.eq_false_iff.mpr (mt hmarked.mp (by decide))
    obtain rfl : ts = [.number "2e1".toList] ++ us := Except.ok.inj (hscan.symm.trans hall)
    exact hgap "2e1".toList [' '] "-Min(B2,c$3)".toList rfl
      ⟨["2e1".toList], us.map Token.text, rfl, Token.layout_of_scanFrom hfront,
        Token.layout_of_scanFrom hback⟩
      (List.forall_mem_singleton.mpr (by decide))
  · exact hsign (by decide) [] _ rfl nofun
  · refine (read_appearance "2e-" ⟨3, 3⟩).2 (fun g hg ↦ ?_) "2E-" (by decide)
    have hnot : (read "2e-" ⟨3, 3⟩).isOk = false := by decide +kernel
    rw [hg] at hnot
    cases hnot

end Formula

end Spreadsheet
