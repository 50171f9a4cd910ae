import Mathlib.Data.List.DropRight
import Spreadsheet.Proofs.Outcome
import Spreadsheet.Sheet

/-!
# Cell ids

A position has one canonical id, its column in lower-case letters followed by its row in ASCII
digits, and reading that id gives the position back. Tables are keyed by canonical ids, so this is
what makes the key of a record and the position of its cell interchangeable.

The way there is short: the letters of a column spell it, the digits of a number spell it,
and a text of letters followed by digits has only one split into the two, because no digit
of any script is a letter. Trimming takes nothing away from such a text, since neither
letters nor digits are blanks.

The last section is about `Settings.locate`, which accepts any spelling of a position inside the
bounds. What it finds always has a canonical id, and finds itself again under that id.
-/

namespace Spreadsheet

open Text Numeral

/-! ## Character classes -/

namespace Text

/-- Digits other than the ASCII ones lie far beyond the letters. -/
theorem toNat_of_isDigit {c : Char} (h : isDigit c = true) :
    (0x30 ≤ c.toNat ∧ c.toNat ≤ 0x39) ∨ 0x660 ≤ c.toNat := by
  have hzeros : ∀ nought ∈ digitZeros, nought = 0x30 ∨ 0x660 ≤ nought := by decide
  obtain ⟨n, hn⟩ := Option.isSome_iff_exists.mp h
  obtain ⟨nought, hfind, -⟩ := Option.map_eq_some_iff.mp hn
  have hrange := List.find?_some hfind
  simp only [Bool.and_eq_true, decide_eq_true_eq] at hrange
  rcases hzeros nought (List.mem_of_find?_eq_some hfind) with rfl | hbig
  · exact Or.inl hrange
  · exact Or.inr (hbig.trans hrange.1)

theorem toNat_of_isLetter {c : Char} (h : isLetter c = true) :
    (0x61 ≤ c.toNat ∧ c.toNat ≤ 0x7a) ∨ (0x41 ≤ c.toNat ∧ c.toNat ≤ 0x5a) := by
  simp only [isLetter, Bool.or_eq_true, Bool.and_eq_true, decide_eq_true_eq] at h
  exact h

/-- What holds of the ASCII characters that are letters holds of every letter. -/
theorem forall_isLetter {p : Char → Prop}
    (h : ∀ n < 128, isLetter (Char.ofNat n) = true → p (Char.ofNat n)) {c : Char}
    (hc : isLetter c = true) : p c := by
  have hlt : c.toNat < 128 := by
    have := toNat_of_isLetter hc
    omega
  have := h c.toNat hlt
  rw [Char.ofNat_toNat] at this
  exact this hc

theorem isLetter_eq_false_of_isDigit {c : Char} (h : isDigit c = true) : isLetter c = false := by
  rw [Bool.eq_false_iff]
  intro hletter
  have hd := toNat_of_isDigit h
  have hl := toNat_of_isLetter hletter
  omega

theorem isBlank_eq_false_of_isLetter {c : Char} (h : isLetter c = true) : isBlank c = false := by
  have hl := toNat_of_isLetter h
  simp only [isBlank, blankRanges, inRanges, Bool.and_eq_false_iff, Bool.or_eq_false_iff,
    decide_eq_false_iff_not]
  omega

theorem isBlank_eq_false_of_isDigit {c : Char} (h : isDigit c = true) : isBlank c = false := by
  -- there are ten digits from each nought on, and none of them is a blank
  have hzeros : ∀ nought ∈ digitZeros, ∀ k < 10, inRanges (nought + k) blankRanges = false := by
    decide
  obtain ⟨n, hn⟩ := Option.isSome_iff_exists.mp h
  obtain ⟨nought, hfind, rfl⟩ := Option.map_eq_some_iff.mp hn
  have hrange := List.find?_some hfind
  simp only [Bool.and_eq_true, decide_eq_true_eq] at hrange
  have := hzeros nought (List.mem_of_find?_eq_some hfind) (c.toNat - nought) (by omega)
  rwa [show nought + (c.toNat - nought) = c.toNat by omega] at this

/-! ## Trimming -/

theorem trim_eq_self {cs : List Char} (hhead : ∀ c ∈ cs.head?, isBlank c = false)
    (hlast : ∀ c ∈ cs.getLast?, isBlank c = false) : trim cs = cs := by
  have hstart : trimStart cs = cs := by
    cases cs with
    | nil => rfl
    | cons c rest => exact List.dropWhile_cons_of_neg (by simp [hhead c rfl])
  rw [trim, hstart]
  refine List.rdropWhile_eq_self_iff.mpr fun hne ↦ ?_
  simp [hlast _ (List.getLast?_eq_some_getLast hne)]

theorem head?_trim_not_blank (cs : List Char) : ∀ c ∈ (trim cs).head?, isBlank c = false := by
  intro c hc
  have hprefix : trim cs <+: trimStart cs := List.rdropWhile_prefix isBlank _
  have hhead : (trimStart cs).head? = some c := by
    obtain ⟨rest, hrest⟩ := hprefix
    rw [← hrest, List.head?_append, Option.mem_def.mp hc]
    rfl
  have hnot := List.head?_dropWhile_not isBlank cs
  rw [← trimStart, hhead] at hnot
  exact hnot

theorem getLast?_trim_not_blank (cs : List Char) :
    ∀ c ∈ (trim cs).getLast?, isBlank c = false := by
  intro c hc
  have hne : trim cs ≠ [] := by
    intro hnil
    rw [hnil] at hc
    cases hc
  have hnot := List.rdropWhile_last_not isBlank (trimStart cs) hne
  rw [Option.mem_def, List.getLast?_eq_some_getLast hne, Option.some_inj] at hc
  subst hc
  exact Bool.eq_false_iff.mpr hnot

@[simp] theorem trim_trim (cs : List Char) : trim (trim cs) = trim cs :=
  trim_eq_self (head?_trim_not_blank cs) (getLast?_trim_not_blank cs)

theorem isInfix_trim (cs : List Char) : trim cs <:+: cs :=
  (List.rdropWhile_prefix isBlank _).isInfix.trans (List.dropWhile_suffix isBlank).isInfix

@[simp] theorem strip_strip (s : String) : strip (strip s) = strip s := by
  rw [strip, toList_strip, trim_trim, ← strip]

/-! ## Runs -/

theorem run_append {p : Char → Bool} {run rest : List Char} (hrun : ∀ c ∈ run, p c = true)
    (hrest : ∀ c ∈ rest.head?, p c = false) :
    (run ++ rest).takeWhile p = run ∧ (run ++ rest).dropWhile p = rest := by
  rw [List.takeWhile_append_of_pos hrun, List.dropWhile_append_of_pos hrun]
  cases rest with
  | nil => simp
  | cons c rest => simp [hrest c rfl]

end Text

/-! ## Columns -/

namespace Column

theorem isLetter_letter {place : Nat} (h : place < 26) : isLetter (letter place) = true := by
  revert h
  decide +revert

theorem digit_letter {place : Nat} (h : place < 26) : digit (letter place) = place + 1 := by
  revert place
  decide

theorem letters_of_pos {col : Nat} (h : 0 < col) :
    letters col = letters ((col - 1) / 26) ++ [letter ((col - 1) % 26)] := by
  rw [letters, reversedLetters, dif_neg (Nat.ne_of_gt h), List.reverse_cons, ← letters]

@[simp] theorem letters_zero : letters 0 = [] := by
  rw [letters, reversedLetters, dif_pos rfl, List.reverse_nil]

theorem number_append_singleton (cs : List Char) (c : Char) :
    number (cs ++ [c]) = 26 * number cs + digit c := by
  rw [number, List.foldl_append, List.foldl_cons, List.foldl_nil, ← number]

theorem number_pos {cs : List Char} (h : cs ≠ []) : 0 < number cs := by
  have hdigit : 0 < digit (cs.getLast h) := by
    unfold digit
    split <;> omega
  rw [← List.dropLast_append_getLast h, number_append_singleton]
  omega

/-- **The letters of a column spell it.** -/
theorem number_letters (col : Nat) : number (letters col) = col := by
  induction col using Nat.strongRecOn with
  | ind col ih =>
    rcases Nat.eq_zero_or_pos col with rfl | hpos
    · rw [letters_zero]
      rfl
    · have hlt : (col - 1) / 26 < col := by omega
      have hmod : (col - 1) % 26 < 26 := Nat.mod_lt _ (by decide)
      rw [letters_of_pos hpos, number_append_singleton, ih _ hlt, digit_letter hmod]
      omega

theorem isLetter_of_mem_letters {col : Nat} {c : Char} (h : c ∈ letters col) :
    isLetter c = true := by
  induction col using Nat.strongRecOn with
  | ind col ih =>
    rcases Nat.eq_zero_or_pos col with rfl | hpos
    · rw [letters_zero] at h
      cases h
    · rw [letters_of_pos hpos, List.mem_append, List.mem_singleton] at h
      rcases h with h | rfl
      · exact ih _ (by omega) h
      · exact isLetter_letter (Nat.mod_lt _ (by decide))

theorem letters_ne_nil {col : Nat} (h : 0 < col) : letters col ≠ [] := by
  rw [letters_of_pos h]
  exact List.append_ne_nil_of_right_ne_nil _ (List.cons_ne_nil _ _)

end Column

/-! ## Rows -/

namespace Numeral

theorem digitValue?_of_isDigit {c : Char} (h : c.isDigit = true) :
    digitValue? c = some (c.toNat - '0'.toNat) := by
  have hrange : 0x30 ≤ c.toNat ∧ c.toNat ≤ 0x39 := Char.isDigit_iff_toNat.mp h
  have hzeros : digitZeros = 0x30 :: digitZeros.tail := rfl
  rw [digitValue?, hzeros, List.find?_cons_of_pos (by simpa using hrange)]
  rfl

theorem char_isDigit_of_mem_digits {n : Nat} {c : Char} (h : c ∈ digits n) : c.isDigit = true :=
  Nat.isDigit_of_mem_toDigits (by decide) (by decide) h

theorem isDigit_of_mem_digits {n : Nat} {c : Char} (h : c ∈ digits n) : isDigit c = true := by
  rw [isDigit, digitValue?_of_isDigit (char_isDigit_of_mem_digits h)]
  rfl

private theorem foldl_digitValue {cs : List Char} (h : ∀ c ∈ cs, c.isDigit = true) (n : Nat) :
    cs.foldl (fun n c ↦ 10 * n + digitValue c) n = Nat.ofDigitChars 10 cs n := by
  induction cs generalizing n with
  | nil => rfl
  | cons c rest ih =>
    rw [List.foldl_cons, Nat.ofDigitChars_cons, digitValue,
      digitValue?_of_isDigit (h c List.mem_cons_self),
      ih fun d hd ↦ h d (List.mem_cons_of_mem c hd)]
    rfl

/-- **The digits of a number spell it.** -/
theorem ofDigits_digits (n : Nat) : ofDigits (digits n) = n := by
  rw [ofDigits, foldl_digitValue fun c hc ↦ char_isDigit_of_mem_digits hc, digits,
    Nat.ofDigitChars_ten_toDigits]

theorem ofDigits_append_singleton (cs : List Char) (c : Char) :
    ofDigits (cs ++ [c]) = 10 * ofDigits cs + digitValue c := by
  rw [ofDigits, List.foldl_append, List.foldl_cons, List.foldl_nil, ← ofDigits]

theorem ofDigits_lt (cs : List Char) : ofDigits cs < 10 ^ cs.length := by
  induction cs using List.reverseRecOn with
  | nil => decide
  | append_singleton cs c ih =>
    have hdigit := digitValue_lt c
    rw [ofDigits_append_singleton, List.length_append, List.length_singleton, Nat.pow_succ]
    omega

theorem isWritable_iff {n : Int} : isWritable n = true ↔ n.natAbs < 10 ^ maxDigits := by
  rw [isWritable, decide_eq_true_iff]
  exact Nat.length_toDigits_le_iff (by decide) (by decide)

theorem isWritable_of_read? {ds : List Char} {n : Nat} (h : read? ds = some n) :
    isWritable n = true := by
  unfold read? at h
  split at h
  · rename_i hle
    rw [Option.some_inj] at h
    -- noughts in front are not written again, so the bound on the length becomes one on the number
    have hlt : n < 10 ^ maxDigits :=
      h ▸ (ofDigits_lt ds).trans_le (Nat.pow_le_pow_right (by decide) hle)
    exact isWritable_iff.mpr hlt
  · cases h

theorem read?_digits {n : Nat} (h : isWritable n = true) : read? (digits n) = some n := by
  rw [isWritable, decide_eq_true_iff, Int.natAbs_natCast] at h
  rw [read?, if_pos h, ofDigits_digits]

/-- Somewhere in a text there are more digits in a row than a numeral may have. -/
def HasLongRun (cs : List Char) : Prop :=
  ∃ ds, ds <:+: cs ∧ (∀ c ∈ ds, isDigit c = true) ∧ maxDigits < ds.length

theorem HasLongRun.mono {cs cs' : List Char} (h : HasLongRun cs) (hcs : cs <:+: cs') :
    HasLongRun cs' := by
  obtain ⟨ds, hds, hdigits, hlen⟩ := h
  exact ⟨ds, hds.trans hcs, hdigits, hlen⟩

end Numeral

/-! ## Spelled references -/

namespace CellRef

namespace Spelling

/-- Letters and digits stand where a reference has them. -/
structure WellSpelled (s : Spelling) : Prop where
  letters_ne_nil : s.letters ≠ []
  isLetter : ∀ c ∈ s.letters, isLetter c = true
  digits_ne_nil : s.digits ≠ []
  isDigit : ∀ c ∈ s.digits, isDigit c = true

theorem wellSpelled_of_scan? {cs : List Char} {s : Spelling} (h : scan? cs = some s) :
    s.WellSpelled := by
  simp only [scan?] at h
  split at h
  · cases h
  · rename_i hne
    cases h
    rw [Bool.or_eq_true, not_or, List.isEmpty_iff, List.isEmpty_iff] at hne
    exact ⟨hne.1, fun c hc ↦ List.mem_takeWhile_imp hc, hne.2, fun c hc ↦ List.mem_takeWhile_imp hc⟩

theorem scanAnchor_append {cs : List Char} (anchored : Bool) (h : cs.head? ≠ some '$') :
    scanAnchor (anchorText anchored ++ cs) = (anchored, cs) := by
  cases anchored with
  | true => rfl
  | false =>
    match cs with
    | [] => rfl
    | c :: rest =>
      have hc : c ≠ '$' := fun heq ↦ h (by rw [heq]; rfl)
      simp only [anchorText, Bool.false_eq_true, if_false, List.nil_append]
      unfold scanAnchor
      split
      · rename_i heq
        cases heq
        exact absurd rfl hc
      · rfl

private theorem head?_ne_dollar {p : Char → Bool} (hp : p '$' = false) {cs rest : List Char}
    (hne : cs ≠ []) (h : ∀ c ∈ cs, p c = true) : (cs ++ rest).head? ≠ some '$' := by
  cases cs with
  | nil => exact absurd rfl hne
  | cons c cs =>
    rw [List.cons_append, List.head?_cons, ne_eq, Option.some_inj]
    rintro rfl
    rw [h _ List.mem_cons_self] at hp
    cases hp

namespace WellSpelled

variable {s : Spelling}

/-- **A well-spelled reference has only one reading**, and is found whole where its digits end. -/
theorem scan?_append (h : s.WellSpelled) {rest : List Char}
    (hrest : ∀ c ∈ rest.head?, Text.isDigit c = false) : scan? (s.text ++ rest) = some s := by
  obtain ⟨colAnchored, letters, rowAnchored, digits⟩ := s
  obtain ⟨hlne, hl, hdne, hd⟩ := h
  simp only at hlne hl hdne hd
  have hdigits := run_append hd hrest
  -- the letters end where the digits or their anchor begin, as neither can go on with them
  have htail : ∀ c ∈ (anchorText rowAnchored ++ (digits ++ rest)).head?,
      Text.isLetter c = false := by
    cases rowAnchored with
    | true => exact fun c hc ↦ (Option.some_inj.mp hc) ▸ rfl
    | false =>
      obtain ⟨d, ds, rfl⟩ := List.exists_cons_of_ne_nil hdne
      intro c hc
      cases hc
      exact isLetter_eq_false_of_isDigit (hd d List.mem_cons_self)
  have hletters := run_append hl htail
  simp only [scan?, text, List.append_assoc]
  rw [scanAnchor_append colAnchored (head?_ne_dollar (by decide) hlne hl)]
  simp only [hletters.1, hletters.2]
  rw [scanAnchor_append rowAnchored (head?_ne_dollar (by decide) hdne hd)]
  simp [hdigits.1, hlne, hdne]

theorem scan?_text (h : s.WellSpelled) : scan? s.text = some s := by
  have hnil : scan? (s.text ++ []) = some s := h.scan?_append nofun
  rwa [List.append_nil] at hnil

theorem trim_text (h : s.WellSpelled) : trim s.text = s.text := by
  obtain ⟨hlne, hl, hdne, hd⟩ := h
  refine trim_eq_self (fun c hc ↦ ?_) fun c hc ↦ ?_
  · obtain ⟨colAnchored, letters, rowAnchored, digits⟩ := s
    cases colAnchored with
    | true =>
      cases hc
      decide
    | false =>
      refine isBlank_eq_false_of_isLetter (hl c ?_)
      cases letters with
      | nil => exact absurd rfl hlne
      | cons d rest =>
        cases hc
        exact List.mem_cons_self
  · rw [text, List.getLast?_append_of_ne_nil _ hdne] at hc
    exact isBlank_eq_false_of_isDigit (hd c (List.mem_of_mem_getLast? hc))

end WellSpelled

end Spelling

theorem read_of_trim_eq {text : String} {s : Spelling} (hs : s.WellSpelled)
    (h : trim text.toList = s.text) :
    read text = match read? s.digits with
      | none => .error .longNumeral
      | some row =>
        if row = 0 then .error (.malformed (.reference text))
        else .ok ⟨Column.number s.letters, row, s.colAnchored, s.rowAnchored⟩ := by
  rw [read, h, hs.scan?_text]
  exact if_pos rfl

/-- **The shape of what was read**: a well-spelled text with a row from one on. -/
theorem exists_spelling_of_read {text : String} {r : CellRef} (h : read text = .ok r) :
    ∃ (s : Spelling) (row : Nat), s.WellSpelled ∧ s.text = trim text.toList ∧
      read? s.digits = some row ∧ 0 < row ∧
      r = ⟨Column.number s.letters, row, s.colAnchored, s.rowAnchored⟩ := by
  simp only [read] at h
  split at h
  · cases h
  · rename_i s hscan
    split at h
    · rename_i htext
      split at h
      · cases h
      · rename_i row hrow
        split at h
        · cases h
        · rename_i hne
          cases h
          exact ⟨s, row, Spelling.wellSpelled_of_scan? hscan, htext, hrow,
            Nat.pos_of_ne_zero hne, rfl⟩
    · cases h

/-- The text is a reference, and its row has more digits than a numeral can have. -/
def HasLongRow (text : String) : Prop :=
  ∃ s : Spelling, s.WellSpelled ∧ s.text = trim text.toList ∧ maxDigits < s.digits.length

theorem refusal_of_read {text : String} {fault : Fault} (h : read text = .error fault) :
    (∃ cause, fault = .malformed cause) ∨ fault = .longNumeral ∧ HasLongRow text := by
  simp only [read] at h
  split at h
  · cases h
    exact Or.inl ⟨_, rfl⟩
  · rename_i s hscan
    split at h
    · rename_i htext
      split at h
      · -- the row is not read for its length alone
        rename_i hrow
        cases h
        exact Or.inr ⟨rfl, s, Spelling.wellSpelled_of_scan? hscan, htext,
          by simpa [read?] using hrow⟩
      · split at h
        · cases h
          exact Or.inl ⟨_, rfl⟩
        · cases h
    · cases h
      exact Or.inl ⟨_, rfl⟩

theorem hasLongRun_of_hasLongRow {text : String} (h : HasLongRow text) :
    HasLongRun text.toList := by
  obtain ⟨s, hs, htext, hlong⟩ := h
  have hinfix : s.digits <:+: text.toList :=
    (List.suffix_append _ _).isInfix.trans (htext ▸ isInfix_trim text.toList)
  exact ⟨s.digits, hinfix, hs.isDigit, hlong⟩

theorem fault_of_read {text : String} {fault : Fault} (h : read text = .error fault) :
    (∃ cause, fault = .malformed cause) ∨ HasLongRun text.toList :=
  (refusal_of_read h).imp id fun hlong ↦ hasLongRun_of_hasLongRow hlong.2

theorem one_le_col_of_read {text : String} {r : CellRef} (h : read text = .ok r) : 1 ≤ r.col := by
  obtain ⟨s, row, hs, -, -, -, rfl⟩ := exists_spelling_of_read h
  have := Column.number_pos hs.letters_ne_nil
  simp only
  omega

theorem one_le_row_of_read {text : String} {r : CellRef} (h : read text = .ok r) : 1 ≤ r.row := by
  obtain ⟨s, row, -, -, -, hrow, rfl⟩ := exists_spelling_of_read h
  simp only
  omega

theorem isWritable_row_of_read {text : String} {r : CellRef} (h : read text = .ok r) :
    isWritable r.row = true := by
  obtain ⟨s, row, -, -, hread, -, rfl⟩ := exists_spelling_of_read h
  exact isWritable_of_read? hread

end CellRef

/-! ## Ids of positions -/

namespace Position

/-- A position with a canonical id: on the sheet, and with a row that can be written. -/
structure Named (p : Position) : Prop where
  one_le_col : 1 ≤ p.col
  one_le_row : 1 ≤ p.row
  isWritable : isWritable p.row = true

instance (p : Position) : Decidable p.Named :=
  decidable_of_iff (1 ≤ p.col ∧ 1 ≤ p.row ∧ Numeral.isWritable p.row = true)
    ⟨fun ⟨hcol, hrow, hwritable⟩ ↦ ⟨hcol, hrow, hwritable⟩,
      fun h ↦ ⟨h.one_le_col, h.one_le_row, h.isWritable⟩⟩

/-- The parts of the canonical id of a position. -/
def spelling (p : Position) : CellRef.Spelling :=
  ⟨false, Column.letters p.col.toNat, false, digits p.row.toNat⟩

theorem Named.wellSpelled {p : Position} (h : p.Named) : p.spelling.WellSpelled where
  letters_ne_nil := Column.letters_ne_nil (by have := h.one_le_col; omega)
  isLetter _ := Column.isLetter_of_mem_letters
  digits_ne_nil := digits_ne_nil _
  isDigit _ := isDigit_of_mem_digits

theorem check_eq_ok_iff {p : Position} : p.check = .ok () ↔ 1 ≤ p.col ∧ 1 ≤ p.row := by
  unfold check
  split
  · rename_i hon
    simpa [onSheet] using hon
  · rename_i hoff
    have hoff' : ¬ (1 ≤ p.col ∧ 1 ≤ p.row) := by simpa [onSheet] using hoff
    split
    · exact iff_of_false nofun hoff'
    · exact iff_of_false nofun hoff'

/-- **Which positions have an id, and which id they have.** -/
theorem id_eq_ok_iff {p : Position} {id : String} :
    p.id = .ok id ↔ p.Named ∧ id = String.ofList p.spelling.text := by
  -- from one on a row is written without a sign
  have htext : 1 ≤ p.row → String.ofList (Column.letters p.col.toNat) ++ Numeral.write p.row
      = String.ofList p.spelling.text := by
    intro hrow
    have habs : p.row.natAbs = p.row.toNat := by omega
    simp [Numeral.write, spelling, CellRef.Spelling.text, CellRef.anchorText, habs,
      show ¬ p.row < 0 by omega]
  rw [Position.id, Outcome.bind_eq_ok_iff]
  constructor
  · rintro ⟨_, hcheck, hrow⟩
    obtain ⟨hcol, hrow₁⟩ := check_eq_ok_iff.mp hcheck
    by_cases hw : Numeral.isWritable p.row = true
    · rw [write?, if_pos hw] at hrow
      cases hrow
      exact ⟨⟨hcol, hrow₁, hw⟩, htext hrow₁⟩
    · rw [write?, if_neg hw] at hrow
      cases hrow
  · rintro ⟨h, rfl⟩
    refine ⟨(), check_eq_ok_iff.mpr ⟨h.one_le_col, h.one_le_row⟩, ?_⟩
    rw [write?, if_pos h.isWritable]
    exact congrArg _ (htext h.one_le_row)

theorem Named.exists_id {p : Position} (h : p.Named) : ∃ id, p.id = .ok id :=
  ⟨_, id_eq_ok_iff.mpr ⟨h, rfl⟩⟩

theorem named_of_read {text : String} {r : CellRef} (h : CellRef.read text = .ok r) :
    r.position.Named :=
  ⟨CellRef.one_le_col_of_read h, CellRef.one_le_row_of_read h, CellRef.isWritable_row_of_read h⟩

/-- **The canonical id of a position names it**, without anchors. -/
theorem cellRef_read_id {p : Position} {id : String} (h : p.id = .ok id) :
    CellRef.read id = .ok ⟨p.col, p.row, false, false⟩ := by
  obtain ⟨hnamed, rfl⟩ := id_eq_ok_iff.mp h
  have hs := hnamed.wellSpelled
  have hrow : read? p.spelling.digits = some p.row.toNat := by
    refine read?_digits ?_
    rw [Int.toNat_of_nonneg (by have := hnamed.one_le_row; omega)]
    exact hnamed.isWritable
  rw [CellRef.read_of_trim_eq hs (by rw [String.toList_ofList, hs.trim_text]), hrow]
  have hcol := hnamed.one_le_col
  have hrow₁ := hnamed.one_le_row
  simp only [show p.row.toNat ≠ 0 by omega, if_false, spelling, Column.number_letters]
  congr 2 <;> omega

theorem read_id {p : Position} {id : String} (h : p.id = .ok id) : Position.read id = .ok p := by
  rw [Position.read, cellRef_read_id h]
  rfl

theorem id_injective {p q : Position} {id : String} (hp : p.id = .ok id) (hq : q.id = .ok id) :
    p = q := by
  have := (read_id hp).symm.trans (read_id hq)
  cases this
  rfl

/-! ### Positions without ids -/

/-- The numbers can be written that the id of a position shows, or the refusal of a position off the
sheet. An id has its column in letters, as many as it takes. -/
def Writable (p : Position) : Prop :=
  isWritable p.row = true ∧ (p.onSheet = true ∨ isWritable p.col = true)

instance (p : Position) : Decidable p.Writable := inferInstanceAs (Decidable (_ ∧ _))

theorem onSheet_iff {p : Position} : p.onSheet = true ↔ 1 ≤ p.col ∧ 1 ≤ p.row := by
  simp [onSheet]

theorem not_onSheet_iff {p : Position} : ¬ p.onSheet = true ↔ p.col < 1 ∨ p.row < 1 := by
  rw [onSheet_iff]
  omega

/-- **What comes of a position**: its id, the refusal of a place off the sheet, or neither of them
for want of a number. -/
theorem id_eq (p : Position) : p.id =
    if p.Writable then
      if p.onSheet then .ok (String.ofList p.spelling.text)
      else .error (.malformed (.offSheet p.col p.row))
    else .error .longNumeral := by
  by_cases hon : p.onSheet = true
  · rw [if_pos hon]
    by_cases hrow : isWritable p.row = true
    · obtain ⟨hcol, hone⟩ := onSheet_iff.mp hon
      rw [if_pos ⟨hrow, Or.inl hon⟩]
      exact id_eq_ok_iff.mpr ⟨⟨hcol, hone, hrow⟩, rfl⟩
    · rw [if_neg fun h ↦ hrow h.1, Position.id, check, if_pos hon, write?, if_neg hrow]
      rfl
  · rw [if_neg hon, Position.id, check, if_neg hon]
    by_cases hboth : (isWritable p.col && isWritable p.row) = true
    · obtain ⟨hcol, hrow⟩ := Bool.and_eq_true_iff.mp hboth
      rw [if_pos hboth, if_pos ⟨hrow, Or.inr hcol⟩]
      rfl
    · have hnot : ¬ p.Writable := fun ⟨hrow, hcol⟩ ↦
        hboth (Bool.and_eq_true_iff.mpr ⟨hcol.resolve_left hon, hrow⟩)
      rw [if_neg hboth, if_neg hnot]
      rfl

theorem id_of_not_writable {p : Position} (h : ¬ p.Writable) : p.id = .error .longNumeral :=
  p.id_eq.trans (if_neg h)

theorem Writable.fault_of_id {p : Position} {fault : Fault} (h : p.Writable)
    (hid : p.id = .error fault) :
    ¬ p.onSheet = true ∧ fault = .malformed (.offSheet p.col p.row) := by
  rw [id_eq, if_pos h] at hid
  split at hid
  · cases hid
  · rename_i hoff
    cases hid
    exact ⟨hoff, rfl⟩

theorem fault_of_id {p : Position} {fault : Fault} (hid : p.id = .error fault) :
    fault = .longNumeral ∨ fault = .malformed (.offSheet p.col p.row) := by
  by_cases h : p.Writable
  · exact Or.inr (h.fault_of_id hid).2
  · rw [id_of_not_writable h] at hid
    cases hid
    exact Or.inl rfl

end Position

/-! ## Cells inside bounds -/

namespace Settings

variable {s : Settings}

/-- What it means to name a cell: a reference without anchors to a position inside the bounds. -/
def Names (s : Settings) (text : String) (p : Position) : Prop :=
  ∃ r, CellRef.read text = .ok r ∧ r.colAnchored = false ∧ r.rowAnchored = false ∧
    s.inBounds r.position = true ∧ r.position = p

theorem locate_eq_ok_iff {text : String} {p : Position} :
    s.locate text = .ok p ↔ s.Names text p := by
  rw [locate, Outcome.bind_eq_ok_iff]
  refine exists_congr fun r ↦ and_congr_right fun _ ↦ ?_
  cases hc : r.colAnchored <;> cases hr : r.rowAnchored <;> simp
  · cases hb : s.inBounds r.position <;> simp

theorem Names.named {text : String} {p : Position} (h : s.Names text p) : p.Named := by
  obtain ⟨r, hread, -, -, -, rfl⟩ := h
  exact Position.named_of_read hread

theorem Names.inBounds {text : String} {p : Position} (h : s.Names text p) :
    s.inBounds p = true := by
  obtain ⟨r, -, -, -, hbounds, rfl⟩ := h
  exact hbounds

theorem Names.unique {text : String} {p q : Position} (hp : s.Names text p)
    (hq : s.Names text q) : p = q := by
  obtain ⟨r, hr, -, -, -, rfl⟩ := hp
  obtain ⟨r', hr', -, -, -, rfl⟩ := hq
  rw [hr] at hr'
  cases hr'
  rfl

theorem names_id_iff {p : Position} {id : String} (h : p.id = .ok id) :
    s.Names id p ↔ s.inBounds p = true := by
  refine ⟨Names.inBounds, fun hbounds ↦ ?_⟩
  exact ⟨_, Position.cellRef_read_id h, rfl, rfl, hbounds, rfl⟩

theorem Names.eq_of_id {p q : Position} {id : String} (hp : s.Names id p) (hq : q.id = .ok id) :
    p = q := by
  obtain ⟨r, hr, -, -, -, rfl⟩ := hp
  rw [Position.cellRef_read_id hq] at hr
  cases hr
  rfl

theorem fault_of_locate_id {p : Position} {id : String} (hid : p.id = .ok id) {fault : Fault}
    (h : s.locate id = .error fault) : fault = .malformed (.outOfBounds id) := by
  rw [locate, Position.cellRef_read_id hid] at h
  simp only [Outcome.ok_bind, Bool.or_false, Bool.false_eq_true, if_false] at h
  split at h
  · cases h
  · cases h
    rfl

theorem fault_of_locate {text : String} {fault : Fault} (h : s.locate text = .error fault) :
    (∃ cause, fault = .malformed cause) ∨ HasLongRun text.toList := by
  rw [locate, Outcome.bind_eq_error_iff] at h
  rcases h with h | ⟨r, -, h⟩
  · exact CellRef.fault_of_read h
  · left
    cases hanchor : r.colAnchored || r.rowAnchored with
    | true =>
      simp only [hanchor, if_true] at h
      cases h
      exact ⟨_, rfl⟩
    | false =>
      simp only [hanchor, Bool.false_eq_true, if_false] at h
      cases hbounds : s.inBounds r.position with
      | true =>
        simp only [hbounds, if_true] at h
        cases h
      | false =>
        simp only [hbounds, Bool.false_eq_true, if_false] at h
        cases h
        exact ⟨_, rfl⟩

end Settings

end Spreadsheet
