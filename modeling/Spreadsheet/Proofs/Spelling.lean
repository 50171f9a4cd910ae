import Spreadsheet.Proofs.RoundTrip

/-!
# Spellings of references

A place has many spellings and one normal one: lower-case letters, ASCII digits, no noughts in front
of the row. Reading forgets which spelling it was, and writing gives the normal one. So what is
written reads back, what was read is written in normal form, and ids, which have no anchors, tell
places apart and nothing else.

The normal form is stated on the parts of a spelling, letter by letter and digit by digit. That it
is what the arithmetic of columns and rows comes to is shown from the last letter and the last
digit, which is where both numerals grow.
-/

namespace Spreadsheet

open Text Numeral

/-! ## Letters -/

namespace Column

theorem letter_digit {c : Char} (h : isLetter c = true) :
    1 ≤ digit c ∧ digit c ≤ 26 ∧ letter (digit c - 1) = c.toLower :=
  forall_isLetter (p := fun c ↦ 1 ≤ digit c ∧ digit c ≤ 26 ∧ letter (digit c - 1) = c.toLower)
    (by decide) h

/-- **Letters spell the column that they are the letters of**, in lower case. -/
theorem letters_number {cs : List Char} (h : ∀ c ∈ cs, isLetter c = true) :
    letters (number cs) = cs.map Char.toLower := by
  induction cs using List.reverseRecOn with
  | nil => exact letters_zero
  | append_singleton cs c ih =>
    obtain ⟨hcs, hc⟩ := List.forall_mem_append.mp h
    obtain ⟨hpos, hle, hletter⟩ := letter_digit (hc c List.mem_cons_self)
    have hdiv : (26 * number cs + digit c - 1) / 26 = number cs := by omega
    have hmod : (26 * number cs + digit c - 1) % 26 = digit c - 1 := by omega
    rw [number_append_singleton, letters_of_pos (by omega), hdiv, hmod, ih hcs, hletter,
      List.map_append, List.map_singleton]

end Column

/-! ## Digits -/

namespace Numeral

/-- The ASCII digit that counts as much as a digit of any script. -/
def asciiDigit (c : Char) : Char := Nat.digitChar (digitValue c)

/-- A row of digits in ASCII, without the noughts in front. -/
def plainDigits (ds : List Char) : List Char := (ds.map asciiDigit).dropWhile (· == '0')

theorem asciiDigit_eq_zero_iff {c : Char} : asciiDigit c = '0' ↔ digitValue c = 0 := by
  have hdigits : ∀ n < 10, Nat.digitChar n = '0' ↔ n = 0 := by decide
  exact hdigits _ (digitValue_lt c)

theorem plainDigits_eq_nil {ds : List Char} (h : ofDigits ds = 0) : plainDigits ds = [] := by
  induction ds using List.reverseRecOn with
  | nil => rfl
  | append_singleton ds d ih =>
    rw [ofDigits_append_singleton] at h
    have hd : asciiDigit d = '0' := asciiDigit_eq_zero_iff.mpr (by omega)
    have hds := ih (by omega)
    rw [plainDigits] at hds
    rw [plainDigits, List.map_append, List.dropWhile_append, hds, List.map_singleton, hd]
    rfl

/-- **A row of digits is the digits of its number** once it is plain. -/
theorem digits_ofDigits {ds : List Char} (h : 0 < ofDigits ds) :
    digits (ofDigits ds) = plainDigits ds := by
  induction ds using List.reverseRecOn with
  | nil => exact absurd h (by decide)
  | append_singleton ds d ih =>
    have hd : digitValue d < 10 := digitValue_lt d
    have hlast : digits (digitValue d) = [asciiDigit d] := Nat.toDigits_of_lt_base hd
    rw [ofDigits_append_singleton] at h ⊢
    rw [plainDigits, List.map_append, List.map_singleton, List.dropWhile_append, ← plainDigits]
    rcases Nat.eq_zero_or_pos (ofDigits ds) with hzero | hpos
    · have hne : asciiDigit d ≠ '0' := fun heq ↦ by
        have := asciiDigit_eq_zero_iff.mp heq
        omega
      rw [hzero, plainDigits_eq_nil hzero, Nat.mul_zero, Nat.zero_add, hlast]
      simp [hne]
    · have hsplit : digits (10 * ofDigits ds + digitValue d) =
          digits (ofDigits ds) ++ [asciiDigit d] := by
        rw [← hlast]
        exact (Nat.toDigits_append_toDigits (by decide) hpos hd).symm
      have hne : plainDigits ds ≠ [] := ih hpos ▸ digits_ne_nil _
      rw [hsplit, ih hpos, if_neg (by simpa using hne)]

end Numeral

/-! ## References -/

namespace CellRef

namespace Spelling

variable {s : Spelling}

/-- The normal spelling: lower-case letters, ASCII digits, no noughts in front. -/
def normal (s : Spelling) : Spelling :=
  { s with letters := s.letters.map Char.toLower, digits := plainDigits s.digits }

/-- **A place is written in the normal form of any spelling of it.** -/
theorem WellSpelled.spelling_place (h : s.WellSpelled) (hrow : 0 < ofDigits s.digits) :
    s.place.spelling = s.normal := by
  simp only [spelling, place, normal, Int.toNat_natCast, Column.letters_number h.isLetter,
    digits_ofDigits hrow]

end Spelling

variable {text : String} {base : Position} {r : CellRef}

@[simp] theorem relativeTo_origin (r : CellRef) : r.relativeTo .origin = r := by
  simp [relativeTo, Position.origin]

theorem readAt_origin (text : String) : readAt text .origin = read text := by
  cases h : read text <;> simp [readAt, h, Except.map]

theorem readAt_of_text (h : r.text base = .ok text) : readAt text base = .ok r := by
  obtain ⟨hnamed, rfl⟩ := text_eq_ok_iff.mp h
  refine (wellSpelled_spelling hnamed).readAt_text_eq_ok_iff.mpr
    ⟨length_digits_spelling hnamed, one_le_ofDigits_spelling hnamed, ?_⟩
  rw [place_spelling hnamed, relativeTo_resolve]

theorem exists_place_of_readAt (h : readAt text base = .ok r) :
    ∃ s : Spelling, s.WellSpelled ∧ s.text = trim text.toList ∧ 0 < ofDigits s.digits ∧
      r.resolve base = s.place ∧ s.place.position.Named := by
  obtain ⟨place, hread, rfl⟩ := Outcome.map_eq_ok_iff.mp h
  have hnamed := Position.named_of_read hread
  obtain ⟨s, row, hs, htext, hrow, hpos, rfl⟩ := exists_spelling_of_read hread
  simp only [read?, Option.ite_none_right_eq_some, Option.some_inj] at hrow
  obtain ⟨-, rfl⟩ := hrow
  exact ⟨s, hs, htext, hpos, resolve_relativeTo _ _, hnamed⟩

/-- **The text of a reference is a faithful code.** What is written reads back. What was read is
written as the trimmed text in its normal spelling. Two texts that were read have the same id
exactly if they name the same place, and the id reads as that place without anchors. -/
theorem text_faithful :
    (∀ (r : CellRef) (base : Position) (text : String),
      r.text base = .ok text → readAt text base = .ok r) ∧
    (∀ (text : String) (base : Position) (r : CellRef), readAt text base = .ok r →
      ∃ s : Spelling, s.WellSpelled ∧ s.text = trim text.toList ∧
        r.text base = .ok (String.ofList s.normal.text)) ∧
    (∀ (text text' : String) (base base' : Position) (r r' : CellRef),
      readAt text base = .ok r → readAt text' base' = .ok r' →
      ∃ id id', r.idAt base = .ok id ∧ r'.idAt base' = .ok id' ∧
        (id = id' ↔ (r.resolve base).position = (r'.resolve base').position) ∧
        read id = .ok ⟨(r.resolve base).col, (r.resolve base).row, false, false⟩) ∧
    ∀ text : String, readAt text .origin = read text := by
  refine ⟨fun r base text ↦ readAt_of_text, ?_, ?_, readAt_origin⟩
  · intro text base r h
    obtain ⟨s, hs, htext, hrow, hplace, hnamed⟩ := exists_place_of_readAt h
    refine ⟨s, hs, htext, text_eq_ok_iff.mpr ⟨hplace ▸ hnamed, ?_⟩⟩
    rw [hplace, hs.spelling_place hrow]
  · intro text text' base base' r r' h h'
    obtain ⟨s, -, -, -, hplace, hnamed⟩ := exists_place_of_readAt h
    obtain ⟨s', -, -, -, hplace', hnamed'⟩ := exists_place_of_readAt h'
    obtain ⟨id, hid⟩ := hnamed.exists_id
    obtain ⟨id', hid'⟩ := hnamed'.exists_id
    simp only [idAt, hplace, hplace']
    refine ⟨id, id', hid, hid', ⟨?_, ?_⟩, Position.cellRef_read_id hid⟩
    · rintro rfl
      exact Position.id_injective hid hid'
    · intro heq
      rw [heq, hid'] at hid
      exact (Except.ok.inj hid).symm

/-- In the cell `c3`, a column in capitals and a row in other digits with noughts in front. -/
theorem text_faithful_anchored :
    let r : CellRef := ⟨2, 4, true, false⟩
    readAt " $B٠٠٧ " ⟨3, 3⟩ = .ok r ∧
      (∃ s : Spelling, s.WellSpelled ∧ s.text = trim " $B٠٠٧ ".toList ∧
        r.text ⟨3, 3⟩ = .ok (String.ofList s.normal.text)) ∧
      readAt "$b7" ⟨3, 3⟩ = .ok r ∧
      ∃ id id', r.idAt ⟨3, 3⟩ = .ok id ∧ CellRef.idAt ⟨2, 7, false, false⟩ .origin = .ok id' ∧
        id = id' := by
  intro r
  obtain ⟨hback, hnormal, hids, -⟩ := text_faithful
  have hread : readAt " $B٠٠٧ " ⟨3, 3⟩ = .ok r := by decide +kernel
  have hplain : readAt "b7" .origin = .ok ⟨2, 7, false, false⟩ := by decide +kernel
  obtain ⟨id, id', hid, hid', hiff, -⟩ := hids _ _ _ _ _ _ hread hplain
  exact ⟨hread, hnormal _ _ _ hread, hback r ⟨3, 3⟩ "$b7" (by decide +kernel),
    id, id', hid, hid', hiff.mpr (by decide)⟩

end CellRef

end Spreadsheet
