import Spreadsheet.Proofs.Lexing

/-!
# What keeps a text from being read

A text is read as a formula, or it is malformed, with one exception: the row of a reference may have
more digits than a numeral can have. Nothing else is in the way, whatever characters the text has
and however long it is. The same holds of a text that is read as a reference.

For references the exception is exact: a text is not read for its length exactly if it is
well spelled and its row is too long, even where noughts in front make up the length. A
formula with such a row is never read. Either the reader gets as far as the row, or it has
found the text malformed before.
-/

namespace Spreadsheet

open Text Numeral

/-! ## References -/

namespace CellRef

variable {text : String} {base : Position}

/-- **Which references are not read for their length.** -/
theorem readAt_eq_longNumeral_iff :
    readAt text base = .error .longNumeral ↔ HasLongRow text := by
  rw [readAt, Outcome.map_eq_error_iff]
  constructor
  · intro h
    rcases refusal_of_read h with ⟨_, hcause⟩ | ⟨-, hlong⟩
    · cases hcause
    · exact hlong
  · rintro ⟨s, hs, htext, hlong⟩
    have hrow : read? s.digits = none := if_neg (Nat.not_le_of_lt hlong)
    rw [read_of_trim_eq hs htext.symm, hrow]

theorem refusal_of_readAt {fault : Fault} (h : readAt text base = .error fault) :
    (∃ cause, fault = .malformed cause) ∨ fault = .longNumeral ∧ HasLongRow text :=
  refusal_of_read (Outcome.map_eq_error_iff.mp h)

end CellRef

/-! ## Formulas -/

namespace Formula

variable {text : String} {base : Position} {ts : List Token} {fault : Fault}

/-- A reference in the text has a row with more digits than a numeral can have. -/
def HasLongRow (text : String) : Prop :=
  ∃ ts, Token.scan (body text) = .ok ts ∧ ¬ Token.ShortRows ts

theorem shortRows_of_read {f : Formula} (h : read text base = .ok f)
    (hscan : Token.scan (body text) = .ok ts) : Token.ShortRows ts := by
  rw [read, hscan] at h
  exact (legible_of_ofTokens (Token.allWellFormed_of_scanFrom hscan) h).shortRows

theorem refusal_of_read (h : read text base = .error fault) :
    (∃ cause, fault = .malformed cause) ∨ fault = .longNumeral ∧ HasLongRow text := by
  rcases Outcome.bind_eq_error_iff.mp h with hscan | ⟨ts, hscan, hts⟩
  · exact .inl (Token.fault_of_scanFrom hscan)
  · by_cases hrows : Token.ShortRows ts
    · exact .inl (malformed_of_ofTokens (Token.allWellFormed_of_scanFrom hscan) hrows hts)
    · exact (blames_ofTokens hts).imp id fun ⟨hfault, _⟩ ↦ ⟨hfault, ts, hscan, hrows⟩

theorem read_ref_of_hasLongRow {s : CellRef.Spelling} (h : s.WellSpelled)
    (hrow : CellRef.HasLongRow (String.ofList s.text)) :
    read (String.ofList s.text) base = .error .longNumeral := by
  have hread : CellRef.readAt (String.ofList s.text) base = .error .longNumeral :=
    CellRef.readAt_eq_longNumeral_iff.mpr hrow
  have hoperand (depth : Nat) : operand base depth [.ref s.text] = .error .longNumeral := by
    unfold operand
    rw [hread]
    rfl
  rw [read, (Token.lexes_ref h).scan_body, Outcome.ok_bind]
  simp [ofTokens, sumOf, chain, hoperand]

/-- **Every text is read or malformed**, as a formula and as a reference, unless it has a row that
is too long. With such a row it is not read. -/
theorem read_or_malformed (text : String) (base : Position) :
    (¬ HasLongRow text →
      (∃ f, read text base = .ok f) ∨ ∃ cause, read text base = .error (.malformed cause)) ∧
    (HasLongRow text →
      (∃ cause, read text base = .error (.malformed cause)) ∨
        read text base = .error .longNumeral) ∧
    (¬ CellRef.HasLongRow text →
      (∃ r, CellRef.readAt text base = .ok r) ∨
        ∃ cause, CellRef.readAt text base = .error (.malformed cause)) ∧
    (CellRef.HasLongRow text → CellRef.readAt text base = .error .longNumeral) := by
  refine ⟨fun hshort ↦ ?_, fun ⟨ts, hscan, hlong⟩ ↦ ?_, fun hshort ↦ ?_,
    CellRef.readAt_eq_longNumeral_iff.mpr⟩
  · cases hread : read text base with
    | ok f => exact .inl ⟨f, rfl⟩
    | error fault =>
      obtain ⟨cause, rfl⟩ := (refusal_of_read hread).resolve_right fun hrow ↦ hshort hrow.2
      exact .inr ⟨cause, rfl⟩
  · cases hread : read text base with
    | ok f => exact absurd (shortRows_of_read hread hscan) hlong
    | error fault =>
      rcases refusal_of_read hread with ⟨cause, rfl⟩ | ⟨rfl, -⟩
      · exact .inl ⟨cause, rfl⟩
      · exact .inr rfl
  · cases hread : CellRef.readAt text base with
    | ok r => exact .inl ⟨r, rfl⟩
    | error fault =>
      obtain ⟨cause, rfl⟩ :=
        (CellRef.refusal_of_readAt hread).resolve_right fun hrow ↦ hshort hrow.2
      exact .inr ⟨cause, rfl⟩

/-- A row may be spelled with the digits of any script. What keeps this call from being read is
that it does not close. -/
theorem read_or_malformed_open_call :
    ((∃ f, read "=Min($A٣, 2e5" ⟨3, 3⟩ = .ok f) ∨
      ∃ cause, read "=Min($A٣, 2e5" ⟨3, 3⟩ = .error (.malformed cause)) ∧
    ((∃ r, CellRef.readAt " $A٣ " ⟨3, 3⟩ = .ok r) ∨
      ∃ cause, CellRef.readAt " $A٣ " ⟨3, 3⟩ = .error (.malformed cause)) := by
  have hformula : ¬ HasLongRow "=Min($A٣, 2e5" := by
    rintro ⟨ts, hscan, hlong⟩
    exact hlong (Token.shortRows_of_scan hscan (by decide +kernel))
  have href : ¬ CellRef.HasLongRow " $A٣ " := by
    have hiff := @CellRef.readAt_eq_longNumeral_iff " $A٣ " ⟨3, 3⟩
    rw [← hiff]
    decide +kernel
  exact ⟨(read_or_malformed _ _).1 hformula, (read_or_malformed _ _).2.2.1 href⟩

/-- The cell `a1`, spelled with so many noughts in front of its row that it is not read. -/
theorem read_long_row :
    let text := String.ofList ('a' :: (List.replicate maxDigits '0' ++ ['1']))
    ¬ ((∃ f, read text ⟨1, 1⟩ = .ok f) ∨ ∃ cause, read text ⟨1, 1⟩ = .error (.malformed cause)) ∧
      ¬ ((∃ r, CellRef.readAt text ⟨1, 1⟩ = .ok r) ∨
        ∃ cause, CellRef.readAt text ⟨1, 1⟩ = .error (.malformed cause)) := by
  let s : CellRef.Spelling := ⟨false, ['a'], false, List.replicate maxDigits '0' ++ ['1']⟩
  have hs : s.WellSpelled := by
    refine ⟨List.cons_ne_nil _ _, List.forall_mem_singleton.mpr (by decide), by simp [s],
      List.forall_mem_append.mpr ⟨fun c ↦ isDigit_of_mem_replicate_zero, ?_⟩⟩
    exact List.forall_mem_singleton.mpr (by decide)
  have hrow : CellRef.HasLongRow (String.ofList s.text) := hs.hasLongRow_iff.mpr (by simp [s])
  have hformula : read (String.ofList s.text) ⟨1, 1⟩ = .error .longNumeral :=
    read_ref_of_hasLongRow hs hrow
  have href : CellRef.readAt (String.ofList s.text) ⟨1, 1⟩ = .error .longNumeral :=
    CellRef.readAt_eq_longNumeral_iff.mpr hrow
  constructor
  · rintro (⟨f, hf⟩ | ⟨cause, hcause⟩)
    · exact absurd (hformula.symm.trans hf) nofun
    · exact absurd (hformula.symm.trans hcause) nofun
  · rintro (⟨r, hr⟩ | ⟨cause, hcause⟩)
    · exact absurd (href.symm.trans hr) nofun
    · exact absurd (href.symm.trans hcause) nofun

end Formula

end Spreadsheet
