import Spreadsheet.Proofs.Grammar
import Spreadsheet.Proofs.NumberText

/-!
# Texts and their tokens

The text of a formula is put together from the texts of its parts, and its tokens from the tokens of
the parts. That is not so for every text: the tokens of a part may merge with what comes next, as
`a1` and `2` do, and the last part may lose what it needs. `Lexes cs ts` says of a part what makes
it safe: wherever the text goes on with a blank or a sign, the tokens of the part come first and the
tokens of the rest follow. Each way in which a formula is put together keeps it.
-/

namespace Spreadsheet

open Text Numeral

namespace Token

/-! ## The first token -/

section First

variable {c : Char} {cs rest : List Char}

theorem lexeme?_eq_none (hdigit : isDigit c = false) (hpoint : c ≠ '.') :
    DecimalText.lexeme? (c :: cs) = none := by
  have hdrop : (c :: cs).dropWhile isDigit = c :: cs :=
    List.dropWhile_cons_of_neg (by simp [hdigit])
  have htake : (c :: cs).takeWhile isDigit = [] := List.takeWhile_cons_of_neg (by simp [hdigit])
  have hscan : (DecimalText.scan (c :: cs)).hasDigits = false := by
    unfold DecimalText.scan
    rw [hdrop, htake]
    split
    · rename_i heq
      cases heq
      exact absurd rfl hpoint
    · rfl
  simp [DecimalText.lexeme?, hscan]

theorem first?_number {t : DecimalText} (h : t.WellSpelled) (hrest : Ends rest) :
    first? (t.text ++ rest) = some (number t.text) := by
  have hlexeme : DecimalText.lexeme? (t.text ++ rest) = some t.text := by
    simp [DecimalText.lexeme?, h.scan_append hrest, h.hasDigits]
  rw [first?, hlexeme]

theorem lexeme?_eq_none_of_isLetter (h : isLetter c = true) :
    DecimalText.lexeme? (c :: cs) = none := by
  have hc : isDigit c = false ∧ c ≠ '.' :=
    forall_isLetter (p := fun c ↦ isDigit c = false ∧ c ≠ '.') (by decide) h
  exact lexeme?_eq_none hc.1 hc.2

theorem head?_ref {s : CellRef.Spelling} (h : s.WellSpelled) {c : Char} (hc : c ∈ s.text.head?) :
    isLetter c = true ∨ c = '$' := by
  obtain ⟨colAnchored, letters, rowAnchored, digits⟩ := s
  obtain ⟨d, rest, rfl⟩ := List.exists_cons_of_ne_nil h.letters_ne_nil
  cases colAnchored with
  | true =>
    cases hc
    exact .inr rfl
  | false =>
    cases hc
    exact .inl (h.isLetter _ List.mem_cons_self)

theorem first?_ref {s : CellRef.Spelling} (h : s.WellSpelled) (hrest : Ends rest) :
    first? (s.text ++ rest) = some (ref s.text) := by
  have hscan := h.scan?_append (hrest.not fun _ ↦ isWord_of_isDigit)
  have hlexeme : DecimalText.lexeme? (s.text ++ rest) = none := by
    cases hcs : s.text with
    | nil => exact absurd hcs (CellRef.Spelling.text_ne_nil_of_scan? h.scan?_text)
    | cons c cs =>
      rcases head?_ref h (by rw [hcs]; rfl : c ∈ s.text.head?) with hletter | rfl
      · exact lexeme?_eq_none_of_isLetter hletter
      · exact lexeme?_eq_none (by decide) (by decide)
  rw [first?, hlexeme, hscan]

theorem eq_of_isSign (hsign : isSign c = true) :
    c = '-' ∨ c = '+' ∨ c = '*' ∨ c = '/' ∨ c = '(' ∨ c = ')' ∨ c = ',' := by
  simpa [isSign] using hsign

theorem first?_op (hsign : isSign c = true) : first? (c :: cs) = some (op c) := by
  have hnone : isDigit c = false ∧ c ≠ '.' ∧ c ≠ '$' ∧ isLetter c = false ∧
      isNameStart c = false := by
    rcases eq_of_isSign hsign with rfl | rfl | rfl | rfl | rfl | rfl | rfl <;> decide
  obtain ⟨hdigit, hpoint, hdollar, hletter, hname⟩ := hnone
  have hscan : CellRef.Spelling.scan? (c :: cs) = none := by
    have hanchor : CellRef.Spelling.scanAnchor (c :: cs) = (false, c :: cs) :=
      CellRef.Spelling.scanAnchor_append false (by simpa using hdollar)
    simp [CellRef.Spelling.scan?, hanchor, hletter]
  rw [first?, lexeme?_eq_none hdigit hpoint, hscan]
  simp [name?, hname, sign?, hsign]

theorem first?_call {fn : String} (hfn : fn = "min" ∨ fn = "max") :
    first? (fn.toList ++ '(' :: cs) = some (name fn.toList) := by
  rcases hfn with rfl | rfl
  · rfl
  · rfl

end First

/-! ## Splitting a text -/

section Splitting

variable {c : Char} {cs rest : List Char} {t : Token} {index : Nat} {ts us : List Token}

/-- One token at a time, without the proofs that reading ends. -/
theorem scanFrom_eq (index : Nat) (cs : List Char) :
    scanFrom index cs =
      match cs.dropWhile isBlank with
      | [] => .ok []
      | c :: rest =>
        match first? (c :: rest) with
        | none => .error (.malformed (.character c (index + (cs.takeWhile isBlank).length)))
        | some t =>
          (scanFrom (index + (cs.takeWhile isBlank).length + t.text.length)
            ((c :: rest).drop t.text.length)).map (t :: ·) := by
  rw [scanFrom]
  split
  · rename_i hskip
    rw [hskip]
  · rename_i c rest hskip
    rw [hskip]
    dsimp only
    split
    · rename_i hfirst
      rw [hfirst]
    · rename_i t hfirst
      rw [hfirst]

theorem scanFrom_blank (hc : isBlank c = true) :
    scanFrom index (c :: cs) = scanFrom (index + 1) cs := by
  have htake : index + ((c :: cs).takeWhile isBlank).length
      = index + 1 + (cs.takeWhile isBlank).length := by
    rw [List.takeWhile_cons_of_pos hc, List.length_cons]
    omega
  rw [scanFrom_eq, scanFrom_eq, List.dropWhile_cons_of_pos hc, htake]

theorem scanFrom_token (hfirst : first? (t.text ++ rest) = some t)
    (hblank : ∀ c ∈ t.text.head?, isBlank c = false) :
    scanFrom index (t.text ++ rest) = (scanFrom (index + t.text.length) rest).map (t :: ·) := by
  obtain ⟨c, cs, hcs⟩ := List.exists_cons_of_ne_nil (text_ne_nil_of_first? hfirst)
  have hc : ¬ isBlank c = true := by
    rw [hblank c (by rw [hcs]; rfl)]
    exact Bool.false_ne_true
  rw [hcs, List.cons_append] at hfirst
  rw [scanFrom_eq, hcs, List.cons_append, List.dropWhile_cons_of_neg hc,
    List.takeWhile_cons_of_neg hc]
  simp only [hfirst]
  rw [← List.cons_append, ← hcs, List.drop_left]
  rfl

/-- The text splits into the tokens, wherever it stands. -/
def Scans (cs : List Char) (ts : List Token) : Prop := ∀ index, scanFrom index cs = .ok ts

theorem scans_nil : Scans [] [] := fun index ↦ scanFrom_eq index []

theorem Scans.blank (hc : isBlank c = true) (h : Scans cs ts) : Scans (c :: cs) ts := by
  intro index
  rw [scanFrom_blank hc, h]

theorem Scans.token (h : Scans rest ts) (hfirst : first? (t.text ++ rest) = some t)
    (hblank : ∀ c ∈ t.text.head?, isBlank c = false) : Scans (t.text ++ rest) (t :: ts) := by
  intro index
  rw [scanFrom_token hfirst hblank, h]
  rfl

theorem isBlank_eq_false_of_isSign (hsign : isSign c = true) : isBlank c = false := by
  rcases eq_of_isSign hsign with rfl | rfl | rfl | rfl | rfl | rfl | rfl <;> decide

theorem Scans.op (h : Scans cs ts) (hsign : isSign c = true) : Scans (c :: cs) (.op c :: ts) := by
  intro index
  have hfirst : first? ((Token.op c).text ++ cs) = some (.op c) := first?_op hsign
  have hblank : ∀ d ∈ (Token.op c).text.head?, isBlank d = false := by
    intro d hd
    cases hd
    exact isBlank_eq_false_of_isSign hsign
  exact Scans.token h hfirst hblank index

end Splitting

/-! ## Parts of a text -/

/-- The character is no blank and no equals sign, so it may stand at an end of a formula. -/
def isSolid (c : Char) : Bool := !isBlank c && c != '='

theorem isSolid_iff {c : Char} : isSolid c = true ↔ isBlank c = false ∧ c ≠ '=' := by
  simp [isSolid]

/-- A character inside a number, a reference or a name. The two signs stand in exponents. -/
def isInside (c : Char) : Bool := isWord c || c == '+' || c == '-'

theorem isInside_of_isWord {c : Char} (h : isWord c = true) : isInside c = true := by
  simp [isInside, h]

theorem isSolid_of_isInside {c : Char} (h : isInside c = true) : isSolid c = true := by
  have hblank : isBlank c = false := by
    simp only [isInside, isWord, isNamePart, isNameStart, Bool.or_eq_true, beq_iff_eq,
      Bool.and_eq_true, decide_eq_true_eq] at h
    rcases h with ((((hdigit | ((hletter | rfl) | hdigit)) | rfl) | rfl) | rfl) | rfl
    · exact isBlank_eq_false_of_isDigit hdigit
    · exact isBlank_eq_false_of_isLetter hletter
    · decide
    · refine isBlank_eq_false_of_isDigit ?_
      rw [isDigit, digitValue?_of_isDigit (Char.isDigit_iff_toNat.mpr hdigit)]
      rfl
    all_goals decide
  refine isSolid_iff.mpr ⟨hblank, ?_⟩
  rintro rfl
  exact absurd h (by decide)

theorem isInside_of_mem_exponent {mark ds : List Char} (h : DecimalText.ExponentSpelled mark ds) :
    ∀ c ∈ mark ++ ds, isInside c = true := by
  cases h with
  | absent => nofun
  | present mark sign_mem ne_nil isDigit =>
    simp only [List.cons_append, List.forall_mem_cons, List.forall_mem_append]
    refine ⟨?_, ?_, fun c hc ↦ isInside_of_isWord (isWord_of_isDigit (isDigit c hc))⟩
    · rcases mark with rfl | rfl <;> decide
    · rcases (by simpa using sign_mem) with rfl | rfl | rfl
      · nofun
      · exact List.forall_mem_singleton.mpr (by decide)
      · exact List.forall_mem_singleton.mpr (by decide)

theorem isInside_of_mem_number {t : DecimalText} (h : t.WellSpelled) :
    ∀ c ∈ t.text, isInside c = true := by
  have hdigits {ds : List Char} (hds : ∀ c ∈ ds, isDigit c = true) : ∀ c ∈ ds, isInside c = true :=
    fun c hc ↦ isInside_of_isWord (isWord_of_isDigit (hds c hc))
  have hpoint : ∀ c ∈ (if t.point then ['.'] else []), isInside c = true := by
    split
    · exact List.forall_mem_singleton.mpr (by decide)
    · nofun
  have hexponent := isInside_of_mem_exponent h.exponent
  rw [List.forall_mem_append] at hexponent
  simp only [DecimalText.text, List.forall_mem_append]
  exact ⟨⟨⟨⟨hdigits h.whole, hpoint⟩, hdigits h.fraction⟩, hexponent.1⟩, hexponent.2⟩

theorem isWord_of_mem_ref {s : CellRef.Spelling} (h : s.WellSpelled) :
    ∀ c ∈ s.text, isWord c = true := by
  have hanchor (anchored : Bool) : ∀ c ∈ CellRef.anchorText anchored, isWord c = true := by
    cases anchored
    · nofun
    · exact List.forall_mem_singleton.mpr (by decide)
  simp only [CellRef.Spelling.text, List.forall_mem_append]
  exact ⟨⟨⟨hanchor _, fun c hc ↦ isWord_of_isLetter (h.isLetter c hc)⟩, hanchor _⟩,
    fun c hc ↦ isWord_of_isDigit (h.isDigit c hc)⟩

/-- The text lexes into the tokens wherever it stands as a part of a longer text, and may stand at
both ends of it. -/
structure Lexes (cs : List Char) (ts : List Token) : Prop where
  ne_nil : cs ≠ []
  head : ∀ c ∈ cs.head?, isSolid c = true
  last : ∀ c ∈ cs.getLast?, isSolid c = true
  scans : ∀ rest us, Ends rest → Scans rest us → Scans (cs ++ rest) (ts ++ us)

section Parts

variable {c : Char} {cs ds : List Char} {t : Token} {ts us : List Token}

theorem lexes_token (hne : t.text ≠ []) (hsolid : ∀ c ∈ t.text, isSolid c = true)
    (hfirst : ∀ rest, Ends rest → first? (t.text ++ rest) = some t) : Lexes t.text [t] where
  ne_nil := hne
  head c hc := hsolid c (List.mem_of_mem_head? hc)
  last c hc := hsolid c (List.mem_of_mem_getLast? hc)
  scans rest us hrest h := by
    refine h.token (hfirst rest hrest) fun c hc ↦ ?_
    exact (isSolid_iff.mp (hsolid c (List.mem_of_mem_head? hc))).1

theorem lexes_number {t : DecimalText} (h : t.WellSpelled) : Lexes t.text [.number t.text] := by
  have hne : t.text ≠ [] := fun hnil ↦ by
    have := h.hasDigits
    simp only [DecimalText.text, List.append_eq_nil_iff] at hnil
    simp [DecimalText.hasDigits, hnil] at this
  exact lexes_token (t := .number t.text) hne
    (fun c hc ↦ isSolid_of_isInside (isInside_of_mem_number h c hc)) fun _ ↦ first?_number h

theorem lexes_ref {s : CellRef.Spelling} (h : s.WellSpelled) : Lexes s.text [.ref s.text] :=
  lexes_token (t := .ref s.text) (CellRef.Spelling.text_ne_nil_of_scan? h.scan?_text)
    (fun c hc ↦ isSolid_of_isInside (isInside_of_isWord (isWord_of_mem_ref h c hc)))
    fun _ ↦ first?_ref h

theorem Lexes.sign (h : Lexes cs ts) : Lexes ('-' :: cs) (.op '-' :: ts) where
  ne_nil := List.cons_ne_nil _ _
  head c hc := by cases hc; decide
  last c hc := by
    rw [List.getLast?_cons_of_ne_nil h.ne_nil] at hc
    exact h.last c hc
  scans rest us hrest hus := (h.scans rest us hrest hus).op (by decide)

theorem Lexes.group (h : Lexes cs ts) :
    Lexes ('(' :: (cs ++ [')'])) (.op '(' :: (ts ++ [.op ')'])) where
  ne_nil := List.cons_ne_nil _ _
  head c hc := by cases hc; decide
  last c hc := by
    rw [← List.cons_append, List.getLast?_concat] at hc
    cases hc
    decide
  scans rest us hrest hus := by
    have hclose : Scans (')' :: rest) (.op ')' :: us) := hus.op (by decide)
    have hinner := h.scans _ _ (ends_cons rest (by decide)) hclose
    simpa using hinner.op (c := '(') (by decide)

theorem Lexes.operator (h : Lexes cs ts) (h' : Lexes ds us) (hsign : isSign c = true) :
    Lexes (cs ++ ' ' :: c :: ' ' :: ds) (ts ++ .op c :: us) where
  ne_nil := List.append_ne_nil_of_left_ne_nil h.ne_nil _
  head d hd := by
    rw [List.head?_append_of_ne_nil _ h.ne_nil] at hd
    exact h.head d hd
  last d hd := by
    have hcut : cs ++ ' ' :: c :: ' ' :: ds = (cs ++ [' ', c, ' ']) ++ ds := by simp
    rw [hcut, List.getLast?_append_of_ne_nil _ h'.ne_nil] at hd
    exact h'.last d hd
  scans rest vs hrest hvs := by
    have hright := h'.scans rest vs hrest hvs
    have hop : Scans (' ' :: c :: ' ' :: (ds ++ rest)) (.op c :: (us ++ vs)) :=
      ((hright.blank (by decide)).op hsign).blank (by decide)
    simpa using h.scans _ _ (ends_cons _ (by decide)) hop

theorem Lexes.call (h : Lexes cs ts) (h' : Lexes ds us) {fn : String}
    (hfn : fn = "min" ∨ fn = "max") :
    Lexes (fn.toList ++ '(' :: (cs ++ ',' :: ' ' :: (ds ++ [')'])))
      (.name fn.toList :: .op '(' :: (ts ++ .op ',' :: (us ++ [.op ')']))) where
  ne_nil := by simp
  head c hc := by rcases hfn with rfl | rfl <;> (cases hc; decide)
  last c hc := by
    have hcut : fn.toList ++ '(' :: (cs ++ ',' :: ' ' :: (ds ++ [')']))
        = (fn.toList ++ '(' :: (cs ++ ',' :: ' ' :: ds)) ++ [')'] := by simp
    rw [hcut, List.getLast?_concat] at hc
    cases hc
    decide
  scans rest vs hrest hvs := by
    have hclose : Scans (')' :: rest) (.op ')' :: vs) := hvs.op (by decide)
    have hsecond := h'.scans _ _ (ends_cons rest (by decide)) hclose
    have hcomma : Scans (',' :: ' ' :: (ds ++ ')' :: rest)) (.op ',' :: (us ++ .op ')' :: vs)) :=
      (hsecond.blank (by decide)).op (by decide)
    have hfirst := h.scans _ _ (ends_cons _ (by decide)) hcomma
    have hopening : Scans ('(' :: (cs ++ ',' :: ' ' :: (ds ++ ')' :: rest)))
        (.op '(' :: (ts ++ .op ',' :: (us ++ .op ')' :: vs))) := hfirst.op (by decide)
    have hname : ∀ c ∈ (Token.name fn.toList).text.head?, isBlank c = false := by
      intro c hc
      rcases hfn with rfl | rfl <;> (cases hc; decide)
    have hcall := Scans.token (t := .name fn.toList) hopening (first?_call hfn) hname
    simpa [text] using hcall

theorem Lexes.trim_eq (h : Lexes cs ts) : trim cs = cs := by
  exact trim_eq_self (fun c hc ↦ (isSolid_iff.mp (h.head c hc)).1)
    fun c hc ↦ (isSolid_iff.mp (h.last c hc)).1

/-- **The tokens of a text** are read from it as it is. -/
theorem Lexes.scan_body (h : Lexes cs ts) : scan (Formula.body (String.ofList cs)) = .ok ts := by
  have hscans := h.scans [] [] ends_nil scans_nil
  rw [List.append_nil, List.append_nil] at hscans
  have hbody : Formula.body (String.ofList cs) = cs := by
    unfold Formula.body
    rw [String.toList_ofList, h.trim_eq]
    split
    · have hsolid : isSolid '=' = true := h.head '=' rfl
      exact absurd hsolid (by decide)
    · rfl
  rw [hbody]
  exact hscans 0

end Parts

end Token

end Spreadsheet
