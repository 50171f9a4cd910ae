import Mathlib.Data.List.Chain
import Spreadsheet.Proofs.Lexing

/-!
# Blanks between tokens

Blanks between the tokens of a formula mean nothing. `Layout pieces cs` says that a text is made of
the given pieces with blanks around them. Every text is a layout of its own tokens. The converse is
what makes blanks meaningless: however the tokens of a formula are laid out, they are found again.

That is not so for any row of tokens, as two of them may merge once the blanks between them are
gone. In a formula they cannot: no rule of the grammar puts two operands side by side, so of two
neighbours one is a sign (`Parted`). A sign is a token of its own whatever comes next, and a number,
a reference or a name stops where a sign or a blank comes next.
-/

namespace Spreadsheet

open Text Numeral

/-! ## Layouts -/

namespace Text

/-- There are only blanks in the text. -/
def Blanks (cs : List Char) : Prop := ∀ c ∈ cs, isBlank c = true

/-- The text is made of the pieces, in this order, with blanks around them. -/
inductive Layout : List (List Char) → List Char → Prop
  | blanks {ws : List Char} (hws : Blanks ws) : Layout [] ws
  | piece {ws p cs : List Char} {ps : List (List Char)} (hws : Blanks ws) (rest : Layout ps cs) :
      Layout (p :: ps) (ws ++ (p ++ cs))

/-- Pieces that can be told from the blanks around them. -/
def Solid (ps : List (List Char)) : Prop := ∀ p ∈ ps, p ≠ [] ∧ ∀ c ∈ p, isBlank c = false

namespace Layout

variable {ps qs : List (List Char)} {cs ds ws : List Char} {b : Char}

theorem blanks_append (hws : Blanks ws) (h : Layout ps cs) : Layout ps (ws ++ cs) := by
  cases h with
  | blanks hvs => exact .blanks (List.forall_mem_append.mpr ⟨hws, hvs⟩)
  | piece hvs rest =>
    rw [← List.append_assoc]
    exact .piece (List.forall_mem_append.mpr ⟨hws, hvs⟩) rest

theorem append (h : Layout ps cs) (h' : Layout qs ds) : Layout (ps ++ qs) (cs ++ ds) := by
  induction h with
  | blanks hws => exact h'.blanks_append hws
  | piece hws _ ih =>
    rw [List.append_assoc, List.append_assoc, List.cons_append]
    exact .piece hws ih

theorem append_blanks (h : Layout ps cs) (hws : Blanks ws) : Layout ps (cs ++ ws) := by
  have := h.append (.blanks hws)
  rwa [List.append_nil] at this

theorem of_blank_cons (hps : Solid ps) (hb : isBlank b = true) (h : Layout ps (b :: cs)) :
    Layout ps cs := by
  generalize hds : b :: cs = ds at h
  cases h with
  | blanks hws => exact .blanks (List.forall_mem_cons.mp (hds ▸ hws)).2
  | @piece ws p cs' ps hws rest =>
    cases ws with
    | nil =>
      -- the blank would be in the piece
      obtain ⟨hne, hsolid⟩ := hps p List.mem_cons_self
      obtain ⟨c, p, rfl⟩ := List.exists_cons_of_ne_nil hne
      cases hds
      rw [hsolid b List.mem_cons_self] at hb
      cases hb
    | cons w ws =>
      cases hds
      exact .piece (List.forall_mem_cons.mp hws).2 rest

theorem of_concat_blank (hps : Solid ps) (hb : isBlank b = true) (h : Layout ps (cs ++ [b])) :
    Layout ps cs := by
  generalize hds : cs ++ [b] = ds at h
  induction h generalizing cs with
  | blanks hws => exact .blanks (List.forall_mem_append.mp (hds ▸ hws)).1
  | @piece ws p cs' ps hws rest ih =>
    obtain ⟨⟨hne, hsolid⟩, hps⟩ := List.forall_mem_cons.mp hps
    rcases List.eq_nil_or_concat' cs' with rfl | ⟨cs', c, rfl⟩
    · -- the blank would be in the piece
      obtain ⟨p, c, rfl⟩ := (List.eq_nil_or_concat' p).resolve_left hne
      rw [List.append_nil, ← List.append_assoc] at hds
      obtain ⟨-, hbc⟩ := List.append_inj' hds rfl
      cases hbc
      rw [hsolid b (List.mem_append_right p List.mem_cons_self)] at hb
      cases hb
    · have hcut : ws ++ (p ++ (cs' ++ [c])) = ws ++ (p ++ cs') ++ [c] := by simp
      rw [hcut] at hds
      obtain ⟨rfl, hbc⟩ := List.append_inj' hds rfl
      cases hbc
      exact .piece hws (ih hps rfl)

theorem of_blanks_append (hps : Solid ps) (hws : Blanks ws) (h : Layout ps (ws ++ cs)) :
    Layout ps cs := by
  induction ws with
  | nil => exact h
  | cons w ws ih =>
    obtain ⟨hw, hws⟩ := List.forall_mem_cons.mp hws
    exact ih hws (of_blank_cons hps hw h)

theorem of_append_blanks (hps : Solid ps) (hws : Blanks ws) (h : Layout ps (cs ++ ws)) :
    Layout ps cs := by
  induction ws using List.reverseRecOn with
  | nil => rwa [List.append_nil] at h
  | append_singleton ws w ih =>
    obtain ⟨hws, hw⟩ := List.forall_mem_append.mp hws
    rw [← List.append_assoc] at h
    exact ih hws (of_concat_blank hps (hw w List.mem_cons_self) h)

theorem eq_append_of_head {p : List Char} (h : Layout (p :: ps) cs)
    (hhead : ∀ c ∈ cs.head?, isBlank c = false) : ∃ rest, cs = p ++ rest ∧ Layout ps rest := by
  cases h with
  | @piece ws p rest ps hws hrest =>
    cases ws with
    | nil => exact ⟨rest, rfl, hrest⟩
    | cons w ws =>
      have hw := hhead w rfl
      rw [hws w List.mem_cons_self] at hw
      cases hw

/-- **Blanks at the ends mean nothing** to a layout. -/
theorem trim_iff (hps : Solid ps) : Layout ps (trim cs) ↔ Layout ps cs := by
  obtain ⟨lead, hlead, hstart⟩ : ∃ lead, Blanks lead ∧ lead ++ trimStart cs = cs :=
    ⟨cs.takeWhile isBlank, fun _ ↦ List.mem_takeWhile_imp, List.takeWhile_append_dropWhile⟩
  obtain ⟨trail, htrail, hend⟩ : ∃ trail, Blanks trail ∧ trim cs ++ trail = trimStart cs :=
    ⟨(trimStart cs).rtakeWhile isBlank, fun _ ↦ List.mem_rtakeWhile_imp,
      List.rdropWhile_append_rtakeWhile ..⟩
  constructor
  · intro h
    have := (h.append_blanks htrail).blanks_append hlead
    rwa [hend, hstart] at this
  · intro h
    rw [← hstart] at h
    have := of_blanks_append hps hlead h
    rw [← hend] at this
    exact of_append_blanks hps htrail this

theorem count_eq {c : Char} (hc : isBlank c = false) (h : Layout ps cs) :
    cs.count c = ps.flatten.count c := by
  have hblanks {ws : List Char} (hws : Blanks ws) : ws.count c = 0 := by
    refine List.count_eq_zero.mpr fun hmem ↦ ?_
    rw [hws c hmem] at hc
    cases hc
  induction h with
  | blanks hws => exact hblanks hws
  | piece hws _ ih =>
    rw [List.count_append, List.count_append, hblanks hws, ih, List.flatten_cons, List.count_append,
      Nat.zero_add]

end Layout

/-- The text is cut in two, at one of its ends or between two pieces. -/
def Gap (ps : List (List Char)) (front back : List Char) : Prop :=
  ∃ qs rs, qs ++ rs = ps ∧ Layout qs front ∧ Layout rs back

theorem Gap.fill {ps : List (List Char)} {front back ws : List Char} (h : Gap ps front back)
    (hws : Blanks ws) : Layout ps (front ++ ws ++ back) := by
  obtain ⟨qs, rs, rfl, hfront, hback⟩ := h
  exact (hfront.append_blanks hws).append hback

theorem isWord_eq_false_of_isBlank {c : Char} (h : isBlank c = true) : isWord c = false := by
  rw [Bool.eq_false_iff]
  intro hword
  have hsolid := Token.isSolid_of_isInside (Token.isInside_of_isWord hword)
  rw [(Token.isSolid_iff.mp hsolid).1] at h
  cases h

end Text

/-! ## The tokens of a layout -/

namespace Token

theorem isWord_eq_false_of_isSign {c : Char} (h : isSign c = true) : isWord c = false := by
  rcases eq_of_isSign h with rfl | rfl | rfl | rfl | rfl | rfl | rfl <;> decide

/-- The token is a sign. -/
def isOp : Token → Bool
  | op _ => true
  | _ => false

/-- Of two neighbours one is a sign. -/
def Parted (ts : List Token) : Prop := ts.IsChain fun t u ↦ t.isOp = true ∨ u.isOp = true

section Parted

variable {t : Token} {ts us : List Token} {cs word rest : List Char}

theorem Parted.op (h : Parted ts) (sign : Char) : Parted (op sign :: ts) :=
  List.isChain_cons.mpr ⟨fun _ _ ↦ .inl rfl, h⟩

theorem Parted.append_op {sign : Char} (h : Parted ts) (h' : Parted us) :
    Parted (ts ++ .op sign :: us) := by
  refine List.isChain_append.mpr ⟨h, h'.op sign, fun _ _ u hu ↦ ?_⟩
  cases hu
  exact .inr rfl

theorem parted_singleton (t : Token) : Parted [t] := List.isChain_singleton t

/-- No reference starts where a name stands: it would have to go on where the name stops. -/
theorem scan?_name_append (hscan : CellRef.Spelling.scan? word = none) (hrest : Ends rest) :
    CellRef.Spelling.scan? (word ++ rest) = none := by
  cases hlonger : CellRef.Spelling.scan? (word ++ rest) with
  | none => rfl
  | some s =>
    have hs := CellRef.Spelling.wellSpelled_of_scan? hlonger
    have hfront := CellRef.Spelling.text_prefix_of_scan? hlonger
    have hshort : s.text <+: word := by
      rcases List.prefix_or_prefix_of_prefix hfront (List.prefix_append word rest) with
          h | ⟨more, hmore⟩
      · exact h
      · rw [← hmore, List.prefix_append_right_inj] at hfront
        cases more with
        | nil =>
          rw [List.append_nil] at hmore
          exact hmore ▸ List.prefix_rfl
        | cons c more =>
          -- the reference would go on with the character that the name stops before
          obtain ⟨after, rfl⟩ := hfront
          have hword : isWord c = true := isWord_of_mem_ref hs c (hmore ▸ by simp)
          rw [hrest c rfl] at hword
          cases hword
    rw [← hs.scan?_text]
    exact CellRef.Spelling.scan?_eq_none_of_prefix hscan hshort

theorem first?_name (h : (name word).WellFormed) (hrest : Ends rest) :
    first? (word ++ rest) = some (name word) := by
  cases h with
  | @name c parts start hparts not_ref =>
    have hlexeme : DecimalText.lexeme? (c :: (parts ++ rest)) = none := by
      simp only [isNameStart, Bool.or_eq_true, beq_iff_eq] at start
      rcases start with hletter | rfl
      · exact lexeme?_eq_none_of_isLetter hletter
      · exact lexeme?_eq_none (by decide) (by decide)
    have hrun := (run_append hparts (hrest.not fun _ ↦ isWord_of_isNamePart)).1
    have hname : name? (c :: (parts ++ rest)) = some (c :: parts) := by simp [name?, start, hrun]
    have hscan := scan?_name_append not_ref hrest
    rw [List.cons_append] at hscan ⊢
    rw [first?, hlexeme, hscan]
    simp only [hname]

/-- **A token of a text is found again** where it stops: a sign anywhere, any other token where the
text goes on with a blank or a sign. -/
theorem WellFormed.first?_append (h : t.WellFormed) (hrest : t.isOp = true ∨ Ends rest) :
    first? (t.text ++ rest) = some t := by
  cases h with
  | number wellSpelled => exact first?_number wellSpelled (hrest.resolve_left nofun)
  | ref wellSpelled => exact first?_ref wellSpelled (hrest.resolve_left nofun)
  | name start parts not_ref =>
      exact first?_name (.name start parts not_ref) (hrest.resolve_left nofun)
  | op isSign => exact first?_op isSign

theorem WellFormed.isInside (h : t.WellFormed) (ht : t.isOp = false) :
    ∀ c ∈ t.text, Token.isInside c = true := by
  cases h with
  | number wellSpelled => exact isInside_of_mem_number wellSpelled
  | ref wellSpelled => exact fun c hc ↦ isInside_of_isWord (isWord_of_mem_ref wellSpelled c hc)
  | name start parts not_ref =>
    have hstart : ∀ c, isNameStart c = true → isNamePart c = true := fun c hc ↦
      by simp [isNamePart, hc]
    exact List.forall_mem_cons.mpr ⟨isInside_of_isWord (isWord_of_isNamePart (hstart _ start)),
      fun c hc ↦ isInside_of_isWord (isWord_of_isNamePart (parts c hc))⟩
  | op isSign => cases ht

theorem WellFormed.isSolid (h : t.WellFormed) : ∀ c ∈ t.text, Token.isSolid c = true := by
  cases hop : t.isOp with
  | false => exact fun c hc ↦ isSolid_of_isInside (h.isInside hop c hc)
  | true =>
    cases h with
    | op isSign =>
      refine List.forall_mem_singleton.mpr ?_
      rcases eq_of_isSign isSign with rfl | rfl | rfl | rfl | rfl | rfl | rfl <;> decide
    | _ => cases hop

theorem WellFormed.text_ne_nil (h : t.WellFormed) : t.text ≠ [] := by
  have hfirst := h.first?_append (.inr ends_nil)
  exact text_ne_nil_of_first? hfirst

theorem AllWellFormed.solid (h : AllWellFormed ts) : Solid (ts.map text) := by
  refine List.forall_mem_map.mpr fun t ht ↦ ⟨(h t ht).text_ne_nil, fun c hc ↦ ?_⟩
  exact (isSolid_iff.mp ((h t ht).isSolid c hc)).1

theorem ends_of_layout (hts : AllWellFormed ts) (hhead : ∀ t ∈ ts.head?, t.isOp = true)
    (h : Layout (ts.map text) cs) : Ends cs := by
  have hblanks {ws rest : List Char} (hws : Blanks ws) (hrest : Ends rest) : Ends (ws ++ rest) := by
    cases ws with
    | nil => exact hrest
    | cons w ws => exact ends_cons _ (isWord_eq_false_of_isBlank (hws w List.mem_cons_self))
  cases ts with
  | nil =>
    cases h with
    | blanks hws => exact List.append_nil cs ▸ hblanks hws ends_nil
  | cons t ts =>
    cases h with
    | piece hws rest =>
      refine hblanks hws ?_
      have hop := hhead t rfl
      cases hts t List.mem_cons_self with
      | op isSign => exact ends_cons _ (isWord_eq_false_of_isSign isSign)
      | _ => cases hop

theorem Scans.blanks {ws : List Char} (hws : Blanks ws) (h : Scans cs ts) :
    Scans (ws ++ cs) ts := by
  induction ws with
  | nil => exact h
  | cons w ws ih =>
    obtain ⟨hw, hws⟩ := List.forall_mem_cons.mp hws
    exact (ih hws).blank hw

/-- **However tokens are laid out, they are found again**, if of two neighbours one is a sign. -/
theorem scans_of_layout (hts : AllWellFormed ts) (hparted : Parted ts)
    (h : Layout (ts.map text) cs) : Scans cs ts := by
  induction ts generalizing cs with
  | nil =>
    cases h with
    | blanks hws => exact List.append_nil cs ▸ scans_nil.blanks hws
  | cons t ts ih =>
    cases h with
    | @piece ws p rest ps hws hrest =>
      obtain ⟨hnext, hparted⟩ := List.isChain_cons.mp hparted
      have hstop : t.isOp = true ∨ Ends rest := by
        cases hop : t.isOp with
        | true => exact .inl rfl
        | false =>
          exact .inr
            (ends_of_layout hts.tail (fun u hu ↦ (hnext u hu).resolve_left (by simp [hop])) hrest)
      have hwell := hts t List.mem_cons_self
      refine Scans.blanks hws ((ih hts.tail hparted hrest).token (hwell.first?_append hstop) ?_)
      exact fun c hc ↦ (isSolid_iff.mp (hwell.isSolid c (List.mem_of_mem_head? hc))).1

/-- **A text is a layout of its tokens.** -/
theorem layout_of_scanFrom {index : Nat} (h : scanFrom index cs = .ok ts) :
    Layout (ts.map text) cs := by
  fun_induction scanFrom index cs generalizing ts with
  | case1 index cs hskip =>
    cases h
    exact .blanks (List.dropWhile_eq_nil_iff.mp hskip)
  | case2 => cases h
  | case3 index cs c rest hskip index' t hfirst =>
    rename_i ih
    obtain ⟨ts', hts', rfl⟩ := Outcome.map_eq_ok_iff.mp h
    obtain ⟨after, hafter⟩ := (wellFormed_of_first? hfirst).2
    have hlayout := ih hts'
    rw [← hafter, List.drop_left] at hlayout
    have hcs : cs = cs.takeWhile isBlank ++ (t.text ++ after) := by
      rw [hafter, ← hskip, List.takeWhile_append_dropWhile]
    rw [hcs]
    exact .piece (fun _ ↦ List.mem_takeWhile_imp) hlayout

end Parted

end Token

/-! ## Formulas in any layout -/

namespace Formula

variable {base : Position} {phrase : Phrase} {depth : Nat} {ts : List Token} {f : Formula}
  {text text' : String} {marked : Bool}

/-- **In a formula no two operands stand side by side.** -/
theorem Spells.parted (h : Spells base phrase depth ts f) : Token.Parted ts := by
  have hnil : Token.Parted [] := List.isChain_nil
  induction h with
  | number => exact Token.parted_singleton _
  | ref => exact Token.parted_singleton _
  | sign _ ih => exact ih.op '-'
  | group _ ih => exact (ih.append_op hnil).op '('
  | call _ _ _ _ ihFirst ihSecond =>
    exact (Token.parted_singleton _).append_op (ihFirst.append_op (ihSecond.append_op hnil))
  | product _ ih => exact ih
  | times _ _ _ ihLeft ihRight => exact ihLeft.append_op ihRight
  | sum _ ih => exact ih
  | plus _ _ _ ihLeft ihRight => exact ihLeft.append_op ihRight

/-- The pieces of a text: its tokens, after an equals sign if it is marked with one. -/
def pieces (marked : Bool) (ts : List Token) : List (List Char) :=
  (if marked then [['=']] else []) ++ ts.map Token.text

theorem solid_pieces (hts : Token.AllWellFormed ts) : Solid (pieces marked ts) := by
  refine List.forall_mem_append.mpr ⟨?_, hts.solid⟩
  cases marked
  · nofun
  · refine List.forall_mem_singleton.mpr ⟨List.cons_ne_nil _ _, ?_⟩
    exact List.forall_mem_singleton.mpr (by decide)

theorem body_cases (text : String) :
    trim text.toList = '=' :: body text ∨
      trim text.toList = body text ∧ (trim text.toList).head? ≠ some '=' := by
  unfold body
  split
  · exact .inl ‹_›
  · rename_i hmark
    refine .inr ⟨rfl, fun hhead ↦ ?_⟩
    obtain ⟨cs, hcs⟩ := List.head?_eq_some_iff.mp hhead
    exact hmark cs hcs

theorem not_layout_marked (hts : Token.AllWellFormed ts) {cs : List Char} :
    ¬ Layout (ts.map Token.text) ('=' :: cs) := by
  intro h
  have hcount := h.count_eq (c := '=') (by decide)
  have hmem : '=' ∈ (ts.map Token.text).flatten := by
    rw [← List.count_pos_iff, ← hcount, List.count_cons_self]
    exact Nat.succ_pos _
  obtain ⟨p, hp, hmem⟩ := List.mem_flatten.mp hmem
  obtain ⟨t, ht, rfl⟩ := List.mem_map.mp hp
  exact (Token.isSolid_iff.mp ((hts t ht).isSolid '=' hmem)).2 rfl

theorem layout_body (hts : Token.AllWellFormed ts) (h : Layout (pieces marked ts) text.toList) :
    Layout (ts.map Token.text) (body text) := by
  have htrim : Layout (pieces marked ts) (trim text.toList) :=
    (Layout.trim_iff (solid_pieces hts)).mpr h
  cases marked with
  | true =>
    obtain ⟨rest, hrest, hlayout⟩ :=
      Layout.eq_append_of_head htrim (head?_trim_not_blank text.toList)
    have hbody : body text = rest := by rw [body, hrest]; rfl
    exact hbody ▸ hlayout
  | false =>
    rcases body_cases text with hmark | ⟨hbody, -⟩
    · rw [hmark] at htrim
      exact absurd htrim (not_layout_marked hts)
    · exact hbody ▸ htrim

theorem exists_layout_of_scan (h : Token.scan (body text) = .ok ts) :
    ∃ marked, (marked = true ↔ (trim text.toList).head? = some '=') ∧
      Layout (pieces marked ts) text.toList := by
  have hts := Token.allWellFormed_of_scanFrom h
  have hbody := Token.layout_of_scanFrom h
  rcases body_cases text with hmark | ⟨hnone, hhead⟩
  · refine ⟨true, by simp [hmark], (Layout.trim_iff (solid_pieces hts)).mp ?_⟩
    have hpiece : Layout (['='] :: ts.map Token.text) ([] ++ (['='] ++ body text)) :=
      .piece nofun hbody
    rwa [hmark]
  · refine ⟨false, by simp [hhead], (Layout.trim_iff (solid_pieces hts)).mp ?_⟩
    exact hnone ▸ hbody

/-- **However the tokens of a formula are laid out, it is read.** An equals sign in front makes no
difference. -/
theorem read_of_layout (h : read text base = .ok f) (hscan : Token.scan (body text) = .ok ts)
    (hlayout : Layout (pieces marked ts) text'.toList) : read text' base = .ok f := by
  have hts := Token.allWellFormed_of_scanFrom hscan
  rw [read, hscan, Outcome.ok_bind] at h
  have hparted := (derives_of_ofTokens hts h).parted
  have hscan' : Token.scan (body text') = .ok ts :=
    Token.scans_of_layout hts hparted (layout_body hts hlayout) 0
  rw [read, hscan', Outcome.ok_bind, h]

end Formula

end Spreadsheet
