import Spreadsheet.Proofs.CellId
import Spreadsheet.Proofs.Reading

/-!
# What reading a formula gives

A formula that was read applies only what the library has, and each of its references was read from
a text in the cell that the formula stands in. So its references name cells there, and the formula
has a value whatever those cells are worth. A text that is not read is malformed, with one
exception: a row may have more digits than a numeral can have.

## Readers

The readers of the grammar are made from each other, and `Reader.Sound` says what each of them owes.
It is carried from the parts of a reader to the whole, one lemma for each way to make one. The
nesting depth closes the circle: an operand is made from operands with less of it.
-/

namespace Spreadsheet

open Text Numeral

/-! ## Tokens -/

namespace CellRef.Spelling

theorem anchorText_append_scanAnchor (cs : List Char) :
    anchorText (scanAnchor cs).1 ++ (scanAnchor cs).2 = cs := by
  unfold scanAnchor
  split <;> rfl

theorem text_prefix_of_scan? {cs : List Char} {s : Spelling} (h : scan? cs = some s) :
    s.text <+: cs := by
  simp only [scan?] at h
  split at h
  · cases h
  · cases h
    refine ⟨((scanAnchor ((scanAnchor cs).2.dropWhile isLetter)).2.dropWhile isDigit), ?_⟩
    simp only [text, List.append_assoc, List.takeWhile_append_dropWhile,
      anchorText_append_scanAnchor]

end CellRef.Spelling

namespace Token

theorem ref_prefix_of_first? {cs text : List Char} (h : first? cs = some (ref text)) :
    text <+: cs := by
  unfold first? at h
  split at h
  · cases h
  · split at h
    · rename_i spelling hscan
      cases h
      exact CellRef.Spelling.text_prefix_of_scan? hscan
    · split at h
      · cases h
      · obtain ⟨sign, -, hsign⟩ := Option.map_eq_some_iff.mp h
        cases hsign

theorem ref_infix_of_scanFrom {index : Nat} {cs : List Char} {ts : List Token}
    (h : scanFrom index cs = .ok ts) {text : List Char} (ht : ref text ∈ ts) : text <:+: cs := by
  fun_induction scanFrom index cs generalizing ts with
  | case1 =>
    cases h
    cases ht
  | case2 => cases h
  | case3 index cs c rest hskip index' t hfirst =>
    rename_i ih
    obtain ⟨ts', hts', rfl⟩ := Outcome.map_eq_ok_iff.mp h
    have hsuffix : c :: rest <:+ cs := hskip ▸ List.dropWhile_suffix isBlank
    rcases List.mem_cons.mp ht with rfl | ht
    · exact (ref_prefix_of_first? hfirst).isInfix.trans hsuffix.isInfix
    · exact (ih hts' ht).trans ((List.drop_suffix _ _).isInfix.trans hsuffix.isInfix)

theorem fault_of_scanFrom {index : Nat} {cs : List Char} {fault : Fault}
    (h : scanFrom index cs = .error fault) : ∃ cause, fault = .malformed cause := by
  fun_induction scanFrom index cs with
  | case1 => cases h
  | case2 =>
    cases h
    exact ⟨_, rfl⟩
  | case3 index cs c rest hskip index' t hfirst =>
    rename_i ih
    exact ih (Outcome.map_eq_error_iff.mp h)

end Token

namespace Formula

/-! ## Sound readings -/

/-- What holds of a formula that is read in the cell at `base`. -/
structure WellRead (base : Position) (f : Formula) : Prop where
  supported : f.Supported
  exists_text : ∀ r ∈ f.refs, ∃ text, CellRef.readAt text base = .ok r

/-- A fault that reading the tokens can end in. -/
def Blames (ts : List Token) (fault : Fault) : Prop :=
  (∃ cause, fault = .malformed cause) ∨
    fault = .longNumeral ∧ ∃ text, Token.ref text ∈ ts ∧ CellRef.HasLongRow (String.ofList text)

/-- What reading from the front of the tokens has to give: something good with the tokens after it,
or else a fault of the tokens. -/
def Yields {α : Type} {bound : Nat} (good : α → Prop) (ts : List Token) :
    Except Fault (Prefix α bound) → Prop
  | .ok taken => good taken.value ∧ taken.rest <:+ ts
  | .error fault => Blames ts fault

/-- A reader for the cell at `base` is sound whatever the tokens are. -/
def Reader.Sound (base : Position) (reader : Reader) : Prop :=
  ∀ ts, Yields (WellRead base) ts (reader ts)

variable {α β : Type} {base : Position} {ts us : List Token}

theorem WellRead.app {fn : String} {args : List Formula}
    (haccepts : Operation.accepts fn args.length = true) (hargs : ∀ f ∈ args, f.WellRead base) :
    (Formula.app fn args).WellRead base where
  supported := .app haccepts fun f hf ↦ (hargs f hf).supported
  exists_text r hr := by
    rw [refs_app] at hr
    obtain ⟨f, hf, hr⟩ := List.mem_flatMap.mp hr
    exact (hargs f hf).exists_text r hr

theorem Blames.mono {fault : Fault} (h : Blames ts fault) (hts : ts <:+ us) : Blames us fault := by
  rcases h with h | ⟨hfault, text, ht, hrow⟩
  · exact Or.inl h
  · exact Or.inr ⟨hfault, text, hts.subset ht, hrow⟩

theorem Yields.mono {bound : Nat} {good : α → Prop} {outcome : Except Fault (Prefix α bound)}
    (h : Yields good ts outcome) (hts : ts <:+ us) : Yields good us outcome := by
  cases outcome with
  | error fault => exact Blames.mono h hts
  | ok taken => exact ⟨h.1, h.2.trans hts⟩

theorem yields_malformed {bound : Nat} {good : α → Prop} (cause : Malformed) :
    Yields good ts (malformed cause : Except Fault (Prefix α bound)) := Or.inl ⟨cause, rfl⟩

theorem Yields.bind {bound bound' : Nat} {good : α → Prop} {good' : β → Prop}
    {outcome : Except Fault (Prefix α bound)}
    {next : Prefix α bound → Except Fault (Prefix β bound')}
    (h : Yields good ts outcome)
    (hnext : ∀ taken, good taken.value → taken.rest <:+ ts → Yields good' ts (next taken)) :
    Yields good' ts (outcome >>= next) := by
  cases outcome with
  | error fault => exact h
  | ok taken => exact hnext taken h.1 h.2

/-! ## Sound readers -/

section Readers

variable {isOperator : Char → Bool} {operand sum : Reader}

theorem yields_expect (wanted : Char) : Yields (fun _ ↦ True) ts (expect wanted ts) := by
  unfold expect
  split
  · exact yields_malformed _
  · split
    · exact ⟨trivial, List.suffix_cons _ _⟩
    · exact yields_malformed _
  · exact yields_malformed _

theorem yields_chainFrom (hoperand : operand.Sound base)
    (hoperator : ∀ sign, isOperator sign = true →
      Operation.accepts (String.ofList [sign]) 2 = true)
    {bound : Nat} {left : Formula} (hleft : left.WellRead base) (h : ts.length < bound) :
    Yields (WellRead base) ts (chainFrom isOperator operand left ts h) := by
  fun_induction chainFrom isOperator operand left ts h with
  | case1 left sign after h hsign fault hfault =>
    have hafter := hoperand after
    rw [hfault] at hafter
    exact hafter.mono (List.suffix_cons _ _)
  | case2 left sign after h hsign right hright hafter hrest ih =>
    have hread := hoperand after
    rw [hright] at hread
    refine (ih (.app (hoperator sign hsign) ?_)).mono (hread.2.trans (List.suffix_cons _ _))
    simp only [List.mem_cons, List.not_mem_nil, or_false]
    rintro f (rfl | rfl)
    · exact hleft
    · exact hread.1
  | case3 => exact ⟨hleft, List.suffix_rfl⟩
  | case4 => exact ⟨hleft, List.suffix_rfl⟩

theorem sound_chain (hoperand : operand.Sound base)
    (hoperator : ∀ sign, isOperator sign = true →
      Operation.accepts (String.ofList [sign]) 2 = true) :
    (chain isOperator operand).Sound base := by
  intro ts
  have hfirst := hoperand ts
  unfold chain
  split
  · rename_i fault hfault
    exact hfault ▸ hfirst
  · rename_i first hok
    rw [hok] at hfirst
    exact (yields_chainFrom hoperand hoperator hfirst.1 _).mono hfirst.2

theorem sound_sumOf (hoperand : operand.Sound base) : (sumOf operand).Sound base := by
  refine sound_chain (sound_chain hoperand fun sign h ↦ ?_) fun sign h ↦ ?_
  · rcases (by simpa [isMultiplicative] using h) with rfl | rfl <;> decide
  · rcases (by simpa [isAdditive] using h) with rfl | rfl <;> decide

theorem yields_argumentsFrom (hsum : sum.Sound base) {bound : Nat} {args : List Formula}
    (hargs : ∀ f ∈ args, f.WellRead base) (h : ts.length < bound) :
    Yields (fun args ↦ ∀ f ∈ args, f.WellRead base) ts (argumentsFrom sum args ts h) := by
  fun_induction argumentsFrom sum args ts h with
  | case1 args after fault hfault h hlt =>
    have hafter := hsum after
    rw [hfault] at hafter
    exact hafter.mono (List.suffix_cons _ _)
  | case2 args after next hnext h hafter hlt ih =>
    have hread := hsum after
    rw [hnext] at hread
    refine (ih fun f hf ↦ ?_).mono (hread.2.trans (List.suffix_cons _ _))
    rcases List.mem_cons.mp hf with rfl | hf
    · exact hread.1
    · exact hargs f hf
  | case3 => exact ⟨hargs, List.suffix_rfl⟩
  | case4 => exact ⟨hargs, List.suffix_rfl⟩

theorem sound_parenthesized (hsum : sum.Sound base) : (parenthesized sum).Sound base := by
  intro ts
  refine (hsum ts).bind fun inner hinner hrest ↦ ?_
  exact ((yields_expect ')').mono hrest).bind fun close _ hclose ↦ ⟨hinner, hclose⟩

theorem yields_call (hsum : sum.Sound base) (name : List Char) :
    Yields (WellRead base) ts (call sum name ts) := by
  rw [call]
  dsimp only
  split
  · exact yields_malformed _
  · -- each part reads what the part before it leaves, which still is the end of the tokens
    refine (yields_expect '(').bind fun opening _ hopening ↦ ?_
    refine ((hsum opening.rest).mono hopening).bind fun first hfirst hfirstRest ↦ ?_
    have hargs : Yields (fun args ↦ ∀ f ∈ args, f.WellRead base) first.rest
        (argumentsFrom sum [first.value] first.rest first.length_lt) :=
      yields_argumentsFrom hsum (by simpa using hfirst) _
    refine (hargs.mono hfirstRest).bind fun args hargs hargsRest ↦ ?_
    refine ((yields_expect ')').mono hargsRest).bind fun close _ hclose ↦ ?_
    split
    · rename_i haccepts
      refine ⟨.app (by rwa [List.length_reverse]) fun f hf ↦ ?_, hclose⟩
      exact hargs f (List.mem_reverse.mp hf)
    · exact yields_malformed _

theorem yields_number {text : List Char} {rest : List Token} {fault : Malformed} :
    Yields (WellRead base) (.number text :: rest)
      (if (DecimalText.scan text).value.rank = Binary64.infinity then malformed fault
        else .ok (⟨.num (DecimalText.scan text).value.toFloat, rest, Nat.lt_succ_self _⟩ :
          Prefix Formula (rest.length + 1))) := by
  split
  · exact yields_malformed _
  · refine ⟨⟨.num _, fun r hr ↦ ?_⟩, List.suffix_cons _ _⟩
    simp at hr

theorem yields_ref {text : List Char} {rest : List Token} :
    Yields (WellRead base) (.ref text :: rest) (do
      let target ← CellRef.readAt (String.ofList text) base
      return (⟨.ref target, rest, Nat.lt_succ_self _⟩ : Prefix Formula (rest.length + 1))) := by
  cases hread : CellRef.readAt (String.ofList text) base with
  | error fault =>
    rw [Outcome.error_bind]
    rcases CellRef.refusal_of_read (Outcome.map_eq_error_iff.mp hread) with hcause | ⟨hfault, hrow⟩
    · exact Or.inl hcause
    · exact Or.inr ⟨hfault, text, List.mem_cons_self, hrow⟩
  | ok target =>
    refine ⟨⟨.ref target, fun r hr ↦ ?_⟩, List.suffix_cons _ _⟩
    rw [refs_ref, List.mem_singleton] at hr
    exact ⟨String.ofList text, hr ▸ hread⟩

theorem Yields.cons {bound bound' : Nat} {t : Token} {outcome : Except Fault (Prefix Formula bound)}
    {hlt : ∀ taken : Prefix Formula bound, taken.rest.length < bound'}
    (h : Yields (WellRead base) ts outcome) (build : Formula → Formula)
    (hbuild : ∀ f, f.WellRead base → (build f).WellRead base) :
    Yields (WellRead base) (t :: ts) (do
      let inner ← outcome
      return (⟨build inner.value, inner.rest, hlt inner⟩ : Prefix Formula bound')) :=
  (h.mono (List.suffix_cons t ts)).bind fun _ hinner hrest ↦ ⟨hbuild _ hinner, hrest⟩

/-- **Reading an operand is sound**, by induction on the nesting depth that is left. -/
theorem sound_operand (base : Position) (depth : Nat) :
    (Formula.operand base depth).Sound base := by
  induction depth with
  | zero =>
    intro ts
    match ts with
    | [] => exact yields_malformed _
    | .number text :: rest => exact yields_number
    | .ref text :: rest => exact yields_ref
    | .op sign :: rest =>
      rw [Formula.operand]
      split <;> exact yields_malformed _
    | .name name :: rest => exact yields_malformed _
  | succ depth ih =>
    intro ts
    match ts with
    | [] => exact yields_malformed _
    | .number text :: rest => exact yields_number
    | .ref text :: rest => exact yields_ref
    | .op sign :: rest =>
      rw [Formula.operand]
      split
      · refine (ih rest).cons (fun f ↦ .app "-" [f]) fun f hf ↦ .app rfl ?_
        simpa using hf
      · split
        · exact (sound_parenthesized (sound_sumOf ih) rest).cons id fun _ hf ↦ hf
        · exact yields_malformed _
    | .name name :: rest => exact (yields_call (sound_sumOf ih) name).cons id fun _ hf ↦ hf

end Readers

/-! ## Formulas that are read -/

theorem wellRead_of_ofTokens {f : Formula} (h : ofTokens base ts = .ok f) : f.WellRead base := by
  unfold ofTokens at h
  split at h
  · cases h
  · have hsound := sound_sumOf (sound_operand base maxNesting) ts
    obtain ⟨whole, hwhole, h⟩ := Outcome.bind_eq_ok_iff.mp h
    rw [hwhole] at hsound
    split at h
    · cases h
      exact hsound.1
    · cases h

theorem blames_ofTokens {fault : Fault} (h : ofTokens base ts = .error fault) :
    Blames ts fault := by
  unfold ofTokens at h
  split at h
  · cases h
    exact Or.inl ⟨_, rfl⟩
  · have hsound := sound_sumOf (sound_operand base maxNesting) ts
    rcases Outcome.bind_eq_error_iff.mp h with hfault | ⟨whole, -, h⟩
    · rwa [hfault] at hsound
    · split at h
      · cases h
      · cases h
        exact Or.inl ⟨_, rfl⟩

theorem isInfix_body (text : String) : body text <:+: text.toList := by
  unfold body
  split
  · rename_i cs hcs
    exact (List.suffix_cons '=' cs).isInfix.trans (hcs ▸ isInfix_trim text.toList)
  · exact isInfix_trim text.toList

/-- **A formula that is read is well read.** -/
theorem wellRead_of_read {text : String} {f : Formula} (h : read text base = .ok f) :
    f.WellRead base := by
  obtain ⟨ts, -, hts⟩ := Outcome.bind_eq_ok_iff.mp h
  exact wellRead_of_ofTokens hts

/-- **A text that is not read is malformed**, or has a row of too many digits. -/
theorem fault_of_read {text : String} {fault : Fault} (h : read text base = .error fault) :
    (∃ cause, fault = .malformed cause) ∨ HasLongRun text.toList := by
  rcases Outcome.bind_eq_error_iff.mp h with hscan | ⟨ts, hscan, hts⟩
  · exact Or.inl (Token.fault_of_scanFrom hscan)
  · rcases blames_ofTokens hts with hcause | ⟨-, ref, href, hrow⟩
    · exact Or.inl hcause
    · have hrun := CellRef.hasLongRun_of_hasLongRow hrow
      rw [String.toList_ofList] at hrun
      exact Or.inr (hrun.mono ((Token.ref_infix_of_scanFrom hscan href).trans (isInfix_body text)))

@[simp] theorem read_strip (text : String) : read (strip text) base = read text base := by
  have hbody : body (strip text) = body text := by
    rw [body, body, toList_strip, trim_trim]
  rw [read, read, hbody]

theorem ne_empty_of_read {text : String} {f : Formula} (h : read text base = .ok f) :
    text ≠ "" := by
  rintro rfl
  have hscan : Token.scan (body "") = .ok [] := by
    rw [Token.scan, Token.scanFrom]
    rfl
  rw [read, hscan] at h
  cases h

namespace WellRead

variable {f : Formula}

/-- A reference of the formula resolves to the reference that its text spells, which names a cell of
the unbounded sheet. -/
theorem named (h : f.WellRead base) {r : CellRef} (hr : r ∈ f.refs) :
    (r.resolve base).position.Named := by
  obtain ⟨text, htext⟩ := h.exists_text r hr
  obtain ⟨place, hplace, rfl⟩ := Outcome.map_eq_ok_iff.mp htext
  rw [CellRef.resolve_relativeTo]
  exact Position.named_of_read hplace

theorem resolves (h : f.WellRead base) : f.Resolves base := fun _ hr ↦ (h.named hr).exists_id

end WellRead

end Formula

/-! ## References inside the bounds -/

namespace Settings

variable {s : Settings} {f : Formula} {base : Position}

/-- Every reference of a formula in the cell at `base` is inside the bounds. -/
def Covers (s : Settings) (f : Formula) (base : Position) : Prop :=
  ∀ r ∈ f.refs, s.inBounds (r.resolve base).position = true

instance (s : Settings) (f : Formula) (base : Position) : Decidable (s.Covers f base) :=
  inferInstanceAs (Decidable (∀ r ∈ f.refs, _ = true))

/-- **References are let through exactly if they are inside the bounds.** -/
theorem checkReferences_eq_ok_iff (hf : f.WellRead base) :
    s.checkReferences f base = .ok () ↔ s.Covers f base := by
  obtain ⟨ids, hids⟩ := Formula.exists_references_iff.mpr hf.resolves
  rw [checkReferences, hids, Outcome.ok_bind, Outcome.forM_eq_ok_iff]
  constructor
  · intro h r hr
    obtain ⟨id, hid⟩ := hf.resolves r hr
    obtain ⟨p, hp, -⟩ := Outcome.bind_eq_ok_iff.mp
      (h id ((Formula.mem_references_iff hids).mpr ⟨r, hr, hid⟩))
    have hnames := locate_eq_ok_iff.mp hp
    exact (names_id_iff hid).mp (hnames.eq_of_id hid ▸ hnames)
  · intro h id hmem
    obtain ⟨r, hr, hid⟩ := (Formula.mem_references_iff hids).mp hmem
    rw [locate_eq_ok_iff.mpr ((names_id_iff hid).mpr (h r hr))]
    rfl

theorem fault_of_checkReferences (hf : f.WellRead base) {fault : Fault}
    (h : s.checkReferences f base = .error fault) : ∃ cause, fault = .malformed cause := by
  obtain ⟨ids, hids⟩ := Formula.exists_references_iff.mpr hf.resolves
  rw [checkReferences, hids, Outcome.ok_bind] at h
  obtain ⟨id, hmem, hlocate⟩ := Outcome.exists_mem_of_forM_eq_error h
  obtain ⟨r, -, hid⟩ := (Formula.mem_references_iff hids).mp hmem
  rcases Outcome.bind_eq_error_iff.mp hlocate with hlocate | ⟨_, -, hpure⟩
  · exact ⟨_, fault_of_locate_id hid hlocate⟩
  · cases hpure

end Settings

end Spreadsheet
