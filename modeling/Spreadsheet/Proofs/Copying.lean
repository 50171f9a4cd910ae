import Spreadsheet.Proofs.Cycles
import Spreadsheet.Proofs.Effects
import Spreadsheet.Proofs.RoundTrip

/-!
# Copying formulas

A formula is copied by way of its text: it is written where it is to stand, and what is written is
evaluated there. So it goes through the writer, the reader and the checks of an edit, and each of
them can refuse it. A reference that would lie before the first column or row is not written. One
past the last column or row is written and read, and then refused for the bounds. All that a caller
sees is whether the formula fits into the other cell (`copy_exact`).

What is written reads back as the very formula that it was written for. So the other cell gets the
same formula, which means the same there but for the shift of its free references, and a formula can
be copied on from cell to cell without end.
-/

namespace Spreadsheet

open Text Numeral Workbook

/-- The place that a reference gets when its formula is copied from `p` to `q`: free parts move
along, anchored ones stay. -/
def CellRef.moved (r : CellRef) (p q : Position) : CellRef :=
  { r with
    col := if r.colAnchored then r.col else r.col + (q.col - p.col)
    row := if r.rowAnchored then r.row else r.row + (q.row - p.row) }

theorem CellRef.resolve_eq_moved (r : CellRef) (p q : Position) :
    r.resolve q = (r.resolve p).moved p q := by
  obtain ⟨col, row, colAnchored, rowAnchored⟩ := r
  cases colAnchored <;> cases rowAnchored <;> simp [resolve, moved] <;> omega

namespace Settings

variable {s : Settings} {f : Formula} {base : Position}

theorem inBounds_iff {p : Position} : s.inBounds p = true ↔
    (1 ≤ p.row ∧ p.row ≤ s.maxRows) ∧ 1 ≤ p.col ∧ p.col ≤ s.maxCols := by
  simp only [inBounds, Bool.and_eq_true, decide_eq_true_eq]

theorem named_of_inBounds {p : Position} (h : s.inBounds p = true)
    (hrow : isWritable p.row = true) : p.Named := by
  obtain ⟨hrows, hcols⟩ := inBounds_iff.mp h
  exact ⟨hcols.1, hrows.1, hrow⟩

theorem Covers.exists_write (h : s.Covers f base) (hf : f.Supported) (hshort : f.ShortAt base) :
    ∃ text, f.write base = .ok text :=
  (Formula.exists_write_iff hf).mpr fun r hr ↦ named_of_inBounds (h r hr) (hshort r hr).2

end Settings

namespace Sheet

variable {s s' : Sheet} {source target sourceId id text : String} {p q : Position} {f : Formula}
  {updates : Updates}

/-! ## What copying comes to -/

theorem run_remove_id (htarget : s.settings.Names target q) (hid : q.id = .ok id) :
    (remove id).run s = (remove target).run s := by
  have hnames : s.settings.Names id q := (Settings.names_id_iff hid).mpr htarget.inBounds
  rw [run_remove, run_remove, Settings.locate_eq_ok_iff.mpr hnames,
    Settings.locate_eq_ok_iff.mpr htarget]

theorem run_copy_of_empty (hsource : s.settings.Names source p) (hsourceId : p.id = .ok sourceId)
    (htarget : s.settings.Names target q) (hid : q.id = .ok id)
    (hnone : s.table.formula? sourceId = none) :
    (copy source target).run s = (remove target).run s := by
  have hcopied : s.copied source target = .ok (id, none) := by
    rw [copied, Settings.locate_eq_ok_iff.mpr hsource, Settings.locate_eq_ok_iff.mpr htarget,
      Outcome.ok_bind, Outcome.ok_bind, hsourceId, Outcome.ok_bind, hnone, hid]
    rfl
  rw [run_copy, hcopied]
  exact run_remove_id htarget hid

theorem run_copy_of_formula (hsource : s.settings.Names source p)
    (hsourceId : p.id = .ok sourceId) (htarget : s.settings.Names target q) (hid : q.id = .ok id)
    (hf : s.table.formula? sourceId = some f) :
    (copy source target).run s = match f.write q with
      | .ok text => (evaluate id text).run s
      | .error fault => (.error fault, s) := by
  have hcopied : s.copied source target = (f.write q).map fun text ↦ (id, some text) := by
    rw [copied, Settings.locate_eq_ok_iff.mpr hsource, Settings.locate_eq_ok_iff.mpr htarget,
      Outcome.ok_bind, Outcome.ok_bind, hsourceId, Outcome.ok_bind, hf, hid]
    dsimp only
    cases f.write q <;> rfl
  rw [run_copy, hcopied]
  cases f.write q <;> rfl

/-! ## Whether a formula fits -/

theorem accept_of_write (hs : s.Sound) (hf : s.table.formula? sourceId = some f)
    (hbounds : s.settings.inBounds q = true) (hid : q.id = .ok id) (hwrite : f.write q = .ok text) :
    (s.settings.Covers f q → s.settings.accept id text = .ok (id, f, q)) ∧
      (¬ s.settings.Covers f q →
        ∃ cause, s.settings.accept id text = .error (.malformed cause)) := by
  obtain ⟨base, -, -, -, hread⟩ := Table.Sound.exists_base hs hf
  have hback : Formula.read text q = .ok f := (Formula.readsBack_of_write hread hwrite).read
  have hnames : s.settings.Names id q := (Settings.names_id_iff hid).mpr hbounds
  refine ⟨fun hcovers ↦ accept_of_names hnames hid hback hcovers, fun hout ↦ ?_⟩
  have hwell := Formula.wellRead_of_read hback
  rw [Settings.accept, Settings.locate_eq_ok_iff.mpr hnames, Outcome.ok_bind, Formula.read_strip,
    hback, Outcome.ok_bind]
  cases hcheck : s.settings.checkReferences f q with
  | ok _ => exact absurd ((Settings.checkReferences_eq_ok_iff hwell).mp hcheck) hout
  | error fault =>
    obtain ⟨cause, rfl⟩ := Settings.fault_of_checkReferences hwell hcheck
    exact ⟨cause, rfl⟩

section Fits

variable (hs : s.Sound) (hsource : s.settings.Names source p) (hsourceId : p.id = .ok sourceId)
  (htarget : s.settings.Names target q) (hid : q.id = .ok id)
  (hf : s.table.formula? sourceId = some f)

include hs hsource hsourceId htarget hid hf

/-- A formula that reaches out of bounds in the other cell is malformed there, whichever part of an
edit it is that finds out. -/
theorem run_copy_of_not_covers (hshort : f.ShortAt q) (hout : ¬ s.settings.Covers f q) :
    ∃ cause, (copy source target).run s = (.error (.malformed cause), s) := by
  obtain ⟨base, -, hwell⟩ := Table.Sound.wellRead hs hf
  rw [run_copy_of_formula hsource hsourceId htarget hid hf]
  cases hwrite : f.write q with
  | error fault =>
    obtain ⟨-, cause, rfl⟩ := Formula.fault_of_write hwell.supported hshort hwrite
    exact ⟨cause, rfl⟩
  | ok text =>
    obtain ⟨cause, haccept⟩ := (accept_of_write hs hf htarget.inBounds hid hwrite).2 hout
    refine ⟨cause, ?_⟩
    dsimp only
    rw [run_evaluate, haccept]

theorem exists_accept_of_covers (hshort : f.ShortAt q) (hcovers : s.settings.Covers f q) :
    ∃ text, s.settings.accept id text = .ok (id, f, q) ∧
      (copy source target).run s = (evaluate id text).run s := by
  obtain ⟨base, -, hwell⟩ := Table.Sound.wellRead hs hf
  obtain ⟨text, hwrite⟩ := hcovers.exists_write hwell.supported hshort
  refine ⟨text, (accept_of_write hs hf htarget.inBounds hid hwrite).1 hcovers, ?_⟩
  rw [run_copy_of_formula hsource hsourceId htarget hid hf, hwrite]

/-- **A formula fits into another cell** unless it reaches out of bounds or closes a circle there,
and each of the two is reported as what it is. -/
theorem run_copy_cases (hshort : f.ShortAt q) :
    (¬ s.settings.Covers f q ∧
      ∃ cause, (copy source target).run s = (.error (.malformed cause), s)) ∨
    (s.settings.Covers f q ∧ s.table.Closes id f q ∧
      ∃ cause, (copy source target).run s = (.error (.circular cause), s)) ∨
    (s.settings.Covers f q ∧ ¬ s.table.Closes id f q ∧
      ∃ updates s', (copy source target).run s = (.ok updates, s')) := by
  by_cases hcovers : s.settings.Covers f q
  · obtain ⟨text, haccept, hrun⟩ :=
      exists_accept_of_covers hs hsource hsourceId htarget hid hf hshort hcovers
    rw [hrun]
    rcases run_evaluate_of_accept hs haccept with ⟨hcloses, hfault⟩ | ⟨hno, hdone⟩
    · exact Or.inr (Or.inl ⟨hcovers, hcloses, hfault⟩)
    · exact Or.inr (Or.inr ⟨hcovers, hno, hdone⟩)
  · exact Or.inl ⟨hcovers,
      run_copy_of_not_covers hs hsource hsourceId htarget hid hf hshort hcovers⟩

/-- **The other cell gets the very formula**, with the text that is written for it, and no other
formula changes. -/
theorem formula?_of_copy (hrun : (copy source target).run s = (.ok updates, s')) :
    f.write q = .ok (s'.table.text id) ∧
      ∀ x, s'.table.formula? x = if x = id then some f else s.table.formula? x := by
  obtain ⟨base, id', expr, g, hnames, hid', hwrite, hread', heffect, -⟩ :=
    effect_of_copy hs hsource hsourceId hf hrun
  obtain rfl := hnames.unique htarget
  rw [hid, Except.ok.injEq] at hid'
  subst hid'
  obtain ⟨_, -, -, -, hread⟩ := Table.Sound.exists_base hs hf
  have hback := Formula.readsBack_of_write hread hwrite
  have hsame : g = f := by
    rw [hback.read, Except.ok.injEq] at hread'
    exact hread'.symm
  refine ⟨?_, hsame ▸ heffect.formula?⟩
  rw [heffect.text, if_pos rfl, hback.strip_eq]
  exact hwrite

end Fits

/-! ## Copying on -/

/-- The cell that a text names has the formula. -/
def Holds (s : Sheet) (cell : String) (f : Formula) : Prop :=
  ∃ p id, s.settings.Names cell p ∧ p.id = .ok id ∧ s.table.formula? id = some f

/-- Copies a formula from the source to the first of the targets, from there to the second, and so
on. -/
def copyAlong (source : String) : List String → Action Sheet Unit
  | [] => return ()
  | target :: rest => do
    let _ ← copy source target
    copyAlong target rest

theorem run_copy_sound (hs : s.Sound) (hrun : (copy source target).run s = (.ok updates, s')) :
    s'.Sound ∧ s'.settings = s.settings := by
  have houtcome := outcome_copy hs source target
  rw [hrun] at houtcome
  exact houtcome.sound hs

theorem Holds.copy (hsource : s.Holds source f) (hs : s.Sound)
    (hrun : (copy source target).run s = (.ok updates, s')) :
    s'.Holds target f ∧ ∀ cell, s.Holds cell f → s'.Holds cell f := by
  obtain ⟨p, sourceId, hp, hsourceId, hf⟩ := hsource
  obtain ⟨q, id, -, -, hq, hid, -⟩ := effect_of_copy hs hp hsourceId hf hrun
  obtain ⟨-, hsettings⟩ := run_copy_sound hs hrun
  obtain ⟨-, hformula⟩ := formula?_of_copy hs hp hsourceId hq hid hf hrun
  refine ⟨⟨q, id, hsettings ▸ hq, hid, by rw [hformula, if_pos rfl]⟩, ?_⟩
  rintro cell ⟨p', x, hnames, hx, hcell⟩
  refine ⟨p', x, hsettings ▸ hnames, hx, ?_⟩
  rw [hformula]
  split
  · rfl
  · exact hcell

/-- **A formula can be copied on**: it is then in all cells on the way. -/
theorem Holds.copyAlong {targets : List String} (hsource : s.Holds source f) (hs : s.Sound)
    (hrun : (copyAlong source targets).run s = (.ok (), s')) :
    ∀ cell, cell ∈ targets ∨ s.Holds cell f → s'.Holds cell f := by
  induction targets generalizing s source with
  | nil =>
    cases hrun
    rintro cell (hmem | hcell)
    · cases hmem
    · exact hcell
  | cons target rest ih =>
    obtain ⟨updates, mid, hcopy, hrest⟩ := Action.run_bind_eq_ok_iff.mp hrun
    obtain ⟨htarget, hkept⟩ := hsource.copy hs hcopy
    have hlater := ih htarget (run_copy_sound hs hcopy).1 hrest
    rintro cell (hmem | hcell)
    · rcases List.mem_cons.mp hmem with rfl | hmem
      · exact hlater cell (Or.inr htarget)
      · exact hlater cell (Or.inl hmem)
    · exact hlater cell (Or.inr (hkept cell hcell))

/-- **Copying puts the same formula into another cell.** In a reachable sheet, copying a cell
without a formula is emptying the other one. Where the numbers of its references are short enough to
be written, a formula is refused exactly if one of its references is moved out of bounds, or else if
it closes a circle in the other cell. Otherwise it goes in as it is, the source keeps it, and copied
on it is the same in all cells on the way. -/
theorem copy_exact (name : String) (settings : Settings) (requests : List Request)
    (hsource : settings.Names source p) (htarget : settings.Names target q) :
    let s := (empty name settings).after requests
    ∃ sourceId id, p.id = .ok sourceId ∧ q.id = .ok id ∧
      (s.table.formula? sourceId = none → (copy source target).run s = (remove target).run s) ∧
      ∀ f, s.table.formula? sourceId = some f →
        (∀ r ∈ f.refs, r.resolve q = (r.resolve p).moved p q) ∧
        (f.ShortAt q →
          ((∃ cause, (copy source target).run s = (.error (.malformed cause), s)) ↔
            ¬ settings.Covers f q) ∧
          (settings.Covers f q →
            ((∃ cause, (copy source target).run s = (.error (.circular cause), s)) ↔
              s.table.Closes id f q) ∧
            ((∃ updates s', (copy source target).run s = (.ok updates, s')) ↔
              ¬ s.table.Closes id f q))) ∧
        (∀ updates s', (copy source target).run s = (.ok updates, s') →
          s'.table.formula? id = some f ∧ f.write q = .ok (s'.table.text id) ∧
            s'.table.formula? sourceId = some f) ∧
        ∀ targets s', (copyAlong source targets).run s = (.ok (), s') →
          ∀ cell ∈ source :: targets, s'.Holds cell f := by
  intro s
  obtain ⟨hs, hsettings⟩ : s.Sound ∧ s.settings = settings :=
    (sound_empty name settings).after requests
  rw [← hsettings] at hsource htarget ⊢
  obtain ⟨sourceId, hsourceId⟩ := hsource.named.exists_id
  obtain ⟨id, hid⟩ := htarget.named.exists_id
  refine ⟨sourceId, id, hsourceId, hid,
    run_copy_of_empty hsource hsourceId htarget hid, fun f hf ↦ ⟨?_, fun hshort ↦ ?_, ?_, ?_⟩⟩
  · exact fun r _ ↦ r.resolve_eq_moved p q
  · rcases run_copy_cases hs hsource hsourceId htarget hid hf hshort with
      ⟨hout, cause, hrun⟩ | ⟨hcovers, hcloses, cause, hrun⟩ | ⟨hcovers, hno, updates, s', hrun⟩
    · simp [hrun, hout]
    · simp [hrun, hcovers, hcloses]
    · simp [hrun, hcovers, hno]
  · intro updates s' hrun
    obtain ⟨htext, hformula⟩ := formula?_of_copy hs hsource hsourceId htarget hid hf hrun
    refine ⟨by rw [hformula, if_pos rfl], htext, ?_⟩
    rw [hformula, hf, ite_self]
  · intro targets s' hrun cell hcell
    have hholds : s.Holds source f := ⟨p, sourceId, hsource, hsourceId, hf⟩
    refine hholds.copyAlong hs hrun cell ?_
    rcases List.mem_cons.mp hcell with rfl | hmem
    · exact Or.inr hholds
    · exact Or.inl hmem

/-- A formula with a free and an anchored reference is copied along the diagonal. It does
not fit into the cell `a1`, as the free reference would be off the sheet, nor into the
cell that is anchored. -/
theorem copy_exact_diagonal :
    let s := (empty "s" .standard).after [.evaluate "b2" "a1+$d$9"]
    let f : Formula := .app "+" [.ref ⟨-1, -1, false, false⟩, .ref ⟨4, 9, true, true⟩]
    (∃ cause, (copy "b2" "a1").run s = (.error (.malformed cause), s)) ∧
    (∃ cause, (copy "b2" "d9").run s = (.error (.circular cause), s)) ∧
    (∃ s', (copy "b2" "c3").run s = (.ok [("c3", 0.0)], s') ∧ s'.table.formula? "c3" = some f ∧
      f.write ⟨3, 3⟩ = .ok (s'.table.text "c3")) ∧
    (∃ s', (copyAlong "b2" ["c3", "e5"]).run s = (.ok (), s') ∧ s'.Holds "e5" f) ∧
    (copy "a1" "b2").run s = (remove "b2").run s := by
  intro s f
  have hnames {cell : String} {p : Position} (h : Settings.standard.locate cell = .ok p) :
      Settings.standard.Names cell p := Settings.locate_eq_ok_iff.mp h
  have hsource : Settings.standard.Names "b2" ⟨2, 2⟩ := hnames (by decide +kernel)
  have hsourceId : Position.id ⟨2, 2⟩ = .ok "b2" := by decide +kernel
  have hf : s.table.formula? "b2" = some f := by decide +kernel
  have hexact (target id : String) (q : Position) (htarget : Settings.standard.Names target q)
      (hid : q.id = .ok id) := by
    have h := copy_exact "s" .standard [.evaluate "b2" "a1+$d$9"] hsource htarget
    simp only [hsourceId, hid, Except.ok.injEq, exists_and_left, exists_eq_left'] at h
    exact h.2 f hf
  refine ⟨?_, ?_, ?_, ?_, ?_⟩
  · obtain ⟨-, hfits, -⟩ := hexact "a1" "a1" ⟨1, 1⟩ (hnames (by decide +kernel)) (by decide +kernel)
    refine (hfits (by decide +kernel)).1.mpr fun hcovers ↦ ?_
    have hout := hcovers ⟨-1, -1, false, false⟩ (by decide +kernel)
    exact absurd hout (by decide)
  · obtain ⟨-, hfits, -⟩ := hexact "d9" "d9" ⟨4, 9⟩ (hnames (by decide +kernel)) (by decide +kernel)
    refine ((hfits (by decide +kernel)).2 (by decide +kernel)).1.mpr ⟨"d9", ?_, .refl⟩
    exact ⟨⟨4, 9, true, true⟩, by decide +kernel, by decide +kernel⟩
  · obtain ⟨-, -, hdone, -⟩ :=
      hexact "c3" "c3" ⟨3, 3⟩ (hnames (by decide +kernel)) (by decide +kernel)
    have hrun : (copy "b2" "c3").run s = (.ok [("c3", 0.0)], ((copy "b2" "c3").run s).2) :=
      Prod.ext (by decide +kernel) rfl
    obtain ⟨hformula, htext, -⟩ := hdone _ _ hrun
    exact ⟨_, hrun, hformula, htext⟩
  · obtain ⟨-, -, -, halong⟩ :=
      hexact "c3" "c3" ⟨3, 3⟩ (hnames (by decide +kernel)) (by decide +kernel)
    have hrun : (copyAlong "b2" ["c3", "e5"]).run s
        = (.ok (), ((copyAlong "b2" ["c3", "e5"]).run s).2) := Prod.ext (by decide +kernel) rfl
    exact ⟨_, hrun, halong _ _ hrun "e5" (by decide)⟩
  · have hplace : Settings.standard.Names "a1" ⟨1, 1⟩ := hnames (by decide +kernel)
    obtain ⟨sourceId, id, hid, -, hempty, -⟩ :=
      copy_exact "s" .standard [.evaluate "b2" "a1+$d$9"] hplace hsource
    have ha1 : Position.id ⟨1, 1⟩ = .ok "a1" := by decide +kernel
    rw [ha1, Except.ok.injEq] at hid
    exact hempty (hid ▸ by decide +kernel)

end Sheet

end Spreadsheet
