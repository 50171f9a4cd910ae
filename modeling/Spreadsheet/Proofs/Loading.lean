import Spreadsheet.Proofs.Replay

/-!
# Loading texts from elsewhere

A store can have anything: texts that are no formulas, names that are no cells, two spellings of one
cell, formulas that read each other. A sheet is made from what of it is any good. A text that the
settings do not let through is left out, whatever else there is, but a text that closes a circle is
left out only because another one came before it.

So what a sheet is made of depends on the order of the texts in general. It does not if the texts
are `Orderly`: what is let through of them stands under canonical ids and has no circles. Then all
of it goes in, and the sheet `Keeps` the texts. Edits keep that up, and texts that a sheet keeps are
orderly, so that the sheet can be made again from them.
-/

namespace Spreadsheet

open Relation Text

namespace Sheet

/-! ## Orderly texts -/

/-- One cell reads another one by a text that it has in a store and that the settings let
through. -/
def ReadsIn (settings : Settings) (cells : OrderedMap String String) (y x : String) : Prop :=
  ∃ cell expr f base, cells.get? cell = some expr ∧
    settings.accept cell expr = .ok (y, f, base) ∧ f.References base x

/-- What the settings let through of the texts can stand together in one sheet. -/
structure Orderly (settings : Settings) (cells : OrderedMap String String) : Prop where
  /-- No text stands under another spelling of its cell. -/
  canonical : ∀ cell expr id f base, cells.get? cell = some expr →
    settings.accept cell expr = .ok (id, f, base) → cell = id
  /-- No cell reads itself. -/
  acyclic : ∀ x, ¬ TransGen (ReadsIn settings cells) x x

/-- Whatever is wrong with a text, users get to see it. A text that is at fault in any other way
keeps the sheet from being made. -/
def Reportable (settings : Settings) (cell expr : String) : Prop :=
  ∀ fault, settings.accept cell expr = .error fault → fault.code?.isSome = true

/-- The texts of a sheet are from a store, up to blanks around them. -/
def Draws (s : Sheet) (cells : OrderedMap String String) : Prop :=
  ∀ x, s.table.text x ≠ "" → ∃ expr, cells.get? x = some expr ∧ strip expr = s.table.text x

/-- A sheet has the texts of a store that the settings let through, and none besides. -/
structure Keeps (s : Sheet) (cells : OrderedMap String String) : Prop where
  draws : s.Draws cells
  kept : ∀ cell expr id f base, cells.get? cell = some expr →
    s.settings.accept cell expr = .ok (id, f, base) → cell = id ∧ s.table.text id = strip expr
  reportable : ∀ cell expr, cells.get? cell = some expr → Reportable s.settings cell expr

variable {s u made : Sheet} {cells : OrderedMap String String} {cell id expr : String}
  {rows : List Entry} {settings : Settings} {f : Formula} {t : Table} {updates : Updates}

theorem reportable_of_accept {result : String × Formula × Position}
    (h : settings.accept cell expr = .ok result) : Reportable settings cell expr := by
  intro fault hfault
  rw [h] at hfault
  cases hfault

/-! ## What a sheet has from a store -/

theorem Draws.readsIn (h : s.Draws cells) (hs : s.Sound) {x y : String}
    (hreads : s.table.Reads y x) : ReadsIn s.settings cells y x := by
  obtain ⟨f, base, hf, hbase, hx⟩ := hreads
  obtain ⟨expr, hget, hexpr⟩ := h y (hs.spells y f hf).1
  obtain ⟨base', haccept, hbase'⟩ := hs.accept_text hf hexpr
  rw [hbase, Except.ok.injEq] at hbase'
  exact ⟨y, expr, f, base, hget, hbase' ▸ haccept, hx⟩

theorem Keeps.orderly (h : s.Keeps cells) (hs : s.Sound) : Orderly s.settings cells where
  canonical cell expr id f base hget haccept := (h.kept cell expr id f base hget haccept).1
  acyclic x hcycle := by
    have hreads : ∀ y z, ReadsIn s.settings cells y z → s.table.Reads y z := by
      rintro y z ⟨cell, expr, f, base, hget, haccept, hz⟩
      obtain ⟨-, htext⟩ := h.kept cell expr y f base hget haccept
      obtain ⟨-, hacc⟩ := Settings.accept_eq_ok_iff.mp haccept
      have hne : s.table.text y ≠ "" := htext ▸ Formula.ne_empty_of_read hacc.read_eq
      obtain ⟨g, hg⟩ := hs.text_ne_empty_iff.mp hne
      obtain ⟨base', -, hbase', -, hread⟩ := Table.Sound.exists_base hs hg
      rw [hacc.read_id, Except.ok.injEq] at hbase'
      rw [htext, ← hbase', hacc.read_eq, Except.ok.injEq] at hread
      exact ⟨g, base, hg, hacc.read_id, hread ▸ hz⟩
    exact hs.acyclic x (TransGen.mono hreads x x hcycle)

/-- **Sheets that keep the same texts are alike.** -/
theorem Keeps.alike (h : s.Keeps cells) (h' : u.Keeps cells) (hs : s.Sound) (hu : u.Sound)
    (hsettings : s.settings = u.settings) : s.Alike u := by
  -- what one sheet has is let through, so the other one keeps it
  have hsame : ∀ {v w : Sheet}, v.Keeps cells → w.Keeps cells → v.Sound →
      v.settings = w.settings → ∀ x, v.table.text x ≠ "" → w.table.text x = v.table.text x := by
    intro v w hv hw hsound hset x hx
    obtain ⟨expr, hget, hexpr⟩ := hv.draws x hx
    obtain ⟨f, hf⟩ := hsound.text_ne_empty_iff.mp hx
    obtain ⟨base, haccept, -⟩ := hsound.accept_text hf hexpr
    rw [(hw.kept x expr x f base hget (hset ▸ haccept)).2, hexpr]
  refine ⟨hsettings, funext fun x ↦ ?_⟩
  by_cases hx : s.table.text x = ""
  · by_contra hne
    have hux : u.table.text x ≠ "" := fun heq ↦ hne (hx.trans heq.symm)
    exact hne (hsame h' h hu hsettings.symm x hux)
  · exact (hsame h h' hs hsettings x hx).symm

/-! ## Loading -/

/-- What can become of a sheet that is given one more text: it is as it was, or the text went in. -/
inductive Absorbed (s : Sheet) (cell expr : String) : Sheet → Prop
  | skipped (reportable : Reportable s.settings cell expr)
      (closes : ∀ id f base, s.settings.accept cell expr = .ok (id, f, base) →
        s.table.Closes id f base) : Absorbed s cell expr s
  | edited {id : String} {f : Formula} {base : Position} {updates : Updates} {t : Table}
      (accept : s.settings.accept cell expr = .ok (id, f, base))
      (edited : s.table.Edited t s.settings id (strip expr) updates) :
      Absorbed s cell expr { s with table := t }

/-- **A text goes in, is left out, or keeps the sheet from being made**, which only a text with a
fault that users do not get to see can do. -/
theorem absorbed_of_sound (hs : s.Sound) (cell expr : String) :
    (∃ made, absorb s (cell, expr) = .ok made ∧ s.Absorbed cell expr made) ∨
      ∃ fault, absorb s (cell, expr) = .error fault ∧ ¬ Reportable s.settings cell expr := by
  cases haccept : s.settings.accept cell expr with
  | error fault =>
    have hrun : (evaluate cell expr).run s = (.error fault, s) := by rw [run_evaluate, haccept]
    rw [absorb, hrun]
    dsimp only
    split
    · rename_i hcode
      refine Or.inl ⟨s, rfl, .skipped (fun other hother ↦ ?_) fun id f base hok ↦ ?_⟩
      · rw [haccept] at hother
        cases hother
        exact hcode
      · rw [haccept] at hok
        cases hok
    · rename_i hcode
      exact Or.inr ⟨fault, rfl, fun hreportable ↦ hcode (hreportable fault haccept)⟩
  | ok result =>
    obtain ⟨id, f, base⟩ := result
    by_cases hcloses : s.table.Closes id f base
    · obtain ⟨cause, hrun⟩ := run_evaluate_of_closes hs haccept hcloses
      rw [absorb, hrun]
      refine Or.inl ⟨s, rfl, .skipped (reportable_of_accept haccept) fun id' f' base' hok ↦ ?_⟩
      rw [haccept] at hok
      cases hok
      exact hcloses
    · obtain ⟨updates, t, hrun, hedited⟩ := exists_evaluate hs haccept hcloses
      rw [absorb, hrun]
      exact Or.inl ⟨_, rfl, .edited haccept hedited⟩

theorem absorbed_of_absorb (hs : s.Sound) (h : absorb s (cell, expr) = .ok made) :
    s.Absorbed cell expr made := by
  rcases absorbed_of_sound hs cell expr with ⟨made', habsorb, habsorbed⟩ | ⟨fault, habsorb, -⟩
  · rw [h, Except.ok.injEq] at habsorb
    exact habsorb ▸ habsorbed
  · rw [h] at habsorb
    cases habsorb

theorem Absorbed.sound (h : s.Absorbed cell expr made) (hs : s.Sound) :
    made.Sound ∧ made.settings = s.settings := by
  cases h with
  | skipped reportable closes => exact ⟨hs, rfl⟩
  | edited accept edited => exact ⟨edited.sound, rfl⟩

/-- Among orderly texts none closes a circle, so what is let through goes in. -/
theorem Absorbed.text_eq (h : s.Absorbed cell expr made) (horderly : Orderly s.settings cells)
    (hs : s.Sound) (hdraws : s.Draws cells) (hget : cells.get? cell = some expr) :
    made.Draws cells ∧ (∀ x, x ≠ cell → made.table.text x = s.table.text x) ∧
      ∀ id f base, s.settings.accept cell expr = .ok (id, f, base) →
        made.table.text id = strip expr := by
  cases h with
  | skipped reportable closes =>
    refine ⟨hdraws, fun _ _ ↦ rfl, fun id f base haccept ↦ ?_⟩
    obtain ⟨x, hx, hpath⟩ := closes id f base haccept
    have hmono : (fun y z ↦ y ≠ id ∧ s.table.Reads y z) ≤ ReadsIn s.settings cells :=
      fun y z hyz ↦ hdraws.readsIn hs hyz.2
    exact absurd (.head' ⟨cell, expr, f, base, hget, haccept, hx⟩
      (ReflTransGen.mono hmono x id hpath))
      (horderly.acyclic id)
  | @edited id f base updates t accept edited =>
    obtain rfl := horderly.canonical cell expr id f base hget accept
    refine ⟨fun x hx ↦ ?_, fun x hx ↦ ?_, fun id' f' base' haccept ↦ ?_⟩
    · change t.text x ≠ "" at hx
      change ∃ other, cells.get? x = some other ∧ strip other = t.text x
      rw [edited.text] at hx ⊢
      split at hx
      · rename_i heq
        rw [if_pos heq]
        exact ⟨expr, heq ▸ hget, rfl⟩
      · rename_i hne
        rw [if_neg hne]
        exact hdraws x hx
    · exact (edited.text x).trans (if_neg hx)
    · rw [accept] at haccept
      cases haccept
      exact (edited.text cell).trans (if_pos rfl)

/-- What giving a sheet more texts of a store comes to, if they are orderly. -/
structure Loaded (s made : Sheet) (cells : OrderedMap String String) (rows : List Entry) :
    Prop where
  draws : made.Draws cells
  /-- Other cells are as they were. -/
  text : ∀ x, x ∉ rows.map Prod.fst → made.table.text x = s.table.text x
  kept : ∀ e ∈ rows, ∀ id f base, s.settings.accept e.1 e.2 = .ok (id, f, base) →
    made.table.text id = strip e.2

theorem Sound.foldlM_absorb (hs : s.Sound) (h : rows.foldlM absorb s = .ok made) :
    made.Sound ∧ made.settings = s.settings ∧ ∀ e ∈ rows, Reportable s.settings e.1 e.2 := by
  induction rows generalizing s with
  | nil =>
    cases h
    exact ⟨hs, rfl, nofun⟩
  | cons e rest ih =>
    obtain ⟨cell, expr⟩ := e
    rw [List.foldlM_cons] at h
    obtain ⟨mid, habsorb, h⟩ := Outcome.bind_eq_ok_iff.mp h
    have habsorbed := absorbed_of_absorb hs habsorb
    obtain ⟨hmid, hsettings⟩ := habsorbed.sound hs
    obtain ⟨hmade, hsettings', hrest⟩ := ih hmid h
    refine ⟨hmade, hsettings'.trans hsettings, List.forall_mem_cons.mpr ⟨?_, hsettings ▸ hrest⟩⟩
    cases habsorbed with
    | skipped reportable closes => exact reportable
    | edited accept edited => exact reportable_of_accept accept

theorem Sound.exists_foldlM_absorb (hs : s.Sound)
    (hrows : ∀ e ∈ rows, Reportable s.settings e.1 e.2) :
    ∃ made, rows.foldlM absorb s = .ok made := by
  induction rows generalizing s with
  | nil => exact ⟨s, rfl⟩
  | cons e rest ih =>
    obtain ⟨cell, expr⟩ := e
    obtain ⟨hreportable, hrest⟩ := List.forall_mem_cons.mp hrows
    rcases absorbed_of_sound hs cell expr with ⟨mid, habsorb, habsorbed⟩ | ⟨fault, -, hnot⟩
    · obtain ⟨hmid, hsettings⟩ := habsorbed.sound hs
      obtain ⟨made, hmade⟩ := ih hmid (hsettings ▸ hrest)
      refine ⟨made, ?_⟩
      rw [List.foldlM_cons, habsorb]
      exact hmade
    · exact absurd hreportable hnot

theorem loaded_of_foldlM (horderly : Orderly s.settings cells) (hs : s.Sound)
    (hdraws : s.Draws cells) (hrows : ∀ e ∈ rows, cells.get? e.1 = some e.2)
    (hnodup : (rows.map Prod.fst).Nodup) (h : rows.foldlM absorb s = .ok made) :
    s.Loaded made cells rows := by
  induction rows generalizing s with
  | nil =>
    cases h
    exact ⟨hdraws, fun _ _ ↦ rfl, nofun⟩
  | cons e rest ih =>
    obtain ⟨cell, expr⟩ := e
    rw [List.foldlM_cons] at h
    obtain ⟨mid, habsorb, h⟩ := Outcome.bind_eq_ok_iff.mp h
    have habsorbed := absorbed_of_absorb hs habsorb
    obtain ⟨hget, hrest⟩ := List.forall_mem_cons.mp hrows
    obtain ⟨hnot, hnodup'⟩ := List.nodup_cons.mp hnodup
    obtain ⟨hmid, hsettings⟩ := habsorbed.sound hs
    obtain ⟨hdraws', htext, hin⟩ := habsorbed.text_eq horderly hs hdraws hget
    have hloaded := ih (hsettings ▸ horderly) hmid hdraws' hrest hnodup' h
    refine ⟨hloaded.draws, fun x hx ↦ ?_, List.forall_mem_cons.mpr ⟨?_, hsettings ▸ hloaded.kept⟩⟩
    · obtain ⟨hne, hx⟩ := not_or.mp (List.mem_cons.not.mp hx)
      exact (hloaded.text x hx).trans (htext x hne)
    · intro id f base haccept
      -- the cell is not among the rest, which leaves it as it is
      obtain rfl := horderly.canonical cell expr id f base hget haccept
      exact (hloaded.text cell hnot).trans (hin cell f base haccept)

/-- **A sheet keeps the orderly texts that it is made from**, in whatever order they come. -/
theorem Orderly.keeps {name : String} (h : Orderly settings cells)
    (hmade : ofEntries name settings cells.entries = .ok made) : made.Keeps cells := by
  have hempty := sound_empty name settings
  have hdraws : (empty name settings).Draws cells := fun x hx ↦ absurd rfl hx
  have hget : ∀ e ∈ cells.entries, cells.get? e.1 = some e.2 := fun e he ↦
    OrderedMap.get?_eq_some_iff.mpr he
  have hmem {cell expr : String} (h : cells.get? cell = some expr) : (cell, expr) ∈ cells.entries :=
    OrderedMap.get?_eq_some_iff.mp h
  obtain ⟨-, hsettings, hreportable⟩ := hempty.foldlM_absorb hmade
  have hloaded := loaded_of_foldlM h hempty hdraws hget cells.nodup_keys hmade
  refine ⟨hloaded.draws, fun cell expr id f base hcell haccept ↦ ?_, fun cell expr hcell ↦ ?_⟩
  · rw [hsettings] at haccept
    exact ⟨h.canonical cell expr id f base hcell haccept,
      hloaded.kept (cell, expr) (hmem hcell) id f base haccept⟩
  · rw [hsettings]
    exact hreportable (cell, expr) (hmem hcell)

/-- **A sheet can be made again** from the texts that it keeps. -/
theorem Keeps.exists_ofEntries (h : s.Keeps cells) (hs : s.Sound) (name : String) :
    ∃ made, ofEntries name s.settings cells.entries = .ok made ∧ made.Sound ∧ made.Alike s := by
  have hempty := sound_empty name s.settings
  obtain ⟨made, hmade⟩ := hempty.exists_foldlM_absorb fun e he ↦
    h.reportable e.1 e.2 (OrderedMap.get?_eq_some_iff.mpr he)
  obtain ⟨hsound, hsettings, -⟩ := hempty.foldlM_absorb hmade
  exact ⟨made, hmade, hsound, ((h.orderly hs).keeps hmade).alike h hsound hs hsettings⟩

/-! ## Edits -/

/-- What a store has of a sheet when the text of a cell has been written through. -/
def written (cells : OrderedMap String String) (id text : String) : OrderedMap String String :=
  if text = "" then cells.erase id else cells.insert id text

theorem get?_written_eq_some_iff {x text other : String} :
    (written cells id text).get? x = some other ↔
      x = id ∧ text ≠ "" ∧ other = text ∨ x ≠ id ∧ cells.get? x = some other := by
  unfold written
  by_cases hx : x = id
  · split <;> simp_all [OrderedMap.get?_erase, OrderedMap.get?_insert, eq_comm]
  · split <;> simp_all [OrderedMap.get?_erase, OrderedMap.get?_insert]

theorem accept_of_edited (hedited : s.table.Edited t s.settings id expr updates) (hne : expr ≠ "") :
    ∃ f base, s.settings.accept id expr = .ok (id, f, base) ∧ strip expr = expr := by
  have hself : t.text id = expr := (hedited.text id).trans (if_pos rfl)
  have hsound : Sound { s with table := t } := hedited.sound
  obtain ⟨f, hf⟩ : ∃ f, t.formula? id = some f := hsound.text_ne_empty_iff.mp (hself ▸ hne)
  have hstrip : strip expr = expr := hself ▸ (hsound.spells id f hf).2.1
  obtain ⟨base, haccept, -⟩ := hsound.accept_text hf (hstrip.trans hself.symm)
  exact ⟨f, base, haccept, hstrip⟩

/-- **An edited sheet keeps what the store has after the edit.** -/
theorem Keeps.edited (h : s.Keeps cells)
    (hedited : s.table.Edited t s.settings id expr updates) :
    Keeps { s with table := t } (written cells id expr) := by
  have htext : ∀ x, t.text x = if x = id then expr else s.table.text x := hedited.text
  refine ⟨fun x hx ↦ ?_, fun cell other id' f' base' hget hother ↦ ?_,
    fun cell other hget ↦ ?_⟩
  · change t.text x ≠ "" at hx
    change ∃ other, (written cells id expr).get? x = some other ∧ strip other = t.text x
    rw [htext] at hx ⊢
    by_cases heq : x = id
    · rw [if_pos heq] at hx ⊢
      obtain ⟨f, base, -, hstrip⟩ := accept_of_edited hedited hx
      exact ⟨expr, get?_written_eq_some_iff.mpr (Or.inl ⟨heq, hx, rfl⟩), hstrip⟩
    · rw [if_neg heq] at hx ⊢
      obtain ⟨other, hget, hother⟩ := h.draws x hx
      exact ⟨other, get?_written_eq_some_iff.mpr (Or.inr ⟨heq, hget⟩), hother⟩
  · change s.settings.accept cell other = .ok (id', f', base') at hother
    change cell = id' ∧ t.text id' = strip other
    rcases get?_written_eq_some_iff.mp hget with ⟨rfl, hne, rfl⟩ | ⟨hne, hget⟩
    · obtain ⟨f, base, haccept, hstrip⟩ := accept_of_edited hedited hne
      rw [haccept] at hother
      cases hother
      exact ⟨rfl, (htext cell).trans ((if_pos rfl).trans hstrip.symm)⟩
    · obtain ⟨rfl, hkept⟩ := h.kept cell other id' f' base' hget hother
      exact ⟨rfl, (htext cell).trans ((if_neg hne).trans hkept)⟩
  · change Reportable s.settings cell other
    rcases get?_written_eq_some_iff.mp hget with ⟨rfl, hne, rfl⟩ | ⟨-, hget⟩
    · obtain ⟨f, base, haccept, -⟩ := accept_of_edited hedited hne
      exact reportable_of_accept haccept
    · exact h.reportable cell other hget

theorem keeps_empty (name : String) (settings : Settings) : (empty name settings).Keeps ∅ := by
  refine ⟨fun x hx ↦ absurd rfl hx, fun cell expr id f base hget ↦ ?_, fun cell expr hget ↦ ?_⟩
  · cases hget
  · cases hget

end Sheet

end Spreadsheet
