import Spreadsheet.Proofs.Reachable

/-!
# What an edit changes

An edit of a cell reports new values, and what it reports is all that has changed in value. It lists
the cell itself and then exactly the cells that read it, directly or through others, each after
those that it reads. Texts and formulas change at the edited cell only, and edges only where they
lead to it. A cell comes into being when it is edited or referenced, and goes when its formula is
taken out while nothing reads it.

`Effect` says so about two tables, the one before and the one after. Which cells read the edited
cell does not depend on the formula that it has itself, so the two tables agree on that.
-/

namespace Spreadsheet

open Relation Text Workbook

namespace Table

variable {t u v : Table} {settings : Settings} {id expr x y : String} {f : Formula}
  {base : Position} {order : List String} {updates : Updates}

/-- What an edit makes of a table where it leaves a cell with the text `expr` and with the formula
`f?`, if any. -/
structure Effect (t v : Table) (id expr : String) (f? : Option Formula) (updates : Updates) :
    Prop where
  /-- The cell is listed first. After it come the cells that read it, each once, and none before a
  listed cell that it reads. They all come with the values that they have now. -/
  listed : ∃ order, updates = (id :: order).map (fun x ↦ (x, v.valueOf x)) ∧
    (id :: order).Nodup ∧ (∀ y, y ∈ order ↔ TransGen v.Reads y id) ∧
    (id :: order).Pairwise fun y z ↦ ¬ v.Reads y z
  /-- The cells that read the edited cell are those that have read it before. -/
  readers : ∀ y, TransGen v.Reads y id ↔ TransGen t.Reads y id
  /-- A cell that is not listed keeps its value. -/
  valueOf : ∀ x, x ∉ updates.map Prod.fst → v.valueOf x = t.valueOf x
  text : ∀ x, v.text x = if x = id then expr else t.text x
  formula? : ∀ x, v.formula? x = if x = id then f? else t.formula? x
  /-- The cell has left the dependents of what it read, and has joined those of what it reads. -/
  dependents : ∀ x y, y ∈ v.dependents x ↔
    (y = id ∧ v.Reads id x) ∨ (y ∈ t.dependents x ∧ ¬ (y = id ∧ t.Reads id x))

/-! ## Readers of the edited cell -/

theorem transGen_reads_of_others (h : ∀ y x, y ≠ id → u.Reads y x → t.Reads y x) (hu : u.Acyclic)
    (hpath : TransGen u.Reads y id) : TransGen t.Reads y id := by
  have hne : id ≠ y := by
    rintro rfl
    exact hu _ hpath
  have hothers := reflTransGen_others h hpath.to_reflTransGen
  have hmono : (fun y z ↦ y ≠ id ∧ t.Reads y z) ≤ t.Reads := fun y z hyz ↦ hyz.2
  exact (reflTransGen_iff_eq_or_transGen.mp (ReflTransGen.mono hmono y id hothers)).resolve_left hne

theorem transGen_reads_iff_of_others (ht : t.Acyclic) (hv : v.Acyclic)
    (hformula : ∀ x, x ≠ id → v.formula? x = t.formula? x) (y : String) :
    TransGen v.Reads y id ↔ TransGen t.Reads y id := by
  constructor
  · exact transGen_reads_of_others (fun y x hy ↦ (reads_congr (hformula y hy)).mp) hv
  · exact transGen_reads_of_others (fun y x hy ↦ (reads_congr (hformula y hy)).mpr) ht

theorem Sound.affected_ok (hv : v.Sound settings) (hok : v.affected id = .ok order) :
    (id :: order).Nodup ∧ (∀ y, y ∈ order ↔ TransGen v.Reads y id) ∧
      (id :: order).Pairwise fun y z ↦ ¬ v.Reads y z := by
  obtain ⟨hmem, hid, hnodup, -, hlater⟩ := hv.linked.affected_ok hok
  refine ⟨List.nodup_cons.mpr ⟨hid, hnodup⟩, hmem, List.pairwise_cons.mpr ⟨?_, hlater⟩⟩
  -- reading a cell that it affects, the edited cell would read itself
  intro z hz hreads
  exact hv.acyclic id (.head hreads ((hmem z).mp hz))

/-! ## The two edits -/

/-- **What putting a formula in changes.** -/
theorem Assigned.effect (h : t.Assigned u id expr f base) (ht : t.Sound settings)
    (hacc : settings.Accepts id expr f base) (hok : u.affected id = .ok order)
    (hrevalued : u.Revalued v (id :: order)) (hv : v.Sound settings) :
    t.Effect v id expr (some f) ((id :: order).map fun x ↦ (x, v.valueOf x)) := by
  have hformula : ∀ x, v.formula? x = if x = id then some f else t.formula? x := by
    intro x
    rw [hrevalued.formula?, h.formula?]
  have hreads : ∀ x, v.Reads id x ↔ f.References base x := by
    intro x
    rw [hrevalued.reads_eq, h.reads_self hacc.read_id]
  refine ⟨⟨order, rfl, hv.affected_ok ((hrevalued.affected id).trans hok)⟩,
    ?_, ?_, ?_, hformula, ?_⟩
  · refine transGen_reads_iff_of_others ht.acyclic hv.acyclic fun x hx ↦ ?_
    rw [hformula, if_neg hx]
  · intro x hx
    have hnot : x ∉ id :: order := by simpa using hx
    rw [hrevalued.valueOf x hnot, h.valueOf]
  · intro x
    rw [hrevalued.text, h.text]
  · intro x y
    rw [hrevalued.dependents, h.dependents, hreads]

/-- **What taking a formula out changes.** -/
theorem Emptied.effect (h : t.Emptied u id) (ht : t.Sound settings)
    (hok : u.affected id = .ok order) (hrevalued : u.Revalued v order) (hv : v.Sound settings) :
    t.Effect v id "" none ((id :: order).map fun x ↦ (x, v.valueOf x)) := by
  have hformula : ∀ x, v.formula? x = if x = id then none else t.formula? x := by
    intro x
    rw [hrevalued.formula?, h.formula?]
  refine ⟨⟨order, rfl, hv.affected_ok ((hrevalued.affected id).trans hok)⟩,
    ?_, ?_, ?_, hformula, ?_⟩
  · refine transGen_reads_iff_of_others ht.acyclic hv.acyclic fun x hx ↦ ?_
    rw [hformula, if_neg hx]
  · intro x hx
    obtain ⟨hne, hnot⟩ : x ≠ id ∧ x ∉ order := by simpa using hx
    rw [hrevalued.valueOf x hnot, h.valueOf, if_neg hne]
  · intro x
    rw [hrevalued.text, h.text]
  · intro x y
    have hnone : ¬ v.Reads id x :=
      not_reads_of_formula?_eq_none (by rw [hformula, if_pos rfl])
    rw [hrevalued.dependents, h.dependents]
    simp [hnone]

theorem Effect.of_record_eq {f? : Option Formula} (h : t.Effect u id expr f? updates)
    (hrecord : v.record = u.record) : t.Effect v id expr f? updates := by
  obtain ⟨htext, hformula, hvalue, hdependents⟩ := parts_eq hrecord
  obtain ⟨hlisted, hreaders, hkept, htext', hformula', hdependents'⟩ := h
  constructor
  · rw [hvalue, reads_eq hformula]
    exact hlisted
  · rw [reads_eq hformula]
    exact hreaders
  · rw [hvalue]
    exact hkept
  · rw [htext]
    exact htext'
  · rw [hformula]
    exact hformula'
  · rw [hdependents, reads_eq hformula]
    exact hdependents'

theorem effect_of_put (ht : t.Sound settings) (hacc : settings.Accepts id expr f base)
    (hno : ¬ t.Closes id f base) (hrun : (put id expr f base).run t = (.ok updates, v)) :
    t.Effect v id expr (some f) updates ∧
      ∀ x, x ∈ v.ids ↔ x = id ∨ v.Reads id x ∨ x ∈ t.ids := by
  have hself : ¬ f.References base id := fun hself ↦ hno ⟨id, hself, .refl⟩
  obtain ⟨u, hassigned, -, hput⟩ := run_put ht hacc hself
  obtain ⟨order, hok⟩ :=
    (hassigned.exists_affected_iff hacc.read_id ht.linked ht.acyclic).mpr hno
  obtain ⟨w, hrun', hrevalued, hcurrent⟩ := hput order hok
  rw [hrun] at hrun'
  cases hrun'
  refine ⟨hassigned.effect ht hacc hok hrevalued
    (hassigned.sound ht hacc hok hrevalued hcurrent), ?_⟩
  intro x
  rw [hrevalued.ids, hassigned.mem_ids, hrevalued.reads_eq, hassigned.reads_self hacc.read_id]

theorem effect_of_vacate (ht : t.Sound settings)
    (hrun : (Sheet.vacate id).run t = (.ok updates, v)) :
    t.Effect v id "" none updates ∧
      ∀ x, x ∈ v.ids ↔ x ∈ t.ids ∧ ¬ (x = id ∧ ¬ ∃ y, t.Reads y id) := by
  obtain ⟨u, order, w, hemptied, hok, hrevalued, hcurrent, hrun'⟩ := run_vacate ht id
  rw [hrun] at hrun'
  cases hrun'
  have hw := hemptied.sound ht hok hrevalued hcurrent
  have hnone : w.formula? id = none := by rw [hrevalued.formula?, hemptied.formula?, if_pos rfl]
  have heffect := (hemptied.effect ht hok hrevalued hw).of_record_eq (record_discard hw hnone)
  rw [List.map_cons, (hw.bare id hnone).2] at heffect
  refine ⟨heffect, fun x ↦ ?_⟩
  have hempty : (w.dependents id).isEmpty = true ↔ ¬ ∃ y, t.Reads y id := by
    rw [IdSet.isEmpty_iff, not_exists]
    refine forall_congr' fun y ↦ not_congr ?_
    rw [hrevalued.dependents, hemptied.dependents, ht.linked]
    -- no cell reads itself, so the readers are other cells
    refine and_iff_left_of_imp fun hreads hboth ↦ ?_
    rw [hboth.1] at hreads
    exact ht.acyclic id (.single hreads)
  rw [mem_ids_discard, hrevalued.ids, hemptied.ids, hempty]

end Table

namespace Sheet

variable {s s' : Sheet} {cell id expr : String} {f : Formula} {base : Position}
  {updates : Updates}

theorem accept_of_run_evaluate (hs : s.Sound)
    (hrun : (evaluate cell expr).run s = (.ok updates, s')) :
    ∃ id f base, s.settings.accept cell expr = .ok (id, f, base) ∧
      ¬ s.table.Closes id f base := by
  cases haccept : s.settings.accept cell expr with
  | error fault =>
    rw [run_evaluate, haccept] at hrun
    cases hrun
  | ok result =>
    obtain ⟨id, f, base⟩ := result
    refine ⟨id, f, base, rfl, fun hcloses ↦ ?_⟩
    obtain ⟨cause, hrun'⟩ := run_evaluate_of_closes hs haccept hcloses
    rw [hrun] at hrun'
    cases hrun'

theorem effect_of_evaluate (hs : s.Sound)
    (hrun : (evaluate cell expr).run s = (.ok updates, s')) :
    ∃ base id f, s.settings.Names cell base ∧ base.id = .ok id ∧ Formula.read expr base = .ok f ∧
      s.table.Effect s'.table id (strip expr) (some f) updates ∧
      ∀ x, x ∈ s'.table.ids ↔ x = id ∨ s'.table.Reads id x ∨ x ∈ s.table.ids := by
  obtain ⟨id, f, base, haccept, hno⟩ := accept_of_run_evaluate hs hrun
  obtain ⟨hnames, hacc⟩ := Settings.accept_eq_ok_iff.mp haccept
  refine ⟨base, id, f, hnames, hacc.id_eq, (Formula.read_strip expr).symm.trans hacc.read_eq, ?_⟩
  rw [run_evaluate, haccept] at hrun
  dsimp only at hrun
  rw [run_apply] at hrun
  split at hrun
  · rename_i updates' v hput
    cases hrun
    exact Table.effect_of_put hs hacc hno hput
  · cases hrun

theorem effect_of_not_mem (hs : s.Sound) (hnot : id ∉ s.table.ids) :
    s.table.Effect s.table id "" none [(id, 0.0)] := by
  obtain ⟨htext, hformula, hvalue⟩ := Table.parts_of_not_mem hnot
  obtain ⟨hnodup, hmem, hpairwise⟩ :=
    Table.Sound.affected_ok hs (Table.Sound.affected_of_not_mem hs hnot)
  have hreads : ∀ x, ¬ s.table.Reads id x := fun x ↦ Table.not_reads_of_formula?_eq_none hformula
  refine ⟨⟨[], ?_, hnodup, hmem, hpairwise⟩, fun y ↦ Iff.rfl, fun x _ ↦ rfl, ?_, ?_, ?_⟩
  · rw [List.map_singleton, hvalue]
  · intro x
    split
    · rename_i hx
      rw [hx, htext]
    · rfl
  · intro x
    split
    · rename_i hx
      rw [hx, hformula]
    · rfl
  · intro x y
    simp [hreads]

theorem effect_of_remove (hs : s.Sound) (hrun : (remove cell).run s = (.ok updates, s')) :
    ∃ base id, s.settings.Names cell base ∧ base.id = .ok id ∧
      s.table.Effect s'.table id "" none updates ∧
      (∀ x, x ∈ s'.table.ids ↔ x ∈ s.table.ids ∧ ¬ (x = id ∧ ¬ ∃ y, s.table.Reads y id)) ∧
      (id ∉ s.table.ids → updates = [(id, 0.0)] ∧ s' = s) := by
  rw [run_remove] at hrun
  split at hrun
  · rename_i id hlocate
    obtain ⟨base, hbase, hid⟩ := Outcome.bind_eq_ok_iff.mp hlocate
    refine ⟨base, id, Settings.locate_eq_ok_iff.mp hbase, hid, ?_⟩
    split at hrun
    · rename_i hcontains
      obtain ⟨updates', v, hvacate, -⟩ := Table.exists_vacate hs id
      rw [Action.run_atomically, onTable, Action.run_zoom, hvacate] at hrun
      cases hrun
      obtain ⟨heffect, hids⟩ := Table.effect_of_vacate hs hvacate
      exact ⟨heffect, hids, fun hnot ↦ absurd (OrderedMap.contains_iff.mp hcontains) hnot⟩
    · rename_i hcontains
      cases hrun
      have hnot : id ∉ s.table.ids := fun hmem ↦ hcontains (OrderedMap.contains_iff.mpr hmem)
      refine ⟨effect_of_not_mem hs hnot, fun x ↦ ?_, fun _ ↦ ⟨rfl, rfl⟩⟩
      refine (and_iff_left_of_imp ?_).symm
      rintro hx ⟨rfl, -⟩
      exact hnot hx
  · cases hrun

theorem effect_of_copy {source target sourceId : String} {g : Formula} {p : Position}
    (hs : s.Sound) (hsource : s.settings.Names source p) (hid : p.id = .ok sourceId)
    (hg : s.table.formula? sourceId = some g)
    (hrun : (copy source target).run s = (.ok updates, s')) :
    ∃ base id expr f, s.settings.Names target base ∧ base.id = .ok id ∧ g.write base = .ok expr ∧
      Formula.read expr base = .ok f ∧
      s.table.Effect s'.table id (strip expr) (some f) updates ∧
      ∀ x, x ∈ s'.table.ids ↔ x = id ∨ s'.table.Reads id x ∨ x ∈ s.table.ids := by
  -- with a formula in the source, copying is evaluating what the formula is written as
  have hcopied : s.copied source target = (do
      let base ← s.settings.locate target
      return (← base.id, some (← g.write base))) := by
    rw [copied, Settings.locate_eq_ok_iff.mpr hsource, Outcome.ok_bind, hid]
    simp only [Outcome.ok_bind, hg]
  rw [run_copy] at hrun
  cases hcopy : s.copied source target with
  | error fault =>
    rw [hcopy] at hrun
    cases hrun
  | ok result =>
    rw [hcopy] at hrun hcopied
    obtain ⟨base, hbase, hrest⟩ := Outcome.bind_eq_ok_iff.mp hcopied.symm
    obtain ⟨id, hid, hrest⟩ := Outcome.bind_eq_ok_iff.mp hrest
    obtain ⟨expr, hwrite, hresult⟩ := Outcome.bind_eq_ok_iff.mp hrest
    cases hresult
    have hnames := Settings.locate_eq_ok_iff.mp hbase
    obtain ⟨base', id', f, hnames', hid', hread, heffect⟩ := effect_of_evaluate hs hrun
    obtain rfl := hnames'.eq_of_id hid
    rw [hid, Except.ok.injEq] at hid'
    subst hid'
    exact ⟨base', id, expr, f, hnames, hid, hwrite, hread, heffect⟩

/-- **Edits of a reachable sheet change what they report, and nothing else.** Each of the three
edits that goes through has its exact effect on the values, texts, formulas and edges of all cells,
and on which cells there are. -/
theorem effect_of_edits (name : String) (settings : Settings) (requests : List Request) :
    let s := (empty name settings).after requests
    (∀ cell expr updates s', (evaluate cell expr).run s = (.ok updates, s') →
      ∃ base id f, settings.Names cell base ∧ base.id = .ok id ∧ Formula.read expr base = .ok f ∧
        s.table.Effect s'.table id (strip expr) (some f) updates ∧
        ∀ x, x ∈ s'.table.ids ↔ x = id ∨ s'.table.Reads id x ∨ x ∈ s.table.ids) ∧
    (∀ cell updates s', (remove cell).run s = (.ok updates, s') →
      ∃ base id, settings.Names cell base ∧ base.id = .ok id ∧
        s.table.Effect s'.table id "" none updates ∧
        (∀ x, x ∈ s'.table.ids ↔ x ∈ s.table.ids ∧ ¬ (x = id ∧ ¬ ∃ y, s.table.Reads y id)) ∧
        (id ∉ s.table.ids → updates = [(id, 0.0)] ∧ s' = s)) ∧
    ∀ source target p sourceId g updates s', settings.Names source p → p.id = .ok sourceId →
      s.table.formula? sourceId = some g → (copy source target).run s = (.ok updates, s') →
      ∃ base id expr f, settings.Names target base ∧ base.id = .ok id ∧ g.write base = .ok expr ∧
        Formula.read expr base = .ok f ∧
        s.table.Effect s'.table id (strip expr) (some f) updates ∧
        ∀ x, x ∈ s'.table.ids ↔ x = id ∨ s'.table.Reads id x ∨ x ∈ s.table.ids := by
  intro s
  obtain ⟨hs, hsettings⟩ : s.Sound ∧ s.settings = settings :=
    (sound_empty name settings).after requests
  rw [← hsettings]
  refine ⟨?_, ?_, ?_⟩
  · intro cell expr updates s' hrun
    exact effect_of_evaluate hs hrun
  · intro cell updates s' hrun
    exact effect_of_remove hs hrun
  · intro source target p sourceId g updates s' hsource hid hg hrun
    exact effect_of_copy hs hsource hid hg hrun

/-- A cell that another one reads takes a new formula, and the other one is listed after it. The
other one is copied, and its record goes when its own formula is taken out. -/
theorem effect_of_edits_read :
    let s := (empty "s" .standard).after [.evaluate "a1" "b1+c1"]
    (∃ s', (evaluate "b1" "c1+2").run s = (.ok [("b1", 2.0), ("a1", 2.0)], s') ∧
      ∃ id expr f, s.table.Effect s'.table id expr f [("b1", 2.0), ("a1", 2.0)]) ∧
    (∃ s', (copy "a1" "a2").run s = (.ok [("a2", 0.0)], s') ∧
      ∃ id expr f, s.table.Effect s'.table id expr f [("a2", 0.0)]) ∧
    ∃ s', (remove "a1").run s = (.ok [("a1", 0.0)], s') ∧
      ∃ id expr f, s.table.Effect s'.table id expr f [("a1", 0.0)] := by
  intro s
  have hevaluate : (evaluate "b1" "c1+2").run s
      = (.ok [("b1", 2.0), ("a1", 2.0)], ((evaluate "b1" "c1+2").run s).2) :=
    Prod.ext (by decide +kernel) rfl
  have hcopy : (copy "a1" "a2").run s = (.ok [("a2", 0.0)], ((copy "a1" "a2").run s).2) :=
    Prod.ext (by decide +kernel) rfl
  have hremove : (remove "a1").run s = (.ok [("a1", 0.0)], ((remove "a1").run s).2) :=
    Prod.ext (by decide +kernel) rfl
  have hsource : Settings.standard.Names "a1" ⟨1, 1⟩ :=
    ⟨⟨1, 1, false, false⟩, by decide +kernel, rfl, rfl, rfl, rfl⟩
  have hid : Position.id ⟨1, 1⟩ = .ok "a1" := by decide +kernel
  obtain ⟨g, hg⟩ : ∃ g, s.table.formula? "a1" = some g :=
    Option.isSome_iff_exists.mp (by decide +kernel)
  obtain ⟨hevaluates, hremoves, hcopies⟩ :=
    effect_of_edits "s" .standard [.evaluate "a1" "b1+c1"]
  refine ⟨⟨_, hevaluate, ?_⟩, ⟨_, hcopy, ?_⟩, ⟨_, hremove, ?_⟩⟩
  · obtain ⟨base, id, f, -, -, -, heffect, -⟩ := hevaluates _ _ _ _ hevaluate
    exact ⟨id, _, _, heffect⟩
  · obtain ⟨base, id, expr, f, -, -, -, -, heffect, -⟩ :=
      hcopies _ _ _ _ _ _ _ hsource hid hg hcopy
    exact ⟨id, _, _, heffect⟩
  · obtain ⟨base, id, -, -, heffect, -⟩ := hremoves _ _ _ hremove
    exact ⟨id, _, _, heffect⟩

end Sheet

end Spreadsheet
