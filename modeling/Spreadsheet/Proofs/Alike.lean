import Spreadsheet.Proofs.Order
import Spreadsheet.Proofs.Reachable

/-!
# Sheets with the same texts

Two sheets are alike if they have the same bounds and the same formula texts. Sound sheets
that are alike may differ in the order in which their cells were created, and in which
placeholders are there. Nothing that a sheet answers gives that away: whatever two such sheets
are asked to do, the answers are the same, down to the order of updates and the wording of
faults, and the sheets stay alike.

The edits are not followed step by step for that. Their outcome is already known up to what the
texts determine, and both sheets have the same texts.
-/

namespace Spreadsheet

open Relation Text Workbook

namespace Sheet

variable {s u : Sheet} {cell id expr : String}

/-! ## Sheets with the same texts -/

/-- Two sheets have the same bounds and the same formula texts. -/
structure Alike (s u : Sheet) : Prop where
  settings : s.settings = u.settings
  text : s.table.text = u.table.text

theorem Alike.refl (s : Sheet) : s.Alike s := ⟨rfl, rfl⟩

theorem Alike.symm (h : s.Alike u) : u.Alike s := ⟨h.settings.symm, h.text.symm⟩

theorem Alike.trans {v : Sheet} (h : s.Alike u) (h' : u.Alike v) : s.Alike v :=
  ⟨h.settings.trans h'.settings, h.text.trans h'.text⟩

theorem Alike.record_eq (h : s.Alike u) (hs : s.Sound) (hu : u.Sound) :
    s.table.record = u.table.record := by
  rw [Sound, ← h.settings] at hu
  exact Table.Sound.record_eq hs hu h.text

theorem Alike.parts (h : s.Alike u) (hs : s.Sound) (hu : u.Sound) :
    s.table.formula? = u.table.formula? ∧ s.table.valueOf = u.table.valueOf ∧
      s.table.dependents = u.table.dependents :=
  (Table.parts_eq (h.record_eq hs hu)).2

/-! ## Listings -/

theorem rows_eq {ids : List String} (hids : s.table.topologicalOrder = .ok ids)
    (hmem : ∀ x ∈ ids, x ∈ s.table.ids) :
    s.rows = .ok (ids.map fun x ↦ (x, s.table.record x)) := by
  have hget : ∀ x ∈ ids, (s.table.get? x).map (x, ·) = some (x, s.table.record x) := fun x hx ↦ by
    rw [Table.get?_of_mem (hmem x hx), Option.map_some]
  rw [Sheet.rows, hids, ← List.filterMap_eq_map]
  exact congrArg Except.ok (List.filterMap_congr hget)

theorem Sound.exists_rows (hs : s.Sound) :
    ∃ ids, s.table.topologicalOrder = .ok ids ∧ ids.Nodup ∧
      (∀ x, x ∈ ids ↔ s.table.text x ≠ "") ∧ (ids.Pairwise fun x y ↦ ¬ s.table.Reads x y) ∧
      s.rows = .ok (ids.map fun x ↦ (x, s.table.record x)) := by
  obtain ⟨ids, hids, hnodup, hmem, hordered⟩ :=
    Table.exists_topologicalOrder hs.wired hs.acyclic
  refine ⟨ids, hids, hnodup, fun x ↦ ?_, hordered, rows_eq hids fun x hx ↦ ?_⟩
  · rw [hmem, hs.text_ne_empty_iff]
  · obtain ⟨f, hf⟩ := (hmem x).mp hx
    exact Table.mem_ids_of_formula? hf

/-- **A sound sheet can be listed**: every cell with a formula once, with its text and its value,
and none before a cell that it reads. -/
theorem Sound.exists_dump (hs : s.Sound) :
    ∃ ids : List String, ids.Nodup ∧ (∀ x, x ∈ ids ↔ s.table.text x ≠ "") ∧
      (ids.Pairwise fun x y ↦ ¬ s.table.Reads x y) ∧
      s.dump = .ok (ids.map fun x ↦ (x, s.table.text x)) ∧
      s.dumpValues = .ok (ids.map fun x ↦ (x, s.table.text x, s.table.valueOf x)) := by
  obtain ⟨ids, -, hnodup, hmem, hordered, hrows⟩ := hs.exists_rows
  refine ⟨ids, hnodup, hmem, hordered, ?_, ?_⟩
  · rw [dump, hrows]
    simp [Except.map]
  · rw [dumpValues, hrows]
    simp [Except.map]

/-- **The listing of a sheet depends on its texts alone.** -/
theorem Alike.dump_eq (h : s.Alike u) (hs : s.Sound) (hu : u.Sound) :
    s.dump = u.dump ∧ s.dumpValues = u.dumpValues := by
  obtain ⟨hformula, -, hdependents⟩ := h.parts hs hu
  have horder := Table.topologicalOrder_congr hs.wired hu.wired hformula hdependents
  obtain ⟨ids, hids, -, -, -, hrows⟩ := hs.exists_rows
  obtain ⟨ids', hids', -, -, -, hrows'⟩ := hu.exists_rows
  rw [horder, hids', Except.ok.injEq] at hids
  rw [dump, dump, dumpValues, dumpValues, hrows, hrows', hids, h.record_eq hs hu]
  exact ⟨rfl, rfl⟩

/-! ## Views -/

theorem view_eq (s : Sheet) (cell : String) :
    s.view cell = (s.settings.locate cell >>= Position.id).map fun id ↦
      ⟨s.table.text id, s.table.valueOf id⟩ := by
  rw [view]
  cases s.settings.locate cell with
  | error fault => rfl
  | ok p =>
    rw [Outcome.ok_bind, Outcome.ok_bind]
    cases p.id with
    | error fault => rfl
    | ok id =>
      change _ = Except.ok (⟨(s.table.record id).expr, s.table.valueOf id⟩ : CellView)
      rw [Outcome.ok_bind, ← Table.record_value]
      cases hget : s.table.get? id with
      | none => rw [Table.record, hget]; rfl
      | some r => rw [Table.record_of_get? hget]; rfl

theorem Alike.view_eq (h : s.Alike u) (hs : s.Sound) (hu : u.Sound) (cell : String) :
    s.view cell = u.view cell := by
  rw [Sheet.view_eq, Sheet.view_eq, h.settings, h.text, (h.parts hs hu).2.1]

/-! ## Edits -/

/-- Two runs end in the same result, and in sheets that are alike. -/
def Agree {α : Type} (run run' : Except Fault α × Sheet) : Prop :=
  run.1 = run'.1 ∧ run.2.Alike run'.2

theorem Agree.map {α β : Type} {act : Action Sheet α} (h : Agree (act.run s) (act.run u))
    (g : α → β) :
    Agree ((act >>= fun a ↦ pure (g a)).run s) ((act >>= fun a ↦ pure (g a)).run u) := by
  rw [Action.run_bind_pure, Action.run_bind_pure]
  exact ⟨congrArg (Except.map g) h.1, h.2⟩

theorem Alike.closes_iff (h : s.Alike u) (hs : s.Sound) (hu : u.Sound) {f : Formula}
    {base : Position} : s.table.Closes id f base ↔ u.table.Closes id f base := by
  rw [Table.Closes, Table.Closes, Table.reads_eq (h.parts hs hu).1]

theorem Alike.edited {t t' : Table} {updates updates' : Updates} (h : s.Alike u)
    (hedited : s.table.Edited t s.settings id expr updates)
    (hedited' : u.table.Edited t' u.settings id expr updates') :
    Agree (.ok updates, { s with table := t }) (.ok updates', { u with table := t' }) := by
  rw [← h.settings] at hedited'
  obtain ⟨htext, hupdates⟩ := hedited.congr hedited' h.text
  exact ⟨congrArg Except.ok hupdates, h.settings, htext⟩

theorem Alike.evaluate (h : s.Alike u) (hs : s.Sound) (hu : u.Sound) (cell expr : String) :
    Agree ((evaluate cell expr).run s) ((evaluate cell expr).run u) := by
  cases haccept : s.settings.accept cell expr with
  | error fault =>
    rw [run_evaluate, run_evaluate, ← h.settings, haccept]
    exact ⟨rfl, h⟩
  | ok result =>
    obtain ⟨id, f, base⟩ := result
    have haccept' : u.settings.accept cell expr = .ok (id, f, base) := h.settings ▸ haccept
    obtain ⟨-, hacc⟩ := Settings.accept_eq_ok_iff.mp haccept
    obtain ⟨-, hacc'⟩ := Settings.accept_eq_ok_iff.mp haccept'
    by_cases hcloses : s.table.Closes id f base
    · obtain ⟨cause, v, hput⟩ := Table.run_put_of_closes hs hacc hcloses
      obtain ⟨cause', v', hput'⟩ :=
        Table.run_put_of_closes hu hacc' ((h.closes_iff hs hu).mp hcloses)
      have hu' : u.table.Sound s.settings := h.settings ▸ hu
      have hcause := Table.put_fault_congr hs hu' h.text hacc hput hput'
      rw [run_evaluate, run_evaluate, haccept, haccept']
      dsimp only
      rw [run_apply, run_apply, hput, hput', hcause]
      exact ⟨rfl, h⟩
    · obtain ⟨updates, t, hrun, hedited⟩ := exists_evaluate hs haccept hcloses
      obtain ⟨updates', t', hrun', hedited'⟩ :=
        exists_evaluate hu haccept' ((h.closes_iff hs hu).not.mp hcloses)
      rw [hrun, hrun']
      exact h.edited hedited hedited'

theorem Alike.remove (h : s.Alike u) (hs : s.Sound) (hu : u.Sound) (cell : String) :
    Agree ((remove cell).run s) ((remove cell).run u) := by
  cases hlocate : s.settings.locate cell with
  | error fault =>
    rw [run_remove, run_remove, ← h.settings, hlocate]
    exact ⟨rfl, h⟩
  | ok p =>
    have hnames := Settings.locate_eq_ok_iff.mp hlocate
    obtain ⟨id, hid⟩ := hnames.named.exists_id
    obtain ⟨updates, t, hrun, hedited⟩ := exists_remove hs hnames hid
    obtain ⟨updates', t', hrun', hedited'⟩ := exists_remove hu (h.settings ▸ hnames) hid
    rw [hrun, hrun']
    exact h.edited hedited hedited'

theorem Alike.copy (h : s.Alike u) (hs : s.Sound) (hu : u.Sound) (source target : String) :
    Agree ((copy source target).run s) ((copy source target).run u) := by
  have hcopied : s.copied source target = u.copied source target := by
    rw [copied, copied, h.settings, (h.parts hs hu).1]
  rw [run_copy, run_copy, hcopied]
  split
  · exact h.remove hs hu _
  · exact h.evaluate hs hu _ _
  · exact ⟨rfl, h⟩

/-- **Sheets that are alike give the same answers**, and stay alike. -/
theorem Alike.answer (h : s.Alike u) (hs : s.Sound) (hu : u.Sound) (request : Request) :
    Agree ((answer request).run s) ((answer request).run u) := by
  have hquery : ∀ {α : Type} (look : Sheet → Except Fault α), look s = look u →
      Agree ((Action.query look).run s) ((Action.query look).run u) := fun look hlook ↦ ⟨hlook, h⟩
  cases request with
  | evaluate cell expr => exact (h.evaluate hs hu cell expr).map _
  | remove cell => exact (h.remove hs hu cell).map _
  | copy source target => exact (h.copy hs hu source target).map _
  | query cell => exact (hquery (·.view cell) (h.view_eq hs hu cell)).map _
  | clear => exact ⟨rfl, h.settings, rfl⟩
  | dump => exact (hquery (·.dump) (h.dump_eq hs hu).1).map _
  | dumpValues => exact (hquery (·.dumpValues) (h.dump_eq hs hu).2).map _

end Sheet

end Spreadsheet
