import Spreadsheet.Proofs.Reader
import Spreadsheet.Proofs.Recalculation
import Spreadsheet.Proofs.Wiring

/-!
# Sound tables

What a sheet keeps up between edits, as a property of its table. Records are kept under canonical
ids inside the bounds, the text of a formula spells it, the edges are those of the formulas, no cell
reads itself, and every value is what the formula comes to.

A sound table has no say in anything but the formula texts. They spell the formulas, the formulas
give the edges, and without cycles the formulas have only one solution for the values. So two sound
tables with the same texts have the same records (`Sound.record_eq`), except that a placeholder may
be there in one of them and not in the other.
-/

namespace Spreadsheet

open Relation Text

namespace Table

variable {t u : Table} {settings : Settings} {x y id : String} {f : Formula}

/-- The invariant of a table inside the bounds of a sheet. -/
structure Sound (t : Table) (settings : Settings) : Prop where
  /-- A record is kept under its id, the canonical id of a position inside the bounds. -/
  key : ∀ x r, t.get? x = some r →
    r.id = x ∧ ∃ p : Position, p.id = .ok x ∧ settings.inBounds p = true
  /-- The text of a formula has no blanks around it, and spells the formula where it stands. -/
  spells : ∀ x f, t.formula? x = some f → t.text x ≠ "" ∧ strip (t.text x) = t.text x ∧
    ∃ base, Position.read x = .ok base ∧ Formula.read (t.text x) base = .ok f
  /-- Without a formula there is no text and no value. -/
  bare : ∀ x, t.formula? x = none → t.text x = "" ∧ t.valueOf x = 0.0
  /-- The edges are those of the formulas. -/
  linked : t.Linked
  /-- No cell reads itself. -/
  acyclic : t.Acyclic
  /-- Every value is what the formula comes to. -/
  current : ∀ x, t.Current x

theorem sound_empty (settings : Settings) : Sound ∅ settings where
  key x r hr := by cases hr
  spells x f hf := by cases hf
  bare x _ := ⟨rfl, rfl⟩
  linked := wired_empty.linked
  acyclic x hcycle := by
    obtain ⟨z, ⟨f, base, hf, -, -⟩, -⟩ := TransGen.head'_iff.mp hcycle
    cases hf
  current x f hf := by cases hf

theorem Sound.keyed (h : t.Sound settings) : t.Keyed := fun x r hr ↦ (h.key x r hr).1

theorem Sound.exists_position (h : t.Sound settings) (hx : x ∈ t.ids) :
    ∃ p : Position, p.id = .ok x ∧ settings.inBounds p = true :=
  (h.key x _ (get?_of_mem hx)).2

theorem Sound.of_record_eq (h : t.Sound settings) (hids : ∀ x ∈ u.ids, x ∈ t.ids)
    (hrecord : u.record = t.record) : u.Sound settings := by
  obtain ⟨htext, hformula, hvalue, hdependents⟩ := parts_eq hrecord
  have hkeyed : u.Keyed := h.keyed.congr fun x ↦ congrArg Record.id (congrFun hrecord x)
  refine ⟨fun x r hr ↦ ⟨hkeyed x r hr, h.exists_position (hids x (mem_ids_of_get? hr))⟩,
    fun x f hf ↦ ?_, fun x hx ↦ ?_, ?_, ?_, fun x ↦ ?_⟩
  · rw [htext]
    exact h.spells x f (hformula ▸ hf)
  · rw [htext, hvalue]
    exact h.bare x (hformula ▸ hx)
  · exact linked_congr hformula.symm hdependents.symm h.linked
  · rw [Acyclic, reads_eq hformula]
    exact h.acyclic
  · exact (h.current x).congr (congrFun hformula x) (congrFun hvalue x) fun y _ ↦ congrFun hvalue y

namespace Sound

variable (h : t.Sound settings)

include h

/-! ## Formulas -/

theorem exists_base (hf : t.formula? x = some f) :
    ∃ base, base.id = .ok x ∧ Position.read x = .ok base ∧ settings.inBounds base = true ∧
      Formula.read (t.text x) base = .ok f := by
  obtain ⟨p, hid, hbounds⟩ := h.exists_position (mem_ids_of_formula? hf)
  obtain ⟨-, -, base, hbase, hread⟩ := h.spells x f hf
  -- the key is the id of the position that it is read as
  have hp : p = base := by
    have := (Position.read_id hid).symm.trans hbase
    cases this
    rfl
  exact ⟨base, hp ▸ hid, hbase, hp ▸ hbounds, hread⟩

theorem text_eq_empty_iff : t.text x = "" ↔ t.formula? x = none := by
  refine ⟨fun htext ↦ ?_, fun hnone ↦ (h.bare x hnone).1⟩
  cases hf : t.formula? x with
  | none => rfl
  | some f => exact absurd htext (h.spells x f hf).1

theorem text_ne_empty_iff : t.text x ≠ "" ↔ ∃ f, t.formula? x = some f := by
  rw [ne_eq, h.text_eq_empty_iff, ← ne_eq, Option.ne_none_iff_exists']

theorem names (hf : t.formula? x = some f) : ∃ base, settings.Names x base := by
  obtain ⟨base, hid, -, hbounds, -⟩ := h.exists_base hf
  exact ⟨base, (Settings.names_id_iff hid).mpr hbounds⟩

theorem wellRead (hf : t.formula? x = some f) :
    ∃ base, Position.read x = .ok base ∧ f.WellRead base := by
  obtain ⟨base, -, hbase, -, hread⟩ := h.exists_base hf
  exact ⟨base, hbase, Formula.wellRead_of_read hread⟩

theorem evaluable (x : String) : t.Evaluable x := by
  intro f hf
  obtain ⟨base, hbase, hwell⟩ := h.wellRead hf
  exact ⟨hwell.supported, base, hbase, hwell.resolves⟩

theorem wired : t.Wired where
  key x r hr := ⟨h.keyed x r hr, (h.exists_position (mem_ids_of_get? hr)).imp fun _ ↦ And.left⟩
  resolves x f base hf hbase := by
    obtain ⟨_, hbase', hwell⟩ := h.wellRead hf
    rw [hbase, Except.ok.injEq] at hbase'
    exact hbase' ▸ hwell.resolves
  linked := h.linked

/-- What a formula references is inside the bounds, as it has a record. -/
theorem covers (hf : t.formula? x = some f) (hbase : Position.read x = .ok base) :
    settings.Covers f base := by
  obtain ⟨base', hbase', hwell⟩ := h.wellRead hf
  rw [hbase, Except.ok.injEq] at hbase'
  subst hbase'
  intro r hr
  obtain ⟨y, hy⟩ := hwell.resolves r hr
  have hreads : t.Reads x y := ⟨f, base, hf, hbase, r, hr, hy⟩
  obtain ⟨p, hp, hbounds⟩ := h.exists_position (h.wired.mem_ids_of_reads hreads)
  exact Position.id_injective hp hy ▸ hbounds

theorem affected_of_not_mem (hnot : id ∉ t.ids) : t.affected id = .ok [] := by
  obtain ⟨order, hok⟩ := h.linked.exists_affected h.acyclic id
  have hnone : order = [] := by
    refine List.eq_nil_iff_forall_not_mem.mpr fun y hy ↦ ?_
    obtain ⟨z, -, hreads⟩ := TransGen.tail'_iff.mp (((h.linked.affected_ok hok).1 y).mp hy)
    exact hnot (h.wired.mem_ids_of_reads hreads)
  rw [hok, hnone]

end Sound

/-! ## What the texts determine -/

theorem Sound.formula?_eq (ht : t.Sound settings) (hu : u.Sound settings) (h : t.text = u.text) :
    t.formula? = u.formula? := by
  funext x
  cases hf : t.formula? x with
  | none =>
    rw [← ht.text_eq_empty_iff, h] at hf
    exact (hu.text_eq_empty_iff.mp hf).symm
  | some f =>
    obtain ⟨hne, -, base, hbase, hread⟩ := ht.spells x f hf
    cases hf' : u.formula? x with
    | none => exact absurd (h ▸ hu.text_eq_empty_iff.mpr hf') hne
    | some f' =>
      obtain ⟨-, -, base', hbase', hread'⟩ := hu.spells x f' hf'
      rw [hbase, Except.ok.injEq] at hbase'
      subst hbase'
      rw [h, hread', Except.ok.injEq] at hread
      rw [hread]

theorem Linked.dependents_eq (ht : t.Linked) (hu : u.Linked) (h : t.formula? = u.formula?) :
    t.dependents = u.dependents := by
  funext x
  refine IdSet.ext fun y ↦ ?_
  rw [ht, hu, reads_congr (congrFun h y)]

/-- **Without cycles the formulas have only one solution**: tables with current values
differ in none of them. -/
theorem valueOf_eq (hacyclic : t.Acyclic) (hformula : t.formula? = u.formula?)
    (ht : ∀ x, t.Current x) (hu : ∀ x, u.Current x)
    (hbare : ∀ x, t.formula? x = none → t.valueOf x = u.valueOf x) : t.valueOf = u.valueOf := by
  by_contra hne
  obtain ⟨x, hx⟩ := Function.ne_iff.mp hne
  -- the cells with formulas that differ, of which one reads none of them
  have hdiffers : ∀ y, t.valueOf y ≠ u.valueOf y →
      y ∈ t.ids.filter fun y ↦ decide (t.valueOf y ≠ u.valueOf y) := by
    intro y hy
    cases hf : t.formula? y with
    | none => exact absurd (hbare y hf) hy
    | some f => exact List.mem_filter.mpr ⟨mem_ids_of_formula? hf, by simpa using hy⟩
  obtain ⟨y, hy, hfirst⟩ := exists_not_related hacyclic (List.ne_nil_of_mem (hdiffers x hx))
  have hdiff : t.valueOf y ≠ u.valueOf y := by simpa using (List.mem_filter.mp hy).2
  cases hf : t.formula? y with
  | none => exact hdiff (hbare y hf)
  | some f =>
    have hread : ∀ z, t.Reads y z → t.valueOf z = u.valueOf z := by
      intro z hz
      by_contra hnot
      exact hfirst z (hdiffers z hnot) hz
    have hvalue := evaluateCell_congr (congrFun hformula y) hread
    rw [ht y f hf, hu y f (hformula ▸ hf), Except.ok.injEq] at hvalue
    exact hdiff hvalue

/-- **A sound table is determined by its formula texts.** -/
theorem Sound.record_eq (ht : t.Sound settings) (hu : u.Sound settings) (h : t.text = u.text) :
    t.record = u.record := by
  have hformula := ht.formula?_eq hu h
  have hvalue : t.valueOf = u.valueOf := by
    refine valueOf_eq ht.acyclic hformula ht.current hu.current fun x hx ↦ ?_
    rw [(ht.bare x hx).2, (hu.bare x (hformula ▸ hx)).2]
  funext x
  have hid : t.recordId x = u.recordId x :=
    (keyed_iff.mp ht.keyed x).trans (keyed_iff.mp hu.keyed x).symm
  exact record_eq_iff.mpr ⟨hid, congrFun h x, congrFun hformula x, congrFun hvalue x,
    congrFun (ht.linked.dependents_eq hu.linked hformula) x⟩

end Table

end Spreadsheet
