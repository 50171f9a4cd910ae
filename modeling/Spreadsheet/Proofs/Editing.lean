import Spreadsheet.Proofs.Soundness

/-!
# Edits of sound tables

There are two ways to edit a table: to put a formula into a cell, and to take it out. Either way the
result is described by `Edited`: the table is sound again, one text is new, and the reported values
are those of the cell and of everything that it affects.

Taking a formula out of a sound table always works. Putting one in works unless the formula closes a
circle (`Closes`), which is a matter of what the other cells read: some cell that the formula
references is the cell itself, or leads back to it through the formulas of other cells. There are
two places where a circle is found. A reference to the cell itself is found before anything is
changed, and any other circle by the walk along the edges that are already the new ones.
-/

namespace Spreadsheet

open Relation Text

/-- A formula that a sheet lets through, with the text that spells it: it is to stand inside the
bounds, and so is all that it references. -/
structure Settings.Accepts (s : Settings) (id expr : String) (f : Formula) (base : Position) :
    Prop where
  id_eq : base.id = .ok id
  inBounds : s.inBounds base = true
  strip_eq : strip expr = expr
  read_eq : Formula.read expr base = .ok f
  covers : s.Covers f base

namespace Settings.Accepts

variable {s : Settings} {id expr : String} {f : Formula} {base : Position}

theorem read_id (h : s.Accepts id expr f base) : Position.read id = .ok base :=
  Position.read_id h.id_eq

theorem wellRead (h : s.Accepts id expr f base) : f.WellRead base :=
  Formula.wellRead_of_read h.read_eq

end Settings.Accepts

namespace Table

variable {t u v : Table} {settings : Settings} {id expr x y : String} {f : Formula}
  {base : Position} {order : List String}

/-- What an edit of a cell makes of a table, and what it reports. -/
structure Edited (t v : Table) (settings : Settings) (id expr : String) (updates : Updates) :
    Prop where
  sound : v.Sound settings
  text : ∀ x, v.text x = if x = id then expr else t.text x
  updates : ∃ order, v.affected id = .ok order ∧
    updates = (id :: order).map fun x ↦ (x, v.valueOf x)

/-! ## Circles -/

/-- A formula in a cell closes a circle: something that it references is the cell itself or reads it
through the formulas of other cells. -/
def Closes (t : Table) (id : String) (f : Formula) (base : Position) : Prop :=
  ∃ x, f.References base x ∧ ReflTransGen (fun y z ↦ y ≠ id ∧ t.Reads y z) x id

namespace Assigned

variable (h : t.Assigned u id expr f base)

include h

theorem transGen_reads_iff (hbase : Position.read id = .ok base) :
    TransGen u.Reads id id ↔ t.Closes id f base := by
  rw [TransGen.head'_iff]
  refine exists_congr fun x ↦ and_congr (h.reads_self hbase) ⟨fun hpath ↦ ?_, fun hpath ↦ ?_⟩
  · exact reflTransGen_others (fun y z hy hreads ↦ (h.reads_other hy).mp hreads) hpath
  · have hmono : (fun y z ↦ y ≠ id ∧ t.Reads y z) ≤ u.Reads := fun y z hyz ↦
      (h.reads_other hyz.1).mpr hyz.2
    exact ReflTransGen.mono hmono x id hpath

theorem acyclic (hbase : Position.read id = .ok base) (ht : t.Acyclic)
    (hno : ¬ t.Closes id f base) : u.Acyclic :=
  not_cyclic_of_update (fun _ _ hy hreads ↦ (h.reads_other hy).mp hreads) ht
    ((h.transGen_reads_iff hbase).not.mpr hno)

/-- **The walk finds the circle that the formula closes, and no other.** -/
theorem exists_affected_iff (hbase : Position.read id = .ok base) (hlinked : t.Linked)
    (hacyclic : t.Acyclic) : (∃ order, u.affected id = .ok order) ↔ ¬ t.Closes id f base := by
  have hlinked' : u.Linked := h.linked hbase hlinked
  constructor
  · rintro ⟨order, hok⟩
    obtain ⟨hmem, hid, -⟩ := hlinked'.affected_ok hok
    rw [← h.transGen_reads_iff hbase, ← hmem]
    exact hid
  · intro hno
    exact hlinked'.exists_affected (h.acyclic hbase hacyclic hno) id

end Assigned

/-! ## Putting a formula in -/

/-- Gives a cell a formula and computes everything that it affects. -/
def put (id expr : String) (f : Formula) (base : Position) : Action Table Updates := do
  let value ← install id expr f base
  let updates ← propagate id
  return (id, value) :: updates

theorem run_install {value : Float} (hassign : t.assign id expr f base = .ok u)
    (hvalue : f.evaluate u.valueOf base = .ok value) :
    (install id expr f base).run t = (.ok value, u.modify id (·.withValue value)) := by
  rw [install, Action.run_bind, Action.run_update, hassign]
  simp only
  rw [Action.run_query_bind, hvalue]
  rfl

theorem run_put_of_references (hacc : settings.Accepts id expr f base)
    (hself : f.References base id) :
    (put id expr f base).run t = (.error (.circular (.itself id)), t) := by
  have hassign : t.assign id expr f base = .error (.circular (.itself id)) :=
    assign_eq_error_of_references hacc.wellRead.resolves hself
  rw [put, Action.run_bind, install, Action.run_bind, Action.run_update, hassign]

/-- The cell itself is current as soon as its formula is installed, and nothing but its readers has
fallen behind. -/
theorem Assigned.current (h : t.Assigned u id expr f base) (hbase : Position.read id = .ok base)
    (hself : ¬ f.References base id) (ht : ∀ x, t.Current x) {value : Float}
    (hvalue : f.evaluate u.valueOf base = .ok value) (hrevalued : u.Revalued v [id])
    (hwritten : v.valueOf id = value) (hno : ¬ v.Reads x id) : v.Current x := by
  by_cases hx : x = id
  · subst hx
    intro _ _
    have hf : v.formula? x = some f := by rw [hrevalued.formula?, h.formula?, if_pos rfl]
    rw [evaluateCell_of_formula? hf hbase, hwritten, ← hvalue]
    refine Formula.evaluate_congr fun y hy ↦ hrevalued.valueOf y fun hmem ↦ ?_
    rw [List.mem_singleton.mp hmem] at hy
    exact hself hy
  · have hformula : v.formula? x = t.formula? x := by
      rw [hrevalued.formula?, h.formula?, if_neg hx]
    have hkept : ∀ y, y ≠ id → v.valueOf y = t.valueOf y := fun y hy ↦ by
      rw [hrevalued.valueOf y (List.mem_singleton.not.mpr hy), h.valueOf]
    exact (ht x).congr hformula (hkept x hx) fun y hy ↦ hkept y fun heq ↦ hno (heq ▸ hy)

/-- **What `put` does**, unless the formula references its own cell: the table with the formula
assigned either has no order to compute the affected cells in, or they all become current. -/
theorem run_put (ht : t.Sound settings) (hacc : settings.Accepts id expr f base)
    (hself : ¬ f.References base id) :
    ∃ u, t.Assigned u id expr f base ∧
      (∀ fault, u.affected id = .error fault →
        ∃ v, (put id expr f base).run t = (.error fault, v)) ∧
      ∀ order, u.affected id = .ok order → ∃ v,
        (put id expr f base).run t = (.ok ((id :: order).map fun x ↦ (x, v.valueOf x)), v) ∧
        u.Revalued v (id :: order) ∧ ∀ x, v.Current x := by
  have hbase := hacc.read_id
  have hwell := hacc.wellRead
  obtain ⟨u, hassign, hassigned⟩ := exists_assign expr hwell.resolves hself
    (ht.wired.exists_dependencies id)
  obtain ⟨value, hvalue⟩ : ∃ value, f.evaluate u.valueOf base = .ok value :=
    (Formula.exists_evaluate_iff hwell.supported).mpr hwell.resolves
  have hinstall := run_install hassign hvalue
  obtain ⟨hfirst, hwritten⟩ := revalued_withValue u ((hassigned.mem_ids id).mpr (Or.inl rfl)) value
  -- `u` has the formula, `w` has its value as well, and `v` will have all values
  obtain ⟨w, hw⟩ : ∃ w : Table, u.modify id (·.withValue value) = w := ⟨_, rfl⟩
  rw [hw] at hinstall hfirst hwritten
  have haffected : w.affected id = u.affected id := hfirst.affected id
  have hlinked : w.Linked := hfirst.linked (hassigned.linked hbase ht.linked)
  refine ⟨u, hassigned, fun fault herr ↦ ⟨w, ?_⟩, fun order hok ↦ ?_⟩
  · rw [put, Action.run_bind, hinstall]
    simp only
    rw [Action.run_bind, run_propagate, haffected, herr]
  · have heval : ∀ x, w.Evaluable x := by
      intro x
      rw [hfirst.evaluable_iff]
      intro g hg
      rw [hassigned.formula?] at hg
      split at hg
      · rename_i hx
        cases hg
        exact ⟨hwell.supported, base, hx ▸ hbase, hwell.resolves⟩
      · exact ht.evaluable x g hg
    obtain ⟨updates, v, hrun⟩ := exists_propagate (haffected.trans hok) heval
    obtain ⟨order', horder', hrest, hupdates, hcurrent⟩ := revalued_of_propagate hlinked
      (fun x hno ↦ hassigned.current hbase hself ht.current hvalue hfirst hwritten hno) hrun
    rw [haffected, hok, Except.ok.injEq] at horder'
    subst horder'
    refine ⟨v, ?_, hfirst.trans hrest, hcurrent⟩
    have hkept : v.valueOf id = value := by
      rw [hrest.valueOf id (hlinked.affected_ok (haffected.trans hok)).2.1, hwritten]
    rw [put, Action.run_bind, hinstall]
    simp only
    rw [Action.run_bind, hrun, List.map_cons, hkept, hupdates]
    rfl

theorem Assigned.sound (h : t.Assigned u id expr f base) (ht : t.Sound settings)
    (hacc : settings.Accepts id expr f base) (hok : u.affected id = .ok order)
    (hrevalued : u.Revalued v (id :: order)) (hcurrent : ∀ x, v.Current x) : v.Sound settings := by
  have hbase := hacc.read_id
  have hformula : ∀ x, v.formula? x = if x = id then some f else t.formula? x := fun x ↦ by
    rw [hrevalued.formula?, h.formula?]
  have htext : ∀ x, v.text x = if x = id then expr else t.text x := fun x ↦ by
    rw [hrevalued.text, h.text]
  have hlinked := h.linked hbase ht.linked
  have hkeyed : v.Keyed := ht.keyed.congr fun x ↦ by rw [hrevalued.recordId, h.recordId]
  refine ⟨fun x r hr ↦ ⟨hkeyed x r hr, ?_⟩, fun x g hg ↦ ?_, fun x hx ↦ ?_,
    hrevalued.linked hlinked, ?_, hcurrent⟩
  · have hx : x ∈ v.ids := mem_ids_of_get? hr
    rw [hrevalued.ids, h.mem_ids] at hx
    rcases hx with rfl | ⟨ref, href, hid⟩ | hx
    · exact ⟨base, hacc.id_eq, hacc.inBounds⟩
    · exact ⟨_, hid, hacc.covers ref href⟩
    · exact ht.exists_position hx
  · rw [hformula] at hg
    rw [htext]
    split at hg
    · rename_i hx
      cases hg
      rw [if_pos hx, hx]
      exact ⟨Formula.ne_empty_of_read hacc.read_eq, hacc.strip_eq, base, hbase, hacc.read_eq⟩
    · rename_i hx
      rw [if_neg hx]
      exact ht.spells x g hg
  · rw [hformula] at hx
    split at hx
    · cases hx
    · rename_i hne
      -- neither the edit nor the pass has written to a cell without a formula
      have hnot : x ∉ id :: order := by
        intro hmem
        rcases List.mem_cons.mp hmem with rfl | hmem
        · exact hne rfl
        · obtain ⟨g, hg⟩ := exists_formula_of_affected hok hmem
          rw [h.formula?, if_neg hne, hx] at hg
          cases hg
      rw [htext, if_neg hne, hrevalued.valueOf x hnot, h.valueOf]
      exact ht.bare x hx
  · rw [Acyclic, hrevalued.reads_eq]
    exact h.acyclic hbase ht.acyclic
      ((h.exists_affected_iff hbase ht.linked ht.acyclic).mp ⟨order, hok⟩)

/-- **A formula that closes no circle goes in.** -/
theorem exists_put (ht : t.Sound settings) (hacc : settings.Accepts id expr f base)
    (hno : ¬ t.Closes id f base) :
    ∃ updates v, (put id expr f base).run t = (.ok updates, v) ∧
      t.Edited v settings id expr updates := by
  have hself : ¬ f.References base id := fun hself ↦ hno ⟨id, hself, .refl⟩
  obtain ⟨u, hassigned, -, hput⟩ := run_put ht hacc hself
  obtain ⟨order, hok⟩ :=
    (hassigned.exists_affected_iff hacc.read_id ht.linked ht.acyclic).mpr hno
  obtain ⟨v, hrun, hrevalued, hcurrent⟩ := hput order hok
  refine ⟨_, v, hrun, hassigned.sound ht hacc hok hrevalued hcurrent, fun x ↦ ?_, order, ?_, rfl⟩
  · rw [hrevalued.text, hassigned.text]
  · rw [hrevalued.affected, hok]

/-- **A formula that closes a circle is refused.** -/
theorem run_put_of_closes (ht : t.Sound settings) (hacc : settings.Accepts id expr f base)
    (hcloses : t.Closes id f base) :
    ∃ cause v, (put id expr f base).run t = (.error (.circular cause), v) := by
  by_cases hself : f.References base id
  · exact ⟨_, t, run_put_of_references hacc hself⟩
  · obtain ⟨u, hassigned, hput, -⟩ := run_put ht hacc hself
    cases haffected : u.affected id with
    | ok order =>
      have hno :=
        (hassigned.exists_affected_iff hacc.read_id ht.linked ht.acyclic).mp ⟨_, haffected⟩
      exact absurd hcloses hno
    | error fault =>
      obtain ⟨v, hrun⟩ := hput fault haffected
      have hlinked := hassigned.linked hacc.read_id ht.linked
      obtain ⟨⟨cycle, rfl⟩, -⟩ := hlinked.affected_error haffected
      exact ⟨_, v, hrun⟩

theorem Edited.congr {t' v' : Table} {updates updates' : Updates}
    (h : t.Edited v settings id expr updates) (h' : t'.Edited v' settings id expr updates')
    (htext : t.text = t'.text) : v.text = v'.text ∧ updates = updates' := by
  have htext' : v.text = v'.text := by
    funext x
    rw [h.text, h'.text, htext]
  obtain ⟨-, hformula, hvalue, hdependents⟩ := parts_eq (h.sound.record_eq h'.sound htext')
  obtain ⟨order, horder, rfl⟩ := h.updates
  obtain ⟨order', horder', rfl⟩ := h'.updates
  rw [affected_congr hdependents hformula id, horder', Except.ok.injEq] at horder
  refine ⟨htext', ?_⟩
  rw [horder, hvalue]

/-- **Which circle is reported depends on the texts alone.** -/
theorem put_fault_congr {t' v' : Table} {fault fault' : Fault} (ht : t.Sound settings)
    (ht' : t'.Sound settings) (htext : t.text = t'.text) (hacc : settings.Accepts id expr f base)
    (hrun : (put id expr f base).run t = (.error fault, v))
    (hrun' : (put id expr f base).run t' = (.error fault', v')) : fault = fault' := by
  by_cases hself : f.References base id
  · rw [run_put_of_references hacc hself] at hrun hrun'
    cases hrun
    cases hrun'
    rfl
  · obtain ⟨u, hassigned, herror, hok⟩ := run_put ht hacc hself
    obtain ⟨u', hassigned', herror', hok'⟩ := run_put ht' hacc hself
    -- the walks go along the same edges, and neither of them sees anything else
    obtain ⟨-, hbefore, -, hdependents⟩ := parts_eq (ht.record_eq ht' htext)
    have hformula : u.formula? = u'.formula? := by
      funext x
      rw [hassigned.formula?, hassigned'.formula?, hbefore]
    have hdependents' : u.dependents = u'.dependents := by
      funext x
      refine IdSet.ext fun y ↦ ?_
      rw [hassigned.dependents, hassigned'.dependents, hdependents, reads_eq hbefore]
    have haffected := affected_congr hdependents' hformula id
    cases hwalk : u.affected id with
    | ok order =>
      obtain ⟨w, hrun'', -⟩ := hok order hwalk
      rw [hrun] at hrun''
      cases hrun''
    | error cause =>
      obtain ⟨w, hw⟩ := herror cause hwalk
      obtain ⟨w', hw'⟩ := herror' cause (haffected ▸ hwalk)
      rw [hrun] at hw
      rw [hrun'] at hw'
      cases hw
      cases hw'
      rfl

/-! ## Taking a formula out -/

/-- What taking the formula out of a cell makes of a table, before anything is computed. -/
structure Emptied (t u : Table) (id : String) : Prop where
  ids : u.ids = t.ids
  recordId : ∀ x, u.recordId x = t.recordId x
  text : ∀ x, u.text x = if x = id then "" else t.text x
  formula? : ∀ x, u.formula? x = if x = id then none else t.formula? x
  valueOf : ∀ x, u.valueOf x = if x = id then 0.0 else t.valueOf x
  dependents : ∀ x y, y ∈ u.dependents x ↔ y ∈ t.dependents x ∧ ¬ (y = id ∧ t.Reads id x)

theorem emptied_of_retract (h : t.retract id = .ok u) :
    t.Emptied (u.modify id Record.cleared) id := by
  have hret := retracted_of_retract h
  have hrecord : ∀ x, record (u.modify id Record.cleared) x
      = if x = id then (u.record x).cleared else u.record x := fun x ↦
    record_modify (Or.inr rfl)
  refine ⟨?_, fun x ↦ ?_, fun x ↦ ?_, fun x ↦ ?_, fun x ↦ ?_, fun x y ↦ ?_⟩
  · rw [ids, OrderedMap.keys_modify]
    exact hret.ids
  · rw [recordId, hrecord, ← hret.recordId]
    split <;> rfl
  · rw [text, hrecord, ← hret.text]
    split <;> rfl
  · rw [← record_formula, hrecord, ← hret.formula?, ← record_formula]
    split <;> rfl
  · rw [← record_value, hrecord, ← hret.valueOf, ← record_value]
    split <;> rfl
  · rw [← hret.dependents, ← record_dependents, hrecord, ← record_dependents]
    split <;> rfl

namespace Emptied

variable (h : t.Emptied u id)

include h

theorem reads_iff : u.Reads y x ↔ y ≠ id ∧ t.Reads y x := by
  by_cases hy : y = id
  · have hnone : u.formula? y = none := by rw [h.formula?, if_pos hy]
    exact iff_of_false (not_reads_of_formula?_eq_none hnone) fun hreads ↦ hreads.1 hy
  · rw [reads_congr (u := t) (by rw [h.formula?, if_neg hy])]
    exact ⟨fun hreads ↦ ⟨hy, hreads⟩, And.right⟩

theorem linked (ht : t.Linked) : u.Linked := by
  intro x y
  rw [h.dependents, h.reads_iff, ht]
  constructor
  · rintro ⟨hreads, hnot⟩
    exact ⟨fun hy ↦ hnot ⟨hy, hy ▸ hreads⟩, hreads⟩
  · rintro ⟨hy, hreads⟩
    exact ⟨hreads, fun hboth ↦ hy hboth.1⟩

theorem acyclic (ht : t.Acyclic) : u.Acyclic := by
  have hmono : u.Reads ≤ t.Reads := fun y x hreads ↦ (h.reads_iff.mp hreads).2
  exact fun x hcycle ↦ ht x (TransGen.mono hmono x x hcycle)

theorem evaluable (ht : ∀ x, t.Evaluable x) (x : String) : u.Evaluable x := by
  intro f hf
  rw [h.formula?] at hf
  split at hf
  · cases hf
  · exact ht x f hf

theorem current (ht : ∀ x, t.Current x) (hno : ¬ u.Reads x id) : u.Current x := by
  by_cases hx : x = id
  · intro f hf
    rw [h.formula?, if_pos hx] at hf
    cases hf
  · have hformula : u.formula? x = t.formula? x := by rw [h.formula?, if_neg hx]
    have hkept : ∀ y, y ≠ id → u.valueOf y = t.valueOf y := fun y hy ↦ by
      rw [h.valueOf, if_neg hy]
    exact (ht x).congr hformula (hkept x hx) fun y hy ↦ hkept y fun heq ↦ hno (heq ▸ hy)

end Emptied

theorem Emptied.sound (h : t.Emptied u id) (ht : t.Sound settings) (hok : u.affected id = .ok order)
    (hrevalued : u.Revalued v order) (hcurrent : ∀ x, v.Current x) : v.Sound settings := by
  have hformula : ∀ x, v.formula? x = if x = id then none else t.formula? x := fun x ↦ by
    rw [hrevalued.formula?, h.formula?]
  have htext : ∀ x, v.text x = if x = id then "" else t.text x := fun x ↦ by
    rw [hrevalued.text, h.text]
  have hlinked := h.linked ht.linked
  have hkeyed : v.Keyed := ht.keyed.congr fun x ↦ by rw [hrevalued.recordId, h.recordId]
  refine ⟨fun x r hr ↦ ⟨hkeyed x r hr, ?_⟩, fun x f hf ↦ ?_, fun x hx ↦ ?_,
    hrevalued.linked hlinked, ?_, hcurrent⟩
  · have hx : x ∈ v.ids := mem_ids_of_get? hr
    rw [hrevalued.ids, h.ids] at hx
    exact ht.exists_position hx
  · rw [hformula] at hf
    split at hf
    · cases hf
    · rename_i hne
      rw [htext, if_neg hne]
      exact ht.spells x f hf
  · have hnot : x ∉ order := by
      intro hmem
      obtain ⟨f, hf⟩ := exists_formula_of_affected hok hmem
      rw [← hrevalued.formula?, hx] at hf
      cases hf
    rw [hformula] at hx
    rw [htext, hrevalued.valueOf x hnot, h.valueOf]
    split
    · exact ⟨rfl, rfl⟩
    · rename_i hne
      rw [if_neg hne] at hx
      exact ht.bare x hx
  · rw [Acyclic, hrevalued.reads_eq]
    exact h.acyclic ht.acyclic

/-- A record without formula, text, value and dependents can go. -/
theorem record_discard (ht : t.Sound settings) (hnone : t.formula? id = none) :
    record (if (t.dependents id).isEmpty then t.erase id else t) = t.record := by
  split
  · rename_i hempty
    funext x
    rw [record_erase]
    split
    · rename_i hx
      obtain ⟨htext, hvalue⟩ := ht.bare id hnone
      have hdependents : t.dependents id = ∅ :=
        IdSet.ext fun y ↦ iff_of_false (IdSet.isEmpty_iff.mp hempty y) (IdSet.not_mem_empty y)
      rw [hx, ← record_empty id, record_eq_iff]
      exact ⟨(keyed_iff.mp ht.keyed id).symm, htext.symm, hnone.symm, hvalue.symm,
        hdependents.symm⟩
    · rfl
  · rfl

theorem mem_ids_discard : x ∈ ids (if (t.dependents id).isEmpty then t.erase id else t) ↔
    x ∈ t.ids ∧ ¬ (x = id ∧ (t.dependents id).isEmpty = true) := by
  split
  · rename_i hempty
    rw [ids, OrderedMap.keys_erase, List.mem_filter]
    simp [hempty]
  · rename_i hempty
    simp [hempty]

/-- **What `vacate` does** to a sound table: everything that read the cell is computed anew, and the
record goes as well if nothing reads the cell. -/
theorem run_vacate (ht : t.Sound settings) (id : String) :
    ∃ u order v, t.Emptied u id ∧ u.affected id = .ok order ∧ u.Revalued v order ∧
      (∀ x, v.Current x) ∧
      (Sheet.vacate id).run t = (.ok ((id, 0.0) :: order.map fun x ↦ (x, v.valueOf x)),
        if (v.dependents id).isEmpty then v.erase id else v) := by
  obtain ⟨refs, hrefs⟩ := ht.wired.exists_dependencies id
  obtain ⟨r, hretract⟩ : ∃ r, t.retract id = .ok r := ⟨_, by rw [retract, hrefs]; rfl⟩
  have hemptied := emptied_of_retract hretract
  obtain ⟨u, hu⟩ : ∃ u : Table, r.modify id Record.cleared = u := ⟨_, rfl⟩
  rw [hu] at hemptied
  have hlinked := hemptied.linked ht.linked
  obtain ⟨order, hok⟩ := hlinked.exists_affected (hemptied.acyclic ht.acyclic) id
  obtain ⟨updates, v, hrun⟩ := exists_propagate hok (hemptied.evaluable ht.evaluable)
  obtain ⟨order', horder', hrevalued, hupdates, hcurrent⟩ := revalued_of_propagate hlinked
    (fun x hno ↦ hemptied.current ht.current hno) hrun
  rw [hok, Except.ok.injEq] at horder'
  subst horder'
  refine ⟨u, order, v, hemptied, hok, hrevalued, hcurrent, ?_⟩
  rw [Sheet.vacate, Action.run_bind, Action.run_update, hretract]
  simp only
  rw [Action.run_bind, Action.run_modify]
  simp only
  rw [hu, Action.run_bind, hrun]
  simp only
  rw [Action.run_bind, Action.run_modify, hupdates]
  rfl

/-- **Taking a formula out of a sound table always works.** -/
theorem exists_vacate (ht : t.Sound settings) (id : String) :
    ∃ updates v, (Sheet.vacate id).run t = (.ok updates, v) ∧
      t.Edited v settings id "" updates := by
  obtain ⟨u, order, v, hemptied, hok, hrevalued, hcurrent, hrun⟩ := run_vacate ht id
  have hsound := hemptied.sound ht hok hrevalued hcurrent
  have hnone : v.formula? id = none := by rw [hrevalued.formula?, hemptied.formula?, if_pos rfl]
  -- all is computed in `v`, and the result is `v` without the record, if nothing reads the cell
  have hrecord := record_discard hsound hnone
  obtain ⟨htext, hformula, hvalue, hdependents⟩ := parts_eq hrecord
  have hids : ∀ x ∈ ids (if (v.dependents id).isEmpty then v.erase id else v), x ∈ v.ids :=
    fun x hx ↦ (mem_ids_discard.mp hx).1
  refine ⟨_, _, hrun, hsound.of_record_eq hids hrecord, fun x ↦ ?_, order, ?_, ?_⟩
  · rw [htext, hrevalued.text, hemptied.text]
  · rw [← hok, ← hrevalued.affected]
    exact affected_congr hdependents hformula id
  · have hzero : v.valueOf id = 0.0 := (hsound.bare id hnone).2
    rw [List.map_cons, hvalue, hzero]

end Table

end Spreadsheet
