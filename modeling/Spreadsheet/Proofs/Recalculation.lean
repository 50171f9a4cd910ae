import Spreadsheet.Proofs.Linking

/-!
# Recalculation reaches a fixed point

After an edit of one cell, computing the affected cells once each, in the order of `affected`, makes
every value current: it is what its formula comes to over the table as it is in the end.

Each cell is computed over a table in which some values are still the old ones. What makes one pass
enough is that a cell is computed before no cell that it reads: the values it has read are not
written again. A cell that is not affected reads no affected cell, so its value stays current
without being looked at.
-/

namespace Spreadsheet

open Relation

namespace Table

variable {t u v : Table} {x y id : String} {cells : List String}

/-! ## Current values -/

/-- A cell with a formula has the value that the formula comes to. -/
def Current (t : Table) (x : String) : Prop :=
  ∀ f, t.formula? x = some f → t.evaluateCell x = .ok (t.valueOf x)

/-- A formula in a cell has a value, whatever the values of other cells are. -/
def Evaluable (t : Table) (x : String) : Prop :=
  ∀ f, t.formula? x = some f → f.Supported ∧ ∃ base, Position.read x = .ok base ∧ f.Resolves base

theorem evaluateCell_of_formula? {f : Formula} {base : Position} (hf : t.formula? x = some f)
    (hbase : Position.read x = .ok base) :
    t.evaluateCell x = f.evaluate t.valueOf base := by
  rw [evaluateCell, hf]
  simp only [hbase, Outcome.ok_bind]

theorem evaluateCell_congr (hf : t.formula? x = u.formula? x)
    (hvalue : ∀ y, t.Reads x y → t.valueOf y = u.valueOf y) :
    t.evaluateCell x = u.evaluateCell x := by
  cases h : t.formula? x with
  | none => rw [evaluateCell, evaluateCell, ← hf, h]
  | some f =>
    cases hbase : Position.read x with
    | error fault => rw [evaluateCell, evaluateCell, ← hf, h, hbase]; rfl
    | ok base =>
      rw [evaluateCell_of_formula? h hbase, evaluateCell_of_formula? (hf ▸ h) hbase]
      exact Formula.evaluate_congr fun y hy ↦ hvalue y ((reads_iff h hbase).mpr hy)

theorem Current.congr (h : t.Current x) (hformula : u.formula? x = t.formula? x)
    (hvalue : u.valueOf x = t.valueOf x) (hread : ∀ y, u.Reads x y → u.valueOf y = t.valueOf y) :
    u.Current x := by
  intro f hf
  rw [evaluateCell_congr hformula hread, hvalue]
  exact h f (hformula ▸ hf)

theorem Evaluable.exists_evaluateCell (h : t.Evaluable x) :
    ∃ value, t.evaluateCell x = .ok value := by
  cases hf : t.formula? x with
  | none => exact ⟨0.0, by rw [evaluateCell, hf]⟩
  | some f =>
    obtain ⟨hsupported, base, hbase, hresolves⟩ := h f hf
    rw [evaluateCell_of_formula? hf hbase]
    exact (Formula.exists_evaluate_iff hsupported).mpr hresolves

/-! ## Tables that differ in values -/

/-- One table is the other with other values at some cells. -/
structure Revalued (t u : Table) (cells : List String) : Prop where
  ids : u.ids = t.ids
  recordId : u.recordId = t.recordId
  text : u.text = t.text
  formula? : u.formula? = t.formula?
  dependents : u.dependents = t.dependents
  valueOf : ∀ x, x ∉ cells → u.valueOf x = t.valueOf x

namespace Revalued

theorem refl (t : Table) : t.Revalued t [] := ⟨rfl, rfl, rfl, rfl, rfl, fun _ _ ↦ rfl⟩

theorem trans {more : List String} (h : t.Revalued u cells) (h' : u.Revalued v more) :
    t.Revalued v (cells ++ more) where
  ids := h'.ids.trans h.ids
  recordId := h'.recordId.trans h.recordId
  text := h'.text.trans h.text
  formula? := h'.formula?.trans h.formula?
  dependents := h'.dependents.trans h.dependents
  valueOf x hx := by
    rw [List.mem_append, not_or] at hx
    rw [h'.valueOf x hx.2, h.valueOf x hx.1]

theorem reads_iff (h : t.Revalued u cells) : u.Reads y x ↔ t.Reads y x :=
  reads_congr (congrFun h.formula? y)

theorem reads_eq (h : t.Revalued u cells) : u.Reads = t.Reads := Table.reads_eq h.formula?

theorem linked (h : t.Revalued u cells) (ht : t.Linked) : u.Linked :=
  linked_congr h.formula?.symm h.dependents.symm ht

theorem affected (h : t.Revalued u cells) (origin : String) :
    u.affected origin = t.affected origin :=
  affected_congr h.dependents h.formula? origin

theorem evaluable_iff (h : t.Revalued u cells) : u.Evaluable x ↔ t.Evaluable x := by
  rw [Evaluable, Evaluable, h.formula?]

end Revalued

theorem revalued_withValue (t : Table) (h : x ∈ t.ids) (value : Float) :
    t.Revalued (t.modify x (·.withValue value)) [x] ∧
      valueOf (t.modify x (·.withValue value)) x = value := by
  have hrecord : ∀ y, record (t.modify x (·.withValue value)) y
      = if y = x then (t.record y).withValue value else t.record y := fun y ↦
    record_modify (Or.inl h)
  refine ⟨⟨OrderedMap.keys_modify _ _ _, funext fun y ↦ ?_, funext fun y ↦ ?_,
    funext fun y ↦ ?_, funext fun y ↦ ?_, fun y hy ↦ ?_⟩, ?_⟩
  · rw [recordId, hrecord, recordId]
    split <;> rfl
  · rw [text, hrecord, text]
    split <;> rfl
  · rw [← record_formula, hrecord, ← record_formula]
    split <;> rfl
  · rw [← record_dependents, hrecord, ← record_dependents]
    split <;> rfl
  · rw [← record_value, hrecord, if_neg (List.mem_singleton.not.mp hy), record_value]
  · rw [← record_value, hrecord, if_pos rfl]
    rfl

/-! ## One pass -/

theorem run_recalculate (x : String) (t : Table) :
    (recalculate x).run t = match t.evaluateCell x with
      | .ok value => (.ok (x, value), t.modify x (·.withValue value))
      | .error fault => (.error fault, t) := by
  rw [recalculate, Action.run_query_bind]
  cases t.evaluateCell x <;> rfl

/-- **A pass in a good order leaves every cell of it current**: each cell of the pass is computed
once, and before no cell that it reads. -/
theorem revalued_of_recalculate {updates : Updates} (hids : ∀ x ∈ cells, x ∈ t.ids)
    (hnodup : cells.Nodup) (hself : ∀ x ∈ cells, ¬ t.Reads x x)
    (hlater : cells.Pairwise fun x y ↦ ¬ t.Reads x y)
    (hrun : (cells.mapM recalculate).run t = (.ok updates, u)) :
    t.Revalued u cells ∧ (updates = cells.map fun x ↦ (x, u.valueOf x)) ∧
      ∀ x ∈ cells, u.evaluateCell x = .ok (u.valueOf x) := by
  induction cells generalizing t updates with
  | nil =>
    cases hrun
    exact ⟨.refl _, rfl, fun x hx ↦ absurd hx List.not_mem_nil⟩
  | cons x rest ih =>
    rw [List.mapM_cons] at hrun
    obtain ⟨_, mid, hhead, hrun⟩ := Action.run_bind_eq_ok_iff.mp hrun
    obtain ⟨tail, _, htail, hrun⟩ := Action.run_bind_eq_ok_iff.mp hrun
    cases hrun
    rw [run_recalculate] at hhead
    split at hhead
    · rename_i value hvalue
      cases hhead
      obtain ⟨hfirst, hwritten⟩ := revalued_withValue t (hids x List.mem_cons_self) value
      obtain ⟨hx, hnodup'⟩ := List.nodup_cons.mp hnodup
      obtain ⟨hxlater, hlater'⟩ := List.pairwise_cons.mp hlater
      obtain ⟨hrest, hupdates, hcurrent⟩ := ih
        (fun y hy ↦ hfirst.ids ▸ hids y (List.mem_cons_of_mem x hy)) hnodup'
        (fun y hy hreads ↦ hself y (List.mem_cons_of_mem x hy) (hfirst.reads_iff.mp hreads))
        (hlater'.imp fun hno hreads ↦ hno (hfirst.reads_iff.mp hreads)) htail
      have hall : t.Revalued u (x :: rest) := hfirst.trans hrest
      have hvaluex : u.valueOf x = value := by rw [hrest.valueOf x hx, hwritten]
      refine ⟨hall, by rw [List.map_cons, hvaluex, hupdates], fun y hy ↦ ?_⟩
      rcases List.mem_cons.mp hy with rfl | hy
      · -- what the first cell has read is neither the cell itself nor a later one
        have hkept : ∀ z, u.Reads y z → u.valueOf z = t.valueOf z := by
          intro z hz
          rw [hall.reads_iff] at hz
          refine hall.valueOf z fun hmem ↦ ?_
          rcases List.mem_cons.mp hmem with rfl | hmem
          · exact hself z List.mem_cons_self hz
          · exact hxlater z hmem hz
        rw [evaluateCell_congr (congrFun hall.formula? y) hkept, hvalue, hvaluex]
      · exact hcurrent y hy
    · cases hhead

theorem exists_recalculate (hids : ∀ x ∈ cells, x ∈ t.ids) (heval : ∀ x ∈ cells, t.Evaluable x) :
    ∃ updates u, (cells.mapM recalculate).run t = (.ok updates, u) := by
  induction cells generalizing t with
  | nil => exact ⟨[], t, rfl⟩
  | cons x rest ih =>
    obtain ⟨value, hvalue⟩ := (heval x List.mem_cons_self).exists_evaluateCell
    obtain ⟨hfirst, -⟩ := revalued_withValue t (hids x List.mem_cons_self) value
    obtain ⟨updates, u, hrest⟩ := ih
      (fun y hy ↦ hfirst.ids ▸ hids y (List.mem_cons_of_mem x hy))
      (fun y hy ↦ hfirst.evaluable_iff.mpr (heval y (List.mem_cons_of_mem x hy)))
    refine ⟨(x, value) :: updates, u, ?_⟩
    rw [List.mapM_cons, Action.run_bind, run_recalculate, hvalue]
    simp only [Action.run_bind, hrest, Action.run_pure]

/-! ## Propagation -/

theorem run_propagate (origin : String) (t : Table) :
    (propagate origin).run t = match t.affected origin with
      | .ok ids => (ids.mapM recalculate).run t
      | .error fault => (.error fault, t) := by
  rw [propagate, Action.run_query_bind]
  cases t.affected origin <;> rfl

/-- **Propagation leaves every affected cell current**, whatever the values were before it. It
writes the values of these cells and reports them in the order of the pass. -/
theorem Tracked.revalued_of_propagate {origin : String} {updates : Updates} (h : t.Tracked)
    (hrun : (propagate origin).run t = (.ok updates, u)) :
    ∃ ids, t.affected origin = .ok ids ∧ t.Revalued u ids ∧
      (updates = ids.map fun x ↦ (x, u.valueOf x)) ∧
      ∀ x ∈ ids, u.evaluateCell x = .ok (u.valueOf x) := by
  rw [run_propagate] at hrun
  split at hrun
  · rename_i ids hids
    obtain ⟨hnodup, hself, hlater⟩ := h.affected_ok hids
    exact ⟨ids, hids,
      revalued_of_recalculate (mem_ids_of_affected hids) hnodup hself hlater hrun⟩
  · cases hrun

/-- **Propagation makes every value current**, if before it only cells that read the origin are
behind. -/
theorem revalued_of_propagate {origin : String} {updates : Updates} (ht : t.Linked)
    (hcurrent : ∀ x, ¬ t.Reads x origin → t.Current x)
    (hrun : (propagate origin).run t = (.ok updates, u)) :
    ∃ ids, t.affected origin = .ok ids ∧ t.Revalued u ids ∧
      (updates = ids.map fun x ↦ (x, u.valueOf x)) ∧ ∀ x, u.Current x := by
  obtain ⟨ids, hids, hall, hupdates, hdone⟩ := ht.tracked.revalued_of_propagate hrun
  obtain ⟨hmem, -⟩ := ht.affected_ok hids
  refine ⟨ids, hids, hall, hupdates, fun x ↦ ?_⟩
  by_cases hx : x ∈ ids
  · exact fun _ _ ↦ hdone x hx
  · -- an unaffected cell reads neither the origin nor an affected cell
    have hkept : ∀ y, u.Reads x y → u.valueOf y = t.valueOf y := by
      intro y hy
      rw [hall.reads_iff] at hy
      exact hall.valueOf y fun hmemy ↦ hx ((hmem x).mpr (.head hy ((hmem y).mp hmemy)))
    have horigin : ¬ t.Reads x origin := fun hreads ↦ hx ((hmem x).mpr (.single hreads))
    exact (hcurrent x horigin).congr (congrFun hall.formula? x) (hall.valueOf x hx) hkept

theorem exists_propagate {origin : String} {ids : List String}
    (hids : t.affected origin = .ok ids) (heval : ∀ x, t.Evaluable x) :
    ∃ updates u, (propagate origin).run t = (.ok updates, u) := by
  rw [run_propagate, hids]
  exact exists_recalculate (mem_ids_of_affected hids) fun x _ ↦ heval x

end Table

end Spreadsheet
