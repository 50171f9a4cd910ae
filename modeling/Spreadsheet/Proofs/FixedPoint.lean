import Spreadsheet.Proofs.Recalculation
import Spreadsheet.Proofs.Wiring

/-!
# One pass reaches the fixed point

Propagation computes every affected cell once. Each new value is written before the next cell is
computed, so what a cell reads may be an old value, one of this pass, or one that is still to be
written; only in the last case would the cell be left behind. It does not happen on a table that is
tracked, where the edges account for all that formulas read from cells with records. What else the
table has makes no difference: the values before the pass may be any, and there may be edges that no
formula asks for.

After such a pass every value that it wrote is the value of its formula over the table as it is now.
So a second pass computes the same values and writes what is there already.

If the cells to be computed close a circle, no value has been written: circles are found by the
walk, and evaluation has no such fault (`evaluateCell_ne_circular`).
-/

namespace Spreadsheet

/-! ## Evaluation finds no circles -/

theorem Position.id_ne_circular (p : Position) (cause : Circular) :
    p.id ≠ .error (.circular cause) := by
  intro h
  rcases fault_of_id h with h | h <;> cases h

theorem CellRef.read_ne_circular (text : String) (cause : Circular) :
    CellRef.read text ≠ .error (.circular cause) := by
  intro h
  simp only [read] at h
  split at h
  · cases h
  · split at h
    · split at h
      · cases h
      · split at h <;> cases h
    · cases h

theorem Operation.apply_ne_circular (name : String) (args : List Float) (cause : Circular) :
    apply name args ≠ .error (.circular cause) := by
  intro h
  unfold apply at h
  split at h
  · cases h
  · split at h <;> cases h

theorem Formula.evaluate_ne_circular (f : Formula) (valueOf : String → Float) (base : Position)
    (cause : Circular) : f.evaluate valueOf base ≠ .error (.circular cause) := by
  induction f using induction with
  | num value =>
    rw [evaluate, foldM_num]
    intro h
    cases h
  | foreign text =>
    rw [evaluate, foldM_foreign]
    intro h
    cases h
  | ref target =>
    rw [evaluate_ref]
    intro h
    exact Position.id_ne_circular _ cause (Outcome.map_eq_error_iff.mp h)
  | app fn args ih =>
    rw [evaluate_app]
    intro h
    rcases Outcome.bind_eq_error_iff.mp h with h | ⟨values, -, h⟩
    · obtain ⟨g, hg, hfault⟩ := Outcome.exists_mem_of_mapM_eq_error h
      exact ih g hg hfault
    · exact Operation.apply_ne_circular fn values cause h

namespace Table

variable {t u : Table} {cells : List String}

theorem evaluateCell_ne_circular (t : Table) (x : String) (cause : Circular) :
    t.evaluateCell x ≠ .error (.circular cause) := by
  intro h
  unfold evaluateCell at h
  split at h
  · cases h
  · rcases Outcome.bind_eq_error_iff.mp h with h | ⟨base, -, h⟩
    · exact CellRef.read_ne_circular x cause (Outcome.map_eq_error_iff.mp h)
    · exact Formula.evaluate_ne_circular _ _ _ cause h

theorem recalculate_ne_circular (cells : List String) (t u : Table) (cause : Circular) :
    (cells.mapM recalculate).run t ≠ (.error (.circular cause), u) := by
  induction cells generalizing t with
  | nil => exact nofun
  | cons x rest ih =>
    rw [List.mapM_cons, Action.run_bind, run_recalculate]
    cases hvalue : t.evaluateCell x with
    | error fault =>
      rintro ⟨⟩
      exact evaluateCell_ne_circular _ x cause hvalue
    | ok value =>
      simp only [Action.run_bind_pure]
      intro h
      obtain ⟨hresult, rfl⟩ := Prod.mk.inj h
      exact ih _ (Prod.ext (Outcome.map_eq_error_iff.mp hresult) rfl)

/-! ## The second pass -/

theorem modify_withValue_self (t : Table) (x : String) :
    t.modify x (·.withValue (t.valueOf x)) = t := by
  refine OrderedMap.modify_eq_self fun r hr ↦ ?_
  rw [← record_value, record_of_get? hr]
  rfl

theorem run_recalculate_self (h : ∀ x ∈ cells, t.evaluateCell x = .ok (t.valueOf x)) :
    (cells.mapM recalculate).run t = (.ok (cells.map fun x ↦ (x, t.valueOf x)), t) := by
  induction cells with
  | nil => rfl
  | cons x rest ih =>
    have hhead : (recalculate x).run t = (.ok (x, t.valueOf x), t) := by
      rw [run_recalculate, h x List.mem_cons_self]
      simp only [modify_withValue_self]
    have hrest := ih fun y hy ↦ h y (List.mem_cons_of_mem x hy)
    rw [List.mapM_cons, Action.run_bind, hhead]
    simp only [Action.run_bind_pure, hrest]
    rfl

/-! ## The fixed point -/

/-- **One pass of propagation reaches the fixed point** on a tracked table. If it stops at a circle,
the table is as it was. If it comes to its end, nothing has changed but the values of the affected
cells, each of them is what its formula comes to over the table as it is after the pass, and another
pass reports the same and changes nothing. -/
theorem propagate_settles (h : t.Tracked) (origin : String) :
    (∀ cause u, (propagate origin).run t = (.error (.circular cause), u) → u = t) ∧
    ∀ updates u, (propagate origin).run t = (.ok updates, u) →
      t.affected origin = .ok (updates.map Prod.fst) ∧
      t.Revalued u (updates.map Prod.fst) ∧
      (∀ x value, (x, value) ∈ updates → u.valueOf x = value ∧
        ∃ f base, u.formula? x = some f ∧ Position.read x = .ok base ∧
          f.evaluate u.valueOf base = .ok value) ∧
      (propagate origin).run u = (.ok updates, u) := by
  constructor
  · intro cause u hrun
    rw [run_propagate] at hrun
    split at hrun
    · exact absurd hrun (recalculate_ne_circular _ t u cause)
    · cases hrun
      rfl
  · intro updates u hrun
    obtain ⟨ids, hids, hall, rfl, hcurrent⟩ := h.revalued_of_propagate hrun
    have hfirst : (ids.map fun x ↦ (x, u.valueOf x)).map Prod.fst = ids := by
      rw [List.map_map]
      exact List.map_id ids
    rw [hfirst]
    refine ⟨hids, hall, fun x value hmem ↦ ?_, ?_⟩
    · obtain ⟨y, hy, heq⟩ := List.mem_map.mp hmem
      cases heq
      obtain ⟨f, hf⟩ := exists_formula_of_affected hids hy
      have hvalue := hcurrent x hy
      rw [← hall.formula?] at hf
      simp only [evaluateCell, hf] at hvalue
      obtain ⟨base, hbase, hvalue⟩ := Outcome.bind_eq_ok_iff.mp hvalue
      exact ⟨rfl, f, base, hf, hbase, hvalue⟩
    · rw [run_propagate, hall.affected, hids]
      exact run_recalculate_self hcurrent

/-- The value of `a1` is not the one of its formula, which is no matter to the cells that read it.
Of these `c1` is the older one, and it is computed last all the same. Where `a1` reads `b1` in
turn, nothing is computed. -/
theorem propagate_settles_stale :
    let a1 (expr : String) (f : Formula) : Assignment := .of ⟨1, 1⟩ expr f
    let b1 : Assignment := .of ⟨2, 1⟩ "a1*2" (.app "*" [.ref ⟨-1, 0, false, false⟩, .num 2.0])
    let c1 : Assignment := .of ⟨3, 1⟩ "a1+b1"
      (.app "+" [.ref ⟨-2, 0, false, false⟩, .ref ⟨-1, 0, false, false⟩])
    let t : Table := (Table.assignAll [a1 "7" (.num 7.0), c1, b1] ∅).modify "a1" (·.withValue 5.0)
    let circle := Table.assignAll [a1 "b1" (.ref ⟨1, 0, false, false⟩), c1, b1] ∅
    t.Tracked ∧ circle.Tracked ∧
      (∃ u, (propagate "a1").run t = (.ok [("b1", 10.0), ("c1", 15.0)], u) ∧
        u.valueOf "a1" = 5.0 ∧ u.valueOf "c1" = 15.0 ∧
        (propagate "a1").run u = (.ok [("b1", 10.0), ("c1", 15.0)], u)) ∧
      (propagate "a1").run circle = (.error (.circular (.path ["a1", "b1", "a1"])), circle) := by
  intro a1 b1 c1 t circle
  have ht : t.Tracked :=
    ((revalued_withValue _ (by decide +kernel) 5.0).1.linked
      (wired_empty.assignAll _).linked).tracked
  have hcircle : circle.Tracked := (wired_empty.assignAll _).linked.tracked
  refine ⟨ht, hcircle, ?_, ?_⟩
  · have hrun : (propagate "a1").run t
        = (.ok [("b1", 10.0), ("c1", 15.0)], ((propagate "a1").run t).2) :=
      Prod.ext (by decide +kernel) rfl
    obtain ⟨-, hall, hvalues, hagain⟩ := (propagate_settles ht "a1").2 _ _ hrun
    refine ⟨_, hrun, ?_, (hvalues "c1" 15.0 (by simp)).1, hagain⟩
    rw [hall.valueOf "a1" (by decide)]
    decide +kernel
  · have hfault : ((propagate "a1").run circle).1
        = .error (.circular (.path ["a1", "b1", "a1"])) := by
      decide +kernel
    exact Prod.ext hfault ((propagate_settles hcircle "a1").1 _ _ (Prod.ext hfault rfl))

end Table

end Spreadsheet
