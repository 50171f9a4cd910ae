import Spreadsheet.Proofs.Order
import Spreadsheet.Proofs.Wiring

/-!
# The least order of formulas

Of all lists that have every cell with a formula once, after the cells with formulas that it reads,
`topologicalOrder` gives the least one, where lists are compared id by id. It takes the smallest
cell that is ready and looks no further ahead. That is enough, since any such list of the pending
cells begins with a ready one. What the loop takes is no larger, and if it is the same cell, what
follows in the list is such a list of the cells that are pending from then on.

If there is a cycle there is no such list, and the cells that are left over are told exactly. Cells
that wait for one another are never listed, so whatever reads its way into a cycle is left. The
other way round, a cell that is left reads one that is left; as there are finitely many, going on
like this ends up in a cycle.

Cells count what they read, and are released along the edges. So the edges have to be those of the
formulas, and nothing else is needed: the table may be any wired one.
-/

namespace Spreadsheet

open Relation
open scoped List

namespace Table

variable {t : Table} {deps : String → IdSet} {pending other : List String} {waiting : Waiting}
  {ready : IdSet} {x y : String}

/-! ## The greedy choice -/

theorem Queued.mem_ready_of_first {rest : List String} (h : Queued deps pending waiting ready)
    (hperm : pending.Perm (x :: rest)) (hself : x ∉ deps x) (hrest : ∀ y ∈ rest, x ∉ deps y) :
    x ∈ ready := by
  refine h.mem_ready_iff.mpr ⟨hperm.mem_iff.mpr List.mem_cons_self, fun y hy ↦ ?_⟩
  rcases List.mem_cons.mp (hperm.mem_iff.mp hy) with rfl | hy
  · exact hself
  · exact hrest y hy

/-- **The loop lists no more than the least**: no list of the pending cells in which none comes
before one that it waits for is less than what the loop makes of them. -/
theorem Queued.least (h : Queued deps pending waiting ready) (hperm : pending.Perm other)
    (hself : ∀ x ∈ other, x ∉ deps x) (hordered : other.Pairwise fun x y ↦ x ∉ deps y) :
    (drain deps waiting ready).1 = other ∨
      List.Lex (· < ·) (drain deps waiting ready).1 other := by
  fun_induction drain deps waiting ready generalizing pending other with
  | case1 waiting ready hpop =>
    cases other with
    | nil => exact Or.inl rfl
    | cons first rest => exact Or.inr .nil
  | case2 waiting ready id others hpop next ids left hdrain =>
    rename_i ih
    rw [hdrain] at ih
    obtain ⟨hmem, -, hnext⟩ := h.step hpop
    obtain ⟨first, rest, rfl⟩ := List.exists_cons_of_ne_nil (List.ne_nil_of_mem (hperm.subset hmem))
    obtain ⟨hfirst, hordered⟩ := List.pairwise_cons.mp hordered
    have hready : first ∈ ready :=
      h.mem_ready_of_first hperm (hself first List.mem_cons_self) hfirst
    rcases (IdSet.mem_iff_of_popMin? hpop).mp hready with rfl | hlarger
    · have hrest : (pending.erase first).Perm rest :=
        ((List.perm_cons_erase hmem).symm.trans hperm).cons_inv
      rcases ih hnext hrest (fun x hx ↦ hself x (List.mem_cons_of_mem first hx)) hordered
        with heq | hless
      · exact Or.inl (congrArg (first :: ·) heq)
      · exact Or.inr (.cons hless)
    · exact Or.inr (.rel (IdSet.lt_of_popMin? hpop hlarger))

/-! ## What is left -/

theorem Queued.not_mem_of_stuck {stuck : String → Prop} (h : Queued deps pending waiting ready)
    (hpending : ∀ y, stuck y → y ∈ pending) (hstuck : ∀ y, stuck y → ∃ x, stuck x ∧ y ∈ deps x)
    (hy : stuck y) : y ∉ (drain deps waiting ready).1 := by
  fun_induction drain deps waiting ready generalizing pending with
  | case1 => exact List.not_mem_nil
  | case2 waiting ready id others hpop next ids left hdrain =>
    rename_i ih
    rw [hdrain] at ih
    obtain ⟨-, hfree, hnext⟩ := h.step hpop
    have hid : ¬ stuck id := by
      intro hid
      obtain ⟨x, hx, hdeps⟩ := hstuck id hid
      exact hfree x (hpending x hx) hdeps
    have hne : ∀ z, stuck z → z ≠ id := fun z hz heq ↦ hid (heq ▸ hz)
    have hstill : ∀ z, stuck z → z ∈ pending.erase id := fun z hz ↦
      (List.mem_erase_of_ne (hne z hz)).mpr (hpending z hz)
    exact List.not_mem_cons_of_ne_of_not_mem (hne y hy) (ih hnext hstill)

/-- The cell is on a cycle of cells that read each other, or reads its way into one. -/
def Entangled (t : Table) (x : String) : Prop :=
  ∃ y, ReflTransGen t.Reads x y ∧ TransGen t.Reads y y

theorem Entangled.exists_reads (h : t.Entangled y) : ∃ x, t.Entangled x ∧ t.Reads y x := by
  obtain ⟨z, hreach, hcycle⟩ := h
  obtain ⟨x, hreads, hrest⟩ := TransGen.head'_iff.mp (hcycle.trans_right hreach)
  exact ⟨x, ⟨z, hrest, hcycle⟩, hreads⟩

theorem Entangled.exists_formula (h : t.Entangled y) : ∃ f, t.formula? y = some f := by
  obtain ⟨-, -, f, -, hf, -, -⟩ := h.exists_reads
  exact ⟨f, hf⟩

theorem mem_left_iff (ht : t.Linked) : x ∈ t.listing.2.map Prod.fst ↔ t.Entangled x := by
  constructor
  · exact exists_cycle_of_left ht
  · intro hx
    have hpending : ∀ y, t.Entangled y → y ∈ t.formulaIds := fun y hy ↦
      mem_formulaIds_iff.mpr hy.exists_formula
    have hstuck : ∀ y, t.Entangled y → ∃ z, t.Entangled z ∧ y ∈ t.dependents z := by
      intro y hy
      obtain ⟨z, hz, hreads⟩ := hy.exists_reads
      exact ⟨z, hz, (ht z y).mpr hreads⟩
    have hnot : x ∉ t.listing.1 := (queued_allWaiting t).not_mem_of_stuck hpending hstuck hx
    rcases List.mem_append.mp ((drained_listing t).perm.mem_iff.mp (hpending x hx)) with
      hlisted | hleft
    · exact absurd hlisted hnot
    · exact hleft

theorem left_eq_nil_iff (ht : t.Linked) : t.listing.2 = [] ↔ t.Acyclic := by
  constructor
  · intro hleft x hcycle
    simpa [hleft] using (mem_left_iff ht).mpr ⟨x, .refl, hcycle⟩
  · exact left_eq_nil ht

/-! ## Orders -/

/-- A list has every cell with a formula once, after all cells with formulas that it reads. -/
structure Orders (t : Table) (ids : List String) : Prop where
  nodup : ids.Nodup
  mem_iff : ∀ x, x ∈ ids ↔ ∃ f, t.formula? x = some f
  after : ∀ x ∈ ids, ∀ y ∈ ids, t.Reads y x → [x, y] <+ ids

theorem orders_of_perm (hperm : t.formulaIds.Perm other) : t.Orders other ↔
    (∀ x ∈ other, ¬ t.Reads x x) ∧ other.Pairwise fun x y ↦ ¬ t.Reads x y := by
  have hnodup : other.Nodup := hperm.nodup_iff.mp (nodup_formulaIds t)
  have hmem : ∀ x, x ∈ other ↔ ∃ f, t.formula? x = some f := fun x ↦ by
    rw [← hperm.mem_iff, mem_formulaIds_iff]
  have hafter := pairwise_iff_sublist (r := fun x y ↦ t.Reads y x) hnodup
  exact ⟨fun h ↦ hafter.mpr h.after, fun h ↦ ⟨hnodup, hmem, hafter.mp h⟩⟩

theorem Orders.perm (h : t.Orders other) : t.formulaIds.Perm other := by
  refine (List.perm_ext_iff_of_nodup (nodup_formulaIds t) h.nodup).mpr fun x ↦ ?_
  rw [mem_formulaIds_iff, h.mem_iff]

theorem orders_listing (ht : t.Linked) (hacyclic : t.Acyclic) : t.Orders t.listing.1 := by
  refine (orders_of_perm (perm_listing ht hacyclic)).mpr ⟨?_, ordered_listing ht⟩
  exact fun x _ hreads ↦ hacyclic x (.single hreads)

theorem listing_least (ht : t.Linked) (hother : t.Orders other) :
    t.listing.1 = other ∨ List.Lex (· < ·) t.listing.1 other := by
  obtain ⟨hself, hordered⟩ := (orders_of_perm hother.perm).mp hother
  refine (queued_allWaiting t).least hother.perm (fun x hx hdeps ↦ ?_) ?_
  · exact hself x hx ((ht x x).mp hdeps)
  · exact hordered.imp fun {x y} hno hdeps ↦ hno ((ht y x).mp hdeps)

/-- **The order is the least one.** On a wired table `topologicalOrder` gives the least order of the
cells with formulas if no cells read each other in a circle. If some do, it fails and names, in
ascending order, the cells that lie on a cycle or read their way into one. -/
theorem topologicalOrder_least (h : t.Wired) :
    match t.topologicalOrder with
    | .ok ids =>
      t.Acyclic ∧ t.Orders ids ∧
      ∀ other, t.Orders other → ids = other ∨ List.Lex (· < ·) ids other
    | .error fault =>
      ¬ t.Acyclic ∧ ∃ ids, fault = .circular (.among ids) ∧
      fault.message = "circular reference involving " ++ Text.quotedList ids ∧
      ids.Pairwise (· < ·) ∧
      ∀ x, x ∈ ids ↔ (∃ f, t.formula? x = some f) ∧ t.Entangled x := by
  have hleft := left_eq_nil_iff h.linked
  rw [topologicalOrder_eq h]
  by_cases hacyclic : t.Acyclic
  · simp only [hleft.mpr hacyclic, List.isEmpty_nil, if_true]
    exact ⟨hacyclic, orders_listing h.linked hacyclic, fun _ ↦ listing_least h.linked⟩
  · simp only [List.isEmpty_iff, hleft, hacyclic, if_false]
    refine ⟨not_false, _, rfl, rfl, IdSet.ascending _, fun x ↦ ?_⟩
    rw [← IdSet.mem_def, IdSet.mem_ofList, mem_left_iff h.linked]
    exact ⟨fun hx ↦ ⟨hx.exists_formula, hx⟩, And.right⟩

/-- Ids are compared as texts, so `a10` is listed before `a2`. The cell `a1` is the smallest one,
but has to wait for `a2`. Where `a2` reads `b1` in turn, which reads it through `a1`, the fault
leaves out `a10` and `c1` only. -/
theorem topologicalOrder_least_texts :
    let a1 : Assignment := .of ⟨1, 1⟩ "a2" (.ref ⟨0, 1, false, false⟩)
    let a2 (expr : String) (f : Formula) : Assignment := .of ⟨1, 2⟩ expr f
    let a10 : Assignment := .of ⟨1, 10⟩ "1" (.num 1.0)
    let b1 : Assignment := .of ⟨2, 1⟩ "a1+a10"
      (.app "+" [.ref ⟨-1, 0, false, false⟩, .ref ⟨-1, 9, false, false⟩])
    let c1 : Assignment := .of ⟨3, 1⟩ "a10" (.ref ⟨-2, 9, false, false⟩)
    let d1 : Assignment := .of ⟨4, 1⟩ "b1" (.ref ⟨-2, 0, false, false⟩)
    let t := Table.assignAll [c1, b1, a1, a2 "2" (.num 2.0), a10] ∅
    let circle := Table.assignAll [d1, c1, b1, a1, a2 "b1" (.ref ⟨1, -1, false, false⟩), a10] ∅
    t.Wired ∧ circle.Wired ∧
      t.topologicalOrder = .ok ["a10", "a2", "a1", "b1", "c1"] ∧
      (∀ other, t.Orders other → ["a10", "a2", "a1", "b1", "c1"] = other ∨
        List.Lex (· < ·) ["a10", "a2", "a1", "b1", "c1"] other) ∧
      circle.topologicalOrder = .error (.circular (.among ["a1", "a2", "b1", "d1"])) ∧
      circle.Entangled "d1" ∧ ¬ circle.Entangled "c1" := by
  intro a1 a2 a10 b1 c1 d1 t circle
  have ht : t.Wired := wired_empty.assignAll _
  have hcircle : circle.Wired := wired_empty.assignAll _
  have horder : t.topologicalOrder = .ok ["a10", "a2", "a1", "b1", "c1"] := by decide +kernel
  have hfault : circle.topologicalOrder = .error (.circular (.among ["a1", "a2", "b1", "d1"])) := by
    decide +kernel
  have hleast := topologicalOrder_least ht
  have hamong := topologicalOrder_least hcircle
  rw [horder] at hleast
  rw [hfault] at hamong
  obtain ⟨-, ids, hids, -, -, hmem⟩ := hamong
  cases hids
  refine ⟨ht, hcircle, horder, hleast.2.2, hfault, ((hmem "d1").mp (by decide)).2, fun hc1 ↦ ?_⟩
  exact absurd ((hmem "c1").mpr ⟨hc1.exists_formula, hc1⟩) (by decide)

end Table

end Spreadsheet
