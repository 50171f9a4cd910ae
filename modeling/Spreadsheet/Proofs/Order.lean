import Spreadsheet.Proofs.Wiring
import Spreadsheet.Table.Order

/-!
# The order of formulas exists and is unique

In a wired table without cycles `topologicalOrder` lists the cells with formulas, each once, and
none before a cell that it reads. The list depends on the formulas and edges alone, not on the order
in which the cells were created.

The loop keeps one law: the cells listed so far, the cells that are ready and the cells that wait
are together the cells with formulas. A waiting cell counts the pending cells that it reads, so a
cell is ready exactly when everything it reads is listed. When no cell is ready every waiting cell
reads a waiting cell, and that is a cycle unless no cell waits.
-/

namespace Spreadsheet

open Relation

namespace Table

variable {deps : String → IdSet} {pending : List String} {waiting other : Waiting} {ready : IdSet}

/-! ## The state of the loop -/

/-- Every waiting cell counts the pending cells that it is a dependent of. -/
def Counted (deps : String → IdSet) (pending : List String) (waiting : Waiting) : Prop :=
  ∀ e ∈ waiting, e.2 = pending.countP fun x ↦ decide (e.1 ∈ deps x)

/-- The loop is to list the pending cells: some of them wait, and the others are ready. -/
structure Queued (deps : String → IdSet) (pending : List String) (waiting : Waiting)
    (ready : IdSet) : Prop where
  nodup : pending.Nodup
  perm : pending.Perm (waiting.map Prod.fst ++ ready.ids)
  counted : Counted deps pending waiting
  waits : ∀ e ∈ waiting, e.2 ≠ 0
  free : ∀ y ∈ ready, ∀ x ∈ pending, y ∉ deps x

private theorem perm_released_append (waiting : Waiting) :
    (waiting.map Prod.fst).Perm (released waiting ++ (blocked waiting).map Prod.fst) := by
  rw [released, ← List.map_append]
  refine (List.Perm.map Prod.fst ?_).symm
  exact List.filter_append_perm (fun e : String × Nat ↦ e.2 == 0) waiting

private theorem ids_foldl_insert_perm {ids : List String} {s : IdSet} (h : (ids ++ s.ids).Nodup) :
    (ids.foldl IdSet.insert s).ids.Perm (ids ++ s.ids) := by
  refine (List.perm_ext_iff_of_nodup (IdSet.nodup _) h).mpr fun id ↦ ?_
  rw [← IdSet.mem_def, IdSet.mem_foldl_insert, IdSet.mem_def, List.mem_append, or_comm]

/-- What is inserted counts, not the order of the insertions. -/
private theorem foldl_insert_congr {ids ids' : List String} (h : ids.Perm ids') (s : IdSet) :
    ids.foldl IdSet.insert s = ids'.foldl IdSet.insert s := by
  refine IdSet.ext fun id ↦ ?_
  rw [IdSet.mem_foldl_insert, IdSet.mem_foldl_insert, h.mem_iff]

theorem Counted.queued {rest : IdSet} (h : Counted deps pending waiting) (hnodup : pending.Nodup)
    (hperm : pending.Perm (waiting.map Prod.fst ++ rest.ids))
    (hfree : ∀ y ∈ rest, ∀ x ∈ pending, y ∉ deps x) :
    Queued deps pending (blocked waiting) ((released waiting).foldl IdSet.insert rest) where
  nodup := hnodup
  perm := by
    have hsplit : pending.Perm
        ((blocked waiting).map Prod.fst ++ (released waiting ++ rest.ids)) := by
      refine hperm.trans ?_
      rw [← List.append_assoc]
      exact ((perm_released_append waiting).trans List.perm_append_comm).append_right _
    have hready : (released waiting ++ rest.ids).Nodup :=
      (hsplit.nodup_iff.mp hnodup).sublist (List.sublist_append_right _ _)
    exact hsplit.trans ((ids_foldl_insert_perm hready).symm.append_left _)
  counted e he := h e (List.mem_filter.mp he).1
  waits e he := by simpa using (List.mem_filter.mp he).2
  free y hy x hx := by
    rcases IdSet.mem_foldl_insert.mp hy with hy | hy
    · exact hfree y hy x hx
    · obtain ⟨e, he, rfl⟩ := List.mem_map.mp hy
      obtain ⟨hmem, hzero⟩ := List.mem_filter.mp he
      rw [beq_iff_eq, h e hmem, List.countP_eq_zero] at hzero
      simpa using hzero x hx

/-- Listing a ready cell takes it out of every count that it is in. -/
theorem Counted.release {id : String} {rest : List String} (h : Counted deps pending waiting)
    (hperm : pending.Perm (id :: rest)) : Counted deps rest (release (deps id) waiting) := by
  intro e he
  obtain ⟨⟨y, count⟩, hmem, rfl⟩ := List.mem_map.mp he
  have hcount := h _ hmem
  rw [hperm.countP_eq, List.countP_cons] at hcount
  simp only at hcount ⊢
  rw [hcount]
  by_cases hy : y ∈ deps id <;> simp [hy]

theorem map_fst_release (dependents : IdSet) (waiting : Waiting) :
    (release dependents waiting).map Prod.fst = waiting.map Prod.fst := by
  rw [release, List.map_map]
  rfl

/-! ## The loop -/

namespace Queued

variable (h : Queued deps pending waiting ready)

include h

theorem exists_waited {y : String} (hy : y ∈ waiting.map Prod.fst) :
    ∃ x ∈ pending, y ∈ deps x := by
  obtain ⟨e, he, rfl⟩ := List.mem_map.mp hy
  have hpos : 0 < pending.countP fun x ↦ decide (e.1 ∈ deps x) :=
    h.counted e he ▸ Nat.pos_of_ne_zero (h.waits e he)
  obtain ⟨x, hx, hdeps⟩ := List.countP_pos_iff.mp hpos
  exact ⟨x, hx, of_decide_eq_true hdeps⟩

theorem mem_ready_iff {y : String} : y ∈ ready ↔ y ∈ pending ∧ ∀ x ∈ pending, y ∉ deps x := by
  constructor
  · exact fun hy ↦ ⟨h.perm.mem_iff.mpr (List.mem_append_right _ hy), h.free y hy⟩
  · rintro ⟨hy, hfree⟩
    rcases List.mem_append.mp (h.perm.mem_iff.mp hy) with hwaiting | hready
    · obtain ⟨x, hx, hdeps⟩ := h.exists_waited hwaiting
      exact absurd hdeps (hfree x hx)
    · exact hready

/-- **One round of the loop** takes out a pending cell that waits for none. -/
theorem step {id : String} {rest : IdSet} (hpop : ready.popMin? = some (id, rest)) :
    id ∈ pending ∧ (∀ x ∈ pending, id ∉ deps x) ∧
      Queued deps (pending.erase id) (blocked (release (deps id) waiting))
        ((released (release (deps id) waiting)).foldl IdSet.insert rest) := by
  have hready : ∀ {y}, y ∈ ready ↔ y = id ∨ y ∈ rest := IdSet.mem_iff_of_popMin? hpop
  obtain ⟨hmem, hfree⟩ := h.mem_ready_iff.mp (hready.mpr (Or.inl rfl))
  have hpending : pending.Perm (id :: pending.erase id) := List.perm_cons_erase hmem
  have hrest : (pending.erase id).Perm ((release (deps id) waiting).map Prod.fst ++ rest.ids) := by
    refine List.Perm.cons_inv (a := id) (hpending.symm.trans (h.perm.trans ?_))
    rw [IdSet.ids_of_popMin? hpop, map_fst_release]
    exact List.perm_middle
  refine ⟨hmem, hfree, (h.counted.release hpending).queued (h.nodup.erase id) hrest ?_⟩
  exact fun y hy x hx ↦ h.free y (hready.mpr (Or.inr hy)) x (List.mem_of_mem_erase hx)

end Queued

/-- What the loop makes of the pending cells: it lists some of them, none before one that it waits
for, and each of those that are left waits for one that is left. -/
structure Drained (deps : String → IdSet) (pending ids : List String) (left : Waiting) : Prop where
  perm : pending.Perm (ids ++ left.map Prod.fst)
  ordered : ids.Pairwise fun x y ↦ x ∉ deps y
  stuck : ∀ y ∈ left.map Prod.fst, ∃ x ∈ left.map Prod.fst, y ∈ deps x

theorem Queued.drained (h : Queued deps pending waiting ready) :
    Drained deps pending (drain deps waiting ready).1 (drain deps waiting ready).2 := by
  fun_induction drain deps waiting ready generalizing pending with
  | case1 waiting ready hpop =>
    have hperm : pending.Perm (waiting.map Prod.fst) := by
      have := h.perm
      rwa [IdSet.popMin?_eq_none_iff.mp hpop, List.append_nil] at this
    refine ⟨hperm, .nil, fun y hy ↦ ?_⟩
    obtain ⟨x, hx, hdeps⟩ := h.exists_waited hy
    exact ⟨x, hperm.subset hx, hdeps⟩
  | case2 waiting ready id rest hpop next ids left hdrain =>
    rename_i ih
    rw [hdrain] at ih
    obtain ⟨hmem, hfree, hnext⟩ := h.step hpop
    have hdrained := ih hnext
    refine ⟨(List.perm_cons_erase hmem).trans (hdrained.perm.cons id), ?_, hdrained.stuck⟩
    refine List.pairwise_cons.mpr ⟨fun y hy ↦ ?_, hdrained.ordered⟩
    exact hfree y (List.mem_of_mem_erase (hdrained.perm.mem_iff.mpr (List.mem_append_left _ hy)))

theorem drain_perm (h : waiting.Perm other) :
    (drain deps waiting ready).1 = (drain deps other ready).1 ∧
      (drain deps waiting ready).2.Perm (drain deps other ready).2 := by
  fun_induction drain deps waiting ready generalizing other with
  | case1 waiting ready hpop =>
    rw [drain]
    split
    · exact ⟨rfl, h⟩
    · rename_i hsome
      rw [hpop] at hsome
      cases hsome
  | case2 waiting ready id rest hpop next ids left hdrain =>
    rename_i ih
    rw [hdrain] at ih
    have hnext : next.Perm (release (deps id) other) := h.map _
    have hready : (released next).foldl IdSet.insert rest
        = (released (release (deps id) other)).foldl IdSet.insert rest :=
      foldl_insert_congr ((hnext.filter _).map _) rest
    obtain ⟨hids, hleft⟩ := ih (hnext.filter _)
    rw [drain]
    split
    · rename_i hnone
      rw [hpop] at hnone
      cases hnone
    · rename_i hsome
      rw [hpop] at hsome
      cases hsome
      rw [hready] at hids hleft
      exact ⟨congrArg (id :: ·) hids, hleft⟩

/-! ## The order -/

variable {t u : Table}

/-- The cells with formulas, in the order of their creation. -/
def formulaIds (t : Table) : List String := t.ids.filter t.hasFormula

theorem Keyed.formulaCells_eq (h : t.Keyed) : t.formulaCells = t.formulaIds := by
  have hid : Record.id ∘ t.record = id := funext (keyed_iff.mp h)
  rw [formulaCells, formulaIds, records_eq, List.filter_map, List.map_map, hid, List.map_id]
  refine List.filter_congr fun x _ ↦ ?_
  rw [Function.comp_apply, Record.isPlaceholder, record_formula, hasFormula]
  cases t.formula? x <;> rfl

theorem mem_formulaIds_iff {x : String} : x ∈ t.formulaIds ↔ ∃ f, t.formula? x = some f := by
  rw [formulaIds, List.mem_filter, hasFormula_iff]
  exact ⟨And.right, fun ⟨f, hf⟩ ↦ ⟨mem_ids_of_formula? hf, f, hf⟩⟩

theorem nodup_formulaIds (t : Table) : t.formulaIds.Nodup :=
  t.nodup_keys.sublist List.filter_sublist

/-- At the start a cell waits for all cells with formulas that it is a dependent of. -/
def allWaiting (t : Table) : Waiting :=
  t.formulaIds.map fun y ↦ (y, t.formulaIds.countP fun x ↦ decide (y ∈ t.dependents x))

/-- The number of cells with formulas that a cell reads can be told from the edges. -/
theorem counts_eq (ht : t.Wired) : t.counts = .ok t.allWaiting := by
  rw [counts, ht.keyed.formulaCells_eq]
  refine Outcome.mapM_eq_ok_iff.mpr (List.forall₂_map_right_iff.mpr (List.forall₂_same.mpr ?_))
  intro y _
  obtain ⟨refs, hrefs⟩ := ht.exists_dependencies y
  have hperm : (refs.filter (· ∈ t.formulaIds)).Perm
      (t.formulaIds.filter fun x ↦ decide (y ∈ t.dependents x)) := by
    refine (List.perm_ext_iff_of_nodup ((nodup_of_dependencies hrefs).filter _)
      ((nodup_formulaIds t).filter _)).mpr fun x ↦ ?_
    rw [List.mem_filter, List.mem_filter, decide_eq_true_iff, decide_eq_true_iff, ht.linked,
      mem_dependencies_iff hrefs, and_comm]
  rw [hrefs, List.countP_eq_length_filter, ← hperm.length_eq]
  rfl

theorem queued_allWaiting (t : Table) :
    Queued t.dependents t.formulaIds (blocked t.allWaiting)
      (IdSet.ofList (released t.allWaiting)) := by
  have hcounted : Counted t.dependents t.formulaIds t.allWaiting := by
    intro e he
    obtain ⟨y, -, rfl⟩ := List.mem_map.mp he
    rfl
  change Queued t.dependents t.formulaIds (blocked t.allWaiting)
    ((released t.allWaiting).foldl IdSet.insert ∅)
  refine hcounted.queued (nodup_formulaIds t) ?_ fun y hy ↦ absurd hy (by simp)
  have hids : t.allWaiting.map Prod.fst = t.formulaIds := by
    rw [allWaiting, List.map_map]
    exact List.map_id _
  rw [hids]
  exact (List.append_nil _).symm ▸ List.Perm.refl _

/-- What the loop makes of a table: the cells that it lists, and those that are left. -/
def listing (t : Table) : List String × Waiting :=
  drain t.dependents (blocked t.allWaiting) (IdSet.ofList (released t.allWaiting))

theorem topologicalOrder_eq (ht : t.Wired) :
    t.topologicalOrder = if t.listing.2.isEmpty then .ok t.listing.1
      else .error (.circular (.among (IdSet.ofList (t.listing.2.map Prod.fst)).ids)) := by
  rw [topologicalOrder, counts_eq ht, Outcome.ok_bind]
  rfl

theorem drained_listing (t : Table) :
    Drained t.dependents t.formulaIds t.listing.1 t.listing.2 :=
  (queued_allWaiting t).drained

theorem ordered_listing (ht : t.Linked) : t.listing.1.Pairwise fun x y ↦ ¬ t.Reads x y :=
  (drained_listing t).ordered.imp fun {x y} hno hreads ↦ hno ((ht y x).mpr hreads)

theorem exists_cycle_of_left {x : String} (ht : t.Linked) (hx : x ∈ t.listing.2.map Prod.fst) :
    ∃ y, ReflTransGen t.Reads x y ∧ TransGen t.Reads y y := by
  refine exists_cycle_of_related (fun y hy ↦ ?_) hx
  obtain ⟨z, hz, hdeps⟩ := (drained_listing t).stuck y hy
  exact ⟨z, hz, (ht z y).mp hdeps⟩

theorem left_eq_nil (ht : t.Linked) (hacyclic : t.Acyclic) : t.listing.2 = [] := by
  refine List.eq_nil_iff_forall_not_mem.mpr fun e he ↦ ?_
  obtain ⟨y, -, hcycle⟩ := exists_cycle_of_left ht (List.mem_map_of_mem he)
  exact hacyclic y hcycle

theorem perm_listing (ht : t.Linked) (hacyclic : t.Acyclic) : t.formulaIds.Perm t.listing.1 := by
  simpa [left_eq_nil ht hacyclic] using (drained_listing t).perm

/-- **Every wired table without cycles has an order of its formulas**: each cell with a formula is
listed once, and none before a cell that it reads. -/
theorem exists_topologicalOrder (ht : t.Wired) (hacyclic : t.Acyclic) :
    ∃ ids, t.topologicalOrder = .ok ids ∧ ids.Nodup ∧
      (∀ x, x ∈ ids ↔ ∃ f, t.formula? x = some f) ∧ ids.Pairwise fun x y ↦ ¬ t.Reads x y := by
  have hperm := perm_listing ht.linked hacyclic
  refine ⟨t.listing.1, ?_, hperm.nodup_iff.mp (nodup_formulaIds t), fun x ↦ ?_,
    ordered_listing ht.linked⟩
  · rw [topologicalOrder_eq ht, left_eq_nil ht.linked hacyclic]
    rfl
  · rw [← hperm.mem_iff, mem_formulaIds_iff]

theorem allWaiting_perm (hformula : t.formula? = u.formula?)
    (hdependents : t.dependents = u.dependents) : t.allWaiting.Perm u.allWaiting := by
  have hids : t.formulaIds.Perm u.formulaIds := by
    refine (List.perm_ext_iff_of_nodup (nodup_formulaIds t) (nodup_formulaIds u)).mpr fun x ↦ ?_
    rw [mem_formulaIds_iff, mem_formulaIds_iff, hformula]
  rw [allWaiting, allWaiting, ← hdependents]
  simp only [hids.countP_eq]
  exact hids.map _

theorem listing_congr (hformula : t.formula? = u.formula?)
    (hdependents : t.dependents = u.dependents) :
    t.listing.1 = u.listing.1 ∧ t.listing.2.Perm u.listing.2 := by
  have hwaiting := allWaiting_perm hformula hdependents
  have hready : IdSet.ofList (released t.allWaiting) = IdSet.ofList (released u.allWaiting) :=
    foldl_insert_congr ((hwaiting.filter _).map _) ∅
  rw [listing, listing, ← hdependents, ← hready]
  exact drain_perm (hwaiting.filter _)

/-- **The order depends on the formulas and the edges alone**, and so does the fault if there is
none. -/
theorem topologicalOrder_congr (ht : t.Wired) (hu : u.Wired) (hformula : t.formula? = u.formula?)
    (hdependents : t.dependents = u.dependents) : t.topologicalOrder = u.topologicalOrder := by
  obtain ⟨hlisted, hleft⟩ := listing_congr hformula hdependents
  have hempty : t.listing.2.isEmpty = u.listing.2.isEmpty := by
    rw [Bool.eq_iff_iff, List.isEmpty_iff_length_eq_zero, List.isEmpty_iff_length_eq_zero,
      hleft.length_eq]
  have hset : IdSet.ofList (t.listing.2.map Prod.fst) =
      IdSet.ofList (u.listing.2.map Prod.fst) :=
    foldl_insert_congr (hleft.map _) ∅
  rw [topologicalOrder_eq ht, topologicalOrder_eq hu, hlisted, hempty, hset]

end Table

end Spreadsheet
