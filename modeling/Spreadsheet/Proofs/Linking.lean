import Spreadsheet.Proofs.Reading
import Spreadsheet.Proofs.Records

/-!
# Formulas and the edges between cells

A cell reads another one if its formula, taken at the cell's own position, references it. A table is
linked if its edges say exactly that: the dependents of a cell are the cells that read it. This file
describes what `assign` and `retract` do to a table, any table, and that they keep a linked table
linked.

Neither operation looks at more than the cell's own old and new references. That the result is right
for *all* pairs of cells comes from the table being linked before: the edges that have to go are the
ones that the old formula accounts for.

## Cycles

Giving a cell a formula changes what one cell reads. A cycle that was not there before then runs
through that cell, so it is enough to look for a way back to the cell itself
(`not_cyclic_of_update`), and the way back can be taken through the formulas of other cells, by
stopping at the first return (`reflTransGen_others`).
-/

namespace Spreadsheet

open Relation

/-! ## Relations that differ at one source -/

section Update

variable {α : Type} {r s : α → α → Prop} {a x y : α}

/-- Where two relations differ at `a` only, a path of the one is a path of the other or passes
through `a`. -/
private theorem transGen_or_through (h : ∀ y x, y ≠ a → s y x → r y x) (hpath : TransGen s y x) :
    TransGen r y x ∨ (ReflTransGen s y a ∧ TransGen s a x) := by
  induction hpath with
  | @single b hstep =>
    by_cases hy : y = a
    · subst hy
      exact Or.inr ⟨.refl, .single hstep⟩
    · exact Or.inl (.single (h y b hy hstep))
  | @tail b c hyb hstep ih =>
    by_cases hb : b = a
    · subst hb
      exact Or.inr ⟨hyb.to_reflTransGen, .single hstep⟩
    · rcases ih with hleft | ⟨hto, hfrom⟩
      · exact Or.inl (hleft.tail (h b c hb hstep))
      · exact Or.inr ⟨hto, hfrom.tail hstep⟩

/-- A change of what `a` leads to makes a cycle only if it makes one through `a`. -/
theorem not_cyclic_of_update (h : ∀ y x, y ≠ a → s y x → r y x) (hr : ∀ x, ¬ TransGen r x x)
    (ha : ¬ TransGen s a a) (x : α) : ¬ TransGen s x x := by
  intro hcycle
  rcases transGen_or_through h hcycle with hleft | ⟨hto, hfrom⟩
  · exact hr x hleft
  · exact ha (hfrom.trans_left hto)

/-- A way to `a` can stop where it first gets there, and then it leaves no `a` behind. -/
theorem reflTransGen_others (h : ∀ y x, y ≠ a → s y x → r y x) (hpath : ReflTransGen s x a) :
    ReflTransGen (fun y x ↦ y ≠ a ∧ r y x) x a := by
  induction hpath using ReflTransGen.head_induction_on with
  | refl => exact .refl
  | @head y z hstep _ ih =>
    by_cases hy : y = a
    · rw [hy]
    · exact ih.head ⟨hy, h y z hy hstep⟩

end Update

/-! ## Relations on finitely many members -/

section Finite

variable {α : Type} {r : α → α → Prop} {xs : List α} {y : α}

/-- Where there is no cycle, one of finitely many members is related to none of them. -/
theorem exists_not_related (h : ∀ x, ¬ TransGen r x x) (hne : xs ≠ []) :
    ∃ x ∈ xs, ∀ y ∈ xs, ¬ r x y := by
  -- for the induction it has to reach none of them
  suffices hreach : ∃ x ∈ xs, ∀ y ∈ xs, ¬ TransGen r x y by
    obtain ⟨x, hx, hfirst⟩ := hreach
    exact ⟨x, hx, fun y hy hr ↦ hfirst y hy (.single hr)⟩
  induction xs with
  | nil => exact absurd rfl hne
  | cons z rest ih =>
    by_cases hrest : rest = []
    · subst hrest
      refine ⟨z, List.mem_cons_self, fun y hy ↦ ?_⟩
      rw [List.mem_singleton.mp hy]
      exact h z
    · obtain ⟨x, hx, hfirst⟩ := ih hrest
      by_cases hxz : TransGen r x z
      · refine ⟨z, List.mem_cons_self, fun y hy ↦ ?_⟩
        rcases List.mem_cons.mp hy with rfl | hy
        · exact h y
        · exact fun hzy ↦ hfirst y hy (hxz.trans hzy)
      · refine ⟨x, List.mem_cons_of_mem z hx, fun y hy ↦ ?_⟩
        rcases List.mem_cons.mp hy with rfl | hy
        · exact hxz
        · exact hfirst y hy

/-- Where each of finitely many members is related to one of them, a cycle can be reached from
each. -/
theorem exists_cycle_of_related (h : ∀ y ∈ xs, ∃ x ∈ xs, r y x) (hy : y ∈ xs) :
    ∃ x, ReflTransGen r y x ∧ TransGen r x x := by
  by_contra hnone
  -- the relation among what `y` reaches has no cycle, so it comes to an end
  let s : α → α → Prop := fun a b ↦ ReflTransGen r y a ∧ r a b
  have hs : ∀ x, ¬ TransGen s x x := by
    intro x hcycle
    obtain ⟨_, ⟨hreach, -⟩, -⟩ := TransGen.head'_iff.mp hcycle
    exact hnone ⟨x, hreach, TransGen.mono (fun _ _ ↦ And.right) _ _ hcycle⟩
  classical
  let reached := xs.filter fun x ↦ decide (ReflTransGen r y x)
  have hmem : ∀ {x}, x ∈ reached ↔ x ∈ xs ∧ ReflTransGen r y x := by
    simp [reached]
  obtain ⟨x, hx, hlast⟩ := exists_not_related hs (List.ne_nil_of_mem (hmem.mpr ⟨hy, .refl⟩))
  obtain ⟨hxs, hreach⟩ := hmem.mp hx
  obtain ⟨z, hz, hr⟩ := h x hxs
  exact hlast z (hmem.mpr ⟨hz, hreach.tail hr⟩) ⟨hreach, hr⟩

end Finite

namespace Table

variable {t u : Table} {x y id expr : String} {f : Formula} {base : Position}

/-! ## Reading -/

/-- One cell reads another: its formula, taken at its own position, references it. -/
def Reads (t : Table) (y x : String) : Prop :=
  ∃ f base, t.formula? y = some f ∧ Position.read y = .ok base ∧ f.References base x

/-- No cell reads itself, directly or through others. -/
def Acyclic (t : Table) : Prop := ∀ x, ¬ TransGen t.Reads x x

/-- The dependents of a cell are the cells that read it. -/
def Linked (t : Table) : Prop := ∀ x y, y ∈ t.dependents x ↔ t.Reads y x

theorem reads_iff (hf : t.formula? y = some f) (hbase : Position.read y = .ok base) :
    t.Reads y x ↔ f.References base x := by
  constructor
  · rintro ⟨f', base', hf', hbase', hx⟩
    rw [hf, Option.some_inj] at hf'
    rw [hbase, Except.ok.injEq] at hbase'
    exact hf' ▸ hbase' ▸ hx
  · exact fun hx ↦ ⟨f, base, hf, hbase, hx⟩

theorem not_reads_of_formula?_eq_none (h : t.formula? y = none) : ¬ t.Reads y x := by
  rintro ⟨f, base, hf, -, -⟩
  rw [h] at hf
  cases hf

theorem reads_congr (h : t.formula? y = u.formula? y) : t.Reads y x ↔ u.Reads y x := by
  rw [Reads, Reads, h]

theorem reads_eq (h : t.formula? = u.formula?) : t.Reads = u.Reads := by
  funext y x
  exact propext (reads_congr (congrFun h y))

theorem linked_congr (hformula : t.formula? = u.formula?)
    (hdependents : t.dependents = u.dependents) (ht : t.Linked) : u.Linked := by
  intro x y
  rw [← hdependents, ht, reads_congr (congrFun hformula y)]

/-- **The dependencies of a cell are the cells that it reads.** -/
theorem mem_dependencies_iff {refs : List String} (h : t.dependencies y = .ok refs) :
    x ∈ refs ↔ t.Reads y x := by
  unfold dependencies at h
  split at h
  · rename_i hnone
    cases h
    exact iff_of_false List.not_mem_nil (not_reads_of_formula?_eq_none hnone)
  · rename_i f hf
    obtain ⟨base, hbase, hrefs⟩ := Outcome.bind_eq_ok_iff.mp h
    rw [reads_iff hf hbase, Formula.mem_references_iff hrefs]

theorem nodup_of_dependencies {refs : List String} (h : t.dependencies y = .ok refs) :
    refs.Nodup := by
  unfold dependencies at h
  split at h
  · cases h
    exact List.nodup_nil
  · obtain ⟨base, -, hrefs⟩ := Outcome.bind_eq_ok_iff.mp h
    exact Formula.nodup_of_references hrefs

/-! ## Many edges at once -/

/-- A change of single records that is not noticed the second time, made at many ids. -/
private theorem record_foldl (op : Table → String → Table) (g : Record → Record)
    (hop : ∀ t ref x, record (op t ref) x = if x = ref then g (t.record x) else t.record x)
    (hg : ∀ r, g (g r) = g r) (refs : List String) (t : Table) (x : String) :
    record (refs.foldl op t) x = if x ∈ refs then g (t.record x) else t.record x := by
  induction refs generalizing t with
  | nil => rfl
  | cons ref rest ih =>
    rw [List.foldl_cons, ih, hop]
    -- an id that comes again further on is changed once more, to no effect
    by_cases hx : x = ref
    · subst hx
      by_cases hrest : x ∈ rest
      · simp [hrest, hg]
      · simp [hrest]
    · simp [hx]

theorem record_foldl_dropDependent (refs : List String) (t : Table) (x : String) :
    record (refs.foldl (fun t ref ↦ t.dropDependent ref id) t) x
      = if x ∈ refs then (t.record x).dropDependent id else t.record x := by
  refine record_foldl (fun t ref ↦ t.dropDependent ref id) (·.dropDependent id)
    (fun _ _ _ ↦ record_dropDependent) (fun r ↦ ?_) refs t x
  have : (r.dependents.erase id).erase id = r.dependents.erase id := by ext; simp
  rw [Record.dropDependent, Record.dropDependent, this]

theorem record_foldl_addDependent (refs : List String) (t : Table) (x : String) :
    record (refs.foldl (fun t ref ↦ t.addDependent ref id) t) x
      = if x ∈ refs then (t.record x).addDependent id else t.record x := by
  refine record_foldl (fun t ref ↦ t.addDependent ref id) (·.addDependent id)
    (fun _ _ _ ↦ record_addDependent) (fun r ↦ ?_) refs t x
  have : (r.dependents.insert id).insert id = r.dependents.insert id := by ext; simp
  rw [Record.addDependent, Record.addDependent, this]

theorem ids_foldl_dropDependent (refs : List String) (t : Table) :
    ids (refs.foldl (fun t ref ↦ t.dropDependent ref id) t) = t.ids := by
  induction refs generalizing t with
  | nil => rfl
  | cons ref rest ih => rw [List.foldl_cons, ih, ids_dropDependent]

theorem mem_ids_foldl_addDependent (refs : List String) (t : Table) :
    x ∈ ids (refs.foldl (fun t ref ↦ t.addDependent ref id) t) ↔ x ∈ refs ∨ x ∈ t.ids := by
  induction refs generalizing t with
  | nil => simp
  | cons ref rest ih =>
    rw [List.foldl_cons, ih, mem_ids_addDependent, List.mem_cons, or_left_comm, or_assoc]

/-! ## Retraction -/

/-- What taking the edges to a cell out makes of a table. -/
structure Retracted (t u : Table) (id : String) : Prop where
  ids : u.ids = t.ids
  recordId : ∀ x, u.recordId x = t.recordId x
  text : ∀ x, u.text x = t.text x
  formula? : ∀ x, u.formula? x = t.formula? x
  valueOf : ∀ x, u.valueOf x = t.valueOf x
  dependents : ∀ x y, y ∈ u.dependents x ↔ y ∈ t.dependents x ∧ ¬ (y = id ∧ t.Reads id x)

theorem retracted_of_retract (h : t.retract id = .ok u) : t.Retracted u id := by
  obtain ⟨refs, hrefs, rfl⟩ := Outcome.map_eq_ok_iff.mp h
  have hrecord : ∀ x, record (refs.foldl (fun t ref ↦ t.dropDependent ref id) t) x
      = if x ∈ refs then (t.record x).dropDependent id else t.record x :=
    record_foldl_dropDependent refs t
  refine ⟨ids_foldl_dropDependent refs t, fun x ↦ ?_, fun x ↦ ?_, fun x ↦ ?_, fun x ↦ ?_,
    fun x y ↦ ?_⟩
  · rw [recordId, hrecord]
    split <;> rfl
  · rw [text, hrecord]
    split <;> rfl
  · rw [← record_formula, hrecord, ← record_formula]
    split <;> rfl
  · rw [← record_value, hrecord, ← record_value]
    split <;> rfl
  · rw [← record_dependents, hrecord, ← record_dependents, ← mem_dependencies_iff hrefs]
    by_cases hx : x ∈ refs <;> simp [Record.dropDependent, hx]

/-! ## Assignment -/

/-- What assigning a formula to a cell makes of a table. -/
structure Assigned (t u : Table) (id expr : String) (f : Formula) (base : Position) : Prop where
  recordId : ∀ x, u.recordId x = t.recordId x
  text : ∀ x, u.text x = if x = id then expr else t.text x
  formula? : ∀ x, u.formula? x = if x = id then some f else t.formula? x
  valueOf : ∀ x, u.valueOf x = t.valueOf x
  dependents : ∀ x y, y ∈ u.dependents x ↔
    (y = id ∧ f.References base x) ∨ (y ∈ t.dependents x ∧ ¬ (y = id ∧ t.Reads id x))
  mem_ids : ∀ x, x ∈ u.ids ↔ x = id ∨ f.References base x ∨ x ∈ t.ids

theorem assign_eq_error_of_references (hf : f.Resolves base) (hself : f.References base id) :
    t.assign id expr f base = .error (.circular (.itself id)) := by
  obtain ⟨refs, hrefs⟩ := Formula.exists_references_iff.mpr hf
  have hmem : id ∈ refs := (Formula.mem_references_iff hrefs).mpr hself
  rw [assign, hrefs]
  simp [hmem]

/-- **What `assign` does**, where nothing stands in its way. -/
theorem exists_assign (expr : String) (hf : f.Resolves base) (hself : ¬ f.References base id)
    (hold : ∃ old, t.dependencies id = .ok old) :
    ∃ u, t.assign id expr f base = .ok u ∧ t.Assigned u id expr f base := by
  obtain ⟨refs, hrefs⟩ := Formula.exists_references_iff.mpr hf
  have hmem : ∀ x, x ∈ refs ↔ f.References base x := fun _ ↦ Formula.mem_references_iff hrefs
  obtain ⟨old, hdeps⟩ := hold
  obtain ⟨r, hr⟩ : ∃ r, t.retract id = .ok r := ⟨_, by rw [retract, hdeps]; rfl⟩
  have hret := retracted_of_retract hr
  refine ⟨_, by rw [assign, hrefs]; simp [(hmem id).not.mpr hself, hr]; rfl, ?_⟩
  -- three steps: the old edges are taken out in `r`, the new ones are in `linked`, and then the
  -- formula goes into the record
  generalize hlinked : refs.foldl (fun t ref ↦ t.addDependent ref id) r = linked
  have hrecord : ∀ x, linked.record x
      = if x ∈ refs then (r.record x).addDependent id else r.record x := fun x ↦
    hlinked ▸ record_foldl_addDependent refs r x
  have hinstalled : ∀ x, record ((linked.ensure id).modify id (·.withFormula expr f)) x
      = if x = id then (linked.record x).withFormula expr f else linked.record x := by
    intro x
    rw [record_modify (Or.inl (mem_ids_ensure.mpr (Or.inl rfl))), record_ensure]
  refine ⟨fun x ↦ ?_, fun x ↦ ?_, fun x ↦ ?_, fun x ↦ ?_, fun x y ↦ ?_, fun x ↦ ?_⟩
  · rw [recordId, hinstalled, hrecord, ← hret.recordId]
    split <;> split <;> rfl
  · rw [text, hinstalled, hrecord, ← hret.text]
    split <;> split <;> rfl
  · rw [← record_formula, hinstalled, hrecord, ← hret.formula?, ← record_formula]
    split <;> split <;> rfl
  · rw [← record_value, hinstalled, hrecord, ← hret.valueOf, ← record_value]
    split <;> split <;> rfl
  · have hdependents : (record ((linked.ensure id).modify id (·.withFormula expr f)) x).dependents
        = (linked.record x).dependents := by
      rw [hinstalled]
      split <;> rfl
    rw [← record_dependents, hdependents, hrecord, ← hret.dependents, ← hmem]
    by_cases hx : x ∈ refs <;> simp [Record.addDependent, hx]
  · rw [ids, OrderedMap.keys_modify, mem_ids_ensure, ← hlinked, mem_ids_foldl_addDependent, hmem,
      hret.ids]

/-- Assigning a formula fails if its references or the old ones name no cell, or if it
references its own cell. -/
theorem assigned_of_assign (h : t.assign id expr f base = .ok u) :
    f.Resolves base ∧ ¬ f.References base id ∧ (∃ old, t.dependencies id = .ok old) ∧
      t.Assigned u id expr f base := by
  obtain ⟨refs, hrefs, hrest⟩ := Outcome.bind_eq_ok_iff.mp h
  have hf : f.Resolves base := Formula.exists_references_iff.mp ⟨refs, hrefs⟩
  have hself : ¬ f.References base id := by
    intro hself
    rw [assign_eq_error_of_references hf hself] at h
    cases h
  have hold : ∃ old, t.dependencies id = .ok old := by
    have hmem : id ∉ refs := (Formula.mem_references_iff hrefs).not.mpr hself
    simp only [hmem, if_false] at hrest
    obtain ⟨r, hr, -⟩ := Outcome.bind_eq_ok_iff.mp hrest
    obtain ⟨old, hdeps, -⟩ := Outcome.map_eq_ok_iff.mp hr
    exact ⟨old, hdeps⟩
  obtain ⟨u', hu', hassigned⟩ := exists_assign expr hf hself hold
  rw [h, Except.ok.injEq] at hu'
  exact ⟨hf, hself, hold, hu' ▸ hassigned⟩

namespace Assigned

variable (h : t.Assigned u id expr f base)

include h

theorem reads_self (hbase : Position.read id = .ok base) : u.Reads id x ↔ f.References base x :=
  reads_iff (by rw [h.formula?, if_pos rfl]) hbase

theorem reads_other (hy : y ≠ id) : u.Reads y x ↔ t.Reads y x :=
  reads_congr (by rw [h.formula?, if_neg hy])

/-- **Assigning keeps the edges in step with the formulas.** -/
theorem linked (hbase : Position.read id = .ok base) (ht : t.Linked) : u.Linked := by
  intro x y
  rw [h.dependents, ht]
  by_cases hy : y = id
  · subst hy
    rw [h.reads_self hbase]
    simp
  · rw [h.reads_other hy]
    simp [hy]

end Assigned

/-! ## Tracked tables -/

/-- Every cell with a record has all cells that read it among its dependents. There may be other
edges as well. -/
def Tracked (t : Table) : Prop := ∀ x y, x ∈ t.ids → t.Reads y x → y ∈ t.dependents x

theorem Linked.tracked (h : t.Linked) : t.Tracked := fun x y _ hreads ↦ (h x y).mpr hreads

/-- **The affected cells come in an order in which they can be computed**: each once, none before a
cell that it reads, and none that reads itself. -/
theorem Tracked.affected_ok {origin : String} {ids : List String} (h : t.Tracked)
    (hok : t.affected origin = .ok ids) :
    ids.Nodup ∧ (∀ x ∈ ids, ¬ t.Reads x x) ∧ ids.Pairwise fun x y ↦ ¬ t.Reads x y := by
  obtain ⟨hsettled, -, -⟩ := Graph.walk_ok (affected_eq_ok_iff.mp hok)
  have hedge : ∀ x ∈ ids, ∀ y ∈ ids, t.Reads x y → t.readersGraph.Edge y x := by
    intro x hx y hy hreads
    obtain ⟨g, hg⟩ := exists_formula_of_affected hok hy
    have hdependent := h y x (mem_ids_of_formula? hg) hreads
    exact edge_readersGraph.mpr ⟨hdependent, exists_formula_of_affected hok hx⟩
  refine ⟨hsettled.nodup, fun x hx hreads ↦ hsettled.not_edge_self hx (hedge x hx x hx hreads), ?_⟩
  exact hsettled.pairwise.imp_of_mem fun {x y} hx hy hno hreads ↦ hno (hedge x hx y hy hreads)

/-! ## Linked tables -/

namespace Linked

variable (h : t.Linked)

include h

theorem edge_iff : t.readersGraph.Edge x y ↔ t.Reads y x := by
  rw [edge_readersGraph, h]
  constructor
  · exact And.left
  · rintro ⟨f, base, hf, hbase, hx⟩
    exact ⟨⟨f, base, hf, hbase, hx⟩, f, hf⟩

theorem transGen_edge_iff : TransGen t.readersGraph.Edge x y ↔ TransGen t.Reads y x := by
  have hedge : t.readersGraph.Edge = Function.swap t.Reads := by
    funext x y
    exact propext h.edge_iff
  rw [hedge, transGen_swap]

theorem reflTransGen_edge_iff :
    ReflTransGen t.readersGraph.Edge x y ↔ ReflTransGen t.Reads y x := by
  have hedge : t.readersGraph.Edge = Function.swap t.Reads := by
    funext x y
    exact propext h.edge_iff
  rw [hedge, reflTransGen_swap]

/-- **The affected cells** are those that read the edited cell, directly or through others. Each is
listed once, and none before a cell that it reads. -/
theorem affected_ok {origin : String} {ids : List String} (hok : t.affected origin = .ok ids) :
    (∀ y, y ∈ ids ↔ TransGen t.Reads y origin) ∧ origin ∉ ids ∧ ids.Nodup ∧
      (∀ y ∈ ids, ¬ t.Reads y y) ∧ ids.Pairwise fun y z ↦ ¬ t.Reads y z := by
  obtain ⟨-, horigin, hmem⟩ := Graph.walk_ok (affected_eq_ok_iff.mp hok)
  exact ⟨fun y ↦ (hmem y).trans h.transGen_edge_iff, horigin, h.tracked.affected_ok hok⟩

theorem affected_error {origin : String} {fault : Fault} (herr : t.affected origin = .error fault) :
    (∃ cycle, fault = .circular (.path cycle)) ∧
      ∃ y, ReflTransGen t.Reads y origin ∧ TransGen t.Reads y y := by
  obtain ⟨cycle, hwalk, rfl⟩ := affected_eq_error_iff.mp herr
  obtain ⟨y, hreach, hcycle⟩ := Graph.exists_cycle_of_walk_error hwalk
  exact ⟨⟨cycle, rfl⟩, y, h.reflTransGen_edge_iff.mp hreach, h.transGen_edge_iff.mp hcycle⟩

theorem exists_affected (hacyclic : t.Acyclic) (origin : String) :
    ∃ ids, t.affected origin = .ok ids := by
  refine Outcome.exists_ok_of_no_error fun fault herr ↦ ?_
  obtain ⟨-, y, -, hcycle⟩ := h.affected_error herr
  exact hacyclic y hcycle

end Linked

end Table

end Spreadsheet
