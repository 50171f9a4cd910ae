import Mathlib.Data.List.Chain
import Mathlib.Data.List.Nodup
import Mathlib.Logic.Relation
import Spreadsheet.Table.Walk

/-!
# The depth-first walk

The walk from a start either lists all ids that the start leads to or ends with a path that closes a
cycle, and it does the one exactly if no cycle can be reached.

## The invariant

The finished ids are kept in a list, the latest one first. `Graph.Settled` is what that list always
satisfies: no id stands in it twice, and everything that an id leads to stands behind it. Being
settled is closed under edges, so a settled list has everything that can be reached from its members
(`Settled.mem_of_reachable`), and it excludes cycles among them (`Settled.not_cyclic`). The walk
finishes an id only after all its successors are finished, which is the one step that `visit_ok` has
to check.

The path is the other half. Its ids are joined by edges, so an id that is met a second time while it
is on the path closes a cycle (`visit_error`). Nothing on the path is ever finished, and in
particular the start is not, so a walk that ends well has not come back to its start.
-/

namespace Spreadsheet

open Relation
open scoped List

/-! ## Before and after in a list -/

section Precedence

variable {ids : List String} {u v : String} {r : String → String → Prop}

private theorem sublist_or_sublist (hu : u ∈ ids) (hv : v ∈ ids) (hne : u ≠ v) :
    [u, v] <+ ids ∨ [v, u] <+ ids := by
  have h : ids.Pairwise fun u v ↦ [u, v] <+ ids ∨ [v, u] <+ ids :=
    List.pairwise_iff_forall_sublist.mpr Or.inl
  have : Std.Symm fun u v : String ↦ [u, v] <+ ids ∨ [v, u] <+ ids := ⟨fun _ _ ↦ Or.symm⟩
  exact h.forall hu hv hne

private theorem not_sublist_of_sublist (hnodup : ids.Nodup) (h : [u, v] <+ ids) :
    ¬ [v, u] <+ ids := by
  induction ids with
  | nil => exact absurd (h.subset List.mem_cons_self) List.not_mem_nil
  | cons w rest ih =>
    obtain ⟨hw, hrest⟩ := List.nodup_cons.mp hnodup
    intro h'
    cases h with
    | cons _ h =>
      cases h' with
      | cons _ h' => exact ih hrest h h'
      | cons_cons _ _ => exact hw (h.subset (List.mem_cons_of_mem u List.mem_cons_self))
    | cons_cons _ _ =>
      cases h' with
      | cons _ h' => exact hw (h'.subset (List.mem_cons_of_mem v List.mem_cons_self))
      | cons_cons _ h' => exact hw (h'.subset List.mem_cons_self)

/-- A relation leads forward in a list, and no member to itself, exactly if related members come one
before the other. -/
theorem pairwise_iff_sublist (hnodup : ids.Nodup) :
    (∀ u ∈ ids, ¬ r u u) ∧ ids.Pairwise (fun u v ↦ ¬ r v u) ↔
      ∀ u ∈ ids, ∀ v ∈ ids, r u v → [u, v] <+ ids := by
  constructor
  · rintro ⟨hself, hforward⟩ u hu v hv hr
    have hne : u ≠ v := fun heq ↦ hself u hu (heq ▸ hr)
    rcases sublist_or_sublist hu hv hne with h | h
    · exact h
    · exact absurd hr (List.pairwise_iff_forall_sublist.mp hforward h)
  · intro h
    constructor
    · exact fun u hu hr ↦ List.nodup_iff_sublist.mp hnodup u (h u hu u hu hr)
    · refine List.pairwise_iff_forall_sublist.mpr fun {u v} huv hr ↦ ?_
      have hu : u ∈ ids := huv.subset List.mem_cons_self
      have hv : v ∈ ids := huv.subset (List.mem_cons_of_mem u List.mem_cons_self)
      exact not_sublist_of_sublist hnodup huv (h v hv u hu hr)

end Precedence

namespace Graph

variable {g : Graph}

/-- There is an edge from one id to another. -/
def Edge (g : Graph) (u v : String) : Prop := v ∈ g.next u

/-! ## Settled lists -/

/-- Every id stands before all that it leads to, and stands there only once. -/
inductive Settled (g : Graph) : List String → Prop
  | nil : Settled g []
  | cons {u : String} {rest : List String} (not_mem : u ∉ rest)
      (edges : ∀ v, g.Edge u v → v ∈ rest) (settled : Settled g rest) : Settled g (u :: rest)

namespace Settled

variable {ids : List String} {u v : String}

theorem nodup (h : g.Settled ids) : ids.Nodup := by
  induction h with
  | nil => exact List.nodup_nil
  | cons not_mem _ _ ih => exact List.nodup_cons.mpr ⟨not_mem, ih⟩

theorem mem_of_edge (h : g.Settled ids) (hu : u ∈ ids) (hedge : g.Edge u v) : v ∈ ids := by
  induction h with
  | nil => cases hu
  | cons _ edges _ ih =>
    refine List.mem_cons_of_mem _ ?_
    rcases List.mem_cons.mp hu with rfl | hu
    · exact edges v hedge
    · exact ih hu

theorem mem_of_reachable (h : g.Settled ids) (hu : u ∈ ids) (hreach : ReflTransGen g.Edge u v) :
    v ∈ ids := by
  induction hreach with
  | refl => exact hu
  | tail _ hedge ih => exact h.mem_of_edge ih hedge

/-- **No id of a settled list lies on a cycle.** -/
theorem not_cyclic (h : g.Settled ids) (hu : u ∈ ids) : ¬ TransGen g.Edge u u := by
  induction h with
  | nil => cases hu
  | cons not_mem edges settled ih =>
    rcases List.mem_cons.mp hu with rfl | hu
    · -- the way back to `u` stays behind `u`, where `u` is not
      intro hcycle
      obtain ⟨w, hedge, hback⟩ := TransGen.head'_iff.mp hcycle
      exact not_mem (settled.mem_of_reachable (edges w hedge) hback)
    · exact ih hu

theorem pairwise (h : g.Settled ids) : ids.Pairwise fun u v ↦ ¬ g.Edge v u := by
  induction h with
  | nil => exact List.Pairwise.nil
  | cons not_mem _ settled ih =>
    refine List.pairwise_cons.mpr ⟨fun v hv hedge ↦ ?_, ih⟩
    exact not_mem (settled.mem_of_edge hv hedge)

theorem not_edge_self (h : g.Settled ids) (hu : u ∈ ids) : ¬ g.Edge u u := fun hedge ↦
  h.not_cyclic hu (TransGen.single hedge)

end Settled

/-! ## The invariant of the walk -/

/-- **A walk that ends well** keeps the finished ids settled, finishes everything that was pending,
and finishes nothing else than what the pending ids lead to without touching the path. -/
theorem visit_ok {path pending done ids : List String} {h : ∀ v ∈ pending, v ∈ g.nodes}
    (hdone : g.Settled done) (hok : g.visit path pending done h = .ok ids) :
    g.Settled ids ∧ (∀ v ∈ pending, v ∈ ids) ∧
      ∃ new, ids = new ++ done ∧
        ∀ v ∈ new, v ∉ path ∧ ∃ u ∈ pending, ReflTransGen g.Edge u v := by
  induction path, pending, done, h using visit.induct (g := g) generalizing ids with
  | case1 path done =>
    rw [visit] at hok
    cases hok
    exact ⟨hdone, fun v hv ↦ absurd hv List.not_mem_nil, [], rfl,
      fun v hv ↦ absurd hv List.not_mem_nil⟩
  | case2 path done v rest _ hpath _ =>
    rw [visit, dif_pos hpath] at hok
    cases hok
  | case3 path done v rest _ hpath hmem _ ih =>
    rw [visit, dif_neg hpath, if_pos hmem] at hok
    obtain ⟨hsettled, hrest, new, rfl, hnew⟩ := ih hdone hok
    refine ⟨hsettled, fun u hu ↦ ?_, new, rfl, fun u hu ↦ ?_⟩
    · rcases List.mem_cons.mp hu with rfl | hu
      · exact List.mem_append_right new hmem
      · exact hrest u hu
    · obtain ⟨hoff, w, hw, hreach⟩ := hnew u hu
      exact ⟨hoff, w, List.mem_cons_of_mem v hw, hreach⟩
  | case4 path done v rest _ hpath hmem cycle herr =>
    rw [visit, dif_neg hpath, if_neg hmem, herr] at hok
    cases hok
  | case5 path done v rest _ hpath hmem below hbelow _ ihbelow ih =>
    rw [visit, dif_neg hpath, if_neg hmem, hbelow] at hok
    obtain ⟨hsettled, hnext, newBelow, rfl, hnewBelow⟩ := ihbelow hdone hbelow
    -- `v` is finished now: it is new, because nothing below it touches the path that it is on
    have hv : v ∉ newBelow ++ done := by
      rw [List.mem_append, not_or]
      exact ⟨fun hv ↦ (hnewBelow v hv).1 List.mem_cons_self, hmem⟩
    obtain ⟨hall, hrest, new, rfl, hnew⟩ := ih (.cons hv hnext hsettled) hok
    refine ⟨hall, fun u hu ↦ ?_, new ++ v :: newBelow, by simp, fun u hu ↦ ?_⟩
    · rcases List.mem_cons.mp hu with rfl | hu
      · simp
      · exact hrest u hu
    · rcases List.mem_append.mp hu with hu | hu
      · obtain ⟨hoff, w, hw, hreach⟩ := hnew u hu
        exact ⟨hoff, w, List.mem_cons_of_mem v hw, hreach⟩
      · rcases List.mem_cons.mp hu with rfl | hu
        · exact ⟨hpath, u, List.mem_cons_self, .refl⟩
        · obtain ⟨hoff, w, hw, hreach⟩ := hnewBelow u hu
          exact ⟨fun hpath' ↦ hoff (List.mem_cons_of_mem v hpath'), v, List.mem_cons_self,
            ReflTransGen.head hw hreach⟩

/-- The ids of a path are joined by edges, the latest id first. -/
def Trail (g : Graph) (path : List String) : Prop := path.IsChain fun v u ↦ g.Edge u v

theorem Trail.transGen {path : List String} {u v : String} (h : g.Trail (v :: path))
    (hu : u ∈ path) : TransGen g.Edge u v := by
  induction path generalizing v with
  | nil => cases hu
  | cons w rest ih =>
    obtain ⟨hedge, hrest⟩ := List.isChain_cons_cons.mp h
    rcases List.mem_cons.mp hu with rfl | hu
    · exact TransGen.single hedge
    · exact TransGen.tail (ih hrest hu) hedge

/-- **A walk that closes a cycle** names it: the path so far with edges to where it closes, and at
the end an id that was on it already. -/
theorem visit_error {path pending done cycle : List String} {h : ∀ v ∈ pending, v ∈ g.nodes}
    (htrail : ∀ v ∈ pending, g.Trail (v :: path))
    (herr : g.visit path pending done h = .error cycle) :
    ∃ v trail, cycle = (v :: trail).reverse ∧ v ∈ trail ∧ g.Trail (v :: trail) ∧
      path <:+ trail := by
  induction path, pending, done, h using visit.induct (g := g) with
  | case1 path done =>
    rw [visit] at herr
    cases herr
  | case2 path done v rest _ hpath _ =>
    rw [visit, dif_pos hpath] at herr
    cases herr
    exact ⟨v, path, rfl, hpath, htrail v List.mem_cons_self, List.suffix_refl path⟩
  | case3 path done v rest _ hpath hmem _ ih =>
    rw [visit, dif_neg hpath, if_pos hmem] at herr
    exact ih (fun u hu ↦ htrail u (List.mem_cons_of_mem v hu)) herr
  | case4 path done v rest _ hpath hmem cycle' herr' _ ih =>
    rw [visit, dif_neg hpath, if_neg hmem, herr'] at herr
    cases herr
    -- the walk goes on from `v`, with `v` on the path
    obtain ⟨w, trail, hcycle, hw, hchain, hsuffix⟩ := ih
      (fun u hu ↦ List.isChain_cons_cons.mpr ⟨hu, htrail v List.mem_cons_self⟩) herr'
    exact ⟨w, trail, hcycle, hw, hchain, (List.suffix_cons v path).trans hsuffix⟩
  | case5 path done v rest _ hpath hmem below hbelow _ _ ih =>
    rw [visit, dif_neg hpath, if_neg hmem, hbelow] at herr
    exact ih (fun u hu ↦ htrail u (List.mem_cons_of_mem v hu)) herr

/-! ## The walk from a start -/

/-- **The listed ids** are those that the start leads to, each before all that it leads to in
turn. -/
theorem walk_ok {start : String} {ids : List String} (h : g.walk start = .ok ids) :
    g.Settled ids ∧ start ∉ ids ∧ ∀ v, v ∈ ids ↔ TransGen g.Edge start v := by
  obtain ⟨hsettled, hnext, new, rfl, hnew⟩ := visit_ok Settled.nil h
  rw [List.append_nil] at hsettled hnext ⊢
  refine ⟨hsettled, fun hstart ↦ (hnew start hstart).1 List.mem_cons_self,
    fun v ↦ ⟨fun hv ↦ ?_, ?_⟩⟩
  · obtain ⟨-, w, hw, hreach⟩ := hnew v hv
    exact TransGen.head' hw hreach
  · intro hreach
    obtain ⟨w, hedge, hrest⟩ := TransGen.head'_iff.mp hreach
    exact hsettled.mem_of_reachable (hnext w hedge) hrest

/-- The path that a walk ends with starts where the walk does, follows edges, and comes back to an
id that it has been at. -/
theorem walk_error {start : String} {cycle : List String} (h : g.walk start = .error cycle) :
    ∃ v trail, cycle = (v :: trail).reverse ∧ v ∈ trail ∧ g.Trail (v :: trail) ∧
      [start] <:+ trail :=
  visit_error (fun _ hv ↦ List.isChain_cons_cons.mpr ⟨hv, List.isChain_singleton _⟩) h

theorem exists_cycle_of_walk_error {start : String} {cycle : List String}
    (h : g.walk start = .error cycle) :
    ∃ v, ReflTransGen g.Edge start v ∧ TransGen g.Edge v v := by
  obtain ⟨v, trail, -, hv, htrail, hstart⟩ := walk_error h
  have hreach := htrail.transGen (hstart.subset List.mem_cons_self)
  exact ⟨v, hreach.to_reflTransGen, htrail.transGen hv⟩

/-- **A walk ends well exactly if it can reach no cycle.** -/
theorem exists_walk_iff {start : String} :
    (∃ ids, g.walk start = .ok ids) ↔
      ∀ v, ReflTransGen g.Edge start v → ¬ TransGen g.Edge v v := by
  constructor
  · rintro ⟨ids, hids⟩ v hreach hcycle
    obtain ⟨hsettled, hstart, hmem⟩ := walk_ok hids
    rcases reflTransGen_iff_eq_or_transGen.mp hreach with rfl | hreach
    · exact hstart ((hmem v).mpr hcycle)
    · exact hsettled.not_cyclic ((hmem v).mpr hreach) hcycle
  · intro h
    cases hwalk : g.walk start with
    | ok ids => exact ⟨ids, rfl⟩
    | error cycle =>
      obtain ⟨v, hreach, hcycle⟩ := exists_cycle_of_walk_error hwalk
      exact absurd hcycle (h v hreach)

/-! ## Walks on graphs with the same edges -/

/-- The nodes serve to see that the walk ends, and do not show in what it finds. -/
theorem visit_congr {g₁ g₂ : Graph} (hnext : g₁.next = g₂.next) (path pending done : List String)
    (h₁ : ∀ v ∈ pending, v ∈ g₁.nodes) (h₂ : ∀ v ∈ pending, v ∈ g₂.nodes) :
    g₁.visit path pending done h₁ = g₂.visit path pending done h₂ := by
  obtain ⟨nodes, next, hmem, hnodup⟩ := g₂
  simp only at hnext
  subst hnext
  induction path, pending, done, h₁ using visit.induct (g := g₁) with
  | case1 path done =>
    rw [visit, visit]
  | case2 path done v rest _ hpath _ =>
    rw [visit, visit, dif_pos hpath, dif_pos hpath]
  | case3 path done v rest _ hpath hdone _ ih =>
    rw [visit, visit, dif_neg hpath, dif_neg hpath, if_pos hdone, if_pos hdone, ih]
  | case4 path done v rest _ hpath hdone cycle herr _ ih =>
    have hbelow := (ih fun _ ↦ hmem).symm.trans herr
    rw [visit, visit, dif_neg hpath, dif_neg hpath, if_neg hdone, if_neg hdone, herr, hbelow]
  | case5 path done v rest _ hpath hdone below hok _ ihbelow ih =>
    have hbelow := (ihbelow fun _ ↦ hmem).symm.trans hok
    rw [visit, visit, dif_neg hpath, dif_neg hpath, if_neg hdone, if_neg hdone, hok, hbelow]
    exact ih _

theorem walk_congr {g₁ g₂ : Graph} (hnext : g₁.next = g₂.next) (start : String) :
    g₁.walk start = g₂.walk start := by
  have hstart : ∀ v ∈ g₁.next start, v ∈ g₂.nodes := by
    rw [hnext]
    exact fun _ ↦ g₂.mem_nodes_of_mem_next
  rw [walk, visit_congr hnext _ _ _ _ hstart, walk]
  simp only [hnext]

end Graph

end Spreadsheet
