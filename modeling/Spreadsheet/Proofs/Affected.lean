import Spreadsheet.Proofs.Records
import Spreadsheet.Proofs.Stepping

/-!
# What an edit affects

The cells that have to be computed again after an edit are found by following the dependents. This
file says what is found on any table: edges may lead to cells without a record or without a formula,
may be kept for one formula and not for another, and may close circles. Nothing is asked of the
formulas, which are not looked at, only of whether they are there.

The walk is exact in both ways that it can end. It names a circle if one can be reached, and only
then; otherwise it lists what can be reached, in an order in which the cells can be computed.
-/

namespace Spreadsheet

open Relation
open scoped List

namespace Table

variable {t : Table} {origin u v : String}

/-- A new value of one cell is passed on to another: the one has a record with the other among its
dependents, and the other has a record with a formula. -/
def Feeds (t : Table) (u v : String) : Prop :=
  ∃ r s f, t.get? u = some r ∧ v ∈ r.dependents ∧ t.get? v = some s ∧ s.formula = some f

theorem mem_dependents_iff : v ∈ t.dependents u ↔ ∃ r, t.get? u = some r ∧ v ∈ r.dependents := by
  rw [dependents]
  split
  · rename_i r hr
    simp [hr]
  · rename_i hnone
    simp [hnone]

theorem edge_eq_feeds (t : Table) : t.readersGraph.Edge = t.Feeds := by
  funext u v
  refine propext ?_
  rw [edge_readersGraph, mem_dependents_iff]
  simp only [formula?, Option.bind_eq_some_iff]
  constructor
  · rintro ⟨⟨r, hr, hv⟩, f, s, hs, hf⟩
    exact ⟨r, s, f, hr, hv, hs, hf⟩
  · rintro ⟨r, s, f, hr, hv, hs, hf⟩
    exact ⟨⟨r, hr, hv⟩, f, s, hs, hf⟩

/-- **The walk along the dependents is exact on any table.** It looks at the table without changing
it, and its steps come to an end. Either it lists the cells that the origin leads to, each once and
before those that it feeds, and then no circle can be reached. Or it names a path from the origin
that comes back to where it has been, and then one can. -/
theorem affected_exact (t : Table) (origin : String) :
    (Action.query (affected · origin)).run t = (t.affected origin, t) ∧
    match t.affected origin with
    | .ok ids =>
      t.readersGraph.Halts origin (.ok (origin :: ids)) ∧
      (∀ v, ReflTransGen t.Feeds origin v → ¬ TransGen t.Feeds v v) ∧
      ids.Nodup ∧ origin ∉ ids ∧
      (∀ v, v ∈ ids ↔ v ≠ origin ∧ ReflTransGen t.Feeds origin v) ∧
      ∀ u ∈ ids, ∀ v ∈ ids, t.Feeds u v → [u, v] <+ ids
    | .error fault =>
      ∃ path last, fault = .circular (.path (path ++ [last])) ∧
      t.readersGraph.Halts origin (.error (path ++ [last])) ∧
      fault.message = "circular reference: " ++ " -> ".intercalate (path ++ [last]) ∧
      (∃ v, ReflTransGen t.Feeds origin v ∧ TransGen t.Feeds v v) ∧
      path.head? = some origin ∧ (path ++ [last]).IsChain t.Feeds ∧ last ∈ path := by
  refine ⟨rfl, ?_⟩
  have hhalts := t.readersGraph.halts_walk origin
  rw [affected, ← edge_eq_feeds]
  cases hwalk : t.readersGraph.walk origin with
  | ok ids =>
    rw [hwalk] at hhalts
    obtain ⟨hsettled, horigin, hmem⟩ := Graph.walk_ok hwalk
    have hnone := Graph.exists_walk_iff.mp ⟨ids, hwalk⟩
    refine ⟨hhalts, hnone, hsettled.nodup, horigin, fun v ↦ ?_, ?_⟩
    · rw [hmem, reflTransGen_iff_eq_or_transGen]
      constructor
      · intro hv
        exact ⟨fun heq ↦ horigin ((hmem origin).mpr (heq ▸ hv)), Or.inr hv⟩
      · rintro ⟨hne, heq | hv⟩
        · exact absurd heq hne
        · exact hv
    · exact (pairwise_iff_sublist hsettled.nodup).mp
        ⟨fun u hu ↦ hsettled.not_edge_self hu, hsettled.pairwise⟩
  | error cycle =>
    rw [hwalk] at hhalts
    obtain ⟨last, trail, rfl, hlast, htrail, hstart⟩ := Graph.walk_error hwalk
    rw [List.reverse_cons] at hhalts ⊢
    refine ⟨trail.reverse, last, rfl, hhalts, rfl, Graph.exists_cycle_of_walk_error hwalk,
      ?_, ?_, ?_⟩
    · obtain ⟨before, rfl⟩ := hstart
      simp
    · rw [← List.reverse_cons, List.isChain_reverse]
      exact htrail
    · exact List.mem_reverse.mpr hlast

/-- The formula of `b1` reads nothing, and `c1` has no record. The edges are followed as far as
there is a formula at their end. -/
example :
    let b1 := ((∅ : Table).ensure "b1").modify "b1" (·.withFormula "7" (.num 7.0))
    let t : Table := (addDependent b1 "a1" "b1").addDependent "a1" "c1"
    t.affected "a1" = .ok ["b1"] ∧
      (t.addDependent "b1" "b1").affected "a1"
        = .error (.circular (.path ["a1", "b1", "b1"])) := by
  decide +kernel

end Table

end Spreadsheet
