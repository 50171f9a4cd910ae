/-!
# Walks on finite graphs

A graph on finitely many ids, and the depth-first walk from one of them. The walk carries the path
from its start to where it stands, and the ids that it has finished. Meeting an id of the path again
closes a cycle, and the walk stops there with the path. Otherwise every id that can be reached is
finished after all ids that come after it, so the list of finished ids, the latest one first, puts
every id before those that it leads to.

The path never repeats an id, so a walk can go only as deep as there are ids. The recursion descends
on the ids that are not on the path, and at each depth on the ids that are still to be walked from.
-/

namespace Spreadsheet

/-- A directed graph on finitely many ids. -/
structure Graph where
  /-- All ids that an edge can lead to. -/
  nodes : List String
  /-- Where the edges from an id lead. -/
  next : String → List String
  /-- Edges lead to nodes. -/
  mem_nodes_of_mem_next : ∀ {u v : String}, v ∈ next u → v ∈ nodes
  /-- No edge is listed twice. -/
  nodup_next : ∀ u : String, (next u).Nodup

namespace Graph

theorem length_next_le (g : Graph) (u : String) : (g.next u).length ≤ g.nodes.length :=
  (g.nodup_next u).length_le_of_subset fun _ ↦ g.mem_nodes_of_mem_next

/-- How many nodes are not on a path. -/
def room (g : Graph) (path : List String) : Nat := (g.nodes.filter (· ∉ path)).length

theorem room_cons_lt (g : Graph) {path : List String} {v : String} (hv : v ∈ g.nodes)
    (hpath : v ∉ path) : g.room (v :: path) < g.room path := by
  have h : g.nodes.filter (· ∉ v :: path) = (g.nodes.filter (· ∉ path)).filter (· ≠ v) := by
    rw [List.filter_filter]
    congr 1
    funext u
    simp [not_or]
  rw [room, room, h]
  refine List.length_filter_lt_length_iff_exists.mpr ⟨v, ?_, by simp⟩
  simpa using ⟨hv, hpath⟩

/-- Walks from the pending ids, one after the other. The path has where the walk stands in front and
its start at the end, and `done` has the ids that are finished, the latest one first. The result is
all finished ids, or the path that closes a cycle, from the start on. -/
def visit (g : Graph) (path pending done : List String) (h : ∀ v ∈ pending, v ∈ g.nodes) :
    Except (List String) (List String) :=
  match pending with
  | [] => .ok done
  | v :: rest =>
    if hpath : v ∈ path then .error (v :: path).reverse
    else if v ∈ done then visit g path rest done fun u hu ↦ h u (List.mem_cons_of_mem v hu)
    else
      match visit g (v :: path) (g.next v) done fun _ ↦ g.mem_nodes_of_mem_next with
      | .error cycle => .error cycle
      | .ok done => visit g path rest (v :: done) fun u hu ↦ h u (List.mem_cons_of_mem v hu)
termination_by g.room path * (g.nodes.length + 1) + pending.length
decreasing_by
  · exact Nat.lt_succ_self _
  · have hroom := g.room_cons_lt (h v List.mem_cons_self) hpath
    have hmul := Nat.mul_le_mul_right (g.nodes.length + 1) (Nat.succ_le_of_lt hroom)
    rw [Nat.succ_mul] at hmul
    exact Nat.lt_of_lt_of_le (Nat.add_lt_add_left (Nat.lt_succ_of_le (g.length_next_le v)) _)
      (Nat.le_trans hmul (Nat.le_add_right _ _))
  · exact Nat.lt_succ_self _

/-- The ids that a walk from `start` reaches, each before all those that it leads to, or a path from
`start` that closes a cycle. The start itself is left out. -/
def walk (g : Graph) (start : String) : Except (List String) (List String) :=
  g.visit [start] (g.next start) [] fun _ ↦ g.mem_nodes_of_mem_next

end Graph

end Spreadsheet
