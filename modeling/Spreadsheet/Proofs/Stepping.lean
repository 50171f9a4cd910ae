import Spreadsheet.Proofs.Walk

/-!
# The walk in single steps

`Graph.visit` goes on from an id by calling itself. The same walk can be taken with a stack, in
steps that call nothing: each id of the path is on the stack, with the ids that are still pending
there. A step looks at the id where the walk stands. If nothing is pending there, the id is finished
and leaves the stack. Otherwise the next pending id closes a cycle, or is finished already, or goes
on the stack with all that comes after it.

The steps are those of the recursion, so they come to an end, and with the same result
(`halts_walk`). A call of `visit` is the part of the walk that leaves the stack below it alone: it
begins with the ids that are pending where the walk stands, and ends when none is pending there any
more (`steps_of_visit`).
-/

namespace Spreadsheet

open Relation

namespace Graph

variable {g : Graph}

/-! ## Steps -/

/-- Where a walk has come to. -/
structure Stage where
  /-- The ids of the path, the latest one first, each with the ids that are pending there. -/
  stack : List (String × List String)
  /-- The finished ids, the latest one first. -/
  done : List String

namespace Stage

/-- The path to where the walk stands, the latest id first. -/
def path (s : Stage) : List String := s.stack.map Prod.fst

/-- Nothing is finished, and all that comes after the start is pending. -/
def start (g : Graph) (id : String) : Stage := ⟨[(id, g.next id)], []⟩

end Stage

/-- The next stage of a walk, or the result of a walk that is over. -/
def step (g : Graph) (s : Stage) : Stage ⊕ Except (List String) (List String) :=
  match s.stack with
  | [] => .inr (.ok s.done)
  | (u, []) :: below => .inl ⟨below, u :: s.done⟩
  | (u, v :: rest) :: below =>
    if v ∈ s.path then .inr (.error (v :: s.path).reverse)
    else if v ∈ s.done then .inl ⟨(u, rest) :: below, s.done⟩
    else .inl ⟨(v, g.next v) :: (u, rest) :: below, s.done⟩

/-- A step leads from one stage to the next. -/
def Next (g : Graph) (s s' : Stage) : Prop := g.step s = .inl s'

/-- A walk gets from one stage to another in finitely many steps. -/
abbrev Steps (g : Graph) : Stage → Stage → Prop := ReflTransGen g.Next

/-- A walk from a start is over after finitely many steps, with a result. -/
def Halts (g : Graph) (id : String) (result : Except (List String) (List String)) : Prop :=
  ∃ last, g.Steps (.start g id) last ∧ g.step last = .inr result

section Calls

variable {u v : String} {rest done : List String} {below : List (String × List String)}

theorem next_leave : g.Next ⟨(u, []) :: below, done⟩ ⟨below, u :: done⟩ := rfl

theorem step_cycle (hpath : v ∈ u :: below.map Prod.fst) :
    g.step ⟨(u, v :: rest) :: below, done⟩
      = .inr (.error (v :: u :: below.map Prod.fst).reverse) :=
  if_pos hpath

theorem next_skip (hpath : v ∉ u :: below.map Prod.fst) (hdone : v ∈ done) :
    g.Next ⟨(u, v :: rest) :: below, done⟩ ⟨(u, rest) :: below, done⟩ :=
  (if_neg hpath).trans (if_pos hdone)

theorem next_enter (hpath : v ∉ u :: below.map Prod.fst) (hdone : v ∉ done) :
    g.Next ⟨(u, v :: rest) :: below, done⟩ ⟨(v, g.next v) :: (u, rest) :: below, done⟩ :=
  (if_neg hpath).trans (if_neg hdone)

/-! ## Calls -/

/-- What a call gives that is made from a stage where `u` is on top of the stack. Where it
ends well, the walk stands at `u` again, with nothing pending there. Where it closes a
cycle, the walk is over. -/
def Returns (g : Graph) (s : Stage) (u : String) (below : List (String × List String)) :
    Except (List String) (List String) → Prop
  | .ok ids => g.Steps s ⟨(u, []) :: below, ids⟩
  | .error cycle => ∃ last, g.Steps s last ∧ g.step last = .inr (.error cycle)

theorem Returns.after {s s' : Stage} {result : Except (List String) (List String)}
    (hsteps : g.Steps s s') (h : g.Returns s' u below result) : g.Returns s u below result := by
  cases result with
  | ok ids => exact hsteps.trans h
  | error cycle =>
    obtain ⟨last, hrest, hlast⟩ := h
    exact ⟨last, hsteps.trans hrest, hlast⟩

/-- **A call of `visit` in steps.** -/
theorem returns_visit {path pending : List String} {h : ∀ v ∈ pending, v ∈ g.nodes}
    (hpath : path = u :: below.map Prod.fst) :
    g.Returns ⟨(u, pending) :: below, done⟩ u below (g.visit path pending done h) := by
  induction path, pending, done, h using visit.induct (g := g) generalizing u below with
  | case1 path done =>
    rw [visit]
    exact ReflTransGen.refl
  | case2 path done v rest _ hmem _ =>
    rw [visit, dif_pos hmem]
    subst hpath
    exact ⟨_, ReflTransGen.refl, step_cycle hmem⟩
  | case3 path done v rest _ hnot hdone _ ih =>
    rw [visit, dif_neg hnot, if_pos hdone]
    exact (ih hpath).after (.single (next_skip (hpath ▸ hnot) hdone))
  | case4 path done v rest _ hnot hdone cycle herr _ ih =>
    rw [visit, dif_neg hnot, if_neg hdone, herr]
    have hdeeper : v :: path = v :: ((u, rest) :: below).map Prod.fst := by rw [hpath]; rfl
    have hbelow := ih hdeeper
    rw [herr] at hbelow
    obtain ⟨last, hsteps, hlast⟩ := hbelow
    exact ⟨last, hsteps.head (next_enter (hpath ▸ hnot) hdone), hlast⟩
  | case5 path done v rest _ hnot hdone ids hok _ ihbelow ih =>
    rw [visit, dif_neg hnot, if_neg hdone, hok]
    have hdeeper : v :: path = v :: ((u, rest) :: below).map Prod.fst := by rw [hpath]; rfl
    have hbelow := ihbelow hdeeper
    rw [hok] at hbelow
    -- down to `v`, through all that comes after it, and back with `v` finished
    have hback : g.Steps ⟨(u, v :: rest) :: below, done⟩ ⟨(u, rest) :: below, v :: ids⟩ :=
      (ReflTransGen.head (next_enter (hpath ▸ hnot) hdone) hbelow).tail next_leave
    exact (ih hpath).after hback

end Calls

/-- **The steps of a walk come to an end**, with the ids that the start leads to and the start
before them, or with the path that closes a cycle. -/
theorem halts_walk (g : Graph) (id : String) : g.Halts id ((g.walk id).map (id :: ·)) := by
  have hcall : g.Returns (.start g id) id [] (g.walk id) := returns_visit rfl
  cases hwalk : g.walk id with
  | ok ids =>
    rw [hwalk] at hcall
    exact ⟨⟨[], id :: ids⟩, ReflTransGen.tail hcall next_leave, rfl⟩
  | error cycle =>
    rw [hwalk] at hcall
    exact hcall

end Graph

end Spreadsheet
