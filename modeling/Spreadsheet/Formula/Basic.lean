import Spreadsheet.CellRef

/-!
# Formulas

A formula is a tree of numbers, cell references and applications. A formula that was read applies
only the functions of the library to as many operands as they take, but the type admits any name and
any number of operands, and foreign nodes too: what has no value is for the evaluator to say.

## Walking a formula

A formula can be thousands of operations deep, so nothing descends into one by recursion when
it runs. `nodes` lists the nodes in post-order with a work list, and everything else is a left
fold over that list with a stack of results: `foldM` combines results bottom-up, and
`ofNodes?` rebuilds the formula.

Proofs do not see the stack. `nodes_eq_postorder` identifies the list with the recursive one, and
`foldM_app` is the equation of a recursive definition: operands from left to right, up to the first
fault, and then the application.
-/

namespace Spreadsheet

/-- A formula. References are as stored: relative to the cell that the formula stands in. -/
inductive Formula
  | num (value : Float)
  | ref (target : CellRef)
  | app (fn : String) (args : List Formula)
  | foreign (text : String)

/-- A node of a formula without what is below it. -/
inductive Node
  | num (value : Float)
  | ref (target : CellRef)
  | app (fn : String) (arity : Nat)
  | foreign (text : String)
  deriving DecidableEq

namespace Node

/-- The reference at a node. -/
def ref? : Node → Option CellRef
  | ref target => some target
  | _ => none

end Node

namespace Formula

/-! ## Post-order -/

mutual

/-- The nodes of a formula, operands before their application. -/
def postorder : Formula → List Node
  | num value => [.num value]
  | ref target => [.ref target]
  | app fn args => postorders args ++ [.app fn args.length]
  | foreign text => [.foreign text]

/-- The nodes of formulas, one formula after the other. -/
def postorders : List Formula → List Node
  | [] => []
  | f :: rest => postorder f ++ postorders rest

end

theorem postorders_eq (args : List Formula) : postorders args = args.flatMap postorder := by
  induction args with
  | nil => rfl
  | cons f rest ih => rw [postorders, ih, List.flatMap_cons]

theorem postorder_app (fn : String) (args : List Formula) :
    (app fn args).postorder = args.flatMap postorder ++ [.app fn args.length] := by
  rw [postorder, postorders_eq]

-- sums of sizes start from the number zero
attribute [local instance (high)] Zero.ofOfNat0

/-- How many nodes a formula has. -/
def size (f : Formula) : Nat := f.postorder.length

theorem size_pos (f : Formula) : 0 < f.size := by
  cases f <;> simp [size, postorder]

theorem size_app (fn : String) (args : List Formula) :
    (app fn args).size = (args.map size).sum + 1 := by
  simp only [size, postorder_app, List.length_append, List.length_flatMap, List.length_singleton]
  rfl

/-- Lists the nodes of all formulas of a work list, the last formula first, in front of `out`. An
application goes in front of `out` before its operands do, and its last operand is next. -/
def collect : List Formula → List Node → List Node
  | [], out => out
  | num value :: rest, out => collect rest (.num value :: out)
  | ref target :: rest, out => collect rest (.ref target :: out)
  | app fn args :: rest, out => collect (args.reverse ++ rest) (.app fn args.length :: out)
  | foreign text :: rest, out => collect rest (.foreign text :: out)
termination_by work => (work.map size).sum
decreasing_by
  all_goals simp [size_app, size_pos, List.sum_reverse]

/-- The nodes of a formula in post-order. -/
def nodes (f : Formula) : List Node := collect [f] []

theorem collect_eq (work : List Formula) (out : List Node) :
    collect work out = work.reverse.flatMap postorder ++ out := by
  fun_induction collect work out with
  | case1 => rfl
  | case2 _ _ _ ih | case3 _ _ _ ih | case5 _ _ _ ih => simp [ih, postorder]
  | case4 fn args rest out ih =>
    simp only [List.unattach_reverse, List.unattach_attach] at ih
    simp [ih, postorder_app]

/-- **The work list lists the post-order.** -/
theorem nodes_eq_postorder (f : Formula) : f.nodes = f.postorder := by
  simp [nodes, collect_eq]

/-! ## Folding -/

/-- How results of operands make the result of a formula, at each kind of node. -/
structure Algebra (α : Type) where
  num : Float → Except Fault α
  ref : CellRef → Except Fault α
  app : String → List α → Except Fault α
  foreign : String → Except Fault α

namespace Algebra

variable {α : Type} (alg : Algebra α)

/-- One node on a stack of results, the latest on top: a leaf puts its result on the stack, and an
application replaces the results of its operands by its own. -/
def step (stack : List α) : Node → Except Fault (List α)
  | .num value => (alg.num value).map (· :: stack)
  | .ref target => (alg.ref target).map (· :: stack)
  | .app fn arity => (alg.app fn (stack.take arity).reverse).map (· :: stack.drop arity)
  | .foreign text => (alg.foreign text).map (· :: stack)

end Algebra

/-- The result of a formula bottom-up, operands from left to right, up to the first fault. -/
def foldM {α : Type} [Inhabited α] (alg : Algebra α) (f : Formula) : Except Fault α :=
  (f.nodes.foldlM alg.step []).map (·.headD default)

/-! ## The fold as a recursion -/

theorem length_of_mapM_eq_ok {α β ε : Type} {g : α → Except ε β} {as : List α} {bs : List β}
    (h : as.mapM g = .ok bs) : bs.length = as.length := by
  induction as generalizing bs with
  | nil => cases h; rfl
  | cons a rest ih =>
    rw [List.mapM_cons] at h
    cases hb : g a with
    | error e => rw [hb] at h; cases h
    | ok b =>
      cases hbs : rest.mapM g with
      | error e => rw [hb, hbs] at h; cases h
      | ok cs =>
        rw [hb, hbs] at h
        cases h
        simp [ih hbs]

section Equations

variable {α : Type} (alg : Algebra α)

/-- Running the nodes of formulas one after the other puts their results on the stack, once each of
the formulas puts its own there. -/
private theorem foldlM_flatMap_postorder {result : Formula → Except Fault α} (args : List Formula)
    (h : ∀ f ∈ args, ∀ stack, f.postorder.foldlM alg.step stack = (result f).map (· :: stack))
    (stack : List α) :
    (args.flatMap postorder).foldlM alg.step stack
      = (args.mapM result).map (·.reverse ++ stack) := by
  induction args generalizing stack with
  | nil => rfl
  | cons f rest ih =>
    rw [List.flatMap_cons, List.foldlM_append, h f List.mem_cons_self, List.mapM_cons]
    cases result f with
    | error e => rfl
    | ok r =>
      have hrest := ih (fun g hg ↦ h g (List.mem_cons_of_mem f hg)) (r :: stack)
      change (rest.flatMap postorder).foldlM alg.step (r :: stack) = _
      rw [hrest]
      cases rest.mapM result with
      | error e => rfl
      | ok rs => simp [Except.map, bind, Except.bind, pure, Except.pure]

/-- The result of a formula by recursion: the meaning that `foldM` computes with a stack. -/
private def result : Formula → Except Fault α
  | num value => alg.num value
  | ref target => alg.ref target
  | app fn args => do alg.app fn (← args.mapM result)
  | foreign text => alg.foreign text

private theorem foldlM_postorder (f : Formula) (stack : List α) :
    f.postorder.foldlM alg.step stack = (result alg f).map (· :: stack) := by
  match f with
  | num value => simp [postorder, Algebra.step, result]
  | ref target => simp [postorder, Algebra.step, result]
  | foreign text => simp [postorder, Algebra.step, result]
  | app fn args =>
    rw [postorder_app, List.foldlM_append,
      foldlM_flatMap_postorder alg args (fun g _ stack ↦ foldlM_postorder g stack), result]
    cases hargs : args.mapM (result alg) with
    | error e => rfl
    | ok rs =>
      have hlen : rs.length = args.length := length_of_mapM_eq_ok hargs
      simp only [Except.map, bind, Except.bind, List.foldlM_cons, List.foldlM_nil, Algebra.step,
        ← hlen]
      rw [← List.length_reverse, List.take_left, List.drop_left, List.reverse_reverse]
      cases alg.app fn rs <;> rfl
termination_by sizeOf f

variable [Inhabited α]

private theorem foldM_eq_result (f : Formula) : f.foldM alg = result alg f := by
  rw [foldM, nodes_eq_postorder, foldlM_postorder]
  cases result alg f <;> rfl

@[simp] theorem foldM_num (value : Float) : (num value).foldM alg = alg.num value := by
  rw [foldM_eq_result, result]

@[simp] theorem foldM_ref (target : CellRef) : (ref target).foldM alg = alg.ref target := by
  rw [foldM_eq_result, result]

@[simp] theorem foldM_foreign (text : String) : (foreign text).foldM alg = alg.foreign text := by
  rw [foldM_eq_result, result]

/-- **Operands from left to right, then the application.** -/
theorem foldM_app (fn : String) (args : List Formula) :
    (app fn args).foldM alg = (do alg.app fn (← args.mapM fun f ↦ f.foldM alg)) := by
  simp only [foldM_eq_result, result]

end Equations

/-! ## Rebuilding

A formula is determined by its nodes in post-order, which also decides equality of formulas without
descending into them. -/

/-- Each node makes itself. -/
private def rebuild : Algebra Formula where
  num value := .ok (num value)
  ref target := .ok (ref target)
  app fn args := .ok (app fn args)
  foreign text := .ok (foreign text)

/-- The formula with these nodes in post-order, if there is one. -/
def ofNodes? (ns : List Node) : Option Formula :=
  match ns.foldlM rebuild.step [] with
  | .ok [f] => if f.nodes = ns then some f else none
  | _ => none

private theorem result_rebuild (f : Formula) : result rebuild f = .ok f := by
  match f with
  | num value => rw [result]; rfl
  | ref target => rw [result]; rfl
  | foreign text => rw [result]; rfl
  | app fn args =>
    have hargs : args.mapM (result rebuild) = .ok args := by
      have h : ∀ g ∈ args, result rebuild g = .ok g := fun g _ ↦ result_rebuild g
      clear f
      induction args with
      | nil => rfl
      | cons g rest ih =>
        rw [List.mapM_cons, h g List.mem_cons_self, ih fun k hk ↦ h k (List.mem_cons_of_mem g hk)]
        rfl
    rw [result, hargs]
    rfl
termination_by sizeOf f

@[simp] theorem ofNodes?_nodes (f : Formula) : ofNodes? f.nodes = some f := by
  have h : f.nodes.foldlM rebuild.step [] = .ok [f] := by
    rw [nodes_eq_postorder, foldlM_postorder, result_rebuild]
    rfl
  rw [ofNodes?, h]
  exact if_pos rfl

/-- **Reading back post-order** gives exactly the formulas with those nodes. -/
theorem ofNodes?_eq_some_iff {ns : List Node} {f : Formula} :
    ofNodes? ns = some f ↔ f.nodes = ns := by
  refine ⟨fun h ↦ ?_, fun h ↦ h ▸ ofNodes?_nodes f⟩
  unfold ofNodes? at h
  split at h
  · split at h
    · cases h; assumption
    · cases h
  · cases h

theorem nodes_injective {f g : Formula} (h : f.nodes = g.nodes) : f = g := by
  have := ofNodes?_nodes f
  rw [h, ofNodes?_nodes, Option.some_inj] at this
  exact this.symm

instance : DecidableEq Formula := fun f g ↦
  decidable_of_iff (f.nodes = g.nodes) ⟨nodes_injective, congrArg nodes⟩

/-! ## References -/

/-- The references of a formula as stored, from left to right, with repetitions. -/
def refs (f : Formula) : List CellRef := f.nodes.filterMap Node.ref?

theorem refs_eq (f : Formula) : f.refs = f.postorder.filterMap Node.ref? := by
  rw [refs, nodes_eq_postorder]

@[simp] theorem refs_num (value : Float) : (num value).refs = [] := by
  simp [refs_eq, postorder, Node.ref?]

@[simp] theorem refs_ref (target : CellRef) : (ref target).refs = [target] := by
  simp [refs_eq, postorder, Node.ref?]

@[simp] theorem refs_foreign (text : String) : (foreign text).refs = [] := by
  simp [refs_eq, postorder, Node.ref?]

@[simp] theorem refs_app (fn : String) (args : List Formula) :
    (app fn args).refs = args.flatMap refs := by
  have h : refs = fun f ↦ f.postorder.filterMap Node.ref? := funext refs_eq
  rw [h]
  simp only [postorder_app, List.filterMap_append, List.filterMap_flatMap]
  exact List.append_nil _

end Formula

end Spreadsheet
