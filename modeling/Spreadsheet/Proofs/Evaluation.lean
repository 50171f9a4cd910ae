import Mathlib.Logic.Relation
import Spreadsheet.Proofs.CellId
import Spreadsheet.Proofs.Reading

/-!
# Evaluation by recursion and with a stack

`Formula.value` says what a formula is worth by recursion: an application is worth what its function
gives for the values of its operands, from left to right up to the first fault. What there is to
read at a place is left to a parameter. `Table.readAt` is that of a table: the value of the cell
there, zero where there is no record, and a fault off the sheet. Cells are found by their ids, and
an id shows the row, so the place has to have numbers that can be written.

Formulas can be thousands of operations deep, so an evaluation takes single steps with a
stack, and the recursion is only in the proofs. The work still to be done has an application
twice: first to put its operands in front of it, and then, with its operands done, to take
their values from the end of the results. A formula leaves the work behind it and the results
before it alone (`returns_foldM`). From that the steps come to an end, and with the value by
recursion (`evaluate_eq_value`).
-/

namespace Spreadsheet

open Relation Numeral

/-! ## Reading at a place -/

namespace Table

/-- What is at a place: the value of the cell there, which is zero without a record, and nothing off
the sheet. -/
def valueAt (t : Table) (p : Position) : Except Fault Float :=
  if p.onSheet then .ok (t.valueOf (String.ofList p.spelling.text))
  else .error (.malformed (.offSheet p.col p.row))

/-- What can be read at a place, where numerals have only so many digits. -/
def readAt (t : Table) (p : Position) : Except Fault Float :=
  if p.Writable then t.valueAt p else .error .longNumeral

/-- **A cell is read by its id.** -/
theorem map_valueOf_id (t : Table) (p : Position) : p.id.map t.valueOf = t.readAt p := by
  rw [Position.id_eq, readAt, valueAt]
  split
  · split <;> rfl
  · rfl

end Table

/-! ## The value by recursion -/

theorem Operation.apply_of_not_accepts {name : String} {args : List Float}
    (h : ¬ accepts name args.length = true) :
    apply name args = .error (.unsupported
      (if isName name then .arguments name args.length else .function name)) := by
  rw [apply, isName]
  cases hop : ofName? name with
  | none => rfl
  | some op =>
    have hnone : op.value? args = none := by
      rw [← Option.not_isSome_iff_eq_none, isSome_value?]
      rwa [accepts, hop] at h
    simp only [hnone]
    rfl

namespace Formula

/-- The value of a formula in the cell at `base`, where `read` says what is at a place. -/
def value (read : Position → Except Fault Float) (base : Position) : Formula → Except Fault Float
  | num value => .ok value
  | ref target => read (target.resolve base).position
  | app fn args => do
    let values ← args.mapM (value read base)
    if Operation.accepts fn values.length then Operation.apply fn values
    else if Operation.isName fn then throw (.unsupported (.arguments fn values.length))
    else throw (.unsupported (.function fn))
  | foreign text => .error (.unsupported (.node text))

theorem evaluate_eq_value_of_read {valueOf : String → Float} {read : Position → Except Fault Float}
    (hread : ∀ p : Position, p.id.map valueOf = read p) (f : Formula) (base : Position) :
    f.evaluate valueOf base = f.value read base := by
  induction f using induction with
  | num v => rw [evaluate, foldM_num, value]; rfl
  | ref target => rw [evaluate_ref, value]; exact hread _
  | foreign text => rw [evaluate, foldM_foreign, value]; rfl
  | app fn args ih =>
    rw [evaluate_app, value, Outcome.mapM_congr ih]
    refine congrArg _ (funext fun values ↦ ?_)
    by_cases haccepts : Operation.accepts fn values.length = true
    · rw [if_pos haccepts]
    · rw [if_neg haccepts, Operation.apply_of_not_accepts haccepts]
      split <;> rfl

/-! ## Steps -/

/-- Where an evaluation has come to. -/
structure Stage (α : Type) where
  /-- The formulas still to be done, the next one first, each with whether its operands are done. -/
  work : List (Formula × Bool)
  /-- The results so far, the latest one last. -/
  results : List α

namespace Stage

variable {α : Type}

/-- A whole formula is to be done. -/
def start (f : Formula) : Stage α := ⟨[(f, false)], []⟩

/-- One formula of the work has come out. Its result goes behind those before it, and a fault ends
everything. -/
def put (work : List (Formula × Bool)) (results : List α) :
    Except Fault α → Stage α ⊕ Except Fault α
  | .ok a => .inl ⟨work, results ++ [a]⟩
  | .error fault => .inr (.error fault)

end Stage

variable {α : Type} [Inhabited α] (alg : Algebra α)

/-- The next stage of an evaluation, or the result of one that is over. -/
def step (s : Stage α) : Stage α ⊕ Except Fault α :=
  match s.work with
  | [] => .inr (.ok (s.results.headD default))
  | (num value, _) :: rest => Stage.put rest s.results (alg.num value)
  | (ref target, _) :: rest => Stage.put rest s.results (alg.ref target)
  | (foreign text, _) :: rest => Stage.put rest s.results (alg.foreign text)
  | (app fn args, false) :: rest =>
    .inl ⟨args.map (·, false) ++ (app fn args, true) :: rest, s.results⟩
  | (app fn args, true) :: rest =>
    let below := s.results.length - args.length
    Stage.put rest (s.results.take below) (alg.app fn (s.results.drop below))

/-- A step leads from one stage to the next. -/
def Next (s s' : Stage α) : Prop := step alg s = .inl s'

/-- An evaluation gets from one stage to another in finitely many steps. -/
abbrev Steps : Stage α → Stage α → Prop := ReflTransGen (Next alg)

/-- The evaluation of a formula is over after finitely many steps, with a result. -/
def Halts (f : Formula) (result : Except Fault α) : Prop :=
  ∃ last, Steps alg (.start f) last ∧ step alg last = .inr result

variable {alg}

theorem steps_of_halted {s s' last : Stage α} {result : Except Fault α}
    (hlast : step alg last = .inr result) (hs' : Steps alg s s') (hrun : Steps alg s last) :
    Steps alg s' last := by
  induction hs' with
  | refl => exact hrun
  | @tail mid next _ hnext ih =>
    -- no step leads on from the last stage, and only one from any other
    rcases ReflTransGen.cases_head ih with rfl | ⟨other, hother, hrest⟩
    · rw [Next, hlast] at hnext
      cases hnext
    · rw [Next] at hother hnext
      rw [hother] at hnext
      cases hnext
      exact hrest

theorem Halts.unique {f : Formula} {r r' : Except Fault α} (h : Halts alg f r)
    (h' : Halts alg f r') : r = r' := by
  obtain ⟨last, hsteps, hlast⟩ := h
  obtain ⟨last', hsteps', hlast'⟩ := h'
  rcases ReflTransGen.cases_head (steps_of_halted hlast' hsteps hsteps') with rfl | ⟨_, hnext, -⟩
  · rw [hlast] at hlast'
    cases hlast'
    rfl
  · rw [Next, hlast] at hnext
    cases hnext

/-! ## Calls -/

section Calls

variable {work rest : List (Formula × Bool)} {results below : List α} {s s' : Stage α}
  {out : Except Fault (List α)}

variable (alg) in
/-- What comes of the formulas at the front of the work. They leave the work behind them, and put
their results behind those that are there already, or one of them ends everything with a fault. -/
def Returns (s : Stage α) (work : List (Formula × Bool)) (results : List α) :
    Except Fault (List α) → Prop
  | .ok as => Steps alg s ⟨work, results ++ as⟩
  | .error fault => ∃ last, Steps alg s last ∧ step alg last = .inr (.error fault)

theorem Returns.after (hsteps : Steps alg s s') (h : Returns alg s' work results out) :
    Returns alg s work results out := by
  cases out with
  | ok as => exact hsteps.trans h
  | error fault =>
    obtain ⟨last, hrest, hlast⟩ := h
    exact ⟨last, hsteps.trans hrest, hlast⟩

theorem Returns.bind {next : List α → Except Fault (List α)} (h : Returns alg s work results out)
    (hnext : ∀ as, out = .ok as → Returns alg ⟨work, results ++ as⟩ rest below (next as)) :
    Returns alg s rest below (out >>= next) := by
  cases out with
  | ok as => exact (hnext as rfl).after h
  | error fault => exact h

/-- Results that are there already can be counted among those that come out. -/
theorem Returns.prepend {as : List α} (h : Returns alg s work (results ++ as) out) :
    Returns alg s work results (out.map (as ++ ·)) := by
  cases out with
  | ok bs =>
    rw [Returns, List.append_assoc] at h
    exact h
  | error fault => exact h

theorem returns_of_put {result : Except Fault α} (h : step alg s = Stage.put work results result) :
    Returns alg s work results (result.map ([·])) := by
  cases result with
  | ok a => exact .single h
  | error fault => exact ⟨s, .refl, h⟩

/-- Formulas come out one after the other, up to the first fault, if each of them comes out. -/
theorem returns_mapM {result : Formula → Except Fault α} {args : List Formula}
    (h : ∀ f ∈ args, ∀ (work : List (Formula × Bool)) (results : List α),
      Returns alg ⟨(f, false) :: work, results⟩ work results ((result f).map ([·])))
    (work : List (Formula × Bool)) (results : List α) :
    Returns alg ⟨args.map (·, false) ++ work, results⟩ work results (args.mapM result) := by
  induction args generalizing results with
  | nil =>
    have hnone : Steps alg ⟨work, results⟩ ⟨work, results ++ []⟩ := by
      rw [List.append_nil]
    exact hnone
  | cons f rest ih =>
    have hmap : (f :: rest).mapM result
        = (result f).map ([·]) >>= fun first ↦ (rest.mapM result).map (first ++ ·) := by
      rw [List.mapM_cons]
      cases result f <;> cases rest.mapM result <;> rfl
    rw [hmap]
    have hfirst := h f List.mem_cons_self (rest.map (·, false) ++ work) results
    exact hfirst.bind fun first _ ↦
      (ih (fun g hg ↦ h g (List.mem_cons_of_mem f hg)) (results ++ first)).prepend

/-- **A formula in steps**, wherever it is to be done. -/
theorem returns_foldM (f : Formula) (work : List (Formula × Bool)) (results : List α) :
    Returns alg ⟨(f, false) :: work, results⟩ work results ((f.foldM alg).map ([·])) := by
  induction f using induction generalizing work results with
  | num value => rw [foldM_num]; exact returns_of_put rfl
  | ref target => rw [foldM_ref]; exact returns_of_put rfl
  | foreign text => rw [foldM_foreign]; exact returns_of_put rfl
  | app fn args ih =>
    have happ : ((app fn args).foldM alg).map ([·])
        = args.mapM (fun f ↦ f.foldM alg) >>= fun as ↦ (alg.app fn as).map ([·]) := by
      rw [foldM_app]
      cases args.mapM (fun f ↦ f.foldM alg) <;> rfl
    have hnext : Next alg ⟨(app fn args, false) :: work, results⟩
        ⟨args.map (·, false) ++ (app fn args, true) :: work, results⟩ := rfl
    have hargs := returns_mapM ih ((app fn args, true) :: work) results
    rw [happ]
    refine (hargs.bind fun as has ↦ returns_of_put ?_).after (.single hnext)
    -- the results of the operands are the last ones, as many as there are operands
    have hlen : (results ++ as).length - args.length = results.length := by
      rw [List.length_append, length_of_mapM_eq_ok has, Nat.add_sub_cancel]
    simp only [step, hlen, List.take_left, List.drop_left]

end Calls

/-- **The steps of an evaluation come to an end**, with the result of the fold. -/
theorem halts_foldM (f : Formula) : Halts alg f (f.foldM alg) := by
  have hcall : Returns alg (.start f) [] [] ((f.foldM alg).map ([·])) := returns_foldM f [] []
  cases hf : f.foldM alg with
  | error fault =>
    rw [hf] at hcall
    exact hcall
  | ok a =>
    rw [hf] at hcall
    exact ⟨⟨[], [a]⟩, hcall, rfl⟩

/-! ## The evaluator -/

/-- **Evaluation with a stack is evaluation by recursion**, in every cell of every table, with the
same value or the same fault. -/
theorem evaluate_eq_value (f : Formula) (t : Table) (base : Position) :
    f.evaluate t.valueOf base = f.value t.readAt base ∧
      ∀ result, Halts (evaluator t.valueOf base) f result ↔ result = f.value t.readAt base := by
  have heq : f.evaluate t.valueOf base = f.value t.readAt base :=
    evaluate_eq_value_of_read t.map_valueOf_id f base
  have hhalts : Halts (evaluator t.valueOf base) f (f.value t.readAt base) := heq ▸ halts_foldM f
  refine ⟨heq, fun result ↦ ⟨fun h ↦ h.unique hhalts, ?_⟩⟩
  rintro rfl
  exact hhalts

/-- A row that is too long is not read, though it is a row of the sheet. -/
theorem evaluate_ref_of_long_row (t : Table) {n : Int} (hone : 1 ≤ n) (hn : ¬ isWritable n = true) :
    let f : Formula := ref ⟨0, n - 2, false, false⟩
    f.evaluate t.valueOf ⟨1, 2⟩ = .error .longNumeral ∧
      f.value t.valueAt ⟨1, 2⟩ =
        .ok (t.valueOf (String.ofList (Position.spelling ⟨1, n⟩).text)) := by
  intro f
  have hplace : (CellRef.resolve ⟨0, n - 2, false, false⟩ ⟨1, 2⟩).position = ⟨1, n⟩ := by
    simp only [CellRef.resolve, CellRef.position, Bool.false_eq_true, if_false]
    congr 1
    omega
  have hon : Position.onSheet ⟨1, n⟩ = true := Position.onSheet_iff.mpr ⟨Int.le_refl 1, hone⟩
  constructor
  · rw [evaluate_ref, CellRef.idAt, hplace, Position.id_of_not_writable fun h ↦ hn h.1]
    rfl
  · rw [value, hplace, Table.valueAt, if_pos hon]

/-- A place off the sheet is not refused by showing a column that is too long. -/
theorem evaluate_ref_of_long_col (t : Table) {n : Int} (hone : 1 ≤ n)
    (hn : ¬ isWritable (-n) = true) :
    let f : Formula := ref ⟨1 - n, 0, false, false⟩
    f.evaluate t.valueOf ⟨-1, 1⟩ = .error .longNumeral ∧
      f.value t.valueAt ⟨-1, 1⟩ = .error (.malformed (.offSheet (-n) 1)) := by
  intro f
  have hplace : (CellRef.resolve ⟨1 - n, 0, false, false⟩ ⟨-1, 1⟩).position = ⟨-n, 1⟩ := by
    simp only [CellRef.resolve, CellRef.position, Bool.false_eq_true, if_false]
    congr 1
    omega
  have hoff : ¬ Position.onSheet ⟨-n, 1⟩ = true := fun hon ↦ by
    have hcol : 1 ≤ -n := (Position.onSheet_iff.mp hon).1
    omega
  constructor
  · rw [evaluate_ref, CellRef.idAt, hplace,
      Position.id_of_not_writable fun h ↦ hn (h.2.resolve_left hoff)]
    rfl
  · rw [value, hplace, Table.valueAt, if_neg hoff]

/-- With numbers of one digit too many, evaluation is not the recursion that reads every place of
the sheet and refuses every other one. -/
theorem evaluate_ne_value :
    ((ref ⟨0, 10 ^ maxDigits - 2, false, false⟩).evaluate (∅ : Table).valueOf ⟨1, 2⟩
        = .error .longNumeral ∧
      (ref ⟨0, 10 ^ maxDigits - 2, false, false⟩).value (∅ : Table).valueAt ⟨1, 2⟩ = .ok 0.0) ∧
    (ref ⟨1 - 10 ^ maxDigits, 0, false, false⟩).evaluate (∅ : Table).valueOf ⟨-1, 1⟩
        = .error .longNumeral ∧
      (ref ⟨1 - 10 ^ maxDigits, 0, false, false⟩).value (∅ : Table).valueAt ⟨-1, 1⟩
        = .error (.malformed (.offSheet (-10 ^ maxDigits) 1)) := by
  have habs : (10 ^ maxDigits : Int).natAbs = 10 ^ maxDigits := by
    rw [Int.natAbs_pow, show (10 : Int).natAbs = 10 from rfl]
  have hone : (1 : Int) ≤ 10 ^ maxDigits := Int.pow_pos (by decide)
  have hrow : ¬ isWritable (10 ^ maxDigits) = true := by
    rw [isWritable_iff, habs]
    exact Nat.lt_irrefl _
  have hcol : ¬ isWritable (-10 ^ maxDigits) = true := by
    rw [isWritable_iff, Int.natAbs_neg, habs]
    exact Nat.lt_irrefl _
  exact ⟨evaluate_ref_of_long_row ∅ hone hrow, evaluate_ref_of_long_col ∅ hone hcol⟩

end Formula

end Spreadsheet
