import Mathlib.Data.List.Forall2
import Spreadsheet.Action

/-!
# Outcomes

A computation that can stop at a fault comes out well exactly if each of its steps does, and stops
where the first of its steps stops. The equivalences here say so for one step after another, for a
change of the result, and for a list of steps; they take computations apart without unfolding the
monad. The last ones are about actions, which end in a state as well.
-/

namespace Spreadsheet

namespace Outcome

variable {ε α β : Type}

@[simp] theorem ok_bind (a : α) (f : α → Except ε β) : (Except.ok a >>= f) = f a := rfl

@[simp] theorem error_bind (e : ε) (f : α → Except ε β) :
    (Except.error e >>= f) = .error e := rfl

@[simp] theorem pure_eq_ok (a : α) : (pure a : Except ε α) = .ok a := rfl

@[simp] theorem throw_eq_error (e : ε) : (throw e : Except ε α) = .error e := rfl

theorem bind_eq_ok_iff {x : Except ε α} {f : α → Except ε β} {b : β} :
    (x >>= f) = .ok b ↔ ∃ a, x = .ok a ∧ f a = .ok b := by
  cases x <;> simp

theorem bind_eq_error_iff {x : Except ε α} {f : α → Except ε β} {e : ε} :
    (x >>= f) = .error e ↔ x = .error e ∨ ∃ a, x = .ok a ∧ f a = .error e := by
  cases x <;> simp

theorem map_eq_ok_iff {x : Except ε α} {f : α → β} {b : β} :
    x.map f = .ok b ↔ ∃ a, x = .ok a ∧ f a = b := by
  cases x <;> simp [Except.map]

theorem map_eq_error_iff {x : Except ε α} {f : α → β} {e : ε} :
    x.map f = .error e ↔ x = .error e := by
  cases x <;> simp [Except.map]

theorem exists_ok_of_no_error {x : Except ε α} (h : ∀ e, x ≠ .error e) : ∃ a, x = .ok a := by
  cases x with
  | ok a => exact ⟨a, rfl⟩
  | error e => exact absurd rfl (h e)

theorem mapM_eq_ok_iff {g : α → Except ε β} {as : List α} {bs : List β} :
    as.mapM g = .ok bs ↔ List.Forall₂ (fun a b ↦ g a = .ok b) as bs := by
  induction as generalizing bs with
  | nil => simp [eq_comm]
  | cons a rest ih =>
    rw [List.mapM_cons, bind_eq_ok_iff]
    constructor
    · rintro ⟨b, hb, hrest⟩
      obtain ⟨cs, hcs, heq⟩ := bind_eq_ok_iff.mp hrest
      cases heq
      exact .cons hb (ih.mp hcs)
    · rintro (_ | ⟨hb, hrest⟩)
      exact ⟨_, hb, bind_eq_ok_iff.mpr ⟨_, ih.mpr hrest, rfl⟩⟩

theorem exists_mem_of_mapM_eq_error {g : α → Except ε β} {as : List α} {e : ε}
    (h : as.mapM g = .error e) : ∃ a ∈ as, g a = .error e := by
  induction as with
  | nil => cases h
  | cons a rest ih =>
    rw [List.mapM_cons, bind_eq_error_iff] at h
    rcases h with h | ⟨b, -, hrest⟩
    · exact ⟨a, List.mem_cons_self, h⟩
    · rcases bind_eq_error_iff.mp hrest with hrest | ⟨_, -, hpure⟩
      · obtain ⟨c, hc, hg⟩ := ih hrest
        exact ⟨c, List.mem_cons_of_mem a hc, hg⟩
      · cases hpure

theorem exists_mapM_eq_ok {g : α → Except ε β} {as : List α} (h : ∀ a ∈ as, ∃ b, g a = .ok b) :
    ∃ bs, as.mapM g = .ok bs := by
  refine exists_ok_of_no_error fun e he ↦ ?_
  obtain ⟨a, ha, hg⟩ := exists_mem_of_mapM_eq_error he
  obtain ⟨b, hb⟩ := h a ha
  rw [hb] at hg
  cases hg

theorem mem_iff_of_mapM_eq_ok {g : α → Except ε β} {as : List α} {bs : List β}
    (h : as.mapM g = .ok bs) {b : β} : b ∈ bs ↔ ∃ a ∈ as, g a = .ok b := by
  have hforall := mapM_eq_ok_iff.mp h
  clear h
  induction hforall with
  | nil => simp
  | @cons a c rest cs hhead htail ih =>
    have hrest : b ∈ cs ↔ ∃ a ∈ rest, g a = .ok b := ih
    rw [List.mem_cons, List.exists_mem_cons_iff, hhead, Except.ok.injEq, eq_comm, hrest]

theorem exists_of_mapM_eq_ok {g : α → Except ε β} {as : List α} {bs : List β}
    (h : as.mapM g = .ok bs) {a : α} (ha : a ∈ as) : ∃ b, g a = .ok b := by
  have hforall := mapM_eq_ok_iff.mp h
  obtain ⟨i, hi, rfl⟩ := List.getElem_of_mem ha
  exact ⟨_, hforall.get hi (hforall.length_eq ▸ hi)⟩

theorem mapM_congr {f g : α → Except ε β} {as : List α} (h : ∀ a ∈ as, f a = g a) :
    as.mapM f = as.mapM g := by
  induction as with
  | nil => rfl
  | cons a rest ih =>
    rw [List.mapM_cons, List.mapM_cons, h a List.mem_cons_self,
      ih fun b hb ↦ h b (List.mem_cons_of_mem a hb)]

theorem forM_eq_ok_iff {g : α → Except ε Unit} {as : List α} :
    as.forM g = .ok () ↔ ∀ a ∈ as, g a = .ok () := by
  induction as with
  | nil => exact ⟨nofun, fun _ ↦ rfl⟩
  | cons a rest ih =>
    rw [List.forM_eq_forM, List.forM_cons, bind_eq_ok_iff, List.forall_mem_cons, ← ih]
    exact ⟨fun ⟨_, ha, hrest⟩ ↦ ⟨ha, hrest⟩, fun ⟨ha, hrest⟩ ↦ ⟨(), ha, hrest⟩⟩

theorem exists_mem_of_forM_eq_error {g : α → Except ε Unit} {as : List α} {e : ε}
    (h : as.forM g = .error e) : ∃ a ∈ as, g a = .error e := by
  induction as with
  | nil => cases h
  | cons a rest ih =>
    rw [List.forM_eq_forM, List.forM_cons, bind_eq_error_iff] at h
    rcases h with h | ⟨_, -, hrest⟩
    · exact ⟨a, List.mem_cons_self, h⟩
    · obtain ⟨b, hb, hg⟩ := ih hrest
      exact ⟨b, List.mem_cons_of_mem a hb, hg⟩

end Outcome

namespace Action

variable {σ α β : Type} {act : Action σ α} {next : α → Action σ β} {s s' : σ}

theorem run_bind_eq_ok_iff {b : β} :
    (act >>= next).run s = (.ok b, s') ↔
      ∃ a mid, act.run s = (.ok a, mid) ∧ (next a).run mid = (.ok b, s') := by
  rw [run_bind]
  obtain ⟨_ | a, mid⟩ := act.run s <;> simp

theorem run_bind_pure (g : α → β) (act : Action σ α) (s : σ) :
    (act >>= fun a ↦ pure (g a)).run s = ((act.run s).1.map g, (act.run s).2) := by
  rw [run_bind]
  obtain ⟨_ | a, mid⟩ := act.run s <;> rfl

end Action

end Spreadsheet
