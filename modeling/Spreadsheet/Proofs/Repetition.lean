import Spreadsheet.Proofs.Copying

/-!
# Edits made twice

Making an edit that went through once more, at once, changes nothing and reports the same. The
second edit starts from another table: what it reads has records already, the edges that it takes
out are those that the first one has put in, and every affected cell is computed anew.

That all of this comes to the same records is no matter of single steps. After the first edit the
cell has the text that the second one gives it, so the texts do not change, and the texts of a sound
table determine its records (`Edited.again`). What is left is the order in which the cells were
created. Putting a formula in only adds cells at the end, and taking one out only takes cells away,
so the cells that were there stay in their order. The second edit finds all cells there that it
leaves behind, and therefore adds and takes away none.
-/

namespace Spreadsheet

open Relation Text Workbook
open scoped List

namespace Table

variable {t u v w : Table} {settings : Settings} {id reader expr : String} {f : Formula}
  {base : Position} {updates updates' : Updates}

/-! ## The order of creation -/

/-- Where all cells of a table come from a part of them in the same order, the part is all of
them. -/
theorem ids_eq_of_sublist {ids : List String} (h : ids <+ t.ids) (hmem : ∀ x ∈ t.ids, x ∈ ids) :
    t.ids = ids :=
  (h.eq_of_length_le (t.nodup_keys.length_le_of_subset fun x hx ↦ hmem x hx)).symm

theorem sublist_ids_ensure (t : Table) (id : String) : t.ids <+ (t.ensure id).ids := by
  unfold ensure
  split
  · exact .refl _
  · rw [ids, ids, OrderedMap.keys_insert]
    split
    · exact .refl _
    · exact List.sublist_append_left _ _

theorem sublist_ids_foldl_addDependent (refs : List String) (t : Table) :
    t.ids <+ ids (refs.foldl (fun t ref ↦ t.addDependent ref reader) t) := by
  induction refs generalizing t with
  | nil => exact .refl _
  | cons ref rest ih =>
    have hhead : t.ids <+ (t.addDependent ref reader).ids := by
      rw [addDependent, ids, ids, OrderedMap.keys_modify]
      exact t.sublist_ids_ensure ref
    exact hhead.trans (ih _)

theorem ids_of_retract (h : t.retract id = .ok u) : u.ids = t.ids := (retracted_of_retract h).ids

theorem sublist_ids_of_assign (h : t.assign id expr f base = .ok u) : t.ids <+ u.ids := by
  obtain ⟨-, hself, -⟩ := assigned_of_assign h
  obtain ⟨refs, hrefs, h⟩ := Outcome.bind_eq_ok_iff.mp h
  have hmem : id ∉ refs := (Formula.mem_references_iff hrefs).not.mpr hself
  simp only [hmem, if_false] at h
  obtain ⟨retracted, hretract, h⟩ := Outcome.bind_eq_ok_iff.mp h
  cases h
  rw [← ids_of_retract hretract, ids, ids, OrderedMap.keys_modify]
  exact (sublist_ids_foldl_addDependent refs retracted).trans (sublist_ids_ensure _ id)

theorem sublist_ids_of_install {value : Float}
    (h : (install id expr f base).run t = (.ok value, u)) : t.ids <+ u.ids := by
  obtain ⟨_, assigned, hassign, h⟩ := Action.run_bind_eq_ok_iff.mp h
  rw [Action.run_update] at hassign
  rw [Action.run_query_bind] at h
  split at hassign
  · rename_i u' hu'
    cases hassign
    split at h
    · cases h
      rw [ids, ids, OrderedMap.keys_modify]
      exact sublist_ids_of_assign hu'
    · cases h
  · cases hassign

theorem ids_of_recalculate {cells : List String}
    (h : (cells.mapM recalculate).run t = (.ok updates, u)) : u.ids = t.ids := by
  induction cells generalizing t updates with
  | nil =>
    cases h
    rfl
  | cons x rest ih =>
    rw [List.mapM_cons] at h
    obtain ⟨_, mid, hhead, h⟩ := Action.run_bind_eq_ok_iff.mp h
    obtain ⟨_, _, htail, h⟩ := Action.run_bind_eq_ok_iff.mp h
    cases h
    rw [run_recalculate] at hhead
    split at hhead
    · cases hhead
      exact (ih htail).trans (OrderedMap.keys_modify _ _ _)
    · cases hhead

theorem ids_of_propagate (h : (propagate id).run t = (.ok updates, u)) : u.ids = t.ids := by
  rw [run_propagate] at h
  split at h
  · exact ids_of_recalculate h
  · cases h

/-- **Putting a formula in takes no cell away**, on any table. -/
theorem sublist_ids_of_put (h : (put id expr f base).run t = (.ok updates, v)) :
    t.ids <+ v.ids := by
  obtain ⟨value, installed, hinstall, h⟩ := Action.run_bind_eq_ok_iff.mp h
  obtain ⟨rest, _, hpropagate, h⟩ := Action.run_bind_eq_ok_iff.mp h
  cases h
  rw [ids_of_propagate hpropagate]
  exact sublist_ids_of_install hinstall

/-- **Taking a formula out adds no cell**, on any table. -/
theorem sublist_ids_of_vacate (h : (Sheet.vacate id).run t = (.ok updates, v)) :
    v.ids <+ t.ids := by
  simp only [Sheet.vacate, Action.run_bind_eq_ok_iff, Action.run_modify] at h
  obtain ⟨_, retracted, hretract, _, emptied, hemptied, rest, current, hpropagate,
    _, _, hdiscard, h⟩ := h
  rw [Action.run_update] at hretract
  split at hretract
  · rename_i u' hu'
    cases hretract
    cases hemptied
    cases hdiscard
    cases h
    have hids : current.ids = t.ids := by
      rw [ids_of_propagate hpropagate, ids, OrderedMap.keys_modify]
      exact ids_of_retract hu'
    rw [← hids]
    split
    · rw [ids, OrderedMap.keys_erase]
      exact List.filter_sublist
    · exact .refl _
  · cases hretract

/-! ## Edits of a table -/

/-- **An edit that gives a cell the text that it has** leaves all records as they are, and reports
what the edit before it has reported. -/
theorem Edited.again (h : t.Edited v settings id expr updates)
    (h' : v.Edited w settings id expr updates') : w.record = v.record ∧ updates' = updates := by
  have htext : w.text = v.text := by
    funext x
    rw [h'.text, h.text]
    split <;> rfl
  have hrecord := h'.sound.record_eq h.sound htext
  obtain ⟨-, hformula, hvalue, hdependents⟩ := parts_eq hrecord
  obtain ⟨order, horder, rfl⟩ := h.updates
  obtain ⟨order', horder', rfl⟩ := h'.updates
  rw [affected_congr hdependents hformula id, horder, Except.ok.injEq] at horder'
  rw [hvalue, horder']
  exact ⟨hrecord, rfl⟩

theorem Sound.not_closes (h : t.Sound settings) (hf : t.formula? id = some f)
    (hbase : Position.read id = .ok base) : ¬ t.Closes id f base := by
  rintro ⟨x, hx, hpath⟩
  have hmono : (fun y z ↦ y ≠ id ∧ t.Reads y z) ≤ t.Reads := fun _ _ ↦ And.right
  exact h.acyclic id (.head' ((reads_iff hf hbase).mpr hx) (ReflTransGen.mono hmono x id hpath))

/-- **Putting a formula in twice is putting it in once.** -/
theorem run_put_again (ht : t.Sound settings) (hacc : settings.Accepts id expr f base)
    (hno : ¬ t.Closes id f base) (hrun : (put id expr f base).run t = (.ok updates, v)) :
    (put id expr f base).run v = (.ok updates, v) := by
  obtain ⟨_, _, hrun₁, hedited⟩ := exists_put ht hacc hno
  rw [hrun] at hrun₁
  cases hrun₁
  have hv := hedited.sound
  have hf : v.formula? id = some f := by
    rw [(effect_of_put ht hacc hno hrun).1.formula?, if_pos rfl]
  have hno' : ¬ v.Closes id f base := hv.not_closes hf hacc.read_id
  obtain ⟨updates', w, hrun', hedited'⟩ := exists_put hv hacc hno'
  obtain ⟨hrecord, rfl⟩ := hedited.again hedited'
  have hids : w.ids = v.ids := by
    refine ids_eq_of_sublist (sublist_ids_of_put hrun') fun x hx ↦ ?_
    -- the cell has a record, and so has all that it reads
    rcases ((effect_of_put hv hacc hno' hrun').2 x).mp hx with rfl | hreads | hx
    · exact mem_ids_of_formula? hf
    · rw [reads_eq (parts_eq hrecord).2.1] at hreads
      exact hv.wired.mem_ids_of_reads hreads
    · exact hx
  rw [hrun', eq_of_record_eq hids hrecord]

/-- **Taking a formula out twice is taking it out once**, where the cell still has a record
after the first time. -/
theorem run_vacate_again (ht : t.Sound settings)
    (hrun : (Sheet.vacate id).run t = (.ok updates, v)) (hid : id ∈ v.ids) :
    (Sheet.vacate id).run v = (.ok updates, v) := by
  obtain ⟨_, _, hrun₁, hedited⟩ := exists_vacate ht id
  rw [hrun] at hrun₁
  cases hrun₁
  have hv := hedited.sound
  obtain ⟨updates', w, hrun', hedited'⟩ := exists_vacate hv id
  obtain ⟨hrecord, rfl⟩ := hedited.again hedited'
  -- the record is there because something reads the cell, and it still does
  have hread : ∃ y, v.Reads y id := by
    obtain ⟨heffect, hmem⟩ := effect_of_vacate ht hrun
    obtain ⟨y, hy⟩ : ∃ y, t.Reads y id := by
      by_contra hnone
      exact ((hmem id).mp hid).2 ⟨rfl, hnone⟩
    obtain ⟨z, -, hz⟩ := TransGen.tail'_iff.mp ((heffect.readers y).mpr (.single hy))
    exact ⟨z, hz⟩
  have hids : v.ids = w.ids :=
    ids_eq_of_sublist (sublist_ids_of_vacate hrun') fun x hx ↦
      ((effect_of_vacate hv hrun').2 x).mpr ⟨hx, fun hgone ↦ hgone.2 hread⟩
  rw [hrun', eq_of_record_eq hids.symm hrecord]

end Table

namespace Sheet

variable {s s' : Sheet} {cell source target expr : String} {updates : Updates}

/-! ## Edits of a sheet -/

theorem run_evaluate_again (hs : s.Sound) (hrun : (evaluate cell expr).run s = (.ok updates, s')) :
    (evaluate cell expr).run s' = (.ok updates, s') := by
  obtain ⟨id, f, base, haccept, hno⟩ := accept_of_run_evaluate hs hrun
  obtain ⟨-, hacc⟩ := Settings.accept_eq_ok_iff.mp haccept
  rw [run_evaluate, haccept] at hrun
  dsimp only at hrun
  rw [run_apply] at hrun
  split at hrun
  · rename_i updates' v hput
    cases hrun
    rw [run_evaluate, haccept]
    dsimp only
    rw [run_apply, Table.run_put_again hs hacc hno hput]
  · cases hrun

theorem run_remove_again (hs : s.Sound) (hrun : (remove cell).run s = (.ok updates, s')) :
    (remove cell).run s' = (.ok updates, s') := by
  rw [run_remove] at hrun
  split at hrun
  · rename_i id hlocate
    split at hrun
    · rename_i hcontains
      obtain ⟨updates', v, hvacate, hedited⟩ := Table.exists_vacate hs id
      rw [Action.run_atomically, onTable, Action.run_zoom, hvacate] at hrun
      cases hrun
      rw [run_remove, hlocate]
      dsimp only
      by_cases hid : id ∈ v.ids
      · rw [if_pos (OrderedMap.contains_iff.mpr hid), Action.run_atomically, onTable,
          Action.run_zoom, Table.run_vacate_again hs hvacate hid]
      · -- the record has gone, so nothing reads the cell and nothing else was reported
        obtain ⟨order, horder, rfl⟩ := hedited.updates
        rw [hedited.sound.affected_of_not_mem hid, Except.ok.injEq] at horder
        subst horder
        rw [if_neg fun hcontains ↦ hid (OrderedMap.contains_iff.mp hcontains), List.map_singleton,
          (Table.parts_of_not_mem hid).2.2]
    · rename_i hcontains
      cases hrun
      rw [run_remove, hlocate]
      dsimp only
      rw [if_neg hcontains]
  · cases hrun

theorem exists_names_of_run_copy (hrun : (copy source target).run s = (.ok updates, s')) :
    ∃ p q, s.settings.Names source p ∧ s.settings.Names target q := by
  cases hcopied : s.copied source target with
  | error fault =>
    rw [run_copy, hcopied] at hrun
    cases hrun
  | ok result =>
    obtain ⟨p, hp, hrest⟩ := Outcome.bind_eq_ok_iff.mp hcopied
    obtain ⟨q, hq, -⟩ := Outcome.bind_eq_ok_iff.mp hrest
    exact ⟨p, q, Settings.locate_eq_ok_iff.mp hp, Settings.locate_eq_ok_iff.mp hq⟩

theorem run_copy_again (hs : s.Sound) (hrun : (copy source target).run s = (.ok updates, s')) :
    (copy source target).run s' = (.ok updates, s') := by
  obtain ⟨p, q, hsource, htarget⟩ := exists_names_of_run_copy hrun
  obtain ⟨sourceId, hsourceId⟩ := hsource.named.exists_id
  obtain ⟨id, hid⟩ := htarget.named.exists_id
  obtain ⟨-, hsettings⟩ := run_copy_sound hs hrun
  have hsource' : s'.settings.Names source p := hsettings ▸ hsource
  have htarget' : s'.settings.Names target q := hsettings ▸ htarget
  -- the second time the source has what it had the first time, even where it is the target
  cases hf : s.table.formula? sourceId with
  | none =>
    rw [run_copy_of_empty hsource hsourceId htarget hid hf] at hrun
    have hnone : s'.table.formula? sourceId = none := by
      obtain ⟨_, _, -, -, heffect, -⟩ := effect_of_remove hs hrun
      rw [heffect.formula?, hf, ite_self]
    rw [run_copy_of_empty hsource' hsourceId htarget' hid hnone]
    exact run_remove_again hs hrun
  | some f =>
    have hkept : s'.table.formula? sourceId = some f := by
      rw [(formula?_of_copy hs hsource hsourceId htarget hid hf hrun).2, hf, ite_self]
    rw [run_copy_of_formula hsource hsourceId htarget hid hf] at hrun
    rw [run_copy_of_formula hsource' hsourceId htarget' hid hkept]
    cases hwrite : f.write q with
    | error fault =>
      rw [hwrite] at hrun
      cases hrun
    | ok text =>
      rw [hwrite] at hrun
      exact run_evaluate_again hs hrun

/-- **Edits of a reachable sheet are idempotent.** An edit that goes through goes through again at
once, with the same report, and leaves the sheet as it is: the same cells in the order of their
creation, each with the same text, formula, value and dependents. -/
theorem run_edits_again (name : String) (settings : Settings) (requests : List Request) :
    let s := (empty name settings).after requests
    (∀ cell expr updates s', (evaluate cell expr).run s = (.ok updates, s') →
      (evaluate cell expr).run s' = (.ok updates, s')) ∧
    (∀ cell updates s', (remove cell).run s = (.ok updates, s') →
      (remove cell).run s' = (.ok updates, s')) ∧
    ∀ source target updates s', (copy source target).run s = (.ok updates, s') →
      (copy source target).run s' = (.ok updates, s') := by
  intro s
  have hs : s.Sound := ((sound_empty name settings).after requests).1
  exact ⟨fun _ _ _ _ ↦ run_evaluate_again hs, fun _ _ _ ↦ run_remove_again hs,
    fun _ _ _ _ ↦ run_copy_again hs⟩

/-- The cell `a1` reads `b1` and `c1`. A new formula in `b1`, the copy of `a1` onto itself, and
taking the formula out of `b1` all leave a record behind. The record of `a1` goes when an empty
cell is copied there. -/
theorem run_edits_again_read :
    let s := (empty "s" .standard).after [.evaluate "b1" "2", .evaluate "a1" "b1+c1"]
    (∃ s', (evaluate "B1" " c1+3 ").run s = (.ok [("b1", 3.0), ("a1", 3.0)], s') ∧
      (evaluate "B1" " c1+3 ").run s' = (.ok [("b1", 3.0), ("a1", 3.0)], s')) ∧
    (∃ s', (remove "b1").run s = (.ok [("b1", 0.0), ("a1", 0.0)], s') ∧
      (remove "b1").run s' = (.ok [("b1", 0.0), ("a1", 0.0)], s')) ∧
    (∃ s', (copy "a1" "a1").run s = (.ok [("a1", 2.0)], s') ∧
      (copy "a1" "a1").run s' = (.ok [("a1", 2.0)], s')) ∧
    ∃ s', (copy "d4" "a1").run s = (.ok [("a1", 0.0)], s') ∧
      (copy "d4" "a1").run s' = (.ok [("a1", 0.0)], s') := by
  intro s
  obtain ⟨hevaluates, hremoves, hcopies⟩ :=
    run_edits_again "s" .standard [.evaluate "b1" "2", .evaluate "a1" "b1+c1"]
  have hevaluate : (evaluate "B1" " c1+3 ").run s
      = (.ok [("b1", 3.0), ("a1", 3.0)], ((evaluate "B1" " c1+3 ").run s).2) :=
    Prod.ext (by decide +kernel) rfl
  have hremove : (remove "b1").run s
      = (.ok [("b1", 0.0), ("a1", 0.0)], ((remove "b1").run s).2) :=
    Prod.ext (by decide +kernel) rfl
  have hcopy : (copy "a1" "a1").run s = (.ok [("a1", 2.0)], ((copy "a1" "a1").run s).2) :=
    Prod.ext (by decide +kernel) rfl
  have hempty : (copy "d4" "a1").run s = (.ok [("a1", 0.0)], ((copy "d4" "a1").run s).2) :=
    Prod.ext (by decide +kernel) rfl
  exact ⟨⟨_, hevaluate, hevaluates _ _ _ _ hevaluate⟩, ⟨_, hremove, hremoves _ _ _ hremove⟩,
    ⟨_, hcopy, hcopies _ _ _ _ hcopy⟩, _, hempty, hcopies _ _ _ _ hempty⟩

end Sheet

end Spreadsheet
