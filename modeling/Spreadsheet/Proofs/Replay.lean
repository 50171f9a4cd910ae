import Spreadsheet.Proofs.Alike

/-!
# Making a sheet anew

The texts of a sound sheet make the sheet: evaluating them in a new one, in any order at all, never
fails, and ends with the same texts and so with the same records. With what is known of listings
this says that a sheet can be listed and replayed without loss.

A sheet on the way is part of the sheet that it is to become (`Part`). It reads no cell that the
finished sheet does not read as well, so no text closes a circle on the way. Values on the way can
be any number of evaluations away from those of the finished sheet. Nothing has to be said about
them, because texts determine them in the end.
-/

namespace Spreadsheet

open Relation Text Workbook

namespace Sheet

variable {s u goal : Sheet} {cell id expr : String} {f : Formula} {entries rows : List Entry}

theorem Sound.accept_text (hs : s.Sound) (hf : s.table.formula? id = some f)
    (hexpr : strip expr = s.table.text id) :
    ∃ base, s.settings.accept id expr = .ok (id, f, base) ∧ Position.read id = .ok base := by
  obtain ⟨base, hid, hbase, hbounds, hread⟩ := Table.Sound.exists_base hs hf
  have hstrip : strip (s.table.text id) = s.table.text id := (hs.spells id f hf).2.1
  refine ⟨base, Settings.accept_eq_ok_iff.mpr ⟨(Settings.names_id_iff hid).mpr hbounds, ?_⟩, hbase⟩
  rw [hexpr]
  exact ⟨hid, hbounds, hstrip, hread, Table.Sound.covers hs hf hbase⟩

/-! ## Sheets on the way -/

/-- A sheet has some of the texts of another one, and none besides. -/
structure Part (s goal : Sheet) : Prop where
  sound : s.Sound
  settings : s.settings = goal.settings
  text : ∀ x, s.table.text x = "" ∨ s.table.text x = goal.table.text x

theorem part_empty (name : String) (goal : Sheet) : (empty name goal.settings).Part goal :=
  ⟨sound_empty name goal.settings, rfl, fun _ ↦ Or.inl rfl⟩

namespace Part

variable (h : s.Part goal) (hgoal : goal.Sound)

include h hgoal

theorem formula?_eq {x : String} {f : Formula} (hf : s.table.formula? x = some f) :
    goal.table.formula? x = some f := by
  obtain ⟨hne, -, base, hbase, hread⟩ := h.sound.spells x f hf
  have htext : s.table.text x = goal.table.text x := (h.text x).resolve_left hne
  cases hg : goal.table.formula? x with
  | none =>
    rw [htext] at hne
    exact absurd (hgoal.bare x hg).1 hne
  | some g =>
    obtain ⟨-, -, base', hbase', hread'⟩ := hgoal.spells x g hg
    rw [hbase, Except.ok.injEq] at hbase'
    rw [← hbase', ← htext, hread, Except.ok.injEq] at hread'
    rw [hread']

theorem reads {x y : String} (hreads : s.table.Reads y x) : goal.table.Reads y x := by
  obtain ⟨f, base, hf, hbase, hx⟩ := hreads
  exact ⟨f, base, h.formula?_eq hgoal hf, hbase, hx⟩

/-- **Every text of the finished sheet goes in at any time.** -/
theorem exists_evaluate {x : String} (hx : goal.table.text x ≠ "") :
    ∃ updates s', (evaluate x (goal.table.text x)).run s = (.ok updates, s') ∧ s'.Part goal ∧
      ∀ y, s'.table.text y = if y = x then goal.table.text x else s.table.text y := by
  obtain ⟨f, hf⟩ := hgoal.text_ne_empty_iff.mp hx
  have hstrip : strip (goal.table.text x) = goal.table.text x := (hgoal.spells x f hf).2.1
  obtain ⟨base, haccept, hbase⟩ := hgoal.accept_text hf hstrip
  rw [← h.settings] at haccept
  have hno : ¬ s.table.Closes x f base := by
    -- a circle on the way would be a circle of the finished sheet
    rintro ⟨y, hy, hpath⟩
    have hmono : (fun y z ↦ y ≠ x ∧ s.table.Reads y z) ≤ goal.table.Reads := fun y z hyz ↦
      h.reads hgoal hyz.2
    exact hgoal.acyclic x (.head' ⟨f, base, hf, hbase, hy⟩ (ReflTransGen.mono hmono y x hpath))
  obtain ⟨updates, t, hrun, hedited⟩ := Sheet.exists_evaluate h.sound haccept hno
  rw [hstrip] at hedited
  refine ⟨updates, _, hrun, ⟨hedited.sound, h.settings, fun y ↦ ?_⟩, hedited.text⟩
  rw [hedited.text]
  split
  · rename_i hy
    exact Or.inr (by rw [hy])
  · exact h.text y

end Part

/-! ## Replaying -/

/-- The entries are the formula texts of a sheet. -/
def Lists (s : Sheet) (entries : List Entry) : Prop :=
  ∀ x expr, (x, expr) ∈ entries ↔ expr ≠ "" ∧ s.table.text x = expr

theorem Lists.perm (h : s.Lists entries) (hrows : rows.Perm entries) : s.Lists rows :=
  fun x expr ↦ hrows.mem_iff.trans (h x expr)

theorem lists_of_dump (hs : s.Sound) (h : s.dump = .ok entries) : s.Lists entries := by
  obtain ⟨ids, -, hmem, -, hdump, -⟩ := hs.exists_dump
  rw [h, Except.ok.injEq] at hdump
  intro x expr
  rw [hdump, List.mem_map]
  constructor
  · rintro ⟨y, hy, heq⟩
    cases heq
    exact ⟨(hmem x).mp hy, rfl⟩
  · rintro ⟨hne, rfl⟩
    exact ⟨x, (hmem x).mpr hne, rfl⟩

theorem Lists.text_eq (hs : s.Lists entries) (hu : u.Lists entries) :
    s.table.text = u.table.text := by
  funext x
  by_cases hx : s.table.text x = ""
  · by_contra hne
    have hux : u.table.text x ≠ "" := fun heq ↦ hne (hx.trans heq.symm)
    exact hne ((hs x _).mp ((hu x _).mpr ⟨hux, rfl⟩)).2
  · exact ((hu x _).mp ((hs x _).mpr ⟨hx, rfl⟩)).2.symm

theorem run_evaluateAll_cons (cell expr : String) (rest : List Entry) (s : Sheet) :
    (evaluateAll ((cell, expr) :: rest)).run s = match (evaluate cell expr).run s with
      | (.ok _, s') => (evaluateAll rest).run s'
      | (.error fault, s') => (.error fault, s') := by
  rw [evaluateAll, List.forM_eq_forM, List.forM_cons, Action.run_bind, Action.run_bind]
  obtain ⟨_ | updates, s'⟩ := (evaluate cell expr).run s <;> rfl

theorem Part.exists_evaluateAll (h : s.Part goal) (hgoal : goal.Sound)
    (hrows : ∀ e ∈ rows, e.2 ≠ "" ∧ goal.table.text e.1 = e.2) :
    ∃ s', (evaluateAll rows).run s = (.ok (), s') ∧ s'.Part goal ∧
      ∀ x, s'.table.text x
        = if x ∈ rows.map Prod.fst then goal.table.text x else s.table.text x := by
  induction rows generalizing s with
  | nil => exact ⟨s, rfl, h, fun x ↦ rfl⟩
  | cons e rest ih =>
    obtain ⟨cell, expr⟩ := e
    obtain ⟨⟨hne, hexpr⟩, hrest⟩ := List.forall_mem_cons.mp hrows
    dsimp only at hne hexpr
    subst hexpr
    obtain ⟨updates, mid, hrun, hpart, hmid⟩ := h.exists_evaluate hgoal hne
    obtain ⟨s', hrun', hpart', htext⟩ := ih hpart hrest
    refine ⟨s', ?_, hpart', fun x ↦ ?_⟩
    · rw [run_evaluateAll_cons, hrun]
      exact hrun'
    · rw [htext, hmid]
      by_cases hx : x = cell
      · simp [hx]
      · have hmem : x ∈ ((cell, goal.table.text cell) :: rest).map Prod.fst ↔
            x ∈ rest.map Prod.fst := by
          rw [List.map_cons, List.mem_cons, or_iff_right hx]
        rw [if_neg hx, if_congr hmem rfl rfl]

/-- **The texts of a sound sheet make it anew, in any order.** -/
theorem exists_evaluateAll (name : String) (hgoal : goal.Sound) (hrows : goal.Lists rows) :
    ∃ made, (evaluateAll rows).run (empty name goal.settings) = (.ok (), made) ∧ made.Sound ∧
      made.Alike goal := by
  obtain ⟨made, hrun, hpart, htext⟩ :=
    (part_empty name goal).exists_evaluateAll hgoal fun e he ↦ (hrows e.1 e.2).mp he
  refine ⟨made, hrun, hpart.sound, hpart.settings, funext fun x ↦ ?_⟩
  rw [htext]
  split
  · rfl
  · rename_i hx
    by_contra hne
    have hgoalx : goal.table.text x ≠ "" := fun heq ↦ hne heq.symm
    exact hx (List.mem_map_of_mem ((hrows x _).mpr ⟨hgoalx, rfl⟩))

theorem foldlM_absorb {made : Sheet} (h : (evaluateAll rows).run s = (.ok (), made)) :
    rows.foldlM absorb s = .ok made := by
  induction rows generalizing s with
  | nil =>
    cases h
    rfl
  | cons e rest ih =>
    rw [run_evaluateAll_cons] at h
    split at h
    · rename_i updates s' hrun
      have habsorb : absorb s e = .ok s' := by rw [absorb, hrun]
      rw [List.foldlM_cons, habsorb]
      exact ih h
    · cases h

/-- **Replaying a reachable sheet gives the same sheet.** It can be listed, its rows in
any order make a sheet with the same listing, values included, and so does every other way
to get the same rows. -/
theorem dumpValues_of_replay (name : String) (settings : Settings) (requests : List Request) :
    ∃ entries values, ((empty name settings).after requests).dump = .ok entries ∧
      ((empty name settings).after requests).dumpValues = .ok values ∧
      (∀ (rows : List Entry) (other : String), rows.Perm entries →
        ∃ made, (evaluateAll rows).run (empty other settings) = (.ok (), made) ∧
          made.dumpValues = .ok values) ∧
      ∀ (others : List Request) (other : String) (rows : List Entry), rows.Perm entries →
        ((empty other settings).after others).dump = .ok rows →
        ((empty other settings).after others).dumpValues = .ok values := by
  obtain ⟨hs, hsettings⟩ : ((empty name settings).after requests).Sound ∧
    ((empty name settings).after requests).settings = settings :=
    (sound_empty name settings).after requests
  obtain ⟨ids, -, -, -, hdump, hvalues⟩ := hs.exists_dump
  have hlists := lists_of_dump hs hdump
  refine ⟨_, _, hdump, hvalues, fun rows other hperm ↦ ?_, fun others other rows hperm hrows ↦ ?_⟩
  · obtain ⟨made, hrun, hmade, halike⟩ := exists_evaluateAll other hs (hlists.perm hperm)
    rw [hsettings] at hrun
    exact ⟨made, hrun, (halike.dump_eq hmade hs).2.trans hvalues⟩
  · obtain ⟨hu, hsettings'⟩ : ((empty other settings).after others).Sound ∧
      ((empty other settings).after others).settings = settings :=
      (sound_empty other settings).after others
    have halike :
        ((empty other settings).after others).Alike ((empty name settings).after requests) :=
      ⟨hsettings'.trans hsettings.symm, (lists_of_dump hu hrows).text_eq (hlists.perm hperm)⟩
    exact (halike.dump_eq hu hs).2.trans hvalues

/-- A cell that reads another one is listed after it, and is evaluated first when the rows are
replayed backwards. -/
theorem dumpValues_of_replay_reverse :
    ∃ entries values,
      ((empty "s" .standard).after [.evaluate "b1" "2", .evaluate "a1" "b1+1"]).dump = .ok entries ∧
      ((empty "s" .standard).after [.evaluate "b1" "2", .evaluate "a1" "b1+1"]).dumpValues
        = .ok values ∧
      entries.reverse.Perm entries ∧
      ∃ made, (evaluateAll entries.reverse).run (empty "t" .standard) = (.ok (), made) ∧
        made.dumpValues = .ok values := by
  obtain ⟨entries, values, hdump, hvalues, hreplay, -⟩ :=
    dumpValues_of_replay "s" .standard [.evaluate "b1" "2", .evaluate "a1" "b1+1"]
  have hperm : entries.reverse.Perm entries := List.reverse_perm entries
  exact ⟨entries, values, hdump, hvalues, hperm, hreplay entries.reverse "t" hperm⟩

end Sheet

end Spreadsheet
