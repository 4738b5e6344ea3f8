import Mathlib.Data.Set.Insert
import Messenger.Lib.Table

/-! What a table shows through a view of its rows, and what the statements do to that. -/

namespace Table

variable {ρ κ α : Type*} {key : ρ → κ} {t t' : Table ρ key} {view : ρ → Option α}

def shown (t : Table ρ key) (view : ρ → Option α) : Set α := {a | ∃ r ∈ t.rows, view r = some a}

theorem shown_empty : (empty : Table ρ key).shown view = ∅ := by
  refine Set.eq_empty_iff_forall_notMem.mpr ?_
  rintro a ⟨r, hr, -⟩
  cases hr

theorem shown_of_kept {P : ρ → Prop} {K : α → Prop} (hrows : ∀ r, r ∈ t'.rows ↔ r ∈ t.rows ∧ P r)
    (hview : ∀ r a, view r = some a → (P r ↔ K a)) : t'.shown view = {a ∈ t.shown view | K a} := by
  ext a
  constructor
  · rintro ⟨r, hr, ha⟩
    obtain ⟨hold, hkept⟩ := (hrows r).mp hr
    exact ⟨⟨r, hold, ha⟩, (hview r a ha).mp hkept⟩
  · rintro ⟨⟨r, hold, ha⟩, hkept⟩
    exact ⟨r, (hrows r).mpr ⟨hold, (hview r a ha).mpr hkept⟩, ha⟩

theorem shown_deleteWhere {p : ρ → Bool} {K : α → Prop}
    (hview : ∀ r a, view r = some a → (p r = false ↔ K a)) :
    (t.deleteWhere p).shown view = {a ∈ t.shown view | K a} := by
  refine shown_of_kept (P := fun r => p r = false) (fun r => ?_) hview
  rw [deleteWhere, List.mem_filter, Bool.not_eq_true']

theorem shown_updateWhere {p : ρ → Bool} {f : ρ → ρ} (hf : ∀ r, key (f r) = key r) :
    (t.updateWhere p f hf).shown view = t.shown fun r => view (if p r then f r else r) := by
  ext a
  constructor
  · rintro ⟨r', hr', ha⟩
    obtain ⟨r, hr, rfl⟩ := List.mem_map.mp hr'
    exact ⟨r, hr, ha⟩
  · rintro ⟨r, hr, ha⟩
    exact ⟨_, List.mem_map_of_mem hr, ha⟩

theorem shown_updateWhere_of_eq {p : ρ → Bool} {f : ρ → ρ} (hf : ∀ r, key (f r) = key r)
    (hview : ∀ r, view (f r) = view r) : (t.updateWhere p f hf).shown view = t.shown view := by
  have hsame : (fun r => view (if p r then f r else r)) = view := by
    funext r
    split
    · exact hview r
    · rfl
  rw [shown_updateWhere, hsame]

variable [DecidableEq κ] {r : ρ}

theorem shown_insertNew {a : α} (hfresh : t.get? (key r) = none) (ha : view r = some a) :
    (t.insertNew r).shown view = insert a (t.shown view) := by
  ext b
  simp only [shown, rows_insertNew hfresh, List.mem_append, List.mem_singleton, Set.mem_insert_iff]
  constructor
  · rintro ⟨r', hold | rfl, hb⟩
    · exact .inr ⟨r', hold, hb⟩
    · exact .inl (Option.some.inj (hb.symm.trans ha))
  · rintro (rfl | ⟨r', hold, hb⟩)
    · exact ⟨r, .inr rfl, ha⟩
    · exact ⟨r', .inl hold, hb⟩

theorem shown_insertNew_of_none (hr : view r = none) : (t.insertNew r).shown view = t.shown view := by
  ext a
  constructor
  · rintro ⟨r', hr', ha⟩
    rcases mem_of_mem_insertNew hr' with hold | rfl
    · exact ⟨r', hold, ha⟩
    · exact absurd (hr.symm.trans ha) nofun
  · rintro ⟨r', hold, ha⟩
    exact ⟨r', mem_insertNew_of_mem hold, ha⟩

end Table
