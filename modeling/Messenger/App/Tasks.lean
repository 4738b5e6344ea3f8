import Mathlib.Data.Finset.Lattice.Fold
import Messenger.Redis.Listening

/-! Tasks of an event loop, `spawn_task` with the set that holds on to them until they are done, and what
`drain_background_tasks` waits for. -/

namespace Messenger

/-- A coroutine that has still to come back from these awaits, or has ended. -/
inductive TaskState (α : Type) where
  | pending (awaits : List α)
  | done (result : Except Interruption Unit)

def TaskState.isDone {α : Type} : TaskState α → Bool
  | pending _ => false
  | done _ => true

/-- `background` is `_background_tasks`. -/
structure Tasks (κ α : Type) where
  state : κ → Option (TaskState α) := fun _ => none
  background : Finset κ := ∅
  cancelRequested : Finset κ := ∅

namespace Tasks

variable {κ α : Type} [DecidableEq κ]

def set (s : Tasks κ α) (t : κ) (x : TaskState α) : Tasks κ α :=
  { s with state := Function.update s.state t (some x) }

def spawnTask (s : Tasks κ α) (t : κ) (awaits : List α) : Option (Tasks κ α) :=
  if (s.state t).isNone then
    some { s.set t (.pending awaits) with background := insert t s.background }
  else none

def resume (s : Tasks κ α) (t : κ) : Option (α × Tasks κ α) :=
  match s.state t with
  | some (.pending (a :: awaits)) => some (a, s.set t (.pending awaits))
  | _ => none

/-- The coroutine returns, or lets an exception through: at an await, or where it is cancelled. -/
def finish (s : Tasks κ α) (t : κ) (result : Except Interruption Unit) : Option (Tasks κ α) :=
  match s.state t, result with
  | some (.pending []), .ok _ | some (.pending _), .error .exception => some (s.set t (.done result))
  | some (.pending _), .error .cancelled =>
    if t ∈ s.cancelRequested then some (s.set t (.done result)) else none
  | _, _ => none

def isDone (s : Tasks κ α) (t : κ) : Bool := (s.state t).any TaskState.isDone

/-- The callback of a task that is done. -/
def handleCompletion (s : Tasks κ α) (t : κ) : Option (Tasks κ α) :=
  if s.isDone t ∧ t ∈ s.background then some { s with background := s.background.erase t } else none

/-- Those of a set that are not done: what `asyncio.wait` goes on waiting for, or gives up. -/
def unfinished (s : Tasks κ α) (ts : Finset κ) : Finset κ := ts.filter fun t => s.isDone t = false

def cancel (s : Tasks κ α) (ts : Finset κ) : Tasks κ α :=
  { s with cancelRequested := s.cancelRequested ∪ ts }

def Held (s : Tasks κ α) : Prop := ∀ t, (s.state t).isSome → s.isDone t = false → t ∈ s.background

structure Later (s s' : Tasks κ α) : Prop where
  spawned : ∀ t, (s.state t).isSome → (s'.state t).isSome
  done : ∀ t x, s.state t = some x → x.isDone → s'.state t = some x

variable {s s' : Tasks κ α} {t u : κ} {x : TaskState α} {a : α} {awaits : List α}
  {result : Except Interruption Unit}

omit [DecidableEq κ] in
theorem isDone_of_state (h : s.state t = some x) : s.isDone t = x.isDone := by
  rw [isDone, h, Option.any_some]

omit [DecidableEq κ] in
theorem Later.refl (s : Tasks κ α) : Later s s := ⟨fun _ h => h, fun _ _ h _ => h⟩

omit [DecidableEq κ] in
theorem Later.isDone (h : Later s s') (hdone : s.isDone t = true) : s'.isDone t = true := by
  obtain ⟨x, hx, hxdone⟩ : ∃ x, s.state t = some x ∧ x.isDone = true := by
    cases hx : s.state t with
    | none =>
      rw [Tasks.isDone, hx] at hdone
      cases hdone
    | some x => exact ⟨x, rfl, isDone_of_state hx ▸ hdone⟩
  rw [isDone_of_state (h.done t x hx hxdone)]
  exact hxdone

theorem set_state_self : (s.set t x).state t = some x := Function.update_self ..

theorem set_state_of_ne (h : u ≠ t) : (s.set t x).state u = s.state u := Function.update_of_ne h ..

theorem later_set (hpending : s.isDone t = false) : Later s (s.set t x) where
  spawned u hu := by
    rcases eq_or_ne u t with rfl | hne
    · rw [set_state_self, Option.isSome_some]
    · rwa [set_state_of_ne hne]
  done u y hu hy := by
    rcases eq_or_ne u t with rfl | hne
    · rw [isDone_of_state hu, hy] at hpending
      cases hpending
    · rwa [set_state_of_ne hne]

theorem Held.set (h : s.Held) (ht : t ∈ s.background) : (s.set t x).Held := by
  intro u hu hundone
  rcases eq_or_ne u t with rfl | hne
  · exact ht
  · rw [set_state_of_ne hne] at hu
    rw [Tasks.isDone, set_state_of_ne hne] at hundone
    exact h u hu hundone

omit [DecidableEq κ] in
theorem isDone_of_pending (h : s.state t = some (.pending awaits)) : s.isDone t = false :=
  isDone_of_state h

omit [DecidableEq κ] in
theorem isDone_of_none (h : s.state t = none) : s.isDone t = false := by
  rw [isDone, h, Option.any_none]

/-! ### One operation each -/

theorem spawnTask_eq_some (h : s.spawnTask t awaits = some s') :
    s.state t = none ∧ s' = { s.set t (.pending awaits) with background := insert t s.background } := by
  unfold spawnTask at h
  split at h
  · next hnone => exact ⟨Option.isNone_iff_eq_none.mp hnone, (Option.some.inj h).symm⟩
  · cases h

theorem resume_eq_some (h : s.resume t = some (a, s')) :
    ∃ awaits, s.state t = some (.pending (a :: awaits)) ∧ s' = s.set t (.pending awaits) := by
  unfold resume at h
  split at h
  · next a awaits hstate =>
    cases h
    exact ⟨awaits, hstate, rfl⟩
  · cases h

theorem finish_eq_some (h : s.finish t result = some s') :
    ∃ awaits, s.state t = some (.pending awaits) ∧ (result = .ok () → awaits = []) ∧
      s' = s.set t (.done result) := by
  unfold finish at h
  split at h
  · next hstate =>
    cases h
    exact ⟨[], hstate, fun _ => rfl, rfl⟩
  · next awaits hstate =>
    cases h
    exact ⟨awaits, hstate, nofun, rfl⟩
  · next awaits hstate =>
    split at h
    · cases h
      exact ⟨awaits, hstate, nofun, rfl⟩
    · cases h
  · cases h

theorem handleCompletion_eq_some (h : s.handleCompletion t = some s') :
    s.isDone t = true ∧ s' = { s with background := s.background.erase t } := by
  unfold handleCompletion at h
  split at h
  · next hdone => exact ⟨hdone.1, (Option.some.inj h).symm⟩
  · cases h

theorem Held.handleCompletion (h : s.Held) (hs : s.handleCompletion t = some s') : s'.Held := by
  obtain ⟨hdone, rfl⟩ := handleCompletion_eq_some hs
  intro u hu hundone
  have hne : u ≠ t := by
    rintro rfl
    exact absurd hdone (Bool.eq_false_iff.mp hundone)
  exact Finset.mem_erase.mpr ⟨hne, h u hu hundone⟩

theorem Held.spawnTask (h : s.Held) (hs : s.spawnTask t awaits = some s') : s'.Held := by
  obtain ⟨-, rfl⟩ := spawnTask_eq_some hs
  intro u hu hundone
  rcases eq_or_ne u t with rfl | hne
  · exact Finset.mem_insert_self ..
  · refine Finset.mem_insert_of_mem (h u ?_ ?_)
    · exact (congrArg Option.isSome (set_state_of_ne hne)).symm.trans hu
    · exact (congrArg (Option.any TaskState.isDone) (set_state_of_ne hne)).symm.trans hundone

omit [DecidableEq κ] in
theorem Held.mem_unfinished (h : s.Held) (hspawned : (s.state t).isSome) :
    t ∉ s.unfinished s.background ↔ s.isDone t = true := by
  rw [unfinished, Finset.mem_filter, not_and, Bool.not_eq_false]
  constructor
  · intro hnot
    by_contra hundone
    have hundone : s.isDone t = false := Bool.eq_false_iff.mpr hundone
    exact absurd (hnot (h t hspawned hundone)) (Bool.eq_false_iff.mp hundone)
  · exact fun hdone _ => hdone

end Tasks
end Messenger
