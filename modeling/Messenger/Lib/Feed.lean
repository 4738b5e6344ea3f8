import Mathlib.Logic.Function.Basic
import Mathlib.Data.List.Basic

/-! An append-only log and the readers that follow it. A reader takes the entries in the order of
the log; an entry it fails to handle is lost to it. -/

structure Feed (ω ε : Type*) where
  log : List ε
  position : ω → ℕ
  lost : ω → List ε
  bounded : ∀ w, position w ≤ log.length

namespace Feed

variable {ω ε : Type*}

def empty : Feed ω ε := ⟨[], fun _ => 0, fun _ => [], fun _ => Nat.le_refl 0⟩

/-- What `w` has not handled, whether it still will or not. -/
def unread (f : Feed ω ε) (w : ω) : List ε := f.lost w ++ f.log.drop (f.position w)

def publish (f : Feed ω ε) (e : ε) : Feed ω ε where
  log := f.log ++ [e]
  position := f.position
  lost := f.lost
  bounded w := by
    rw [List.length_append]
    exact Nat.le_add_right_of_le (f.bounded w)

variable [DecidableEq ω]

def advance (f : Feed ω ε) (w : ω) (h : f.position w < f.log.length) : Feed ω ε where
  log := f.log
  position := Function.update f.position w (f.position w + 1)
  lost := f.lost
  bounded w' := by
    by_cases hw : w' = w
    · subst hw
      rw [Function.update_self]
      exact h
    · rw [Function.update_of_ne hw]
      exact f.bounded w'

def read (f : Feed ω ε) (w : ω) : Option (ε × Feed ω ε) :=
  if h : f.position w < f.log.length then some (f.log[f.position w], f.advance w h) else none

def lose (f : Feed ω ε) (w : ω) : Option (Feed ω ε) :=
  (f.read w).map fun (e, f') => { f' with lost := Function.update f.lost w (f.lost w ++ [e]) }

variable {f f' : Feed ω ε} {w w' : ω} {e e' : ε}

omit [DecidableEq ω] in
@[simp] theorem unread_empty : (empty : Feed ω ε).unread w = [] := rfl

omit [DecidableEq ω] in
@[simp] theorem mem_unread_publish : e' ∈ (f.publish e).unread w ↔ e' ∈ f.unread w ∨ e' = e := by
  simp only [unread, publish, List.drop_append_of_le_length (f.bounded w), List.mem_append,
    List.mem_singleton, or_assoc]

theorem read_eq_some (hr : f.read w = some (e, f')) :
    ∃ h : f.position w < f.log.length, e = f.log[f.position w] ∧ f' = f.advance w h := by
  unfold read at hr
  split at hr
  · next h =>
    obtain ⟨rfl, rfl⟩ := Prod.mk.inj (Option.some.inj hr)
    exact ⟨h, rfl, rfl⟩
  · cases hr

omit [DecidableEq ω] in
theorem unread_eq (h : f.position w < f.log.length) :
    f.unread w = f.lost w ++ f.log[f.position w] :: f.log.drop (f.position w + 1) := by
  rw [unread, List.drop_eq_getElem_cons h]

theorem unread_advance_self (h : f.position w < f.log.length) :
    (f.advance w h).unread w = f.lost w ++ f.log.drop (f.position w + 1) := by
  simp only [unread, advance, Function.update_self]

theorem unread_advance_of_ne (h : f.position w < f.log.length) (hw : w' ≠ w) :
    (f.advance w h).unread w' = f.unread w' := by
  simp only [unread, advance, Function.update_of_ne hw]

/-- Reading takes one entry from one reader. -/
theorem mem_unread_of_read (hr : f.read w = some (e, f')) (he : e' ∈ f.unread w') :
    e' ∈ f'.unread w' ∨ w' = w ∧ e' = e := by
  obtain ⟨h, rfl, rfl⟩ := read_eq_some hr
  by_cases hw : w' = w
  · subst hw
    rw [unread_eq h, List.mem_append, List.mem_cons] at he
    rw [unread_advance_self, List.mem_append]
    tauto
  · rw [unread_advance_of_ne h hw]
    exact .inl he

theorem mem_unread_read (hr : f.read w = some (e, f')) : e ∈ f.unread w := by
  obtain ⟨h, rfl, rfl⟩ := read_eq_some hr
  rw [unread_eq h]
  exact List.mem_append_right _ (List.mem_cons_self ..)

/-- Nothing becomes unread by reading. -/
theorem mem_unread_before_read (hr : f.read w = some (e, f')) (he : e' ∈ f'.unread w') :
    e' ∈ f.unread w' := by
  obtain ⟨h, rfl, rfl⟩ := read_eq_some hr
  by_cases hw : w' = w
  · subst hw
    rw [unread_advance_self, List.mem_append] at he
    rw [unread_eq h, List.mem_append, List.mem_cons]
    tauto
  · rwa [unread_advance_of_ne h hw] at he

theorem unread_lose (hl : f.lose w = some f') : f'.unread w' = f.unread w' := by
  obtain ⟨⟨e, f₁⟩, hr, rfl⟩ := Option.map_eq_some_iff.mp hl
  obtain ⟨h, rfl, rfl⟩ := read_eq_some hr
  by_cases hw : w' = w
  · subst hw
    rw [unread_eq h]
    simp only [unread, advance, Function.update_self, List.append_assoc, List.singleton_append]
  · simp only [unread, advance, Function.update_of_ne hw]

/-- The entries that `w` has still to take, in their order. -/
def ahead (f : Feed ω ε) (w : ω) : List ε := f.log.drop (f.position w)

omit [DecidableEq ω] in
theorem ahead_publish : (f.publish e).ahead w = f.ahead w ++ [e] := by
  simp only [ahead, publish, List.drop_append_of_le_length (f.bounded w)]

theorem ahead_read (hr : f.read w = some (e, f')) :
    f.ahead w = e :: f'.ahead w ∧ ∀ w', w' ≠ w → f'.ahead w' = f.ahead w' := by
  obtain ⟨h, rfl, rfl⟩ := read_eq_some hr
  constructor
  · have hnext : (f.advance w h).ahead w = f.log.drop (f.position w + 1) := by
      simp only [ahead, advance, Function.update_self]
    rw [hnext, ahead, List.drop_eq_getElem_cons h]
  · intro w' hw
    simp only [ahead, advance, Function.update_of_ne hw]

theorem ahead_lose (hl : f.lose w = some f') :
    ∃ e, f.ahead w = e :: f'.ahead w ∧ ∀ w', w' ≠ w → f'.ahead w' = f.ahead w' := by
  obtain ⟨⟨e, f₁⟩, hr, rfl⟩ := Option.map_eq_some_iff.mp hl
  obtain ⟨hnext, hother⟩ := ahead_read hr
  exact ⟨e, hnext, hother⟩

end Feed
