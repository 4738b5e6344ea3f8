import Mathlib.Data.Multiset.AddSub
import Messenger.Lib.Transition
import Messenger.Redis.Queries

/-! `add_active_user` and `remove_active_user` one Redis command at a time. A removal whose decrement
leaves nothing deletes the field in a second command, and an increment that comes between the two is
deleted with it. -/

namespace Messenger
open Transition

inductive CounterTask where
  | increment (u : UUID)
  | decrement (u : UUID)
  | delete (u : UUID)
  deriving DecidableEq

/-- The hash, the calls in progress, and for each user how many additions and removals have returned
and how many removals have begun. -/
structure Counter where
  counts : ActiveUserCounts := .empty
  tasks : Multiset CounterTask := 0
  added : UUID → ℕ := fun _ => 0
  begun : UUID → ℕ := fun _ => 0
  removed : UUID → ℕ := fun _ => 0

inductive CounterAct where
  | beginAdd (u : UUID)
  | beginRemove (u : UUID)
  | run (task : CounterTask)

namespace Counter

def bump (f : UUID → ℕ) (u : UUID) : UUID → ℕ := Function.update f u (f u + 1)

/-- One command. The call returns with it, unless a decrement leaves the field to be deleted. -/
def exec (s : Counter) (task : CounterTask) : Counter :=
  let tasks := s.tasks.erase task
  match task with
  | .increment u => { s with counts := addActiveUser s.counts u, tasks, added := bump s.added u }
  | .decrement u =>
    let (count, counts) := s.counts.hincrby u (-1)
    if count ≤ 0 then { s with counts, tasks := .delete u ::ₘ tasks }
    else { s with counts, tasks, removed := bump s.removed u }
  | .delete u => { s with counts := s.counts.hdel u, tasks, removed := bump s.removed u }

/-- Every removal has a completed addition of its own before it. -/
def step (s : Counter) : CounterAct → Option Counter
  | .beginAdd u => some { s with tasks := .increment u ::ₘ s.tasks }
  | .beginRemove u =>
    if s.begun u < s.added u then
      some { s with tasks := .decrement u ::ₘ s.tasks, begun := bump s.begun u }
    else none
  | .run task => if task ∈ s.tasks then some (s.exec task) else none

/-- Whenever no call is in progress, the field tells additions minus removals. -/
def Exact (s : Counter) : Prop :=
  s.tasks = 0 → ∀ u, s.counts u =
    if s.added u = s.removed u then none else some ((s.added u : ℤ) - s.removed u)

/-- A field is deleted only while it says that no connection remains. -/
def DeletesEmpty (s : Counter) : CounterAct → Prop
  | .run (.delete u) => (s.counts u).getD 0 ≤ 0
  | _ => True

instance (s : Counter) (a : CounterAct) : Decidable (s.DeletesEmpty a) := by
  unfold DeletesEmpty
  split <;> infer_instance

/-- The value of a field is what the finished commands make of it; a removal between its two
commands has already counted. -/
structure Balanced (s : Counter) (u : UUID) : Prop where
  value : (s.counts u).getD 0 = s.added u - s.removed u - s.tasks.count (.delete u)
  begun : s.begun u = s.removed u + s.tasks.count (.decrement u) + s.tasks.count (.delete u)
  covered : s.begun u ≤ s.added u
  zero : s.counts u = some 0 → .delete u ∈ s.tasks

variable {s s' : Counter} {a : CounterAct} {u v : UUID}

@[simp] theorem bump_self {f : UUID → ℕ} : bump f u u = f u + 1 := Function.update_self ..

theorem bump_of_ne {f : UUID → ℕ} (h : v ≠ u) : bump f u v = f v := Function.update_of_ne h ..

theorem balanced_init : Balanced {} u where
  value := rfl
  begun := rfl
  covered := Nat.le_refl 0
  zero h := by cases h

theorem Balanced.nonneg (hb : Balanced s u) : 0 ≤ (s.counts u).getD 0 := by
  have hbegun := hb.begun
  have hcovered := hb.covered
  rw [hb.value]
  omega

theorem Balanced.congr (hb : Balanced s v) (hcounts : s'.counts v = s.counts v)
    (hadded : s'.added v = s.added v) (hbegun : s'.begun v = s.begun v)
    (hremoved : s'.removed v = s.removed v)
    (hdec : s'.tasks.count (.decrement v) = s.tasks.count (.decrement v))
    (hdel : s'.tasks.count (.delete v) = s.tasks.count (.delete v)) : Balanced s' v where
  value := by rw [hcounts, hadded, hremoved, hdel, hb.value]
  begun := by rw [hbegun, hremoved, hdec, hdel, hb.begun]
  covered := by rw [hbegun, hadded]; exact hb.covered
  zero h := by
    rw [hcounts] at h
    have hmem := Multiset.count_pos.mpr (hb.zero h)
    rw [← hdel] at hmem
    exact Multiset.count_pos.mp hmem

theorem Balanced.increment (hb : Balanced s v) :
    Balanced (s.exec (.increment u)) v := by
  have hdec : (s.tasks.erase (.increment u)).count (.decrement v) = s.tasks.count (.decrement v) :=
    Multiset.count_erase_of_ne (by simp) _
  have hdel : (s.tasks.erase (.increment u)).count (.delete v) = s.tasks.count (.delete v) :=
    Multiset.count_erase_of_ne (by simp) _
  by_cases hvu : v = u
  · subst hvu
    have hvalue := hb.value
    refine ⟨?_, hb.begun.trans (by rw [← hdec, ← hdel]; rfl), ?_, fun h => ?_⟩
    · simp only [exec, ActiveUserCounts.addActiveUser_self, bump_self, hdel, Option.getD_some]
      omega
    · exact hb.covered.trans (by simp [exec])
    · -- an incremented field is positive
      have hpos := hb.nonneg
      have hzero : (s.counts v).getD 0 + 1 = 0 := by
        simpa [exec, ActiveUserCounts.addActiveUser_self] using h
      omega
  · exact hb.congr (ActiveUserCounts.addActiveUser_of_ne hvu) (bump_of_ne hvu) rfl rfl hdec hdel

theorem Balanced.decrement (hb : Balanced s v) (hmem : .decrement u ∈ s.tasks) :
    Balanced (s.exec (.decrement u)) v := by
  have hdel : (s.tasks.erase (.decrement u)).count (.delete v) = s.tasks.count (.delete v) :=
    Multiset.count_erase_of_ne (by simp) _
  by_cases hvu : v = u
  · subst hvu
    have hdec : (s.tasks.erase (.decrement v)).count (.decrement v) + 1 =
        s.tasks.count (.decrement v) := by
      rw [Multiset.count_erase_self]
      have hpos := Multiset.count_pos.mpr hmem
      omega
    have hvalue := hb.value
    have hbegun := hb.begun
    have hself : (s.counts.hincrby v (-1)).2 v = some (s.counts.hincrby v (-1)).1 :=
      ActiveUserCounts.hincrby_self
    have hcount : (s.counts.hincrby v (-1)).1 = (s.counts v).getD 0 - 1 := rfl
    simp only [exec]
    split
    · -- the removal goes on with the deletion
      refine ⟨?_, ?_, hb.covered, fun _ => Multiset.mem_cons_self ..⟩
      · simp only [hself, Option.getD_some, Multiset.count_cons_self, hdel]
        omega
      · simp only [Multiset.count_cons_self, hdel, ne_eq, reduceCtorEq, not_false_eq_true,
          Multiset.count_cons_of_ne]
        omega
    · next hpos =>
      refine ⟨?_, ?_, hb.covered, fun h => ?_⟩
      · simp only [hself, Option.getD_some, bump_self, hdel]
        omega
      · simp only [bump_self, hdel]
        omega
      · have hzero : (s.counts.hincrby v (-1)).1 = 0 := Option.some.inj (hself.symm.trans h)
        omega
  · have hdec : (s.tasks.erase (.decrement u)).count (.decrement v) = s.tasks.count (.decrement v) :=
      Multiset.count_erase_of_ne (by simpa using hvu) _
    simp only [exec]
    split
    · refine hb.congr (ActiveUserCounts.hincrby_of_ne hvu) rfl rfl rfl ?_ ?_
      · rw [Multiset.count_cons_of_ne (by simp), hdec]
      · rw [Multiset.count_cons_of_ne (by simpa using hvu), hdel]
    · exact hb.congr (ActiveUserCounts.hincrby_of_ne hvu) rfl rfl (bump_of_ne hvu) hdec hdel

theorem Balanced.delete (hb : ∀ v, Balanced s v) (hempty : (s.counts u).getD 0 ≤ 0)
    (hmem : .delete u ∈ s.tasks) : Balanced (s.exec (.delete u)) v := by
  have hv := hb v
  have hdec : (s.tasks.erase (.delete u)).count (.decrement v) = s.tasks.count (.decrement v) :=
    Multiset.count_erase_of_ne (by simp) _
  by_cases hvu : v = u
  · subst hvu
    have hdel : (s.tasks.erase (.delete v)).count (.delete v) + 1 = s.tasks.count (.delete v) := by
      rw [Multiset.count_erase_self]
      have hpos := Multiset.count_pos.mpr hmem
      omega
    have hvalue := hv.value
    have hbegun := hv.begun
    have hnonneg := hv.nonneg
    -- the deleted field is at most 0, and no counter is negative
    refine ⟨?_, ?_, hv.covered, fun h => ?_⟩
    · simp only [exec, ActiveUserCounts.hdel_self, Option.getD_none, bump_self]
      omega
    · simp only [exec, bump_self, hdec]
      omega
    · cases (ActiveUserCounts.hdel_self (c := s.counts)).symm.trans h
  · have hdel : (s.tasks.erase (.delete u)).count (.delete v) = s.tasks.count (.delete v) :=
      Multiset.count_erase_of_ne (by simpa using hvu) _
    exact hv.congr (ActiveUserCounts.hdel_of_ne hvu) rfl rfl (bump_of_ne hvu) hdec hdel

theorem Balanced.step (hb : ∀ u, Balanced s u) (hG : DeletesEmpty s a) (hs : s.step a = some s') :
    ∀ u, Balanced s' u := by
  intro v
  have hv := hb v
  cases a with
  | beginAdd u =>
    obtain rfl := Option.some.inj hs
    exact hv.congr rfl rfl rfl rfl (by simp) (by simp)
  | beginRemove u =>
    simp only [Counter.step] at hs
    split at hs
    · next hlt =>
      obtain rfl := Option.some.inj hs
      by_cases hvu : v = u
      · subst hvu
        refine ⟨by simpa using hv.value, ?_, by simpa using Nat.succ_le_of_lt hlt,
          fun h => Multiset.mem_cons_of_mem (hv.zero h)⟩
        have hbegun := hv.begun
        simp only [bump_self, Multiset.count_cons_self, ne_eq, reduceCtorEq, not_false_eq_true,
          Multiset.count_cons_of_ne]
        omega
      · exact hv.congr rfl rfl (bump_of_ne hvu) rfl (by simp [hvu]) (by simp)
    · cases hs
  | run task =>
    simp only [Counter.step] at hs
    split at hs
    · next hmem =>
      obtain rfl := Option.some.inj hs
      cases task with
      | increment u => exact hv.increment
      | decrement u => exact hv.decrement hmem
      | delete u => exact Balanced.delete hb hG hmem
    · cases hs

theorem Balanced.exact (hb : ∀ u, Balanced s u) : Exact s := by
  intro hquiet u
  have hvalue := (hb u).value
  simp only [hquiet, Multiset.count_zero, Int.natCast_zero, sub_zero] at hvalue
  cases hc : s.counts u with
  | none =>
    rw [hc, Option.getD_none] at hvalue
    rw [if_pos (by omega)]
  | some n =>
    have hne : n ≠ 0 := by
      rintro rfl
      have hmem := (hb u).zero hc
      rw [hquiet] at hmem
      exact Multiset.notMem_zero _ hmem
    rw [hc, Option.getD_some] at hvalue
    rw [if_neg (by omega), hvalue]

/-- In a run in which fields are deleted only while they are not positive, the counter is exact
whenever no call is in progress. -/
theorem presence_counter_exact (acts : List CounterAct) (s : Counter)
    (hG : Guarded step DeletesEmpty {} acts) (hs : run step {} acts = some s) : Exact s :=
  Balanced.exact (Guarded.induction (I := fun s => ∀ u, Balanced s u)
    (fun _ _ _ hb hG hs => Balanced.step hb hG hs) hG hs fun _ => balanced_init)

end Counter

namespace Sample

def bob : UUID := ⟨7⟩

def connected : List CounterAct := [.beginAdd bob, .run (.increment bob)]

def disconnecting : List CounterAct := [.beginRemove bob, .run (.decrement bob)]

def disconnectingBoth : List CounterAct :=
  [.beginRemove bob, .beginRemove bob, .run (.decrement bob), .run (.decrement bob)]

def deletion : List CounterAct := [.run (.delete bob)]

end Sample

/-- Two connections of one user close at the same time. -/
theorem presence_counter_exact_emptied :
    ∃ s, run Counter.step {}
        (Sample.connected ++ Sample.connected ++ Sample.disconnectingBoth ++ Sample.deletion) = some s ∧
      s.tasks = 0 ∧ s.removed Sample.bob = 2 ∧ s.Exact := by
  obtain ⟨s, hs, hquiet, hremoved⟩ :
      ∃ s ∈ run Counter.step {}
        (Sample.connected ++ Sample.connected ++ Sample.disconnectingBoth ++ Sample.deletion),
        s.tasks = 0 ∧ s.removed Sample.bob = 2 := by decide
  exact ⟨s, hs, hquiet, hremoved, Counter.presence_counter_exact _ s (by decide) hs⟩

/-- The user connects again between the two commands of a removal: the new connection is deleted. -/
theorem not_exact_reconnect :
    ∃ s, run Counter.step {}
        (Sample.connected ++ Sample.disconnecting ++ Sample.connected ++ Sample.deletion) = some s ∧
      ¬ s.Exact := by
  obtain ⟨s, hs, hquiet, hadded, hremoved, hnone⟩ :
      ∃ s ∈ run Counter.step {}
        (Sample.connected ++ Sample.disconnecting ++ Sample.connected ++ Sample.deletion),
        s.tasks = 0 ∧ s.added Sample.bob = 2 ∧ s.removed Sample.bob = 1 ∧ s.counts Sample.bob = none := by
    decide
  refine ⟨s, hs, fun hexact => ?_⟩
  have hfield := hexact hquiet Sample.bob
  rw [hadded, hremoved, hnone] at hfield
  cases hfield

end Messenger
