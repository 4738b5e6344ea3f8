import Mathlib.Data.Multiset.Bind
import Messenger.Lib.Transition

/-! Branches that run at the same time, and start jobs that run at the same time, as with an
`asyncio.gather` in the coroutines of another. The scheduler picks what goes on. -/

open Transition

structure FanOut (β α ε : Type) where
  /-- The branches that have not begun, and the jobs that have been created and have not. -/
  branches : Multiset β
  waiting : Multiset α := 0
  running : Multiset α := 0
  /-- The jobs that have begun, whether or not they have ended. -/
  begun : Multiset α := 0
  /-- What the first job that failed has raised. -/
  raised : Option ε := none

inductive FanOutAct (β α ε : Type) where
  | expand (b : β)
  | begin (a : α)
  | finish (a : α) (r : Except ε Unit)

namespace FanOut

variable {β α ε : Type} [DecidableEq β] [DecidableEq α] (jobs : β → Multiset α)

def step (s : FanOut β α ε) : FanOutAct β α ε → Option (FanOut β α ε)
  | .expand b =>
    if b ∈ s.branches then
      some { s with branches := s.branches.erase b, waiting := jobs b + s.waiting }
    else none
  | .begin a =>
    if a ∈ s.waiting then
      some { s with waiting := s.waiting.erase a, running := a ::ₘ s.running, begun := a ::ₘ s.begun }
    else none
  | .finish a r =>
    if a ∈ s.running then
      some { s with
        running := s.running.erase a
        raised := s.raised.or (match r with | .ok _ => none | .error e => some e) }
    else none

def Done (s : FanOut β α ε) : Prop := s.branches = 0 ∧ s.waiting = 0 ∧ s.running = 0

instance (s : FanOut β α ε) : Decidable s.Done := inferInstanceAs (Decidable (_ ∧ _))

def total (s : FanOut β α ε) : Multiset α := s.branches.bind jobs + s.waiting + s.begun

def left (s : FanOut β α ε) : ℕ :=
  Multiset.card s.branches + 2 * Multiset.card (s.branches.bind jobs + s.waiting) +
    Multiset.card s.running

variable {jobs} {s s' : FanOut β α ε} {a : FanOutAct β α ε}

theorem total_step (h : s.step jobs a = some s') : s'.total jobs = s.total jobs := by
  cases a with
  | expand b =>
    simp only [step] at h
    split at h
    · next hb =>
      cases h
      have hbind : s.branches.bind jobs = jobs b + (s.branches.erase b).bind jobs := by
        rw [← Multiset.cons_bind, Multiset.cons_erase hb]
      show (s.branches.erase b).bind jobs + (jobs b + s.waiting) + s.begun = _
      rw [total, hbind, add_left_comm]
      simp only [add_assoc]
    · cases h
  | begin a =>
    simp only [step] at h
    split at h
    · next ha =>
      cases h
      show s.branches.bind jobs + s.waiting.erase a + a ::ₘ s.begun = _
      rw [Multiset.add_cons, ← Multiset.cons_add, ← Multiset.add_cons, Multiset.cons_erase ha]
      rfl
    · cases h
  | finish a r =>
    simp only [step] at h
    split at h
    · cases h
      rfl
    · cases h

theorem left_step (h : s.step jobs a = some s') : s.left jobs = s'.left jobs + 1 := by
  cases a with
  | expand b =>
    simp only [step] at h
    split at h
    · next hb =>
      cases h
      have hbind : s.branches.bind jobs = jobs b + (s.branches.erase b).bind jobs := by
        rw [← Multiset.cons_bind, Multiset.cons_erase hb]
      have hcard := Multiset.card_erase_add_one hb
      simp only [left, hbind, Multiset.card_add]
      omega
    · cases h
  | begin a =>
    simp only [step] at h
    split at h
    · next ha =>
      cases h
      have hcard := Multiset.card_erase_add_one ha
      simp only [left, Multiset.card_add, Multiset.card_cons]
      omega
    · cases h
  | finish a r =>
    simp only [step] at h
    split at h
    · next ha =>
      cases h
      have hcard := Multiset.card_erase_add_one ha
      simp only [left]
      omega
    · cases h

def Succeeds : FanOutAct β α ε → Prop
  | .finish _ (.error _) => False
  | _ => True

theorem raised_step (h : s.step jobs a = some s') (ha : Succeeds a) : s'.raised = s.raised := by
  cases a with
  | expand b | begin a =>
    simp only [step] at h
    split at h
    · cases h
      rfl
    · cases h
  | finish a r =>
    cases r with
    | error e => exact ha.elim
    | ok u =>
      simp only [step] at h
      split at h
      · cases h
        exact Option.or_none
      · cases h

theorem exists_step (h : ¬ s.Done) : ∃ a, (s.step jobs a).isSome := by
  by_cases hbranches : s.branches = 0
  · by_cases hwaiting : s.waiting = 0
    · have hrunning : s.running ≠ 0 := fun hrunning => h ⟨hbranches, hwaiting, hrunning⟩
      obtain ⟨a, ha⟩ := Multiset.exists_mem_of_ne_zero hrunning
      exact ⟨.finish a (.ok ()), by simp only [step, if_pos ha, Option.isSome_some]⟩
    · obtain ⟨a, ha⟩ := Multiset.exists_mem_of_ne_zero hwaiting
      exact ⟨.begin a, by simp only [step, if_pos ha, Option.isSome_some]⟩
  · obtain ⟨b, hb⟩ := Multiset.exists_mem_of_ne_zero hbranches
    exact ⟨.expand b, by simp only [step, if_pos hb, Option.isSome_some]⟩

omit [DecidableEq β] [DecidableEq α] in
/-- At the end every job has begun. -/
theorem begun_of_done (h : s.Done) : s.begun = s.total jobs := by
  rw [total, h.1, h.2.1, Multiset.zero_bind, zero_add, zero_add]

omit [DecidableEq β] [DecidableEq α] in
theorem begun_le_total : s.begun ≤ s.total jobs := Multiset.le_add_left ..

end FanOut
