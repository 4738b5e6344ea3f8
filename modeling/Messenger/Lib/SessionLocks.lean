import Mathlib.Logic.Function.Basic
import Messenger.Lib.Transition

/-! Sessions of a database server with locks that are held until the end of the transaction that takes
them. A statement that is sent outside a transaction runs in one of its own. -/

namespace SessionLocks
open Transition

inductive Command (q : Type) where
  | begin
  | commit
  | execute (statement : q)
  deriving DecidableEq

structure Session (q : Type) where
  todo : List (Command q)
  running : Option (Command q) := none
  inTransaction : Bool := false

structure Server (ω q κ : Type) where
  session : ω → Session q
  holder : κ → Option ω := fun _ => none

inductive Act (ω : Type) where
  | issue (w : ω)
  | finish (w : ω)
  | fail (w : ω)
  deriving DecidableEq

variable {ω q κ : Type}

namespace Session

def issue (s : Session q) : Option (Command q × Session q) :=
  match s.running, s.todo with
  | none, c :: todo => some (c, { s with todo, running := some c })
  | _, _ => none

def finish (s : Session q) : Option (Session q) :=
  s.running.map fun c =>
    { s with
      running := none
      inTransaction := match c with
        | .begin => true
        | .commit => false
        | .execute _ => s.inTransaction }

/-- The client gives up at the first error. -/
def fail (s : Session q) : Option (Session q) := s.running.map fun _ => { todo := [] }

variable {s s' : Session q} {c : Command q}

theorem issue_eq_some (h : s.issue = some (c, s')) : s.running = none ∧ ∃ todo, s.todo = c :: todo ∧
    s' = { s with todo, running := some c } := by
  unfold issue at h
  split at h
  · next hrunning htodo =>
    obtain ⟨rfl, rfl⟩ := Prod.mk.inj (Option.some.inj h)
    exact ⟨hrunning, _, htodo, rfl⟩
  · cases h

end Session

namespace Server

variable [DecidableEq ω] [DecidableEq κ]

/-- A lock that another session holds is waited for. -/
def acquire (locks : q → Option κ) (w : ω) (c : Command q) (holder : κ → Option ω) :
    Option (κ → Option ω) :=
  match c with
  | .execute statement =>
    match locks statement with
    | some k =>
      if holder k = none ∨ holder k = some w then some (Function.update holder k (some w)) else none
    | none => some holder
  | _ => some holder

def release (w : ω) (holder : κ → Option ω) : κ → Option ω := fun k =>
  if holder k = some w then none else holder k

def step (locks : q → Option κ) (s : Server ω q κ) : Act ω → Option (Server ω q κ)
  | .issue w => do
    let (c, session) ← (s.session w).issue
    let holder ← acquire locks w c s.holder
    return { session := Function.update s.session w session, holder }
  | .finish w => (s.session w).finish.map fun session =>
    { session := Function.update s.session w session
      holder := if session.inTransaction then s.holder else release w s.holder }
  | .fail w => (s.session w).fail.map fun session =>
    { session := Function.update s.session w session, holder := release w s.holder }

variable {locks : q → Option κ} {s s' : Server ω q κ} {a : Act ω} {w : ω} {k : κ}

theorem step_issue (h : s.step locks (.issue w) = some s') : ∃ c session holder,
    (s.session w).issue = some (c, session) ∧ acquire locks w c s.holder = some holder ∧
      s' = { session := Function.update s.session w session, holder } := by
  obtain ⟨⟨c, session⟩, hissue, hrest⟩ := Option.bind_eq_some_iff.mp h
  obtain ⟨holder, hacquire, hs⟩ := Option.bind_eq_some_iff.mp hrest
  exact ⟨c, session, holder, hissue, hacquire, (Option.some.inj hs).symm⟩

theorem session_step (h : s.step locks a = some s') :
    (∃ w c todo, a = .issue w ∧ (s.session w).running = none ∧ (s.session w).todo = c :: todo ∧
        s'.session = Function.update s.session w { s.session w with todo, running := some c }) ∨
      ∃ w session, (∀ w', a ≠ .issue w') ∧ (s.session w).running.isSome ∧
        (session.todo = (s.session w).todo ∨ session.todo = []) ∧ session.running = none ∧
        s'.session = Function.update s.session w session := by
  cases a with
  | issue w =>
    obtain ⟨c, session, holder, hissue, -, rfl⟩ := step_issue h
    obtain ⟨hrunning, todo, htodo, rfl⟩ := Session.issue_eq_some hissue
    exact .inl ⟨w, c, todo, rfl, hrunning, htodo, rfl⟩
  | finish w =>
    obtain ⟨session, hfinish, rfl⟩ := Option.map_eq_some_iff.mp h
    obtain ⟨c, hrunning, heq⟩ := Option.map_eq_some_iff.mp hfinish
    exact .inr ⟨w, session, by simp, Option.isSome_of_eq_some hrunning, .inl (heq ▸ rfl), heq ▸ rfl, rfl⟩
  | fail w =>
    obtain ⟨session, hfail, rfl⟩ := Option.map_eq_some_iff.mp h
    obtain ⟨c, hrunning, heq⟩ := Option.map_eq_some_iff.mp hfail
    exact .inr ⟨w, session, by simp, Option.isSome_of_eq_some hrunning, .inr (heq ▸ rfl), heq ▸ rfl, rfl⟩

/-- A lock belongs to a transaction: one that has been begun, or the one that the statement which takes
the lock runs in. -/
def Held (locks : q → Option κ) (s : Server ω q κ) : Prop := ∀ k w, s.holder k = some w →
  (s.session w).inTransaction = true ∨
    ∃ statement, (s.session w).running = some (.execute statement) ∧ locks statement = some k

theorem holder_of_acquire {c : Command q} {holder holder' : κ → Option ω} {w' : ω}
    (h : acquire locks w c holder = some holder') (hk : holder' k = some w') :
    holder k = some w' ∨ w' = w ∧ ∃ statement, c = .execute statement ∧ locks statement = some k := by
  unfold acquire at h
  split at h
  · next statement =>
    split at h
    · next k' hlocks =>
      split at h
      · obtain rfl := Option.some.inj h
        by_cases heq : k = k'
        · subst heq
          rw [Function.update_self] at hk
          exact .inr ⟨(Option.some.inj hk).symm, statement, rfl, hlocks⟩
        · rw [Function.update_of_ne heq] at hk
          exact .inl hk
      · cases h
    · obtain rfl := Option.some.inj h
      exact .inl hk
  · obtain rfl := Option.some.inj h
    exact .inl hk

omit [DecidableEq κ] in
theorem holder_of_release {holder : κ → Option ω} {w' : ω} (h : release w holder k = some w') :
    w' ≠ w ∧ holder k = some w' := by
  unfold release at h
  split at h
  · cases h
  · next hne => exact ⟨fun heq => hne (heq ▸ h), h⟩

theorem Held.step (hs : Held locks s) (h : s.step locks a = some s') : Held locks s' := by
  intro k w hk
  cases a with
  | issue w' =>
    obtain ⟨c, session, holder, hissue, hacquire, rfl⟩ := step_issue h
    obtain ⟨hrunning, todo, -, rfl⟩ := Session.issue_eq_some hissue
    rcases holder_of_acquire hacquire hk with hold | ⟨rfl, statement, rfl, hlocks⟩
    · by_cases heq : w = w'
      · subst heq
        rcases hs k w hold with hin | ⟨statement, hrun, -⟩
        · left
          simpa using hin
        · -- it sends the next statement when the one before has ended
          rw [hrunning] at hrun
          cases hrun
      · simpa only [Function.update_of_ne heq] using hs k w hold
    · right
      simpa using hlocks
  | finish w' =>
    obtain ⟨session, -, rfl⟩ := Option.map_eq_some_iff.mp h
    by_cases hin : session.inTransaction
    · simp only [hin, if_true] at hk
      by_cases heq : w = w'
      · subst heq
        left
        simpa using hin
      · simpa only [Function.update_of_ne heq] using hs k w hk
    · simp only [hin] at hk
      obtain ⟨heq, hold⟩ := holder_of_release hk
      simpa only [Function.update_of_ne heq] using hs k w hold
  | fail w' =>
    obtain ⟨session, -, rfl⟩ := Option.map_eq_some_iff.mp h
    obtain ⟨heq, hold⟩ := holder_of_release hk
    simpa only [Function.update_of_ne heq] using hs k w hold

end Server
end SessionLocks
