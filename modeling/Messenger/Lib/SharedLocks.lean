import Mathlib.Data.List.Basic
import Mathlib.Logic.Function.Basic
import Messenger.Lib.Transition

/-! Transactions whose statements take shared and exclusive locks. A statement that would have to wait
is not taken yet. Once it has its locks it is evaluated on the committed rows and on those of its own
transaction. Locks are kept to the end of the transaction, whose writes become visible together when it
commits. -/

namespace SharedLocks

inductive Mode where
  | shared
  | exclusive
  deriving DecidableEq

structure Stmt (δ κ ω π : Type*) where
  locks : δ → List (κ × Mode)
  run : δ → π × List ω

inductive Cmd (δ κ ω π : Type*) where
  | exec (q : Stmt δ κ ω π)
  | commit
  | rollback

/-- The transactions a client may run. A call that draws a value of its own is `fresh` after the calls
that have drawn others. -/
structure Program (δ κ ω χ π : Type*) where
  apply : ω → δ → δ
  entry : χ → π
  cmd : π → Cmd δ κ ω π
  fresh : List χ → χ → Bool

structure Txn (ω π : Type*) where
  pc : π
  writes : List ω := []

structure Sys (δ κ ω τ χ π : Type*) where
  db : δ
  holders : κ → List (τ × Mode) := fun _ => []
  txn : τ → Option (Txn ω π) := fun _ => none
  begun : List χ := []

inductive Act (τ χ : Type*) where
  | begin (t : τ) (c : χ)
  | exec (t : τ)
  | commit (t : τ)
  | abort (t : τ)

variable {δ κ ω χ π τ : Type*} [DecidableEq κ] [DecidableEq τ]

namespace Sys

def Grants (s : Sys δ κ ω τ χ π) (t : τ) (l : κ × Mode) : Prop :=
  ∀ h ∈ s.holders l.1, h.1 = t ∨ h.2 = .shared ∧ l.2 = .shared

omit [DecidableEq κ] in
instance (s : Sys δ κ ω τ χ π) (t : τ) (l : κ × Mode) : Decidable (s.Grants t l) :=
  inferInstanceAs (Decidable (∀ h ∈ s.holders l.1, _))

def Compatible (s : Sys δ κ ω τ χ π) : Prop :=
  ∀ k, ∀ h ∈ s.holders k, ∀ h' ∈ s.holders k, h.1 = h'.1 ∨ h.2 = .shared ∧ h'.2 = .shared

def opened (s : Sys δ κ ω τ χ π) (t : τ) (c : χ) (p : π) : Sys δ κ ω τ χ π :=
  { s with txn := Function.update s.txn t (some { pc := p }), begun := c :: s.begun }

def executed (s : Sys δ κ ω τ χ π) (t : τ) (ls : List (κ × Mode)) (x : Txn ω π) :
    Sys δ κ ω τ χ π :=
  { s with
    holders := fun k => (ls.filter fun l => l.1 = k).map (fun l => (t, l.2)) ++ s.holders k
    txn := Function.update s.txn t (some x) }

def close (s : Sys δ κ ω τ χ π) (t : τ) (d : δ) : Sys δ κ ω τ χ π :=
  { s with
    db := d
    holders := fun k => (s.holders k).filter fun h => h.1 ≠ t
    txn := Function.update s.txn t none }

section

variable {s : Sys δ κ ω τ χ π} {t u : τ} {x y : Txn ω π} {c : χ} {p : π} {d : δ} {k : κ}
  {ls : List (κ × Mode)} {h : τ × Mode}

omit [DecidableEq κ] in
theorem update_eq_some {α : Type*} {f : τ → Option α} {o : Option α} {a : α}
    (ha : Function.update f t o u = some a) : u = t ∧ o = some a ∨ u ≠ t ∧ f u = some a := by
  rcases eq_or_ne u t with rfl | hne
  · rw [Function.update_self] at ha
    exact .inl ⟨rfl, ha⟩
  · rw [Function.update_of_ne hne] at ha
    exact .inr ⟨hne, ha⟩

omit [DecidableEq κ] in
theorem opened_txn_eq_some (hy : (s.opened t c p).txn u = some y) :
    u = t ∧ y = { pc := p } ∨ u ≠ t ∧ s.txn u = some y :=
  (update_eq_some hy).imp_left fun ⟨hu, hx⟩ => ⟨hu, (Option.some.inj hx).symm⟩

theorem executed_txn_eq_some (hy : (s.executed t ls x).txn u = some y) :
    u = t ∧ y = x ∨ u ≠ t ∧ s.txn u = some y :=
  (update_eq_some hy).imp_left fun ⟨hu, hx⟩ => ⟨hu, (Option.some.inj hx).symm⟩

omit [DecidableEq κ] in
theorem close_txn_eq_some (hy : (s.close t d).txn u = some y) : u ≠ t ∧ s.txn u = some y :=
  (update_eq_some hy).resolve_left fun hnone => absurd hnone.2 (by simp)

omit [DecidableEq κ] [DecidableEq τ] in
theorem Compatible.eq_of_exclusive {m : Mode} (hs : s.Compatible) (ht : (t, .exclusive) ∈ s.holders k)
    (hu : (u, m) ∈ s.holders k) : t = u := by
  rcases hs k _ ht _ hu with heq | ⟨hshared, -⟩
  · exact heq
  · cases hshared

theorem mem_holders_executed :
    h ∈ (s.executed t ls x).holders k ↔ (∃ m, (k, m) ∈ ls ∧ h = (t, m)) ∨ h ∈ s.holders k := by
  simp only [executed, List.mem_append, List.mem_map, List.mem_filter, decide_eq_true_eq]
  refine or_congr_left ⟨?_, ?_⟩
  · rintro ⟨⟨k', m⟩, ⟨hmem, rfl⟩, rfl⟩
    exact ⟨m, hmem, rfl⟩
  · rintro ⟨m, hmem, rfl⟩
    exact ⟨(k, m), ⟨hmem, rfl⟩, rfl⟩

omit [DecidableEq κ] in
theorem mem_holders_close : h ∈ (s.close t d).holders k ↔ h ∈ s.holders k ∧ h.1 ≠ t := by
  simp [close, List.mem_filter]

end

end Sys

namespace Program

variable (P : Program δ κ ω χ π)

def applyAll (ws : List ω) (d : δ) : δ := ws.foldl (fun d w => P.apply w d) d

/-- One step of the scheduler. A transaction may be rolled back in any state: a statement may fail, the
caller may raise, and the server may pick it as a deadlock victim. -/
def step (s : Sys δ κ ω τ χ π) : Act τ χ → Option (Sys δ κ ω τ χ π)
  | .begin t c =>
    if (s.txn t).isNone ∧ P.fresh s.begun c then some (s.opened t c (P.entry c)) else none
  | .exec t =>
    match s.txn t with
    | some x =>
      match P.cmd x.pc with
      | .exec q =>
        let d := P.applyAll x.writes s.db
        if ∀ l ∈ q.locks d, s.Grants t l then
          some (s.executed t (q.locks d) ⟨(q.run d).1, x.writes ++ (q.run d).2⟩)
        else none
      | _ => none
    | none => none
  | .commit t =>
    match s.txn t with
    | some x =>
      match P.cmd x.pc with
      | .commit => some (s.close t (P.applyAll x.writes s.db))
      | _ => none
    | none => none
  | .abort t => if (s.txn t).isSome then some (s.close t s.db) else none

structure Preserves (I : Sys δ κ ω τ χ π → Prop) : Prop where
  begin : ∀ s t c, I s → s.txn t = none → P.fresh s.begun c = true → I (s.opened t c (P.entry c))
  exec : ∀ s t x q, I s → s.txn t = some x → P.cmd x.pc = .exec q →
    (∀ l ∈ q.locks (P.applyAll x.writes s.db), s.Grants t l) →
    I (s.executed t (q.locks (P.applyAll x.writes s.db))
      ⟨(q.run (P.applyAll x.writes s.db)).1, x.writes ++ (q.run (P.applyAll x.writes s.db)).2⟩)
  commit : ∀ s t x, I s → s.Compatible → s.txn t = some x → P.cmd x.pc = .commit →
    I (s.close t (P.applyAll x.writes s.db))
  abort : ∀ s t, I s → I (s.close t s.db)

variable {P} {I : Sys δ κ ω τ χ π → Prop} {s s' : Sys δ κ ω τ χ π} {a : Act τ χ}

theorem Preserves.step (hI : P.Preserves I) (h : I s) (hc : s.Compatible) (hs : P.step s a = some s') :
    I s' := by
  cases a with
  | begin t c =>
    simp only [Program.step] at hs
    split at hs
    · next hfree =>
      exact Option.some.inj hs ▸ hI.begin s t c h (Option.isNone_iff_eq_none.mp hfree.1) hfree.2
    · cases hs
  | exec t =>
    simp only [Program.step] at hs
    split at hs
    · next x hx =>
      split at hs
      · next q hq =>
        split at hs
        · next hgrants => exact Option.some.inj hs ▸ hI.exec s t x q h hx hq hgrants
        · cases hs
      · cases hs
    · cases hs
  | commit t =>
    simp only [Program.step] at hs
    split at hs
    · next x hx =>
      split at hs
      · next hq => exact Option.some.inj hs ▸ hI.commit s t x h hc hx hq
      · cases hs
    · cases hs
  | abort t =>
    simp only [Program.step] at hs
    split at hs
    · exact Option.some.inj hs ▸ hI.abort s t h
    · cases hs

theorem step_exec_eq_some {t : τ} (hs : P.step s (.exec t) = some s') :
    ∃ x q, s.txn t = some x ∧ P.cmd x.pc = .exec q ∧
      s' = s.executed t (q.locks (P.applyAll x.writes s.db))
        ⟨(q.run (P.applyAll x.writes s.db)).1, x.writes ++ (q.run (P.applyAll x.writes s.db)).2⟩ := by
  simp only [Program.step] at hs
  split at hs
  · next x hx =>
    split at hs
    · next q hq =>
      split at hs
      · exact ⟨x, q, hx, hq, (Option.some.inj hs).symm⟩
      · cases hs
    · cases hs
  · cases hs

theorem step_db (hs : P.step s a = some s') :
    s'.db = s.db ∨ ∃ t x, a = .commit t ∧ s.txn t = some x ∧ P.cmd x.pc = .commit := by
  cases a with
  | begin t c =>
    simp only [Program.step] at hs
    split at hs
    · exact .inl (by rw [← Option.some.inj hs]; rfl)
    · cases hs
  | exec t =>
    obtain ⟨x, q, -, -, rfl⟩ := step_exec_eq_some hs
    exact .inl rfl
  | commit t =>
    simp only [Program.step] at hs
    split at hs
    · next x hx =>
      split at hs
      · next hq => exact .inr ⟨t, x, rfl, hx, hq⟩
      · cases hs
    · cases hs
  | abort t =>
    simp only [Program.step] at hs
    split at hs
    · exact .inl (by rw [← Option.some.inj hs]; rfl)
    · cases hs

theorem preserves_compatible :
    P.Preserves (Sys.Compatible : Sys δ κ ω τ χ π → Prop) where
  begin _ _ _ h _ _ := h
  exec s t x q h _ _ hgrants := by
    intro k l hl l' hl'
    have hnew {m : Mode} {l : τ × Mode} (hm : (k, m) ∈ q.locks (P.applyAll x.writes s.db))
        (hl : l ∈ s.holders k) : l.1 = t ∨ l.2 = .shared ∧ m = .shared := hgrants (k, m) hm l hl
    rcases Sys.mem_holders_executed.mp hl with ⟨m, hm, rfl⟩ | hold
    · rcases Sys.mem_holders_executed.mp hl' with ⟨m', -, rfl⟩ | hold'
      · exact .inl rfl
      · exact (hnew hm hold').imp Eq.symm And.symm
    · rcases Sys.mem_holders_executed.mp hl' with ⟨m', hm', rfl⟩ | hold'
      · exact hnew hm' hold
      · exact h k l hold l' hold'
  commit s t x h _ _ _ := fun k l hl l' hl' =>
    h k l (Sys.mem_holders_close.mp hl).1 l' (Sys.mem_holders_close.mp hl').1
  abort s t h := fun k l hl l' hl' =>
    h k l (Sys.mem_holders_close.mp hl).1 l' (Sys.mem_holders_close.mp hl').1

theorem Preserves.reachable (hI : P.Preserves I) {d : δ} (h : I { db := d })
    (hs : Transition.Reachable P.step { db := d } s) : I s ∧ s.Compatible := by
  have hinit : Sys.Compatible ({ db := d } : Sys δ κ ω τ χ π) := by
    intro k l hl
    cases hl
  exact hs.induction (I := fun s => I s ∧ s.Compatible)
    (fun _ _ _ ⟨h, hc⟩ hstep => ⟨hI.step h hc hstep, preserves_compatible.step hc hc hstep⟩) ⟨h, hinit⟩

/-! ### A transaction by itself -/

variable (P) in
def serial : ℕ → Txn ω π → δ → Option δ
  | 0, _, _ => none
  | n + 1, x, d =>
    match P.cmd x.pc with
    | .exec q =>
      let r := q.run (P.applyAll x.writes d)
      serial n ⟨r.1, x.writes ++ r.2⟩ d
    | .commit => some (P.applyAll x.writes d)
    | .rollback => none

section

omit [DecidableEq κ]

variable {n : ℕ} {x : Txn ω π} {d : δ}

theorem serial_exec {q : Stmt δ κ ω π} {p : π} {ws : List ω} (hq : P.cmd x.pc = .exec q)
    (hrun : q.run (P.applyAll x.writes d) = (p, ws)) :
    P.serial (n + 1) x d = P.serial n ⟨p, x.writes ++ ws⟩ d := by
  simp only [serial, hq, hrun]

theorem serial_commit (hq : P.cmd x.pc = .commit) :
    P.serial (n + 1) x d = some (P.applyAll x.writes d) := by
  simp only [serial, hq]

end

theorem serial_reachable {n : ℕ} {x : Txn ω π} {d' : δ} {t : τ} (hserial : P.serial n x s.db = some d')
    (hx : s.txn t = some x) (halone : ∀ k, ∀ h ∈ s.holders k, h.1 = t) :
    ∃ s', Transition.Reachable P.step s s' ∧ s'.db = d' := by
  induction n generalizing s x with
  | zero => cases hserial
  | succ n ih =>
    unfold serial at hserial
    split at hserial
    · next q hq =>
      -- nobody else holds a lock that the statement could wait for
      have hgrants : ∀ l ∈ q.locks (P.applyAll x.writes s.db), s.Grants t l :=
        fun l _ h hh => .inl (halone l.1 h hh)
      have hstep : P.step s (.exec t) = some (s.executed t (q.locks (P.applyAll x.writes s.db))
          ⟨(q.run (P.applyAll x.writes s.db)).1, x.writes ++ (q.run (P.applyAll x.writes s.db)).2⟩) := by
        simp only [Program.step, hx, hq]
        rw [if_pos hgrants]
      obtain ⟨s', ⟨as, has⟩, hdb⟩ := ih (s := s.executed t _ _) hserial (Function.update_self ..)
        fun k h hh => by
          rcases Sys.mem_holders_executed.mp hh with ⟨m, -, rfl⟩ | hold
          · rfl
          · exact halone k h hold
      exact ⟨s', ⟨.exec t :: as, Transition.run_cons_eq_some.mpr ⟨_, hstep, has⟩⟩, hdb⟩
    · next hq =>
      have hstep : P.step s (.commit t) = some (s.close t (P.applyAll x.writes s.db)) := by
        simp only [Program.step, hx, hq]
      exact ⟨_, ⟨[.commit t], Transition.run_singleton.trans hstep⟩, Option.some.inj hserial⟩
    · cases hserial

end Program

end SharedLocks
