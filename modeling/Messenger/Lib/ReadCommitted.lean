import Mathlib.Data.List.Nodup
import Mathlib.Logic.Function.Basic
import Messenger.Lib.Transition

/-! Transactions under READ COMMITTED with exclusive row locks. A statement takes its snapshot
when it starts, then locks the rows it selected one by one in any order, waiting for each, and
is evaluated on the latest version of these rows once it holds them all. Locks are kept to the
end of the transaction, whose writes become visible together when it commits. -/

namespace ReadCommitted

/-- `rows` are the rows a snapshot selects for locking. `run` gives the answer and the writes on
a view in which the rows of the list are locked. -/
structure Stmt (δ κ ω β : Type*) where
  rows : δ → List κ
  run : List κ → δ → β × List ω

namespace Stmt

def map {δ κ ω β β' : Type*} (q : Stmt δ κ ω β) (f : β → β') : Stmt δ κ ω β' where
  rows := q.rows
  run ks d := (f (q.run ks d).1, (q.run ks d).2)

def WritesLocked {δ κ ω β : Type*} (target : ω → κ) (q : Stmt δ κ ω β) : Prop :=
  ∀ d₀ d, ∀ w ∈ (q.run (q.rows d₀) d).2, target w ∈ q.rows d₀

theorem WritesLocked.map {δ κ ω β β' : Type*} {target : ω → κ} {q : Stmt δ κ ω β}
    (h : q.WritesLocked target) (f : β → β') : (q.map f).WritesLocked target := h

end Stmt

inductive Cmd (δ κ ω π : Type*) where
  | exec (q : Stmt δ κ ω π)
  | commit
  | rollback

/-- The transactions a client may run. `entry` is where a call starts, the answer to a statement is
where the call continues, and a statement writes only rows it has locked. -/
structure Program (δ κ ω χ π : Type*) where
  apply : ω → δ → δ
  target : ω → κ
  entry : χ → π
  cmd : π → Cmd δ κ ω π
  locked : ∀ p q, cmd p = .exec q → q.WritesLocked target

/-- `locking n rows todo`: a statement whose snapshot saw `n` commits has still to lock `todo`. -/
inductive Phase (κ : Type*) where
  | ready
  | locking (seen : ℕ) (rows todo : List κ)

/-- An open transaction. `trail` holds, for every statement it completed, how many transactions
had committed at the snapshot and at the completion. -/
structure Txn (κ ω π : Type*) where
  pc : π
  phase : Phase κ := .ready
  writes : List ω := []
  trail : List (ℕ × ℕ) := []

structure Sys (δ κ ω τ π : Type*) where
  db : δ
  lock : κ → Option τ := fun _ => none
  txn : τ → Option (Txn κ ω π) := fun _ => none
  started : List τ := []
  log : List (τ × π) := []

inductive Act (κ τ χ : Type*) where
  | begin (t : τ) (c : χ)
  | start (t : τ)
  | lock (t : τ) (k : κ)
  | commit (t : τ)
  | abort (t : τ)

variable {δ κ ω χ π τ : Type*} [DecidableEq τ]

namespace Sys

def setTxn (s : Sys δ κ ω τ π) (t : τ) (x : Txn κ ω π) : Sys δ κ ω τ π :=
  { s with txn := Function.update s.txn t (some x) }

def close (s : Sys δ κ ω τ π) (t : τ) : Sys δ κ ω τ π :=
  { s with
    lock := fun k => if s.lock k = some t then none else s.lock k
    txn := Function.update s.txn t none }

def opened (s : Sys δ κ ω τ π) (t : τ) (p : π) : Sys δ κ ω τ π :=
  { s.setTxn t { pc := p } with started := t :: s.started }

def committed (s : Sys δ κ ω τ π) (t : τ) (p : π) (d : δ) : Sys δ κ ω τ π :=
  { s.close t with db := d, log := s.log ++ [(t, p)] }

def Available (s : Sys δ κ ω τ π) (t : τ) (k : κ) : Prop := s.lock k = none ∨ s.lock k = some t

instance (s : Sys δ κ ω τ π) (t : τ) (k : κ) : Decidable (s.Available t k) :=
  inferInstanceAs (Decidable (_ ∨ _))

variable [DecidableEq κ]

def lockRow (s : Sys δ κ ω τ π) (t : τ) (k : κ) : Sys δ κ ω τ π :=
  { s with lock := Function.update s.lock k (some t) }

def acquire (s : Sys δ κ ω τ π) (t : τ) (k : κ) : Option (Sys δ κ ω τ π) :=
  match s.txn t with
  | some ⟨pc, .locking n ks todo, ws, tr⟩ =>
    if k ∈ todo ∧ s.Available t k then
      some ((s.lockRow t k).setTxn t ⟨pc, .locking n ks (todo.filter (· ≠ k)), ws, tr⟩)
    else none
  | _ => none

omit [DecidableEq τ] in
theorem filter_ne_eq_nil {todo : List κ} {k : κ} (h : ∀ k' ∈ todo, k' = k) :
    todo.filter (· ≠ k) = [] := by
  refine List.filter_eq_nil_iff.mpr fun k' hk' => ?_
  rw [h k' hk']
  simp

theorem acquire_eq_some {s s' : Sys δ κ ω τ π} {t : τ} {k : κ} (h : s.acquire t k = some s') :
    ∃ pc n ks todo ws tr, s.txn t = some ⟨pc, .locking n ks todo, ws, tr⟩ ∧ k ∈ todo ∧
      s.Available t k ∧
      s' = (s.lockRow t k).setTxn t ⟨pc, .locking n ks (todo.filter (· ≠ k)), ws, tr⟩ := by
  unfold acquire at h
  split at h
  · next pc n ks todo ws tr hx =>
    split at h
    · next hk => exact ⟨pc, n, ks, todo, ws, tr, hx, hk.1, hk.2, (Option.some.inj h).symm⟩
    · cases h
  · cases h

end Sys

namespace Program

variable (P : Program δ κ ω χ π)

def applyAll (ws : List ω) (d : δ) : δ := ws.foldl (fun d w => P.apply w d) d

def select (s : Sys δ κ ω τ π) (t : τ) : Option (Sys δ κ ω τ π) :=
  match s.txn t with
  | some ⟨pc, .ready, ws, tr⟩ =>
    match P.cmd pc with
    | .exec q =>
      let ks := q.rows (P.applyAll ws s.db)
      some (s.setTxn t ⟨pc, .locking s.log.length ks ks, ws, tr⟩)
    | _ => none
  | _ => none

/-- A statement that has no row left to lock completes at once. -/
def settle (s : Sys δ κ ω τ π) (t : τ) : Sys δ κ ω τ π :=
  match s.txn t with
  | some ⟨pc, .locking n ks [], ws, tr⟩ =>
    match P.cmd pc with
    | .exec q =>
      let r := q.run ks (P.applyAll ws s.db)
      s.setTxn t ⟨r.1, .ready, ws ++ r.2, tr ++ [(n, s.log.length)]⟩
    | _ => s
  | _ => s

variable [DecidableEq κ]

/-- One step of the scheduler. A transaction may be rolled back in any state: a statement may
fail, the caller may raise, and the server may pick it as a deadlock victim. -/
def step (s : Sys δ κ ω τ π) : Act κ τ χ → Option (Sys δ κ ω τ π)
  | .begin t c => if t ∈ s.started then none else some (s.opened t (P.entry c))
  | .start t => (P.select s t).map (P.settle · t)
  | .lock t k => (s.acquire t k).map (P.settle · t)
  | .commit t =>
    match s.txn t with
    | some ⟨pc, .ready, ws, _⟩ =>
      match P.cmd pc with
      | .commit => some (s.committed t pc (P.applyAll ws s.db))
      | _ => none
    | _ => none
  | .abort t => if (s.txn t).isSome then some (s.close t) else none

/-- What an invariant must survive: one field for each thing a step can do, with everything the
step has checked. `G` is the condition under which an action is considered. -/
structure PreservesWhen (G : Sys δ κ ω τ π → Act κ τ χ → Prop) (I : Sys δ κ ω τ π → Prop) : Prop where
  begin : ∀ s t c, I s → G s (.begin t c) → t ∉ s.started → I (s.opened t (P.entry c))
  select : ∀ s t pc ws tr q, I s → s.txn t = some ⟨pc, .ready, ws, tr⟩ → P.cmd pc = .exec q →
    I (s.setTxn t ⟨pc, .locking s.log.length (q.rows (P.applyAll ws s.db))
      (q.rows (P.applyAll ws s.db)), ws, tr⟩)
  acquire : ∀ s t k pc n ks todo ws tr, I s → G s (.lock t k) →
    s.txn t = some ⟨pc, .locking n ks todo, ws, tr⟩ → k ∈ todo → s.Available t k →
    I ((s.lockRow t k).setTxn t ⟨pc, .locking n ks (todo.filter (· ≠ k)), ws, tr⟩)
  settle : ∀ s t pc n ks ws tr q, I s → s.txn t = some ⟨pc, .locking n ks [], ws, tr⟩ →
    P.cmd pc = .exec q →
    I (s.setTxn t ⟨(q.run ks (P.applyAll ws s.db)).1, .ready,
      ws ++ (q.run ks (P.applyAll ws s.db)).2, tr ++ [(n, s.log.length)]⟩)
  commit : ∀ s t pc ws tr, I s → G s (.commit t) → s.txn t = some ⟨pc, .ready, ws, tr⟩ →
    P.cmd pc = .commit → I (s.committed t pc (P.applyAll ws s.db))
  abort : ∀ s t x, I s → s.txn t = some x → I (s.close t)

structure Preserves (G : Sys δ κ ω τ π → τ → Prop) (I : Sys δ κ ω τ π → Prop) : Prop where
  begin : ∀ s t c, I s → t ∉ s.started → I (s.opened t (P.entry c))
  select : ∀ s t pc ws tr q, I s → s.txn t = some ⟨pc, .ready, ws, tr⟩ → P.cmd pc = .exec q →
    I (s.setTxn t ⟨pc, .locking s.log.length (q.rows (P.applyAll ws s.db))
      (q.rows (P.applyAll ws s.db)), ws, tr⟩)
  acquire : ∀ s t k pc n ks todo ws tr, I s → s.txn t = some ⟨pc, .locking n ks todo, ws, tr⟩ →
    k ∈ todo → s.Available t k →
    I ((s.lockRow t k).setTxn t ⟨pc, .locking n ks (todo.filter (· ≠ k)), ws, tr⟩)
  settle : ∀ s t pc n ks ws tr q, I s → s.txn t = some ⟨pc, .locking n ks [], ws, tr⟩ →
    P.cmd pc = .exec q →
    I (s.setTxn t ⟨(q.run ks (P.applyAll ws s.db)).1, .ready,
      ws ++ (q.run ks (P.applyAll ws s.db)).2, tr ++ [(n, s.log.length)]⟩)
  commit : ∀ s t pc ws tr, I s → G s t → s.txn t = some ⟨pc, .ready, ws, tr⟩ →
    P.cmd pc = .commit → I (s.committed t pc (P.applyAll ws s.db))
  abort : ∀ s t x, I s → s.txn t = some x → I (s.close t)

variable {P} {G : Sys δ κ ω τ π → τ → Prop} {H : Sys δ κ ω τ π → Act κ τ χ → Prop}
  {I : Sys δ κ ω τ π → Prop} {s s' : Sys δ κ ω τ π} {t : τ}

omit [DecidableEq κ] in
theorem select_eq_some (h : P.select s t = some s') :
    ∃ pc ws tr q, s.txn t = some ⟨pc, .ready, ws, tr⟩ ∧ P.cmd pc = .exec q ∧
      s' = s.setTxn t ⟨pc, .locking s.log.length (q.rows (P.applyAll ws s.db))
        (q.rows (P.applyAll ws s.db)), ws, tr⟩ := by
  unfold select at h
  split at h
  · next pc ws tr hx =>
    split at h
    · next q hq => exact ⟨pc, ws, tr, q, hx, hq, (Option.some.inj h).symm⟩
    · cases h
  · cases h

omit [DecidableEq κ] in
theorem settle_of_locked {pc : π} {n : ℕ} {ks : List κ} {ws : List ω} {tr : List (ℕ × ℕ)}
    {q : Stmt δ κ ω π} (hx : s.txn t = some ⟨pc, .locking n ks [], ws, tr⟩) (hq : P.cmd pc = .exec q) :
    P.settle s t = s.setTxn t ⟨(q.run ks (P.applyAll ws s.db)).1, .ready,
      ws ++ (q.run ks (P.applyAll ws s.db)).2, tr ++ [(n, s.log.length)]⟩ := by
  simp only [settle, hx, hq]

theorem commit_eq_some (h : P.step s (.commit t) = some s') :
    ∃ pc ws tr, s.txn t = some ⟨pc, .ready, ws, tr⟩ ∧ P.cmd pc = .commit ∧
      s' = s.committed t pc (P.applyAll ws s.db) := by
  simp only [step] at h
  split at h
  · next pc ws tr hx =>
    split at h
    · next hc => exact ⟨pc, ws, tr, hx, hc, (Option.some.inj h).symm⟩
    · cases h
  · cases h

theorem PreservesWhen.settled (hI : P.PreservesWhen H I) (h : I s) (t : τ) : I (P.settle s t) := by
  unfold Program.settle
  split
  · next pc n ks ws tr hx =>
    split
    · next q hq => exact hI.settle s t pc n ks ws tr q h hx hq
    · exact h
  · exact h

theorem PreservesWhen.step (hI : P.PreservesWhen H I) {a : Act κ τ χ} (h : I s) (hG : H s a)
    (hs : P.step s a = some s') : I s' := by
  cases a with
  | begin t c =>
    simp only [Program.step] at hs
    split at hs
    · cases hs
    · next ht => exact Option.some.inj hs ▸ hI.begin s t c h hG ht
  | start t =>
    simp only [Program.step, Option.map_eq_some_iff] at hs
    obtain ⟨s₁, hs₁, rfl⟩ := hs
    obtain ⟨pc, ws, tr, q, hx, hq, rfl⟩ := select_eq_some hs₁
    exact hI.settled (hI.select s t pc ws tr q h hx hq) t
  | lock t k =>
    simp only [Program.step, Option.map_eq_some_iff] at hs
    obtain ⟨s₁, hs₁, rfl⟩ := hs
    obtain ⟨pc, n, ks, todo, ws, tr, hx, hk, ha, rfl⟩ := Sys.acquire_eq_some hs₁
    exact hI.settled (hI.acquire s t k pc n ks todo ws tr h hG hx hk ha) t
  | commit t =>
    obtain ⟨pc, ws, tr, hx, hc, rfl⟩ := commit_eq_some hs
    exact hI.commit s t pc ws tr h hG hx hc
  | abort t =>
    simp only [Program.step] at hs
    split at hs
    · next hx =>
      obtain ⟨x, hx⟩ := Option.isSome_iff_exists.mp hx
      exact Option.some.inj hs ▸ hI.abort s t x h hx
    · cases hs

theorem PreservesWhen.guarded_run (hI : P.PreservesWhen H I) {as : List (Act κ τ χ)} (h : I s)
    (hG : Transition.Guarded P.step H s as) (hs : Transition.run P.step s as = some s') : I s' :=
  hG.induction (fun _ _ _ h hG hs => hI.step h hG hs) hs h

def OnCommit (G : Sys δ κ ω τ π → τ → Prop) (s : Sys δ κ ω τ π) : Act κ τ χ → Prop
  | .commit t => G s t
  | _ => True

instance [∀ s t, Decidable (G s t)] (s : Sys δ κ ω τ π) (a : Act κ τ χ) : Decidable (OnCommit G s a) := by
  cases a <;> unfold OnCommit <;> infer_instance

theorem Preserves.when (hI : P.Preserves G I) : P.PreservesWhen (OnCommit G) I where
  begin s t c h _ ht := hI.begin s t c h ht
  select := hI.select
  acquire s t k pc n ks todo ws tr h _ hx hk ha := hI.acquire s t k pc n ks todo ws tr h hx hk ha
  settle := hI.settle
  commit := hI.commit
  abort := hI.abort

theorem Preserves.guarded_run (hI : P.Preserves G I) {as : List (Act κ τ χ)} (h : I s)
    (hG : Transition.Guarded P.step (OnCommit G) s as)
    (hs : Transition.run P.step s as = some s') : I s' :=
  hI.when.guarded_run h hG hs

theorem Preserves.reachable (hI : P.Preserves (fun _ _ => True) I) (h : I s)
    (hs : Transition.Reachable P.step s s') : I s' :=
  hs.induction (fun s a _ h hs => hI.when.step h (by cases a <;> trivial) hs) h

theorem db_of_step {a : Act κ τ χ} (hs : P.step s a = some s') (ha : ∀ t, a ≠ .commit t) :
    s'.db = s.db := by
  have hI : P.PreservesWhen (fun _ (a : Act κ τ χ) => ∀ t, a ≠ .commit t)
      (fun x : Sys δ κ ω τ π => x.db = s.db) :=
    { begin := fun _ _ _ h _ _ => h
      select := fun _ _ _ _ _ _ h _ _ => h
      acquire := fun _ _ _ _ _ _ _ _ _ h _ _ _ _ => h
      settle := fun _ _ _ _ _ _ _ _ h _ _ => h
      commit := fun _ t _ _ _ _ hG _ _ => absurd rfl (hG t)
      abort := fun _ _ _ h _ => h }
  exact hI.step rfl ha hs

end Program
end ReadCommitted
