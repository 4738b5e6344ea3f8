import Messenger.Lib.Outbox
import Messenger.Lib.TwoPhase

/-! Transactions under READ COMMITTED that announce on a channel what they have committed. Their
statements come in between those of the others, so that what a transaction announces rests on what it
has read on the way, and not on the store that it commits to. -/

namespace Publishing
open ReadCommitted

variable {δ κ ω χ π τ ε : Type*} {ρ : κ → Type*}

/-- `row` is what is stored under a key. A write changes no row but its target. -/
structure Publisher (δ κ ω χ π ε : Type*) (ρ : κ → Type*) extends Program δ κ ω χ π where
  announces : π → List ε
  row : (k : κ) → δ → ρ k
  frame : ∀ w k d, target w ≠ k → row k (apply w d) = row k d

/-- Where a transaction has come to that commits and what it has written, or nothing if it is rolled
back. -/
abbrev Ended (ω π : Type*) := Option (π × List ω)

structure State (δ κ ω τ π ε : Type*) where
  sys : Sys δ κ ω τ π
  outbox : Outbox.State τ (Ended ω π) δ ε

inductive Act (κ ω τ χ : Type*) where
  | server (a : ReadCommitted.Act κ τ χ)
  | lose (t : τ)
  | publish (t : τ)
  | fail (t : τ) (delivered : Bool)
  | others (ws : List ω)

namespace Publisher

variable (P : Publisher δ κ ω χ π ε ρ)

def init (d : δ) : State δ κ ω τ π ε := ⟨{ db := d }, { db := d }⟩

def transact : Ended ω π → δ → Option (δ × List ε)
  | some (pc, ws), d => some (P.applyAll ws d, P.announces pc)
  | none, _ => none

variable [DecidableEq τ] [DecidableEq κ]

def finish (s : State δ κ ω τ π ε) (t : τ) (a : ReadCommitted.Act κ τ χ)
    (b : Txn κ ω π → Outbox.Act τ (Ended ω π) δ) : Option (State δ κ ω τ π ε) :=
  (s.sys.txn t).bind fun x => (P.toProgram.step s.sys a).bind fun sys =>
    (Outbox.step P.transact s.outbox (b x)).map fun outbox => { sys, outbox }

def step (s : State δ κ ω τ π ε) : Act κ ω τ χ → Option (State δ κ ω τ π ε)
  | .server (.commit t) => P.finish s t (.commit t) fun x => .transact t (some (x.pc, x.writes))
  | .server (.abort t) => P.finish s t (.abort t) fun _ => .transact t none
  | .server a => (P.toProgram.step s.sys a).map fun sys => { s with sys }
  -- the transaction commits, and the caller is not told
  | .lose t => P.finish s t (.commit t) fun x => .lose t (some (x.pc, x.writes))
  | .publish t => (Outbox.step P.transact s.outbox (.publish t)).map fun outbox => { s with outbox }
  | .fail t delivered =>
    (Outbox.step P.transact s.outbox (.fail t delivered)).map fun outbox => { s with outbox }
  -- another client commits to rows that no transaction has locked
  | .others ws =>
    if ∀ w ∈ ws, s.sys.lock (P.target w) = none then
      let d := P.applyAll ws s.sys.db
      some ⟨{ s.sys with db := d }, { s.outbox with db := d }⟩
    else none

theorem finish_eq_some {P : Publisher δ κ ω χ π ε ρ} {s s' : State δ κ ω τ π ε} {t : τ}
    {a : ReadCommitted.Act κ τ χ} {b : Txn κ ω π → Outbox.Act τ (Ended ω π) δ}
    (h : P.finish s t a b = some s') :
    ∃ x sys outbox, s.sys.txn t = some x ∧ P.toProgram.step s.sys a = some sys ∧
      Outbox.step P.transact s.outbox (b x) = some outbox ∧ s' = ⟨sys, outbox⟩ := by
  obtain ⟨x, hx, h⟩ := Option.bind_eq_some_iff.mp h
  obtain ⟨sys, hsys, h⟩ := Option.bind_eq_some_iff.mp h
  obtain ⟨outbox, hout, rfl⟩ := Option.map_eq_some_iff.mp h
  exact ⟨x, sys, outbox, hx, hsys, hout, rfl⟩

end Publisher

/-! ### Assertions -/

/-- An assertion about an open transaction that others cannot break: what it says of the store, it says
of rows that the transaction has locked. -/
structure Stable (P : Publisher δ κ ω χ π ε ρ) (F : π → List ω → Set κ → δ → Prop) : Prop where
  entry : ∀ c held d, F (P.entry c) [] held d
  settle : ∀ pc q ws held d₀ d, P.cmd pc = .exec q → (∀ k ∈ q.rows d₀, k ∈ held) → F pc ws held d →
    F (q.run (q.rows d₀) (P.applyAll ws d)).1 (ws ++ (q.run (q.rows d₀) (P.applyAll ws d)).2) held d
  frame : ∀ pc ws held held' d d', F pc ws held d → (∀ k ∈ held, k ∈ held' ∧ P.row k d = P.row k d') →
    F pc ws held' d'

variable {P : Publisher δ κ ω χ π ε ρ} {F : π → List ω → Set κ → δ → Prop} {t : τ}

theorem Publisher.row_applyAll {k : κ} {ws : List ω} (d : δ) (h : ∀ w ∈ ws, P.target w ≠ k) :
    P.row k (P.applyAll ws d) = P.row k d :=
  Program.applyAll_obs d (fun w d => P.frame w k d) h

def heldBy (s : Sys δ κ ω τ π) (t : τ) : Set κ := { k | s.lock k = some t }

def Holds (F : π → List ω → Set κ → δ → Prop) (s : Sys δ κ ω τ π) : Prop :=
  ∀ t x, s.txn t = some x → F x.pc x.writes (heldBy s t) s.db

variable [DecidableEq τ] [DecidableEq κ]

namespace Stable

omit [DecidableEq κ] in
theorem setTxn {s : Sys δ κ ω τ π} {x : Txn κ ω π} (h : Holds F s)
    (hx : F x.pc x.writes (heldBy s t) s.db) : Holds F (s.setTxn t x) := by
  intro u y hy
  rcases Sys.setTxn_txn_eq_some hy with ⟨rfl, rfl⟩ | ⟨-, hy⟩
  · exact hx
  · exact h u y hy

omit [DecidableEq κ] in
theorem close (hF : Stable P F) {s : Sys δ κ ω τ π} {d : δ} (h : Holds F s)
    (hd : ∀ u, u ≠ t → ∀ k ∈ heldBy s u, P.row k s.db = P.row k d) :
    Holds F { s.close t with db := d } := by
  intro u y hy
  obtain ⟨hne, hy⟩ := Sys.close_txn_eq_some (s := s) hy
  exact hF.frame _ _ _ _ _ _ (h u y hy) fun k hk => ⟨Sys.close_lock_eq_some.mpr ⟨hne, hk⟩, hd u hne k hk⟩

theorem preserves (hF : Stable P F) :
    P.toProgram.Preserves (fun _ _ => True) (fun s : Sys δ κ ω τ π => P.LockInv s ∧ Holds F s) where
  begin s t c h ht := by
    refine ⟨Program.lockInv_preserves.begin s t c h.1 ht, ?_⟩
    exact setTxn (x := { pc := P.entry c }) h.2 (hF.entry c _ _)
  select s t pc ws tr q h hx hq := by
    have hpc := h.2 t _ hx
    exact ⟨Program.lockInv_preserves.select s t pc ws tr q h.1 hx hq, setTxn h.2 hpc⟩
  acquire s t k pc n ks todo ws tr h hx hk ha := by
    refine ⟨Program.lockInv_preserves.acquire s t k pc n ks todo ws tr h.1 hx hk ha, ?_⟩
    -- whoever holds a lock keeps it
    have hlocked : Holds F (s.lockRow t k) := fun u y hy =>
      hF.frame _ _ _ _ _ _ (h.2 u y hy) fun k' hk' => ⟨Sys.lockRow_lock_of_held ha hk', rfl⟩
    have hpc := hlocked t _ hx
    exact setTxn hlocked hpc
  settle s t pc n ks ws tr q h hx hq := by
    refine ⟨Program.lockInv_preserves.settle s t pc n ks ws tr q h.1 hx hq, setTxn h.2 ?_⟩
    obtain ⟨q', d₀, hq', rfl⟩ := h.1.selected t _ n ks [] hx rfl
    obtain rfl : q' = q := by simpa using hq'.symm.trans hq
    exact hF.settle pc q' ws _ d₀ s.db hq (h.1.locked_of_settle hx) (h.2 t _ hx)
  commit s t pc ws tr h _ hx hc := by
    refine ⟨Program.lockInv_preserves.commit s t pc ws tr h.1 trivial hx hc, ?_⟩
    refine hF.close (d := P.applyAll ws s.db) h.2 fun u hne k hk => ?_
    exact (h.1.obs_of_locked (P.row k) (fun w d => P.frame w k d) hx hk hne).symm
  abort s t x h hx :=
    ⟨h.1.close, hF.close (d := s.db) h.2 fun _ _ _ _ => rfl⟩

end Stable

/-! ### Runs -/

structure Inv (P : Publisher δ κ ω χ π ε ρ) (F : π → List ω → Set κ → δ → Prop)
    (s : State δ κ ω τ π ε) : Prop where
  locks : P.LockInv s.sys
  holds : Holds F s.sys
  outbox : Outbox.Inv P.transact s.outbox
  db : s.outbox.db = s.sys.db
  ended : ∀ t, t ∈ s.outbox.log.filterMap Outbox.Entry.ends? → t ∈ s.sys.started ∧ s.sys.txn t = none
  commits : ∀ t c d d', .committed t c d d' ∈ s.outbox.log →
    ∃ pc ws held, c = some (pc, ws) ∧ P.cmd pc = .commit ∧ F pc ws held d

namespace Inv

variable {s s' : State δ κ ω τ π ε} {a : Act κ ω τ χ}

/-- A transaction that is over is not opened again. -/
theorem over_preserves (u : τ) :
    P.toProgram.Preserves (fun _ _ => True)
      (fun s : Sys δ κ ω τ π => u ∈ s.started ∧ s.txn u = none) where
  begin s t c h ht := by
    have hne : u ≠ t := fun heq => ht (heq ▸ h.1)
    exact ⟨List.mem_cons_of_mem _ h.1, (Sys.setTxn_txn_ne (s := s) hne).trans h.2⟩
  select s t pc ws tr q h hx _ := ⟨h.1, (Sys.setTxn_txn_ne fun heq => by simp [heq, hx] at h).trans h.2⟩
  acquire s t k pc n ks todo ws tr h hx _ _ :=
    ⟨h.1, (Sys.setTxn_txn_ne fun heq => by simp [heq, hx] at h).trans h.2⟩
  settle s t pc n ks ws tr q h hx _ :=
    ⟨h.1, (Sys.setTxn_txn_ne fun heq => by simp [heq, hx] at h).trans h.2⟩
  commit s t pc ws tr h _ hx _ :=
    ⟨h.1, (Sys.close_txn_ne (s := s) fun heq => by simp [heq, hx] at h).trans h.2⟩
  abort s t x h hx := ⟨h.1, (Sys.close_txn_ne fun heq => by simp [heq, hx] at h).trans h.2⟩

theorem over_step {sys : Sys δ κ ω τ π} {u : τ} {b : ReadCommitted.Act κ τ χ}
    (hu : u ∈ s.sys.started ∧ s.sys.txn u = none) (hs : P.toProgram.step s.sys b = some sys) :
    u ∈ sys.started ∧ sys.txn u = none :=
  (over_preserves u).when.step hu (by cases b <;> trivial) hs

omit [DecidableEq κ] in
theorem init (d : δ) : Inv P F (Publisher.init d : State δ κ ω τ π ε) where
  locks := Program.lockInv_init d
  holds _ _ hx := by cases hx
  outbox := Outbox.Inv.init d
  db := rfl
  ended _ ht := by cases ht
  commits _ _ _ _ hc := by cases hc

/-- The transaction of `t` is over, on the server and for its caller. -/
theorem finish (hF : Stable P F) (h : Inv P F s) {x : Txn κ ω π} {c : Ended ω π}
    {sys : Sys δ κ ω τ π} {outbox : Outbox.State τ (Ended ω π) δ ε} {a : ReadCommitted.Act κ τ χ}
    {b : Outbox.Act τ (Ended ω π) δ} (hx : s.sys.txn t = some x)
    (hsys : P.toProgram.step s.sys a = some sys) (hout : Outbox.step P.transact s.outbox b = some outbox)
    (hb : b = .transact t c ∨ b = .lose t c)
    (hc : ∀ y, c = some y → y = (x.pc, x.writes) ∧ P.cmd x.pc = .commit) (hdb : outbox.db = sys.db)
    (hover : t ∈ sys.started ∧ sys.txn t = none) : Inv P F ⟨sys, outbox⟩ := by
  obtain ⟨hlocks, hholds⟩ :=
    hF.preserves.when.step ⟨h.locks, h.holds⟩ (by cases a <;> trivial) hsys
  have houtbox := h.outbox.step hout
  obtain ⟨xs, hlog, hxs⟩ := Outbox.log_of_step hout
  -- whatever is logged now is the end of `t`
  have hnew {y : Outbox.Entry τ (Ended ω π) δ ε} {u : τ} (hy : y ∈ xs) (hu : y.ends? = some u) :
      u = t ∧ ((∃ d', y = .committed t c s.outbox.db d') ∨ y = .rolledBack t c) := by
    rcases hxs y hy with ⟨_, _, rfl⟩ | ⟨t', c', hact, hended⟩
    · cases hu
    · obtain ⟨rfl, rfl⟩ : t' = t ∧ c' = c := by rcases hb with rfl | rfl <;> simpa [eq_comm] using hact
      rcases hended with ⟨d', rfl⟩ | rfl
      · exact ⟨(Option.some.inj hu).symm, .inl ⟨d', rfl⟩⟩
      · exact ⟨(Option.some.inj hu).symm, .inr rfl⟩
  refine ⟨hlocks, hholds, houtbox, hdb, fun u hu => ?_, fun t' c' d d' hcommitted => ?_⟩
  · obtain ⟨y, hy, hyu⟩ := List.mem_filterMap.mp hu
    rw [hlog] at hy
    rcases List.mem_append.mp hy with hold | hy
    · exact over_step (h.ended u (List.mem_filterMap.mpr ⟨y, hold, hyu⟩)) hsys
    · rw [(hnew hy hyu).1]
      exact hover
  · obtain ⟨es, htx⟩ := houtbox.commits t' c' d d' hcommitted
    rw [hlog] at hcommitted
    rcases List.mem_append.mp hcommitted with hold | hy
    · exact h.commits t' c' d d' hold
    · obtain ⟨rfl, ⟨d₁, heq⟩ | heq⟩ := hnew hy rfl
      · obtain ⟨-, rfl, rfl, rfl⟩ := Outbox.Entry.committed.inj heq
        cases c' with
        | none => cases htx
        | some y =>
          obtain ⟨rfl, hcmd⟩ := hc y rfl
          exact ⟨x.pc, x.writes, _, rfl, hcmd, h.db ▸ h.holds t' x hx⟩
      · cases heq

/-- A step of the server that ends no transaction. -/
theorem server (hF : Stable P F) (h : Inv P F s) {a : ReadCommitted.Act κ τ χ}
    (hs : (P.toProgram.step s.sys a).map (fun sys => { s with sys }) = some s')
    (ha : ∀ t, a ≠ .commit t) : Inv P F s' := by
  obtain ⟨sys, hsys, rfl⟩ := Option.map_eq_some_iff.mp hs
  obtain ⟨hlocks, hholds⟩ :=
    hF.preserves.when.step ⟨h.locks, h.holds⟩ (by cases a <;> trivial) hsys
  exact ⟨hlocks, hholds, h.outbox, h.db.trans (Program.db_of_step hsys ha).symm,
    fun u hu => over_step (h.ended u hu) hsys, h.commits⟩

omit [DecidableEq κ] in
/-- A publication leaves the transactions alone. -/
theorem publication (h : Inv P F s) {outbox : Outbox.State τ (Ended ω π) δ ε}
    {b : Outbox.Act τ (Ended ω π) δ} (hout : Outbox.step P.transact s.outbox b = some outbox)
    (hb : b = .publish t ∨ ∃ delivered, b = .fail t delivered) : Inv P F { s with outbox } := by
  have hdb := Outbox.db_of_publication hout hb
  obtain ⟨xs, hlog, hxs⟩ := Outbox.log_of_step hout
  have hnew {y : Outbox.Entry τ (Ended ω π) δ ε} (hy : y ∈ xs) : ∃ t e, y = .published t e := by
    rcases hxs y hy with hpublished | ⟨t, c, hact, -⟩
    · exact hpublished
    · rcases hb with rfl | ⟨_, rfl⟩ <;> simp at hact
  refine ⟨h.locks, h.holds, h.outbox.step hout, hdb.trans h.db, fun u hu => ?_, fun t c d d' hc => ?_⟩
  · obtain ⟨y, hy, hyu⟩ := List.mem_filterMap.mp hu
    rw [hlog] at hy
    rcases List.mem_append.mp hy with hold | hy
    · exact h.ended u (List.mem_filterMap.mpr ⟨y, hold, hyu⟩)
    · obtain ⟨_, _, rfl⟩ := hnew hy
      cases hyu
  · rw [hlog] at hc
    rcases List.mem_append.mp hc with hold | hy
    · exact h.commits t c d d' hold
    · obtain ⟨_, _, heq⟩ := hnew hy
      cases heq

omit [DecidableEq κ] in
theorem others (hF : Stable P F) (h : Inv P F s) {ws : List ω}
    (hws : ∀ w ∈ ws, s.sys.lock (P.target w) = none) :
    Inv P F ⟨{ s.sys with db := P.applyAll ws s.sys.db },
      { s.outbox with db := P.applyAll ws s.sys.db }⟩ where
  locks := ⟨h.locks.holder, h.locks.writes, h.locks.rows, h.locks.selected, h.locks.started,
    h.locks.logged⟩
  holds u y hy := by
    refine hF.frame _ _ _ _ _ _ (h.holds u y hy) fun k hk => ⟨hk, ?_⟩
    refine (P.row_applyAll s.sys.db fun w hw heq => ?_).symm
    -- a row that `u` has locked is not free
    have hheld : s.sys.lock k = some u := hk
    rw [← heq, hws w hw] at hheld
    cases hheld
  outbox := h.outbox.others _
  db := rfl
  ended := h.ended
  commits := h.commits

theorem step (hF : Stable P F) (h : Inv P F s) (hs : P.step s a = some s') : Inv P F s' := by
  cases a with
  | server a =>
    cases a with
    | commit t =>
      obtain ⟨x, sys, outbox, hx, hsys, hout, rfl⟩ := Publisher.finish_eq_some hs
      obtain ⟨pc, ws, tr, hx', hc, rfl⟩ := Program.commit_eq_some hsys
      obtain rfl := Option.some.inj (hx.symm.trans hx')
      refine h.finish hF hx hsys hout (.inl rfl) (fun y hy => ⟨(Option.some.inj hy).symm, hc⟩) ?_
        ⟨h.locks.started t (by rw [hx, Option.isSome_some]), Sys.close_txn_self⟩
      rw [Outbox.db_of_transact hout, h.db]
      rfl
    | abort t =>
      obtain ⟨x, sys, outbox, hx, hsys, hout, rfl⟩ := Publisher.finish_eq_some hs
      obtain rfl : s.sys.close t = sys := by simpa [Program.step, hx] using hsys
      refine h.finish hF hx hsys hout (.inl rfl) (fun _ hy => by cases hy) ?_
        ⟨h.locks.started t (by rw [hx, Option.isSome_some]), Sys.close_txn_self⟩
      rw [Outbox.db_of_transact hout, h.db]
      rfl
    | begin t c => exact h.server hF hs fun _ heq => by cases heq
    | start t => exact h.server hF hs fun _ heq => by cases heq
    | lock t k => exact h.server hF hs fun _ heq => by cases heq
  | lose t =>
    obtain ⟨x, sys, outbox, hx, hsys, hout, rfl⟩ := Publisher.finish_eq_some hs
    obtain ⟨pc, ws, tr, hx', hc, rfl⟩ := Program.commit_eq_some hsys
    obtain rfl := Option.some.inj (hx.symm.trans hx')
    refine h.finish hF hx hsys hout (.inr rfl) (fun y hy => ⟨(Option.some.inj hy).symm, hc⟩) ?_
      ⟨h.locks.started t (by rw [hx, Option.isSome_some]), Sys.close_txn_self⟩
    rw [Outbox.db_of_lose hout, h.db]
    rfl
  | publish t =>
    obtain ⟨outbox, hout, rfl⟩ := Option.map_eq_some_iff.mp hs
    exact h.publication hout (.inl rfl)
  | fail t delivered =>
    obtain ⟨outbox, hout, rfl⟩ := Option.map_eq_some_iff.mp hs
    exact h.publication hout (.inr ⟨delivered, rfl⟩)
  | others ws =>
    simp only [Publisher.step] at hs
    split at hs
    · next hws =>
      obtain rfl := Option.some.inj hs
      exact h.others hF hws
    · cases hs

theorem reachable (hF : Stable P F) {d : δ} (hs : Transition.Reachable P.step (Publisher.init d) s) :
    Inv P F s :=
  hs.induction (fun _ _ _ h hs => h.step hF hs) (init d)

end Inv

/-! ### A transaction by itself -/

namespace Publisher

/-- From the store `d`, the transaction gets to its commit by itself. -/
inductive Completes (P : Publisher δ κ ω χ π ε ρ) (d : δ) : π → List ω → π → List ω → Prop where
  | commit {pc : π} {ws : List ω} (hc : P.cmd pc = .commit) : Completes P d pc ws pc ws
  | exec {pc pc' : π} {ws ws' : List ω} {q : Stmt δ κ ω π} (hq : P.cmd pc = .exec q)
    (hrest : Completes P d (q.run (q.rows (P.applyAll ws d)) (P.applyAll ws d)).1
      (ws ++ (q.run (q.rows (P.applyAll ws d)) (P.applyAll ws d)).2) pc' ws') :
    Completes P d pc ws pc' ws'

/-- `t` is between two statements, and nobody else has locked a row. -/
structure Ready (s : State δ κ ω τ π ε) (t : τ) (pc : π) (ws : List ω) : Prop where
  txn : ∃ tr, s.sys.txn t = some ⟨pc, .ready, ws, tr⟩
  free : ∀ k, s.sys.Available t k

variable {s : State δ κ ω τ π ε} {pc pc' : π} {ws ws' : List ω} {q : Stmt δ κ ω π}

/-- A statement gets the rows that it has still to lock. -/
theorem settle_reachable {sys : Sys δ κ ω τ π} {ks todo : List κ} {tr : List (ℕ × ℕ)}
    (hx : sys.txn t = some ⟨pc, .locking n ks todo, ws, tr⟩) (hfree : ∀ k, sys.Available t k)
    (hq : P.cmd pc = .exec q) (outbox : Outbox.State τ (Ended ω π) δ ε) :
    ∃ s', Transition.Reachable P.step ⟨P.toProgram.settle sys t, outbox⟩ s' ∧
      Ready s' t (q.run ks (P.applyAll ws sys.db)).1 (ws ++ (q.run ks (P.applyAll ws sys.db)).2) ∧
      s'.sys.db = sys.db ∧ s'.outbox = outbox := by
  induction hlen : todo.length using Nat.strongRecOn generalizing sys todo with
  | ind m ih =>
    cases todo with
    | nil =>
      rw [Program.settle_of_locked hx hq]
      exact ⟨_, .refl _, ⟨⟨_, Sys.setTxn_txn_self⟩, hfree⟩, rfl, rfl⟩
    | cons k todo =>
      have hwait : P.toProgram.settle sys t = sys := by simp only [Program.settle, hx]
      rw [hwait]
      obtain ⟨sys', hsys'⟩ : ∃ sys', sys' = (sys.lockRow t k).setTxn t
          ⟨pc, .locking n ks ((k :: todo).filter (· ≠ k)), ws, tr⟩ := ⟨_, rfl⟩
      have hstep : P.step ⟨sys, outbox⟩ (.server (.lock t k)) =
          some ⟨P.toProgram.settle sys' t, outbox⟩ := by
        simp only [step, Program.step, Sys.acquire, hx, List.mem_cons_self, hfree k, and_self, if_true,
          Option.map_some, hsys']
      have hshorter : ((k :: todo).filter (· ≠ k)).length < m := by
        rw [← hlen, List.filter_cons_of_neg (by simp)]
        exact Nat.lt_succ_of_le (List.length_filter_le ..)
      have hfree' : ∀ k', sys'.Available t k' := by
        intro k'
        subst hsys'
        rcases eq_or_ne k' k with rfl | hne
        · exact .inr Sys.lockRow_lock_self
        · exact (hfree k').imp (Function.update_of_ne hne ..).trans (Function.update_of_ne hne ..).trans
      have hlocking : sys'.txn t = some ⟨pc, .locking n ks ((k :: todo).filter (· ≠ k)), ws, tr⟩ := by
        rw [hsys', Sys.setTxn_txn_self]
      obtain ⟨s', ⟨as, has⟩, hready, hdb, hout⟩ := ih _ hshorter hlocking hfree' rfl
      subst hsys'
      exact ⟨s', ⟨_ :: as, Transition.run_cons_eq_some.mpr ⟨_, hstep, has⟩⟩, hready, hdb, hout⟩

theorem Ready.exec (h : Ready s t pc ws) (hq : P.cmd pc = .exec q) :
    ∃ s', Transition.Reachable P.step s s' ∧
      Ready s' t (q.run (q.rows (P.applyAll ws s.sys.db)) (P.applyAll ws s.sys.db)).1
        (ws ++ (q.run (q.rows (P.applyAll ws s.sys.db)) (P.applyAll ws s.sys.db)).2) ∧
      s'.sys.db = s.sys.db ∧ s'.outbox = s.outbox := by
  obtain ⟨tr, hx⟩ := h.txn
  obtain ⟨sys, hsys⟩ : ∃ sys, sys = s.sys.setTxn t ⟨pc, .locking s.sys.log.length
      (q.rows (P.applyAll ws s.sys.db)) (q.rows (P.applyAll ws s.sys.db)), ws, tr⟩ := ⟨_, rfl⟩
  have hstep : P.step s (.server (.start t)) = some ⟨P.toProgram.settle sys t, s.outbox⟩ := by
    simp only [step, Program.step, Program.select, hx, hq, Option.map_some, hsys]
  have hlocking : sys.txn t = some ⟨pc, .locking s.sys.log.length (q.rows (P.applyAll ws s.sys.db))
      (q.rows (P.applyAll ws s.sys.db)), ws, tr⟩ := by
    rw [hsys, Sys.setTxn_txn_self]
  have hfree : ∀ k, sys.Available t k := by
    rw [hsys]
    exact h.free
  obtain ⟨s', ⟨as, has⟩, hready, hdb, hout⟩ := settle_reachable hlocking hfree hq s.outbox
  subst hsys
  exact ⟨s', ⟨_ :: as, Transition.run_cons_eq_some.mpr ⟨_, hstep, has⟩⟩, hready, hdb, hout⟩

theorem Ready.completes (h : Ready s t pc ws) (hcompletes : P.Completes s.sys.db pc ws pc' ws') :
    ∃ s', Transition.Reachable P.step s s' ∧ Ready s' t pc' ws' ∧ P.cmd pc' = .commit ∧
      s'.sys.db = s.sys.db ∧ s'.outbox = s.outbox := by
  generalize hd : s.sys.db = d at hcompletes
  induction hcompletes generalizing s with
  | commit hc => exact ⟨s, .refl s, h, hc, hd, rfl⟩
  | exec hq _ ih =>
    obtain ⟨s₁, ⟨as, has⟩, hready, hdb, hout⟩ := h.exec hq
    rw [hd] at hready hdb
    obtain ⟨s', ⟨bs, hbs⟩, hready', hc, hdb', hout'⟩ := ih hready hdb
    exact ⟨s', ⟨as ++ bs, Transition.run_append_eq_some.mpr ⟨s₁, has, hbs⟩⟩, hready', hc, hdb',
      hout'.trans hout⟩

theorem begin_step {c : χ} (hnew : t ∉ s.sys.started) (hlocks : ∀ k, s.sys.lock k = none) :
    ∃ s₁, P.step s (.server (.begin t c)) = some s₁ ∧ Ready s₁ t (P.entry c) [] ∧
      s₁.sys.db = s.sys.db ∧ s₁.outbox = s.outbox :=
  ⟨{ s with sys := s.sys.opened t (P.entry c) },
    by simp only [step, Program.step, if_neg hnew, Option.map_some],
    ⟨⟨[], Function.update_self ..⟩, fun k => .inl (hlocks k)⟩, rfl, rfl⟩

theorem run_publications {outbox : Outbox.State τ (Ended ω π) δ ε} {n : ℕ}
    (h : Transition.run (Outbox.step P.transact) s.outbox (List.replicate n (.publish t)) = some outbox) :
    Transition.run P.step s (List.replicate n (.publish t)) = some { s with outbox } := by
  induction n generalizing s with
  | zero => exact congrArg (fun outbox => some { s with outbox }) (Option.some.inj h)
  | succ n ih =>
    obtain ⟨o, ho, hrest⟩ := Transition.run_cons_eq_some.mp h
    have hstep : P.step s (.publish t) = some { s with outbox := o } := by
      simp only [step, ho, Option.map_some]
    exact Transition.run_cons_eq_some.mpr ⟨_, hstep, ih (s := { s with outbox := o }) hrest⟩

/-- What a call does that nothing comes between, with as much published as `sent`. -/
theorem committed_reachable {c : χ} {sent rest : List ε} (hnew : t ∉ s.sys.started)
    (hlocks : ∀ k, s.sys.lock k = none) (hended : t ∉ s.outbox.log.filterMap Outbox.Entry.ends?)
    (hdb : s.outbox.db = s.sys.db) (hcompletes : P.Completes s.sys.db (P.entry c) [] pc ws)
    (hannounces : P.announces pc = sent ++ rest) :
    ∃ s', Transition.Reachable P.step s s' ∧ s'.sys.db = P.applyAll ws s.sys.db ∧
      s'.outbox.pending t = rest ∧ s'.outbox.log = s.outbox.log ++
        .committed t (some (pc, ws)) s.sys.db (P.applyAll ws s.sys.db) :: sent.map (.published t) := by
  obtain ⟨s₁, hbegin, hready, hdb₁, hout₁⟩ := begin_step (P := P) (c := c) hnew hlocks
  obtain ⟨s₂, ⟨as, has⟩, ⟨⟨tr, hx⟩, -⟩, hcmd, hdb₂, hout₂⟩ := hready.completes (hdb₁ ▸ hcompletes)
  have htransact : P.transact (some (pc, ws)) s.outbox.db = some (P.applyAll ws s.sys.db, sent ++ rest) := by
    rw [transact, hdb, hannounces]
  obtain ⟨outbox, hcommit, hpublish⟩ := Transition.run_cons_eq_some.mp
    (Outbox.run_committed sent rest hended htransact)
  have hstep : P.step s₂ (.server (.commit t)) =
      some ⟨s₂.sys.committed t pc (P.applyAll ws s.sys.db), outbox⟩ := by
    simp only [step, finish, hx, Option.bind_some, Program.step, hcmd, hout₂, hout₁, hcommit,
      Option.map_some, hdb₂, hdb₁]
  refine ⟨_, ⟨_ :: (as ++ _ :: _), Transition.run_cons_eq_some.mpr ⟨s₁, hbegin,
    Transition.run_append_eq_some.mpr ⟨s₂, has, Transition.run_cons_eq_some.mpr ⟨_, hstep,
      run_publications hpublish⟩⟩⟩⟩, rfl, Function.update_self .., ?_⟩
  rw [← hdb]

/-- A call may fail at any point, its `COMMIT` included. -/
theorem rolledBack_reachable (c : χ) (hnew : t ∉ s.sys.started) (hlocks : ∀ k, s.sys.lock k = none)
    (hended : t ∉ s.outbox.log.filterMap Outbox.Entry.ends?) :
    ∃ s', Transition.Reachable P.step s s' ∧ s'.sys.db = s.sys.db ∧
      s'.outbox.pending = s.outbox.pending ∧ s'.outbox.log = s.outbox.log ++ [.rolledBack t none] := by
  obtain ⟨s₁, hbegin, ⟨⟨tr, hx⟩, -⟩, hdb₁, hout₁⟩ := begin_step (P := P) (c := c) hnew hlocks
  have hstep : P.step s₁ (.server (.abort t)) = some ⟨s₁.sys.close t,
      { s.outbox with log := s.outbox.log ++ [.rolledBack t none] }⟩ := by
    simp only [step, finish, hx, Option.bind_some, Program.step, Option.isSome_some, if_true, Outbox.step,
      hout₁, if_neg hended, transact, Option.map_some]
  exact ⟨_, ⟨[_, _], Transition.run_cons_eq_some.mpr ⟨s₁, hbegin,
    Transition.run_singleton.trans hstep⟩⟩, hdb₁, rfl, rfl⟩

end Publisher

end Publishing
