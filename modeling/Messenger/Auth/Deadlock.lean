import Mathlib.Data.Fintype.Basic
import Messenger.Auth.SingleUse
import Messenger.Lib.Deadlock

/-! Deadlocks among the transactions of `refresh` and `logout`. A reuse branch keeps the row of the
token it was shown while it locks every row of the user, and a logout keeps its refresh row while it
locks its access row; a rotation waits for nobody once it has its token. -/

namespace Messenger
open ReadCommitted Relation

def Pc.pair? : Pc → Option HashedPair
  | getRefreshToken _ p _ => some p
  | revokePresented _ _ p => some p
  | createToken _ _ _ p => some p
  | issued _ _ p => some p
  | _ => none

section

variable {τ : Type}

/-- The user whose tokens `t` is about to revoke: it holds the row of a revoked token and has not
finished its two `UPDATE`s. -/
def reusing? [DecidableEq τ] (s : AuthSys τ) (t : τ) : Option UUID :=
  (s.txn t).bind fun x =>
    match x.pc with
    | .revokeAll _ _ u => some u
    | .getRefreshToken h _ _ =>
      if s.lock (.token .refresh h) = some t then
        (((s.db.tokens .refresh).get? h).filter (·.isRevoked)).map (·.userId)
      else none
    | _ => none

/-- The access token that `t` has still to revoke: it is a logout that holds its refresh row. -/
def leaving? [DecidableEq τ] (s : AuthSys τ) (t : τ) : Option TokenHash :=
  (s.txn t).bind fun x =>
    match x.pc with
    | .logoutAccess a => some a
    | .logoutRefresh r a => if s.lock (.token .refresh r) = some t then a else none
    | _ => none

/-- The rows that the last `UPDATE` of a reuse branch has still to lock, once its snapshot is taken. -/
def lastRows? (x : AuthTxn) : Option (List RowKey) :=
  match x.pc, x.phase with
  | .revokeAll .refresh _ _, .locking _ _ todo => some todo
  | _, _ => none

def Passed (s : AuthSys τ) (t : τ) (k : RowKey) : Prop :=
  ∃ todo, (s.txn t).bind lastRows? = some todo ∧ k ∉ todo

instance (s : AuthSys τ) (t : τ) (k : RowKey) : Decidable (Passed s t k) :=
  decidable_of_iff (((s.txn t).bind lastRows?).any (k ∉ ·) = true)
    (by simp only [Passed, Option.any_eq_true, decide_eq_true_eq])

variable [DecidableEq τ]

def UnusedHash (s : AuthSys τ) (t : τ) (p : HashedPair) (k : TokenKind) : Prop :=
  (s.db.tokens k).get? (p.hash k) = none ∧ s.Available t (.token k (p.hash k)) ∧
    ∀ t', t' ≠ t → ∀ q, (s.txn t').bind (·.pc.pair?) = some q → q.hash k ≠ p.hash k

instance [Fintype τ] (s : AuthSys τ) (t : τ) (p : HashedPair) (k : TokenKind) :
    Decidable (UnusedHash s t p k) := by
  unfold UnusedHash
  infer_instance

/-- Nobody has stored a token of this pair, or is about to: the generated tokens are random. -/
def Unused (s : AuthSys τ) (t : τ) (p : HashedPair) : Prop := ∀ k, UnusedHash s t p k

/-- Only `refresh` and `logout` are called, and what `refresh` generates is new. -/
def TokenCalls (s : AuthSys τ) : AuthAct τ → Prop
  | .begin t (.refresh _ p _) => Unused s t p
  | .begin _ (.logout _ _) => True
  | .begin _ _ => False
  | _ => True

/-- Reuse branches keep out of each other's way and of logouts. No call gets the row of a revoked
token while another one is at the `UPDATE`s of a reuse branch for the same user. Such a branch takes
no access row that a logout, with its refresh row locked, has still to revoke. And while a branch
holds the access row that a logout will revoke, the logout takes its refresh row only if the branch
is past it. -/
def Orderly (s : AuthSys τ) : AuthAct τ → Prop
  | .lock t k =>
    match (s.txn t).map Txn.pc with
    | some (.getRefreshToken h _ _) =>
      ∀ r, (s.db.tokens .refresh).get? h = some r → r.isRevoked = true →
        ∀ t', t' ≠ t → reusing? s t' ≠ some r.userId
    | some (.revokeAll .access _ _) => ∀ t' a, leaving? s t' = some a → k ≠ .token .access a
    | some (.logoutRefresh r (some a)) =>
      ∀ t', s.lock (.token .access a) = some t' → ∀ u, reusing? s t' = some u →
        s.db.OwnedBy .refresh r u ∧ Passed s t' (.token .refresh r)
    | _ => True
  | _ => True

instance [Fintype τ] (s : AuthSys τ) (t : τ) (p : HashedPair) : Decidable (Unused s t p) :=
  decidable_of_iff (UnusedHash s t p .access ∧ UnusedHash s t p .refresh)
    ⟨fun h k => match k with | .access => h.1 | .refresh => h.2, fun h => ⟨h .access, h .refresh⟩⟩

instance [Fintype τ] (s : AuthSys τ) (act : AuthAct τ) : Decidable (TokenCalls s act) := by
  unfold TokenCalls
  split <;> infer_instance

instance [Fintype τ] (s : AuthSys τ) (act : AuthAct τ) : Decidable (Orderly s act) := by
  unfold Orderly
  split
  · split <;> infer_instance
  · infer_instance

/-! ### The invariant -/

structure FirstRow (s : AuthSys τ) (t : τ) (x : AuthTxn) (h : TokenHash) : Prop where
  held : ∀ k, s.lock k = some t → k = .token .refresh h ∧ ∃ n ks, x.phase = .locking n ks []
  todo : ∀ k ∈ x.phase.todo, k = .token .refresh h ∧ ∃ u, s.db.OwnedBy .refresh h u

structure SecondRow (s : AuthSys τ) (t : τ) (x : AuthTxn) (a : TokenHash) : Prop where
  held : ∀ k, s.lock k = some t →
    (∃ r, k = .token .refresh r) ∨ k = .token .access a ∧ ∃ n ks, x.phase = .locking n ks []
  todo : ∀ k ∈ x.phase.todo, k = .token .access a ∧ ∃ u, s.db.OwnedBy .access a u

structure UserRows (s : AuthSys τ) (t : τ) (x : AuthTxn) (kind : TokenKind) (u : UUID) : Prop where
  held : ∀ k, s.lock k = some t → ∃ kind h, k = .token kind h ∧ s.db.OwnedBy kind h u
  todo : ∀ k ∈ x.phase.todo, ∃ h, k = .token kind h ∧ s.db.OwnedBy kind h u

def QueueTxn (s : AuthSys τ) (t : τ) (x : AuthTxn) : Prop :=
  match x.pc with
  | .getRefreshToken h _ _ => FirstRow s t x h
  | .logoutRefresh r _ => FirstRow s t x r
  | .logoutAccess a => SecondRow s t x a
  | .revokeAll kind _ u => UserRows s t x kind u
  | .revokePresented h _ _ => ∀ k ∈ x.phase.todo, k = .token .refresh h
  | .createToken kind _ _ p => ∀ k ∈ x.phase.todo, k = .token kind (p.hash kind)
  | .issued _ _ _ => True
  | .reused _ _ => True
  | .loggedOut => True
  | .raised _ => True
  | _ => False

structure QueueInv (s : AuthSys τ) : Prop where
  txns : ∀ t x, s.txn t = some x → QueueTxn s t x
  pairs : ∀ t x p, s.txn t = some x → x.pc.pair? = some p → Unused s t p
  alone : ∀ t t' u, reusing? s t = some u → reusing? s t' = some u → t = t'
  crossing : ∀ t t' a u r, leaving? s t = some a → s.lock (.token .access a) = some t' →
    reusing? s t' = some u → s.lock (.token .refresh r) = some t →
    s.db.OwnedBy .refresh r u ∧ Passed s t' (.token .refresh r)

variable {pw : PasswordHasher} {s s' : AuthSys τ} {t t' : τ} {x y : AuthTxn} {u : UUID}
  {a h r : TokenHash}

theorem reusing?_eq_some : reusing? s t = some u ↔ ∃ x, s.txn t = some x ∧
    ((∃ k h, x.pc = .revokeAll k h u) ∨ ∃ h p now, x.pc = .getRefreshToken h p now ∧
      s.lock (.token .refresh h) = some t ∧
      ∃ r, (s.db.tokens .refresh).get? h = some r ∧ r.isRevoked = true ∧ r.userId = u) := by
  simp only [reusing?, Option.bind_eq_some_iff]
  refine exists_congr fun x => and_congr_right fun _ => ?_
  cases hpc : x.pc with
  | getRefreshToken h p now =>
    simp [Option.ite_none_right_eq_some, Option.filter_eq_some_iff, and_assoc]
  | revokeAll k h u => simp
  | _ => simp

theorem leaving?_eq_some : leaving? s t = some a ↔ ∃ x, s.txn t = some x ∧
    (x.pc = .logoutAccess a ∨ ∃ r, x.pc = .logoutRefresh r (some a) ∧
      s.lock (.token .refresh r) = some t) := by
  simp only [leaving?, Option.bind_eq_some_iff]
  refine exists_congr fun x => and_congr_right fun _ => ?_
  cases hpc : x.pc with
  | logoutRefresh r a => simp [Option.ite_none_right_eq_some, and_comm]
  | logoutAccess a => simp
  | _ => simp

theorem reusing?_of_txn (hx : s.txn t = some x) (hr : reusing? s t = some u) :
    (∃ k h, x.pc = .revokeAll k h u) ∨ ∃ h p now, x.pc = .getRefreshToken h p now ∧
      s.lock (.token .refresh h) = some t ∧
      ∃ r, (s.db.tokens .refresh).get? h = some r ∧ r.isRevoked = true ∧ r.userId = u := by
  obtain ⟨y, hy, hpc⟩ := reusing?_eq_some.mp hr
  obtain rfl := Option.some.inj (hy.symm.trans hx)
  exact hpc

theorem leaving?_of_txn (hx : s.txn t = some x) (hl : leaving? s t = some a) :
    x.pc = .logoutAccess a ∨ ∃ r, x.pc = .logoutRefresh r (some a) ∧
      s.lock (.token .refresh r) = some t := by
  obtain ⟨y, hy, hpc⟩ := leaving?_eq_some.mp hl
  obtain rfl := Option.some.inj (hy.symm.trans hx)
  exact hpc

omit [DecidableEq τ] in
theorem Passed.locking {k : RowKey} (h : Passed s t k) (hx : s.txn t = some x) :
    ∃ h u n ks todo, x.pc = .revokeAll .refresh h u ∧ x.phase = .locking n ks todo ∧ k ∉ todo := by
  obtain ⟨todo, htodo, hk⟩ := h
  rw [hx, Option.bind_some] at htodo
  unfold lastRows? at htodo
  split at htodo
  · next h u n ks todo' hpc hph =>
    obtain rfl := Option.some.inj htodo
    exact ⟨h, u, n, ks, todo', hpc, hph, hk⟩
  · cases htodo

/-! ### Steps of other transactions -/

/-- From `s` to `s'` the transaction `t` does nothing and gets no lock. -/
structure Idle (t : τ) (s s' : AuthSys τ) : Prop where
  txn : s'.txn t = s.txn t
  lock : ∀ k, s'.lock k = some t → s.lock k = some t
  row : ∀ k h, s.lock (.token k h) = some t → (s'.db.tokens k).get? h = (s.db.tokens k).get? h
  owned : ∀ k h u, s.db.OwnedBy k h u → s'.db.OwnedBy k h u

omit [DecidableEq τ] in
theorem FirstRow.mono (hf : FirstRow s t x h) (hlock : ∀ k, s'.lock k = some t → s.lock k = some t)
    (howned : ∀ k h u, s.db.OwnedBy k h u → s'.db.OwnedBy k h u) : FirstRow s' t x h where
  held k hk := hf.held k (hlock k hk)
  todo k hk := (hf.todo k hk).imp_right fun ⟨u, ho⟩ => ⟨u, howned _ _ _ ho⟩

omit [DecidableEq τ] in
theorem QueueTxn.mono (hQ : QueueTxn s t x) (hlock : ∀ k, s'.lock k = some t → s.lock k = some t)
    (howned : ∀ k h u, s.db.OwnedBy k h u → s'.db.OwnedBy k h u) : QueueTxn s' t x := by
  obtain ⟨pc, ph, ws, tr⟩ := x
  cases pc with
  | getRefreshToken h p now => exact FirstRow.mono hQ hlock howned
  | logoutRefresh r a => exact FirstRow.mono hQ hlock howned
  | logoutAccess a =>
    exact ⟨fun k hk => hQ.held k (hlock k hk),
      fun k hk => (hQ.todo k hk).imp_right fun ⟨u, ho⟩ => ⟨u, howned _ _ _ ho⟩⟩
  | revokeAll kind h u =>
    refine ⟨fun k hk => ?_, fun k hk => ?_⟩
    · obtain ⟨kind, h, rfl, ho⟩ := hQ.held k (hlock k hk)
      exact ⟨kind, h, rfl, howned _ _ _ ho⟩
    · obtain ⟨h, rfl, ho⟩ := hQ.todo k hk
      exact ⟨h, rfl, howned _ _ _ ho⟩
  | _ => exact hQ

theorem Idle.reusing? (hi : Idle t s s') (h : Messenger.reusing? s' t = some u) :
    Messenger.reusing? s t = some u := by
  obtain ⟨x, hx, hpc⟩ := reusing?_eq_some.mp h
  refine reusing?_eq_some.mpr ⟨x, hi.txn ▸ hx, hpc.imp_right ?_⟩
  rintro ⟨h, p, now, hpc, hlock, r, hr, hrest⟩
  have hlock := hi.lock _ hlock
  exact ⟨h, p, now, hpc, hlock, r, hi.row _ _ hlock ▸ hr, hrest⟩

theorem Idle.leaving? (hi : Idle t s s') (h : Messenger.leaving? s' t = some a) :
    Messenger.leaving? s t = some a := by
  obtain ⟨x, hx, hpc⟩ := leaving?_eq_some.mp h
  refine leaving?_eq_some.mpr ⟨x, hi.txn ▸ hx, hpc.imp_right ?_⟩
  rintro ⟨r, hpc, hlock⟩
  exact ⟨r, hpc, hi.lock _ hlock⟩

omit [DecidableEq τ] in
theorem Idle.passed {k : RowKey} (hi : Idle t s s') (h : Passed s t k) : Passed s' t k := by
  unfold Passed
  rw [hi.txn]
  exact h

/-- A step of `t` is judged by what `t` holds and waits for afterwards. -/
theorem QueueInv.frame (hI : QueueInv s) (hidle : ∀ t', t' ≠ t → Idle t' s s')
    (hpairs : ∀ t' x p, s'.txn t' = some x → x.pc.pair? = some p → Unused s' t' p)
    (htxn : ∀ y, s'.txn t = some y → QueueTxn s' t y)
    (halone : ∀ u, reusing? s' t = some u → ∀ t', t' ≠ t → reusing? s t' ≠ some u)
    (hleave : ∀ a t' u r, t' ≠ t → leaving? s' t = some a → s.lock (.token .access a) = some t' →
      reusing? s t' = some u → s'.lock (.token .refresh r) = some t →
      s.db.OwnedBy .refresh r u ∧ Passed s t' (.token .refresh r))
    (hsweep : ∀ a t' u r, t' ≠ t → leaving? s t' = some a → s'.lock (.token .access a) = some t →
      reusing? s' t = some u → s.lock (.token .refresh r) = some t' →
      s.db.OwnedBy .refresh r u ∧ Passed s' t (.token .refresh r))
    (howned : ∀ k h u, s.db.OwnedBy k h u → s'.db.OwnedBy k h u) : QueueInv s' where
  txns t' y hy := by
    rcases eq_or_ne t' t with rfl | hne
    · exact htxn y hy
    · have hi := hidle t' hne
      exact (hI.txns t' y (hi.txn ▸ hy)).mono hi.lock hi.owned
  pairs := hpairs
  alone t₁ t₂ u h₁ h₂ := by
    rcases eq_or_ne t₁ t with rfl | hne₁
    · by_contra hne
      exact halone u h₁ t₂ (Ne.symm hne) ((hidle t₂ (Ne.symm hne)).reusing? h₂)
    · have h₁' := (hidle t₁ hne₁).reusing? h₁
      rcases eq_or_ne t₂ t with rfl | hne₂
      · exact absurd h₁' (halone u h₂ t₁ hne₁)
      · exact hI.alone t₁ t₂ u h₁' ((hidle t₂ hne₂).reusing? h₂)
  crossing t₁ t₂ a u r hl ha hr hrow := by
    rcases eq_or_ne t₁ t with rfl | hne₁
    · rcases eq_or_ne t₂ t₁ with rfl | hne₂
      · -- one call is not both
        obtain ⟨x, hx, hpc⟩ := leaving?_eq_some.mp hl
        have hpc' := reusing?_of_txn hx hr
        rcases hpc with hpc | ⟨r, hpc, -⟩ <;> simp [hpc] at hpc'
      · have hi := hidle t₂ hne₂
        exact (hleave a t₂ u r hne₂ hl (hi.lock _ ha) (hi.reusing? hr) hrow).imp (howned _ _ _)
          hi.passed
    · have hi := hidle t₁ hne₁
      rcases eq_or_ne t₂ t with rfl | hne₂
      · exact (hsweep a t₁ u r hne₁ (hi.leaving? hl) ha hr (hi.lock _ hrow)).imp_left
          (howned _ _ _)
      · have hi₂ := hidle t₂ hne₂
        exact (hI.crossing t₁ t₂ a u r (hi.leaving? hl) (hi₂.lock _ ha) (hi₂.reusing? hr)
          (hi.lock _ hrow)).imp (howned _ _ _) hi₂.passed

omit [DecidableEq τ] in
theorem Unused.step {p : HashedPair} (h : Unused s t' p) (hidle : ∀ t', t' ≠ t → Idle t' s s')
    (hget : ∀ k, (s'.db.tokens k).get? (p.hash k) = none)
    (htaken : t' ≠ t → ∀ k, s'.lock (.token k (p.hash k)) = some t →
      s.lock (.token k (p.hash k)) = some t)
    (hpair : t' ≠ t → ∀ q, (s'.txn t).bind (·.pc.pair?) = some q → ∀ k, q.hash k ≠ p.hash k) :
    Unused s' t' p := by
  intro k
  obtain ⟨-, havail, hothers⟩ := h k
  refine ⟨hget k, ?_, fun t'' hne q hq => ?_⟩
  · cases hlock : s'.lock (.token k (p.hash k)) with
    | none => exact .inl hlock
    | some v =>
      have hv : s.lock (.token k (p.hash k)) = some v ∨ v = t' := by
        rcases eq_or_ne v t with rfl | hne
        · rcases eq_or_ne t' v with rfl | hne'
          · exact .inr rfl
          · exact .inl (htaken hne' k hlock)
        · exact .inl ((hidle v hne).lock _ hlock)
      rcases hv with hv | rfl
      · rcases havail with hnone | hown
        · rw [hv] at hnone
          cases hnone
        · exact .inr (by rw [hlock, ← hown, hv])
      · exact .inr hlock
  · rcases eq_or_ne t'' t with rfl | hne'
    · exact hpair hne.symm q hq k
    · exact hothers t'' hne q ((hidle t'' hne').txn ▸ hq)

/-! ### Steps of the transaction itself -/

def Stored (s : AuthSys τ) (x : AuthTxn) (k : RowKey) : Prop :=
  ∃ kind h, k = .token kind h ∧ ((∃ u, s.db.OwnedBy kind h u) ∨
    ∃ p, x.pc.pair? = some p ∧ h = p.hash kind)

theorem QueueInv.own_step (hI : QueueInv s) (hx : s.txn t = some x) (hself : s'.txn t = some y)
    (hdb : s'.db = s.db) (hidle : ∀ t', t' ≠ t → Idle t' s s')
    (htaken : ∀ k, s'.lock k = some t → s.lock k = some t ∨ Stored s x k)
    (hpair : ∀ p, y.pc.pair? = some p → x.pc.pair? = some p) (htxn : QueueTxn s' t y)
    (halone : ∀ u, reusing? s' t = some u → ∀ t', t' ≠ t → reusing? s t' ≠ some u)
    (hleave : ∀ a t' u r, t' ≠ t → leaving? s' t = some a → s.lock (.token .access a) = some t' →
      reusing? s t' = some u → s'.lock (.token .refresh r) = some t →
      s.db.OwnedBy .refresh r u ∧ Passed s t' (.token .refresh r))
    (hsweep : ∀ a t' u r, t' ≠ t → leaving? s t' = some a → s'.lock (.token .access a) = some t →
      reusing? s' t = some u → s.lock (.token .refresh r) = some t' →
      s.db.OwnedBy .refresh r u ∧ Passed s' t (.token .refresh r)) : QueueInv s' := by
  have hbind {q : HashedPair} (hq : (s'.txn t).bind (·.pc.pair?) = some q) :
      x.pc.pair? = some q := by
    rw [hself] at hq
    exact hpair q hq
  refine hI.frame hidle (fun t' x' p hx' hp => ?_) (fun y' hy' => ?_) halone hleave hsweep
    fun k h u ho => hdb ▸ ho
  · have hun : Unused s t' p := by
      rcases eq_or_ne t' t with rfl | hne
      · exact hI.pairs t' x p hx (hbind (by rw [hx']; exact hp))
      · exact hI.pairs t' x' p ((hidle t' hne).txn ▸ hx') hp
    refine hun.step hidle (fun k => hdb ▸ (hun k).1) (fun hne k hk => ?_) fun hne q hq k => ?_
    · refine (htaken _ hk).resolve_right ?_
      rintro ⟨kind, h, heq, ho | ⟨q, hq, rfl⟩⟩
      · cases heq
        obtain ⟨u, row, hrow, -⟩ := ho
        rw [(hun k).1] at hrow
        cases hrow
      · obtain ⟨rfl, heq⟩ := RowKey.token.inj heq
        exact (hun k).2.2 t hne.symm q (by rw [hx]; exact hq) heq.symm
    · exact (hun k).2.2 t hne.symm q (by rw [hx]; exact hbind hq)
  · obtain rfl : y' = y := Option.some.inj (hy'.symm.trans hself)
    exact htxn

variable {pc : Pc} {ws : List Write} {tr : List (ℕ × ℕ)} {n : ℕ} {ks todo : List RowKey}
  {q : Stmt Db RowKey Write Pc} {kind : TokenKind} {key : RowKey}

theorem AuthInv.view (hA : AuthInv pw s) (hx : s.txn t = some ⟨pc, .ready, ws, tr⟩)
    (hk : s.lock (.token kind h) ≠ some t) :
    ((Write.applyAll ws s.db).tokens kind).get? h = (s.db.tokens kind).get? h :=
  hA.locks.obs_of_unlocked (fun d => (d.tokens kind).get? h)
    (fun w d hw => Write.get?_apply_of_ne w d hw) hx hk

theorem AuthInv.owned_of_view (hA : AuthInv pw s) (hx : s.txn t = some ⟨pc, .ready, ws, tr⟩)
    (hk : s.lock (.token kind h) ≠ some t) (ho : (Write.applyAll ws s.db).OwnedBy kind h u) :
    s.db.OwnedBy kind h u := by
  simpa only [Db.OwnedBy, hA.view hx hk] using ho

theorem QueueTxn.select (hA : AuthInv pw s) (hx : s.txn t = some ⟨pc, .ready, ws, tr⟩)
    (hq : pc.cmd pw = .exec q) (hQ : QueueTxn s t ⟨pc, .ready, ws, tr⟩) :
    QueueTxn s t ⟨pc, .locking n ks (q.rows (Write.applyAll ws s.db)), ws, tr⟩ := by
  have hfirst {h : TokenHash} (hf : FirstRow s t ⟨pc, .ready, ws, tr⟩ h) (k : RowKey) :
      s.lock k ≠ some t := by
    intro hk
    obtain ⟨-, n, ks, hph⟩ := hf.held k hk
    cases hph
  cases pc with
  | getRefreshToken h p now =>
    cases hq
    refine ⟨fun k hk => absurd hk (hfirst hQ k), fun k hk => ?_⟩
    obtain ⟨rfl, u, ho⟩ := Queries.owned_of_mem_rows_getToken hk
    exact ⟨rfl, u, hA.owned_of_view hx (hfirst hQ _) ho⟩
  | logoutRefresh r a =>
    cases hq
    refine ⟨fun k hk => absurd hk (hfirst hQ k), fun k hk => ?_⟩
    obtain ⟨rfl, u, ho⟩ := Queries.owned_of_mem_rows_revokeToken hk
    exact ⟨rfl, u, hA.owned_of_view hx (hfirst hQ _) ho⟩
  | logoutAccess a =>
    cases hq
    have hready (k : RowKey) (hk : s.lock k = some t) : ∃ r, k = .token .refresh r := by
      rcases hQ.held k hk with hr | ⟨-, n, ks, hph⟩
      · exact hr
      · cases hph
    refine ⟨fun k hk => .inl (hready k hk), fun k hk => ?_⟩
    obtain ⟨rfl, u, ho⟩ := Queries.owned_of_mem_rows_revokeToken hk
    refine ⟨rfl, u, hA.owned_of_view hx (fun hk => ?_) ho⟩
    obtain ⟨r, hr⟩ := hready _ hk
    cases hr
  | revokeAll kind h u =>
    have hrow (k : RowKey) (hk : k ∈ (Queries.revokeAllUserTokens kind u).rows (Write.applyAll ws s.db)) :
        ∃ h, k = .token kind h ∧ s.db.OwnedBy kind h u := by
      obtain ⟨h', rfl, ho⟩ := Queries.owned_of_mem_rows_revokeAllUserTokens hk
      refine ⟨h', rfl, ?_⟩
      by_cases hlock : s.lock (.token kind h') = some t
      · obtain ⟨_, _, heq, ho⟩ := hQ.held _ hlock
        cases heq
        exact ho
      · exact hA.owned_of_view hx hlock ho
    cases kind <;> cases hq <;> exact ⟨hQ.held, hrow⟩
  | revokePresented h u p =>
    cases hq
    exact fun k hk => (Queries.owned_of_mem_rows_revokeToken hk).1
  | createToken kind o u p => cases kind <;> cases hq <;> exact fun k hk => List.mem_singleton.mp hk
  | _ => exact hQ

omit [DecidableEq τ] in
theorem FirstRow.acquire (hf : FirstRow s t ⟨pc, .locking n ks todo, ws, tr⟩ h) (hk : key ∈ todo) :
    FirstRow (s.lockRow t key) t ⟨pc, .locking n ks (todo.filter (· ≠ key)), ws, tr⟩ h where
  held k hk' := by
    have hkey := (hf.todo key hk).1
    have hdone : todo.filter (· ≠ key) = [] :=
      Sys.filter_ne_eq_nil fun k hk => (hf.todo k hk).1.trans hkey.symm
    rcases Sys.lockRow_lock_eq_some hk' with ⟨rfl, -⟩ | hold
    · exact ⟨hkey, n, ks, by rw [hdone]⟩
    · obtain ⟨-, n, ks, hph⟩ := hf.held k hold
      cases hph
      cases hk
  todo k hk := hf.todo k (List.mem_filter.mp hk).1

omit [DecidableEq τ] in
theorem QueueTxn.acquire (hQ : QueueTxn s t ⟨pc, .locking n ks todo, ws, tr⟩) (hk : key ∈ todo) :
    QueueTxn (s.lockRow t key) t ⟨pc, .locking n ks (todo.filter (· ≠ key)), ws, tr⟩ := by
  cases pc with
  | getRefreshToken h p now => exact FirstRow.acquire hQ hk
  | logoutRefresh r a => exact FirstRow.acquire hQ hk
  | logoutAccess a =>
    have hkey := (hQ.todo key hk).1
    have hdone : todo.filter (· ≠ key) = [] :=
      Sys.filter_ne_eq_nil fun k hk => (hQ.todo k hk).1.trans hkey.symm
    refine ⟨fun k hk' => ?_, fun k hk => hQ.todo k (List.mem_filter.mp hk).1⟩
    rcases Sys.lockRow_lock_eq_some hk' with ⟨rfl, -⟩ | hold
    · exact .inr ⟨hkey, n, ks, by rw [hdone]⟩
    · refine (hQ.held k hold).imp_right ?_
      rintro ⟨-, n, ks, hph⟩
      cases hph
      cases hk
  | revokeAll kind h u =>
    refine ⟨fun k hk' => ?_, fun k hk => hQ.todo k (List.mem_filter.mp hk).1⟩
    rcases Sys.lockRow_lock_eq_some hk' with ⟨rfl, -⟩ | hold
    · obtain ⟨h', heq, ho⟩ := hQ.todo k hk
      exact ⟨kind, h', heq, ho⟩
    · exact hQ.held k hold
  | revokePresented h u p => exact fun k hk => hQ k (List.mem_filter.mp hk).1
  | createToken kind o u p => exact fun k hk => hQ k (List.mem_filter.mp hk).1
  | _ => exact hQ

inductive Next (s : AuthSys τ) (t : τ) : Pc → Pc → Prop
  | raised (pc : Pc) (e : Failure) : Next s t pc (.raised e)
  | reuse (h : TokenHash) (p : HashedPair) (now : Timestamp) (r : Token)
      (hlock : s.lock (.token .refresh h) = some t)
      (hrow : (s.db.tokens .refresh).get? h = some r) (hrev : r.isRevoked = true) :
      Next s t (.getRefreshToken h p now) (.revokeAll .access h r.userId)
  | rotate (h : TokenHash) (p : HashedPair) (now : Timestamp) (u : UUID) :
      Next s t (.getRefreshToken h p now) (.revokePresented h u p)
  | accessRevoked (h : TokenHash) (u : UUID) : Next s t (.revokeAll .access h u) (.revokeAll .refresh h u)
  | refreshRevoked (h : TokenHash) (u : UUID) : Next s t (.revokeAll .refresh h u) (.reused h u)
  | presented (h : TokenHash) (u : UUID) (p : HashedPair) :
      Next s t (.revokePresented h u p) (.createToken .access (.rotation h) u p)
  | accessCreated (o : Origin) (u : UUID) (p : HashedPair) :
      Next s t (.createToken .access o u p) (.createToken .refresh o u p)
  | refreshCreated (o : Origin) (u : UUID) (p : HashedPair) :
      Next s t (.createToken .refresh o u p) (.issued o u p)
  | leave (r a : TokenHash) (hlock : s.lock (.token .refresh r) = some t) :
      Next s t (.logoutRefresh r (some a)) (.logoutAccess a)
  | left (r : TokenHash) : Next s t (.logoutRefresh r none) .loggedOut
  | accessLeft (a : TokenHash) : Next s t (.logoutAccess a) .loggedOut

theorem QueueTxn.next (hA : AuthInv pw s) (hx : s.txn t = some ⟨pc, .locking n ks [], ws, tr⟩)
    (hq : pc.cmd pw = .exec q) (hQ : QueueTxn s t ⟨pc, .locking n ks [], ws, tr⟩) :
    Next s t pc (q.run ks (Write.applyAll ws s.db)).1 := by
  have hnext {α : Type} {q₀ : Query α} {f : α → Pc} (hq : Pc.andThen q₀ f = .exec q)
      (hf : ∀ a, (q₀.run ks (Write.applyAll ws s.db)).1 = .ok a → Next s t pc (f a)) :
      Next s t pc (q.run ks (Write.applyAll ws s.db)).1 := by
    rcases Pc.run_andThen hq ks (Write.applyAll ws s.db) with ⟨a, ha, hpc⟩ | ⟨e, hpc⟩
    · exact hpc ▸ hf a ha
    · exact hpc ▸ .raised pc (.db e)
  cases pc with
  | getRefreshToken h p now =>
    -- the row is read as it is stored, since nothing has been written before
    obtain ⟨rfl, rfl⟩ := hA.txns t _ hx
    refine hnext hq fun r hr => ?_
    obtain ⟨hrow, hk, -⟩ := Queries.getToken_ok hr
    simp only [Pc.afterGetRefreshToken]
    split
    · next hrev => exact .reuse h p now r (hA.locks.locked_of_settle hx _ hk) hrow hrev
    · split
      · exact .raised _ _
      · exact .rotate h p now r.userId
  | revokeAll kind h u =>
    cases kind with
    | access => exact hnext hq fun _ _ => .accessRevoked h u
    | refresh => exact hnext hq fun _ _ => .refreshRevoked h u
  | revokePresented h u p => exact hnext hq fun _ _ => .presented h u p
  | createToken kind o u p =>
    cases kind with
    | access => exact hnext hq fun _ _ => .accessCreated o u p
    | refresh => exact hnext hq fun _ _ => .refreshCreated o u p
  | logoutRefresh r a =>
    refine hnext hq fun _ hr => ?_
    have hk := (Queries.revokeToken_ok hr).1
    cases a with
    | none => exact .left r
    | some a => exact .leave r a (hA.locks.locked_of_settle hx _ hk)
  | logoutAccess a => exact hnext hq fun _ _ => .accessLeft a
  | createUser | getUserByUsername | reactivateUser | updateUserPassword | setDeactivated => exact hQ.elim
  | _ => cases hq

variable {pc' : Pc} {ws' : List Write} {tr' : List (ℕ × ℕ)}

omit [DecidableEq τ] in
theorem Next.pair {p : HashedPair} (h : Next s t pc pc') (hp : pc'.pair? = some p) :
    pc.pair? = some p := by
  cases h <;> first | exact hp | cases hp

omit [DecidableEq τ] in
theorem Next.queueTxn (h : Next s t pc pc') (hQ : QueueTxn s t ⟨pc, .locking n ks [], ws, tr⟩) :
    QueueTxn s t ⟨pc', .ready, ws', tr'⟩ := by
  have hnone {P : RowKey → Prop} : ∀ k ∈ (Phase.ready : Phase RowKey).todo, P k :=
    fun k hk => absurd hk List.not_mem_nil
  cases h with
  | reuse h p now r hlock hrow hrev =>
    exact ⟨fun k hk => ⟨.refresh, h, (hQ.held k hk).1, r, hrow, rfl⟩, hnone⟩
  | accessRevoked h u => exact ⟨hQ.held, hnone⟩
  | leave r a hlock => exact ⟨fun k hk => .inl ⟨r, (hQ.held k hk).1⟩, hnone⟩
  | rotate | presented | accessCreated => exact hnone
  | raised | refreshRevoked | refreshCreated | left | accessLeft => trivial

theorem Next.reusing (h : Next s t pc pc') (hx : s.txn t = some ⟨pc, .locking n ks [], ws, tr⟩)
    (hr : reusing? (s.setTxn t ⟨pc', .ready, ws', tr'⟩) t = some u) : reusing? s t = some u := by
  have hpc := reusing?_of_txn Sys.setTxn_txn_self hr
  refine reusing?_eq_some.mpr ⟨_, hx, ?_⟩
  cases h with
  | reuse h p now r hlock hrow hrev =>
    simp only [Pc.revokeAll.injEq, reduceCtorEq, false_and, exists_false, or_false] at hpc
    obtain ⟨-, -, -, -, rfl⟩ := hpc
    exact .inr ⟨h, p, now, rfl, hlock, r, hrow, hrev, rfl⟩
  | accessRevoked h u' =>
    simp only [Pc.revokeAll.injEq, reduceCtorEq, false_and, exists_false, or_false] at hpc
    obtain ⟨-, -, -, -, rfl⟩ := hpc
    exact .inl ⟨.access, h, rfl⟩
  | _ => simp at hpc

theorem Next.leaving (h : Next s t pc pc') (hx : s.txn t = some ⟨pc, .locking n ks [], ws, tr⟩)
    (hl : leaving? (s.setTxn t ⟨pc', .ready, ws', tr'⟩) t = some a) : leaving? s t = some a := by
  have hpc := leaving?_of_txn Sys.setTxn_txn_self hl
  refine leaving?_eq_some.mpr ⟨_, hx, ?_⟩
  cases h with
  | leave r a' hlock =>
    simp only [Pc.logoutAccess.injEq, reduceCtorEq, false_and, exists_false, or_false] at hpc
    subst hpc
    exact .inr ⟨r, rfl, hlock⟩
  | _ => simp at hpc

/-! ### Guarded runs -/

theorem idle_setTxn (hne : t' ≠ t) : Idle t' s (s.setTxn t y) :=
  ⟨Sys.setTxn_txn_ne hne, fun _ hk => hk, fun _ _ _ => rfl, fun _ _ _ ho => ho⟩

theorem idle_acquire (hne : t' ≠ t) : Idle t' s ((s.lockRow t key).setTxn t y) :=
  ⟨Sys.setTxn_txn_ne (s := s.lockRow t key) hne,
    fun _ hk => (Sys.lockRow_lock_eq_some hk).resolve_left fun h => hne h.2, fun _ _ _ => rfl,
    fun _ _ _ ho => ho⟩

theorem idle_close (hne : t' ≠ t) : Idle t' s (s.close t) :=
  ⟨Sys.close_txn_ne hne, fun _ hk => (Sys.close_lock_eq_some.mp hk).2, fun _ _ _ => rfl,
    fun _ _ _ ho => ho⟩

theorem AuthInv.idle_committed (hA : AuthInv pw s) (hx : s.txn t = some ⟨pc, .ready, ws, tr⟩)
    (hne : t' ≠ t) : Idle t' s (s.committed t pc (Write.applyAll ws s.db)) :=
  ⟨Sys.close_txn_ne (s := s) hne, fun _ hk => (Sys.close_lock_eq_some.mp hk).2,
    (hA.beside_commit hx hne).row, fun _ _ _ ho => Write.ownedBy_applyAll ws ho⟩

theorem QueueInv.opened {c : Call} (hA : AuthInv pw s) (hI : QueueInv s)
    (hc : TokenCalls s (.begin t c)) (ht : t ∉ s.started) : QueueInv (s.opened t c.entry) := by
  have hfree (k : RowKey) : s.lock k ≠ some t := fun hk =>
    ht (hA.locks.started t (hA.locks.holder k t hk))
  have hidle (t' : τ) (hne : t' ≠ t) : Idle t' s (s.opened t c.entry) :=
    ⟨Sys.setTxn_txn_ne (s := s) hne, fun _ hk => hk, fun _ _ _ => rfl, fun _ _ _ ho => ho⟩
  have hself : (s.opened t c.entry).txn t = some { pc := c.entry } := Sys.setTxn_txn_self (s := s)
  have hpair (p : HashedPair) (hp : c.entry.pair? = some p) : Unused s t p := by
    cases c with
    | refresh h p now =>
      obtain rfl := Option.some.inj hp
      exact hc
    | logout r a => cases hp
    | _ => exact hc.elim
  refine hI.frame hidle (fun t' x p hx hp => ?_) (fun y hy => ?_) (fun u hu => ?_)
    (fun a t' u r _ hl _ _ hk => absurd hk (hfree _)) (fun a t' u r _ _ hk => absurd hk (hfree _))
    fun _ _ _ ho => ho
  · rcases eq_or_ne t' t with rfl | hne
    · obtain rfl := Option.some.inj (hself.symm.trans hx)
      have hun := hpair p hp
      exact hun.step hidle (fun k => (hun k).1) (fun hne => absurd rfl hne) fun hne => absurd rfl hne
    · have hun := hI.pairs t' x p ((hidle t' hne).txn ▸ hx) hp
      refine hun.step hidle (fun k => (hun k).1) (fun _ k hk => hk) fun _ q hq k heq => ?_
      rw [hself] at hq
      exact (hpair q hq k).2.2 t' hne p (by rw [← (hidle t' hne).txn, hx]; exact hp) heq.symm
  · obtain rfl := Option.some.inj (hself.symm.trans hy)
    cases c with
    | refresh h p now => exact ⟨fun k hk => absurd hk (hfree k), fun k hk => absurd hk List.not_mem_nil⟩
    | logout r a => exact ⟨fun k hk => absurd hk (hfree k), fun k hk => absurd hk List.not_mem_nil⟩
    | _ => exact hc.elim
  · rcases reusing?_of_txn hself hu with ⟨k, h, hpc⟩ | ⟨h, p, now, -, hk, -⟩
    · cases c <;> cases hpc
    · exact absurd hk (hfree _)

theorem QueueInv.closed (hI : QueueInv s) (hnone : s'.txn t = none)
    (hlock : ∀ k, s'.lock k ≠ some t) (hidle : ∀ t', t' ≠ t → Idle t' s s')
    (hget : ∀ t' x p, t' ≠ t → s.txn t' = some x → x.pc.pair? = some p → ∀ k,
      (s'.db.tokens k).get? (p.hash k) = none)
    (howned : ∀ k h u, s.db.OwnedBy k h u → s'.db.OwnedBy k h u) : QueueInv s' := by
  refine hI.frame hidle (fun t' x p hx hp => ?_) (fun y hy => ?_) (fun u hu => ?_)
    (fun a t' u r _ _ _ _ hk => absurd hk (hlock _)) (fun a t' u r _ _ hk => absurd hk (hlock _)) howned
  · have hne : t' ≠ t := fun heq => by rw [heq, hnone] at hx; cases hx
    have hx := (hidle t' hne).txn ▸ hx
    refine (hI.pairs t' x p hx hp).step hidle (hget t' x p hne hx hp) (fun _ k hk => absurd hk (hlock _))
      fun _ q hq => ?_
    rw [hnone] at hq
    cases hq
  · rw [hnone] at hy
    cases hy
  · obtain ⟨x, hx, -⟩ := reusing?_eq_some.mp hu
    rw [hnone] at hx
    cases hx

theorem QueueInv.committed (hA : AuthInv pw s) (hI : QueueInv s)
    (hx : s.txn t = some ⟨pc, .ready, ws, tr⟩) :
    QueueInv (s.committed t pc (Write.applyAll ws s.db)) := by
  refine hI.closed (Sys.close_txn_self (s := s)) (fun k hk => (Sys.close_lock_eq_some.mp hk).1 rfl)
    (fun t' hne => hA.idle_committed hx hne) (fun t' x p hne hx' hp k => ?_)
    fun k h u ho => Write.ownedBy_applyAll ws ho
  -- what `t` writes it has locked, and it cannot lock the unused token of another call
  obtain ⟨hnone, havail, -⟩ := hI.pairs t' x p hx' hp k
  refine (hA.view hx fun hk => ?_).trans hnone
  rcases havail with hfree | hown
  · rw [hk] at hfree
    cases hfree
  · exact hne (Option.some.inj (hown.symm.trans hk))

theorem QueueInv.setTxn_same (hI : QueueInv s) (hx : s.txn t = some ⟨pc, .ready, ws, tr⟩)
    (hQ : QueueTxn s t ⟨pc, .locking n ks todo, ws, tr⟩) :
    QueueInv (s.setTxn t ⟨pc, .locking n ks todo, ws, tr⟩) := by
  have hreuse (u : UUID) (hu : reusing? (s.setTxn t ⟨pc, .locking n ks todo, ws, tr⟩) t = some u) :
      reusing? s t = some u := by
    rw [← hu]
    simp only [reusing?, hx, Sys.setTxn_txn_self, Option.bind_some]
    cases pc <;> rfl
  have hleave (a : TokenHash) (ha : leaving? (s.setTxn t ⟨pc, .locking n ks todo, ws, tr⟩) t = some a) :
      leaving? s t = some a := by
    rw [← ha]
    simp only [leaving?, hx, Sys.setTxn_txn_self, Option.bind_some]
    cases pc <;> rfl
  refine hI.own_step hx Sys.setTxn_txn_self rfl (fun _ => idle_setTxn) (fun _ => .inl) (fun _ hp => hp)
    (hQ.mono (fun _ hk => hk) fun _ _ _ ho => ho)
    (fun u hu t' hne hu' => hne (hI.alone t' t u hu' (hreuse u hu)))
    (fun a t' u r _ ha => hI.crossing t t' a u r (hleave a ha)) fun a t' u r _ ha hk hu hr => ?_
  -- a branch that has not started its `UPDATE` has passed nothing
  have hpassed := (hI.crossing t' t a u r ha hk (hreuse u hu) hr).2
  obtain ⟨_, _, _, _, _, -, hph, -⟩ := hpassed.locking hx
  cases hph

theorem QueueInv.settle (hA : AuthInv pw s) (hI : QueueInv s)
    (hx : s.txn t = some ⟨pc, .locking n ks [], ws, tr⟩) (hq : pc.cmd pw = .exec q) :
    QueueInv (s.setTxn t ⟨(q.run ks (Write.applyAll ws s.db)).1, .ready, ws', tr'⟩) := by
  have hQ := hI.txns t _ hx
  have hnext := hQ.next hA hx hq
  have hreuse (u : UUID) (hu : reusing? (s.setTxn t
      ⟨(q.run ks (Write.applyAll ws s.db)).1, .ready, ws', tr'⟩) t = some u) : reusing? s t = some u :=
    hnext.reusing hx hu
  refine hI.own_step hx Sys.setTxn_txn_self rfl (fun _ => idle_setTxn) (fun _ => .inl)
    (fun _ => hnext.pair) ((hnext.queueTxn hQ).mono (fun _ hk => hk) fun _ _ _ ho => ho)
    (fun u hu t' hne hu' => hne (hI.alone t' t u hu' (hreuse u hu)))
    (fun a t' u r _ ha => hI.crossing t t' a u r (hnext.leaving hx ha)) fun a t' u r _ ha hk hu hr => ?_
  -- a branch that had passed the row was at its last `UPDATE`, and is through now
  have hpassed := (hI.crossing t' t a u r ha hk (hreuse u hu) hr).2
  obtain ⟨h, u', _, _, _, rfl, -⟩ := hpassed.locking hx
  have hpc := reusing?_of_txn Sys.setTxn_txn_self hu
  exfalso
  revert hpc hnext
  generalize (q.run ks (Write.applyAll ws s.db)).1 = pc'
  intro hnext hpc
  cases hnext <;> simp at hpc

theorem AuthInv.exec_of_locking (hA : AuthInv pw s)
    (hx : s.txn t = some ⟨pc, .locking n ks todo, ws, tr⟩) : ∃ q, pc.cmd pw = .exec q := by
  obtain ⟨q, -, hq, -⟩ := hA.locks.selected t _ n ks todo hx rfl
  exact ⟨q, hq⟩

theorem QueueInv.stored (hA : AuthInv pw s) (hI : QueueInv s)
    (hx : s.txn t = some ⟨pc, .locking n ks todo, ws, tr⟩) (hk : key ∈ todo) :
    Stored s ⟨pc, .locking n ks todo, ws, tr⟩ key := by
  have hQ := hI.txns t _ hx
  obtain ⟨q, hq⟩ := hA.exec_of_locking hx
  cases pc with
  | getRefreshToken h p now =>
    obtain ⟨rfl, ho⟩ := hQ.todo key hk
    exact ⟨.refresh, h, rfl, .inl ho⟩
  | logoutRefresh r a =>
    obtain ⟨rfl, ho⟩ := hQ.todo key hk
    exact ⟨.refresh, r, rfl, .inl ho⟩
  | logoutAccess a =>
    obtain ⟨rfl, ho⟩ := hQ.todo key hk
    exact ⟨.access, a, rfl, .inl ho⟩
  | revokeAll kind h u =>
    obtain ⟨h', rfl, ho⟩ := hQ.todo key hk
    exact ⟨kind, h', rfl, .inl ⟨u, ho⟩⟩
  | revokePresented h u p =>
    obtain ⟨⟨-, r, hr, -, hu⟩, -⟩ := hA.txns t _ hx
    exact ⟨.refresh, h, hQ key hk, .inl ⟨u, r, hr, hu⟩⟩
  | createToken kind o u p => exact ⟨kind, _, hQ key hk, .inr ⟨p, rfl, rfl⟩⟩
  | createUser | getUserByUsername | reactivateUser | updateUserPassword | setDeactivated => exact hQ.elim
  | _ => cases hq

theorem QueueInv.acquire (hA : AuthInv pw s) (hI : QueueInv s) (hG : Orderly s (.lock t key))
    (hx : s.txn t = some ⟨pc, .locking n ks todo, ws, tr⟩) (hk : key ∈ todo) :
    QueueInv ((s.lockRow t key).setTxn t ⟨pc, .locking n ks (todo.filter (· ≠ key)), ws, tr⟩) := by
  have hQ := hI.txns t _ hx
  have hQ' := hQ.acquire hk
  simp only [Orderly, hx, Option.map_some] at hG
  refine hI.own_step hx Sys.setTxn_txn_self rfl (fun _ => idle_acquire) (fun k hk' => ?_) (fun _ hp => hp)
    (hQ'.mono (fun _ hk => hk) fun _ _ _ ho => ho) (fun u hu t' hne hu' => ?_)
    (fun a t' u r hne hl ha hr hrow => ?_) fun a t' u r hne hl ha hu hrow => ?_
  · rcases Sys.lockRow_lock_eq_some hk' with ⟨rfl, -⟩ | hold
    · exact .inr (hI.stored hA hx hk)
    · exact .inl hold
  · rcases reusing?_of_txn Sys.setTxn_txn_self hu with ⟨kind, h, rfl⟩ | ⟨h, p, now, rfl, -, r, hr, hrev, rfl⟩
    · exact hne (hI.alone t' t u hu' (reusing?_eq_some.mpr ⟨_, hx, .inl ⟨kind, h, rfl⟩⟩))
    · exact hG r hr hrev t' hne hu'
  · rcases leaving?_of_txn Sys.setTxn_txn_self hl with rfl | ⟨r', rfl, -⟩
    · -- the refresh row was there before, since only the access row is taken now
      rcases Sys.lockRow_lock_eq_some hrow with ⟨rfl, -⟩ | hold
      · cases (hQ.todo _ hk).1
      · exact hI.crossing t t' a u r (leaving?_eq_some.mpr ⟨_, hx, .inl rfl⟩) ha hr hold
    · obtain rfl := (RowKey.token.inj (hQ'.held _ hrow).1).2
      exact hG t' ha u hr
  · rcases reusing?_of_txn Sys.setTxn_txn_self hu with ⟨kind, h, rfl⟩ | ⟨h, p, now, rfl, -⟩
    · have hreuse := reusing?_eq_some.mpr ⟨_, hx, .inl ⟨kind, h, rfl⟩⟩
      cases kind with
      | access =>
        rcases Sys.lockRow_lock_eq_some ha with ⟨rfl, -⟩ | hold
        · exact absurd rfl (hG t' a hl)
        · have hpassed := (hI.crossing t' t a u r hl hold hreuse hrow).2
          obtain ⟨_, _, _, _, _, hpc, -⟩ := hpassed.locking hx
          cases hpc
      | refresh =>
        rcases Sys.lockRow_lock_eq_some ha with ⟨rfl, -⟩ | hold
        · obtain ⟨_, heq, -⟩ := hQ.todo _ hk
          cases heq
        · obtain ⟨ho, hpassed⟩ := hI.crossing t' t a u r hl hold hreuse hrow
          refine ⟨ho, ?_⟩
          obtain ⟨_, _, _, _, _, -, hph, hmem⟩ := hpassed.locking hx
          cases hph
          exact ⟨_, by rw [Sys.setTxn_txn_self]; rfl, fun hr => hmem (List.mem_filter.mp hr).1⟩
    · cases (hQ'.held _ ha).1

theorem queueInv_preserves : (transactions pw).PreservesWhen
    (fun s act => TokenCalls s act ∧ Orderly s act)
    (fun s : AuthSys τ => AuthInv pw s ∧ QueueInv s) where
  begin s t c hI hG ht := ⟨authInv_preserves.begin s t c hI.1 ht, hI.2.opened hI.1 hG.1 ht⟩
  select s t pc ws tr q hI hx hq := ⟨authInv_preserves.select s t pc ws tr q hI.1 hx hq,
    hI.2.setTxn_same hx ((hI.2.txns t _ hx).select hI.1 hx hq)⟩
  acquire s t k pc n ks todo ws tr hI hG hx hk ha :=
    ⟨authInv_preserves.acquire s t k pc n ks todo ws tr hI.1 hx hk ha, hI.2.acquire hI.1 hG.2 hx hk⟩
  settle s t pc n ks ws tr q hI hx hq :=
    ⟨authInv_preserves.settle s t pc n ks ws tr q hI.1 hx hq, hI.2.settle hI.1 hx hq⟩
  commit s t pc ws tr hI _ hx hc :=
    ⟨authInv_preserves.commit s t pc ws tr hI.1 trivial hx hc, hI.2.committed hI.1 hx⟩
  abort s t x hI hx := ⟨authInv_preserves.abort s t x hI.1 hx,
    hI.2.closed Sys.close_txn_self (fun _ hk => (Sys.close_lock_eq_some.mp hk).1 rfl)
      (fun _ => idle_close) (fun t' x p _ hx' hp k => (hI.2.pairs t' x p hx' hp k).1)
      fun _ _ _ ho => ho⟩

theorem queueInv_init (d : Db) : QueueInv (AuthSys.init d : AuthSys τ) where
  txns _ _ hx := by cases hx
  pairs _ _ _ hx := by cases hx
  alone _ _ _ hu := by cases hu
  crossing _ _ _ _ _ hl := by cases hl

/-! ### Ranks -/

/-- Waits go down: from a first statement to a logout that finds a reuse branch at its access row, to
a reuse branch, and to a logout that finds none. -/
def lockRank (s : AuthSys τ) (t : τ) : ℕ :=
  (s.txn t).elim 0 fun x =>
    if x.phase.todo = [] then 0
    else
      match x.pc with
      | .getRefreshToken _ _ _ => 4
      | .logoutRefresh _ _ => 4
      | .logoutAccess a => if ((s.lock (.token .access a)).bind (reusing? s)).isSome then 3 else 1
      | .revokeAll _ _ _ => 2
      | _ => 0

theorem lockRank_of_todo (hx : s.txn t = some x) (h : x.phase.todo = []) : lockRank s t = 0 := by
  simp [lockRank, hx, h]

theorem lockRank_of_full {ph : Phase RowKey} (hx : s.txn t = some ⟨pc, ph, ws, tr⟩)
    (h : ∃ n ks, ph = .locking n ks []) : lockRank s t = 0 := by
  obtain ⟨n, ks, rfl⟩ := h
  exact lockRank_of_todo hx rfl

theorem QueueInv.lockRank_holder (hI : QueueInv s) (hx : s.txn t = some x) (hk : s.lock key = some t) :
    lockRank s t = 0 ∨ (∃ kind h u, x.pc = .revokeAll kind h u ∧ lockRank s t ≤ 2) ∨
      ∃ a r, x.pc = .logoutAccess a ∧ key = .token .refresh r ∧ lockRank s t ≤ 3 ∧
        (((s.lock (.token .access a)).bind (reusing? s)).isSome = false → lockRank s t ≤ 1) := by
  have hQ := hI.txns t x hx
  obtain ⟨pc, ph, ws, tr⟩ := x
  cases pc with
  | getRefreshToken h p now => exact .inl (lockRank_of_full hx (hQ.held key hk).2)
  | logoutRefresh r a => exact .inl (lockRank_of_full hx (hQ.held key hk).2)
  | logoutAccess a =>
    rcases hQ.held key hk with ⟨r, rfl⟩ | ⟨-, hfull⟩
    · refine .inr (.inr ⟨a, r, rfl, rfl, ?_, fun hnone => ?_⟩)
      · simp only [lockRank, hx, Option.elim_some]
        split
        · exact Nat.zero_le 3
        · split <;> decide
      · simp only [lockRank, hx, Option.elim_some, hnone]
        split <;> decide
    · exact .inl (lockRank_of_full hx hfull)
  | revokeAll kind h u =>
    refine .inr (.inl ⟨kind, h, u, rfl, ?_⟩)
    simp only [lockRank, hx, Option.elim_some]
    split <;> decide
  | _ => exact .inl (by simp [lockRank, hx])

theorem QueueInv.eq_of_holds_row {h' h₁ : TokenHash} {kind kind' : TokenKind} {u' : UUID} (hI : QueueInv s)
    (hreuse : reusing? s t = some u) (ho : s.db.OwnedBy kind h' u) (hx : s.txn t' = some x)
    (hpc : x.pc = .revokeAll kind' h₁ u') (hlock : s.lock (.token kind h') = some t') : t = t' := by
  have hrows : UserRows s t' x kind' u' := by
    have hQ := hI.txns t' x hx
    rwa [QueueTxn, hpc] at hQ
  obtain ⟨_, _, heq, ho'⟩ := hrows.held _ hlock
  obtain ⟨rfl, rfl⟩ := RowKey.token.inj heq
  obtain rfl := ho.unique ho'
  exact hI.alone t t' u hreuse (reusing?_eq_some.mpr ⟨x, hx, .inl ⟨kind', h₁, hpc⟩⟩)

/-- While a reuse branch still needs the refresh row of a logout, no reuse branch holds the access row
that the logout is about to lock. -/
theorem QueueInv.not_reusing_at_access {h' : TokenHash} (hI : QueueInv s) (hx : s.txn t = some y)
    (hreuse : reusing? s t = some u) (ho : s.db.OwnedBy .refresh h' u)
    (hkey : .token .refresh h' ∈ y.phase.todo) (hx' : s.txn t' = some x) (hpc : x.pc = .logoutAccess a)
    (hlock : s.lock (.token .refresh h') = some t') :
    ((s.lock (.token .access a)).bind (reusing? s)).isSome = false := by
  rw [Bool.eq_false_iff]
  intro hsome
  obtain ⟨u', hu'⟩ := Option.isSome_iff_exists.mp hsome
  obtain ⟨t'', hlock', hu'⟩ := Option.bind_eq_some_iff.mp hu'
  have hleaving : leaving? s t' = some a := leaving?_eq_some.mpr ⟨x, hx', .inl hpc⟩
  obtain ⟨ho', hpassed⟩ := hI.crossing t' t'' a u' h' hleaving hlock' hu' hlock
  obtain rfl := ho.unique ho'
  obtain rfl := hI.alone t t'' u hreuse hu'
  obtain ⟨pc, ph, ws, tr⟩ := y
  obtain ⟨_, _, _, _, _, -, rfl, hmem⟩ := hpassed.locking hx
  exact hmem hkey

theorem QueueInv.lockRank_lt (hA : AuthInv pw s) (hI : QueueInv s) (hw : s.WaitsFor t t') :
    lockRank s t' < lockRank s t := by
  obtain ⟨hne, key, hkey, hlock⟩ := hw
  obtain ⟨⟨pc, ph, ws, tr⟩, hx, hkey⟩ := Sys.exists_txn_of_mem_todo hkey
  obtain ⟨x', hx'⟩ := Option.isSome_iff_exists.mp (hA.locks.holder key t' hlock)
  have htodo : ph.todo ≠ [] := List.ne_nil_of_mem hkey
  have hQ := hI.txns t _ hx
  have hholder := hI.lockRank_holder hx' hlock
  cases pc with
  | getRefreshToken h p now =>
    have hrank : lockRank s t = 4 := by simp [lockRank, hx, htodo]
    omega
  | logoutRefresh r a =>
    have hrank : lockRank s t = 4 := by simp [lockRank, hx, htodo]
    omega
  | revokeAll kind h u =>
    have hrank : lockRank s t = 2 := by simp [lockRank, hx, htodo]
    have hreuse : reusing? s t = some u := reusing?_eq_some.mpr ⟨_, hx, .inl ⟨kind, h, rfl⟩⟩
    obtain ⟨h', rfl, ho⟩ := hQ.todo key hkey
    rcases hholder with hzero | ⟨kind', h₁, u', hpc, -⟩ | ⟨a, r, hpc, hr, -, hone⟩
    · omega
    · exact absurd (hI.eq_of_holds_row hreuse ho hx' hpc hlock) hne
    · obtain ⟨rfl, rfl⟩ := RowKey.token.inj hr
      have hle : lockRank s t' ≤ 1 :=
        hone (hI.not_reusing_at_access hx hreuse ho hkey hx' hpc hlock)
      omega
  | logoutAccess a =>
    obtain ⟨rfl, -⟩ := hQ.todo key hkey
    have hrank : lockRank s t = if (reusing? s t').isSome then 3 else 1 := by
      simp [lockRank, hx, htodo, hlock]
    rcases hholder with hzero | ⟨kind', h₁, u', hpc, hle⟩ | ⟨a', r, hpc, hr, -⟩
    · rw [hrank, hzero]
      split <;> decide
    · rw [reusing?_eq_some.mpr ⟨_, hx', .inl ⟨kind', h₁, hpc⟩⟩, Option.isSome_some, if_pos rfl] at hrank
      omega
    · cases hr
  | revokePresented h u p =>
    -- the row of the presented token is its own already
    have hown := (hA.txns t _ hx).1.1
    rw [hQ key hkey] at hlock
    exact absurd (Option.some.inj (hown.symm.trans hlock)) hne
  | createToken kind o u p =>
    rw [hQ key hkey] at hlock
    rcases (hI.pairs t _ p hx rfl kind).2.1 with hfree | hown
    · rw [hlock] at hfree
      cases hfree
    · exact absurd (Option.some.inj (hown.symm.trans hlock)) hne
  | createUser | getUserByUsername | reactivateUser | updateUserPassword | setDeactivated | accountSet =>
    exact hQ.elim
  | issued | reused | loggedOut | raised =>
    cases ph with
    | ready => exact absurd rfl htodo
    | locking n ks todo =>
      obtain ⟨q, hq⟩ := hA.exec_of_locking hx
      cases hq

/-- In a run of refresh and logout transactions in which every step is orderly, nobody ever waits
for itself through others. -/
theorem token_transactions_deadlockFree (pw : PasswordHasher) (d : Db) (as : List (AuthAct τ))
    (s : AuthSys τ) (hs : Transition.run (transactions pw).step (AuthSys.init d) as = some s)
    (hcalls : Transition.Guarded (transactions pw).step TokenCalls (AuthSys.init d) as)
    (hG : Transition.Guarded (transactions pw).step Orderly (AuthSys.init d) as) : s.DeadlockFree := by
  obtain ⟨hA, hI⟩ := queueInv_preserves.guarded_run ⟨authInv_init d, queueInv_init d⟩ (hcalls.and hG) hs
  exact Sys.deadlockFree_of_rank (lockRank s) fun t t' => hI.lockRank_lt hA

end

namespace Sample

def loggedOutTwice : Db where
  users := Table.empty.insertNew user
  accessTokens := (Table.empty.insertNew { (pair 0).row .access user.userId with isRevoked := true }).insertNew
    { (pair 1).row .access user.userId with isRevoked := true }
  refreshTokens := (Table.empty.insertNew { (pair 0).row .refresh user.userId with isRevoked := true }).insertNew
    { (pair 1).row .refresh user.userId with isRevoked := true }

/-- Both refresh tokens are presented again. The first call locks the access rows, for which the
second one then waits. -/
def reusedTwice : List (AuthAct Bool) :=
  [.begin false (.refresh ⟨.ofNat 256 0⟩ (pair 2) 0), .start false, .lock false (refreshRow 0),
    .begin true (.refresh ⟨.ofNat 256 1⟩ (pair 3) 0), .start true, .lock true (refreshRow 1),
    .start false, .lock false (accessRow 0), .lock false (accessRow 1), .start true,
    .start false, .lock false (refreshRow 0)]

def reusedOnce : List (AuthAct Bool) :=
  [.begin false (.refresh ⟨.ofNat 256 0⟩ (pair 2) 0), .start false, .lock false (refreshRow 0),
    .begin true (.logout ⟨.ofNat 256 1⟩ none), .start true, .lock true (refreshRow 1),
    .start false, .lock false (accessRow 0), .lock false (accessRow 1),
    .start false, .lock false (refreshRow 0)]

end Sample

theorem token_transactions_deadlockFree_logout :
    ∃ s, Transition.run (transactions Sample.hasher).step (AuthSys.init Sample.loggedOutTwice)
      Sample.reusedOnce = some s ∧ s.WaitsFor false true ∧ s.DeadlockFree := by
  obtain ⟨s, hs, hwait⟩ :
      ∃ s ∈ Transition.run (transactions Sample.hasher).step (AuthSys.init Sample.loggedOutTwice)
        Sample.reusedOnce, s.WaitsFor false true := by decide
  exact ⟨s, hs, hwait, token_transactions_deadlockFree Sample.hasher _ _ s hs (by decide) (by decide)⟩

/-- The first call waits for the refresh row of the second one, which waits for its access rows. -/
theorem not_token_transactions_deadlockFree :
    ∃ s, Transition.run (transactions Sample.hasher).step (AuthSys.init Sample.loggedOutTwice)
      Sample.reusedTwice = some s ∧
      Transition.Guarded (transactions Sample.hasher).step TokenCalls
        (AuthSys.init Sample.loggedOutTwice) Sample.reusedTwice ∧ ¬ s.DeadlockFree := by
  obtain ⟨s, hs, hwait, hback⟩ :
      ∃ s ∈ Transition.run (transactions Sample.hasher).step (AuthSys.init Sample.loggedOutTwice)
        Sample.reusedTwice, s.WaitsFor false true ∧ s.WaitsFor true false := by decide
  exact ⟨s, hs, by decide, fun hfree => hfree false (.tail (.single hwait) hback)⟩

end Messenger
