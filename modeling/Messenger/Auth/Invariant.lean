import Messenger.Auth.Transactions

/-! What a token transaction may rely on while others run beside it. A rotation and a reuse branch
hold the row of the presented token, a pair that is being issued is locked and invisible, and a
set-wide `UPDATE` covers every pair issued by a transaction that its snapshot has seen. -/

namespace Messenger
open ReadCommitted

variable {τ : Type} {pw : PasswordHasher} {s s' : AuthSys τ} {t : τ} {x : AuthTxn}
  {h : TokenHash} {u : UUID} {p : HashedPair} {k : TokenKind} {n b : ℕ}

def Presented (s : AuthSys τ) (t : τ) (h : TokenHash) (u : UUID) : Prop :=
  s.lock (.token .refresh h) = some t ∧
    ∃ r, (s.db.tokens .refresh).get? h = some r ∧ r.isRevoked = false ∧ r.userId = u

def LockedAt (s : AuthSys τ) (x : AuthTxn) : Prop :=
  ∃ a b tr, x.trail = (a, b) :: tr ∧ b ≤ s.log.length

def RotationOf (s : AuthSys τ) (t : τ) (x : AuthTxn) (u : UUID) : Origin → Prop
  | .rotation h => Presented s t h u ∧ .revokeToken .refresh h ∈ x.writes ∧ LockedAt s x
  | _ => True

def Inserted (s : AuthSys τ) (t : τ) (ws : List Write) (k : TokenKind) (h : TokenHash) (u : UUID) :
    Prop :=
  s.lock (.token k h) = some t ∧ (s.db.tokens k).get? h = none ∧
    (Write.applyAll ws s.db).OwnedBy k h u

/-- `t` has locked the token it presented and found it revoked, after `b` commits. -/
def Reusing (s : AuthSys τ) (t : τ) (h : TokenHash) (u : UUID) (b : ℕ) : Prop :=
  s.lock (.token .refresh h) = some t ∧ s.db.OwnedBy .refresh h u ∧ b ≤ s.log.length ∧
    ∀ e ∈ s.log.drop b, ∀ p, e.2.rotation? ≠ some (h, p)

def Sweeping (s : AuthSys τ) (x : AuthTxn) (k : TokenKind) (u : UUID) (b : ℕ) : Prop :=
  ∀ n ks todo, x.phase = .locking n ks todo → b ≤ n ∧ n ≤ s.log.length ∧
    ∀ e ∈ s.log.take n, ∀ o p, e.2 = .issued o u p → .token k (p.hash k) ∈ ks

/-- The writes of a completed set-wide `UPDATE` whose snapshot saw `n` commits. -/
def Swept (s : AuthSys τ) (x : AuthTxn) (k : TokenKind) (u : UUID) (n : ℕ) : Prop :=
  n ≤ s.log.length ∧
    ∀ e ∈ s.log.take n, ∀ o p, e.2 = .issued o u p → .revokeToken k (p.hash k) ∈ x.writes

def TxnInv (s : AuthSys τ) (t : τ) (x : AuthTxn) : Prop :=
  match x.pc with
  | .getRefreshToken _ _ _ => x.writes = [] ∧ x.trail = []
  | .revokePresented h u _ => Presented s t h u ∧ LockedAt s x
  | .createToken k o u p =>
    RotationOf s t x u o ∧ (k = .refresh → Inserted s t x.writes .access p.accessToken u)
  | .issued o u p => RotationOf s t x u o ∧ ∀ k, Inserted s t x.writes k (p.hash k) u
  | .revokeAll .access h u =>
    ∃ a b, x.trail = [(a, b)] ∧ Reusing s t h u b ∧ Sweeping s x .access u b
  | .revokeAll .refresh h u =>
    ∃ a b n m, x.trail = [(a, b), (n, m)] ∧ Reusing s t h u b ∧ b ≤ n ∧ Swept s x .access u n ∧
      Sweeping s x .refresh u n
  | .reused h u =>
    ∃ a b n m n' m', x.trail = [(a, b), (n, m), (n', m')] ∧ Reusing s t h u b ∧ b ≤ n ∧ n ≤ n' ∧
      Swept s x .access u n ∧ Swept s x .refresh u n'
  | _ => True

structure LogInv (s : AuthSys τ) : Prop where
  presented : ∀ h p, (h, p) ∈ rotations s.log → s.db.Revoked .refresh h
  owner : ∀ t h u p, (t, .issued (.rotation h) u p) ∈ s.log → s.db.OwnedBy .refresh h u
  issued : ∀ t o u p, (t, .issued o u p) ∈ s.log → ∀ k, s.db.OwnedBy k (p.hash k) u
  order : (rotations s.log).Pairwise fun a b =>
    a.1 ≠ b.1 ∧ a.2.refreshToken ≠ b.2.refreshToken ∧ a.1 ≠ b.2.refreshToken
  fresh : ∀ h p, (h, p) ∈ rotations s.log → h ≠ p.refreshToken

structure AuthInv [DecidableEq τ] (pw : PasswordHasher) (s : AuthSys τ) : Prop where
  locks : (transactions pw).LockInv s
  log : LogInv s
  txns : ∀ t x, s.txn t = some x → TxnInv s t x

theorem LogInv.of_eq (h : LogInv s) (hdb : s'.db = s.db) (hlog : s'.log = s.log) : LogInv s' where
  presented := by
    rw [hdb, hlog]
    exact h.presented
  owner := by
    rw [hdb, hlog]
    exact h.owner
  issued := by
    rw [hdb, hlog]
    exact h.issued
  order := by
    rw [hlog]
    exact h.order
  fresh := by
    rw [hlog]
    exact h.fresh

/-! ### Steps of other transactions -/

/-- From `s` to `s'` nothing happens that `t` has excluded by its locks. -/
structure Beside (t : τ) (s s' : AuthSys τ) : Prop where
  lock : ∀ k, s.lock k = some t → s'.lock k = some t
  row : ∀ k h, s.lock (.token k h) = some t →
    (s'.db.tokens k).get? h = (s.db.tokens k).get? h
  log : ∃ es, s'.log = s.log ++ es ∧
    ∀ e ∈ es, ∀ h p, e.2.rotation? = some (h, p) → s.lock (.token .refresh h) ≠ some t

theorem Beside.of_eq (hlock : ∀ k, s.lock k = some t → s'.lock k = some t) (hdb : s'.db = s.db)
    (hlog : s'.log = s.log) : Beside t s s' :=
  ⟨hlock, fun _ _ _ => by rw [hdb], [], by simp [hlog]⟩

theorem Beside.log_length_le (hb : Beside t s s') : s.log.length ≤ s'.log.length := by
  obtain ⟨es, hes, _⟩ := hb.log
  simp [hes]

theorem Beside.take_log (hb : Beside t s s') (hn : n ≤ s.log.length) :
    s'.log.take n = s.log.take n := by
  obtain ⟨es, hes, _⟩ := hb.log
  rw [hes, List.take_append_of_le_length hn]

theorem Presented.beside (hp : Presented s t h u) (hb : Beside t s s') : Presented s' t h u :=
  ⟨hb.lock _ hp.1, by rw [hb.row _ _ hp.1]; exact hp.2⟩

theorem LockedAt.beside (hx : LockedAt s x) (hb : Beside t s s') : LockedAt s' x := by
  obtain ⟨a, b, tr, htr, hle⟩ := hx
  exact ⟨a, b, tr, htr, Nat.le_trans hle hb.log_length_le⟩

theorem RotationOf.beside {o : Origin} (hr : RotationOf s t x u o) (hb : Beside t s s') :
    RotationOf s' t x u o := by
  cases o with
  | rotation h => exact ⟨hr.1.beside hb, hr.2.1, hr.2.2.beside hb⟩
  | _ => trivial

theorem Inserted.beside {ws : List Write} (hi : Inserted s t ws k h u) (hb : Beside t s s') :
    Inserted s' t ws k h u := by
  have hrow := hb.row _ _ hi.1
  refine ⟨hb.lock _ hi.1, hrow ▸ hi.2.1, ?_⟩
  simp only [Db.OwnedBy, Write.get?_applyAll_congr ws hrow]
  exact hi.2.2

theorem Reusing.beside (hr : Reusing s t h u b) (hb : Beside t s s') : Reusing s' t h u b := by
  obtain ⟨hlock, ho, hle, hlog⟩ := hr
  refine ⟨hb.lock _ hlock, ?_, Nat.le_trans hle hb.log_length_le, fun e he p hp => ?_⟩
  · simp only [Db.OwnedBy, hb.row _ _ hlock]
    exact ho
  · obtain ⟨es, hes, hnew⟩ := hb.log
    rw [hes, List.drop_append_of_le_length hle, List.mem_append] at he
    rcases he with he | he
    · exact hlog e he p hp
    · exact hnew e he h p hp hlock

theorem Sweeping.beside (hw : Sweeping s x k u b) (hb : Beside t s s') : Sweeping s' x k u b := by
  intro n ks todo hph
  obtain ⟨hbn, hn, hcov⟩ := hw n ks todo hph
  exact ⟨hbn, Nat.le_trans hn hb.log_length_le, fun e he => hcov e (hb.take_log hn ▸ he)⟩

theorem Swept.beside (hw : Swept s x k u n) (hb : Beside t s s') : Swept s' x k u n :=
  ⟨Nat.le_trans hw.1 hb.log_length_le, fun e he => hw.2 e (hb.take_log hw.1 ▸ he)⟩

theorem TxnInv.beside (hx : TxnInv s t x) (hb : Beside t s s') : TxnInv s' t x := by
  unfold TxnInv at hx ⊢
  split at hx
  · exact hx
  · exact ⟨hx.1.beside hb, hx.2.beside hb⟩
  · exact ⟨hx.1.beside hb, fun hk => (hx.2 hk).beside hb⟩
  · exact ⟨hx.1.beside hb, fun k => (hx.2 k).beside hb⟩
  · obtain ⟨a, b, htr, hr, hw⟩ := hx
    exact ⟨a, b, htr, hr.beside hb, hw.beside hb⟩
  · obtain ⟨a, b, n, m, htr, hr, hle, hd, hw⟩ := hx
    exact ⟨a, b, n, m, htr, hr.beside hb, hle, hd.beside hb, hw.beside hb⟩
  · obtain ⟨a, b, n, m, n', m', htr, hr, hle, hle', hd, hd'⟩ := hx
    exact ⟨a, b, n, m, n', m', htr, hr.beside hb, hle, hle', hd.beside hb, hd'.beside hb⟩
  · trivial

/-! ### Steps of the transaction itself -/

variable {pc : Pc} {ws : List Write} {tr : List (ℕ × ℕ)} {ks todo todo' : List RowKey} {d : Db}
  {o : Origin}

theorem LockedAt.append {ph ph' : Phase RowKey} {pc' : Pc} {ws' : List Write} {tr' : List (ℕ × ℕ)}
    (hx : LockedAt s ⟨pc, ph, ws, tr⟩) : LockedAt s ⟨pc', ph', ws', tr ++ tr'⟩ := by
  obtain ⟨a, b, tr, rfl, hle⟩ := hx
  exact ⟨a, b, tr ++ tr', rfl, hle⟩

theorem RotationOf.append {ph ph' : Phase RowKey} {pc' : Pc} {ws' : List Write}
    {tr' : List (ℕ × ℕ)} (hr : RotationOf s t ⟨pc, ph, ws, tr⟩ u o) :
    RotationOf s t ⟨pc', ph', ws ++ ws', tr ++ tr'⟩ u o := by
  cases o with
  | rotation h => exact ⟨hr.1, List.mem_append_left _ hr.2.1, hr.2.2.append⟩
  | _ => trivial

theorem Inserted.append {ws' : List Write} (hi : Inserted s t ws k h u) :
    Inserted s t (ws ++ ws') k h u := by
  refine ⟨hi.1, hi.2.1, ?_⟩
  rw [Write.applyAll_append]
  exact Write.ownedBy_applyAll ws' hi.2.2

theorem Swept.append {ph ph' : Phase RowKey} {pc' : Pc} {ws' : List Write} {tr' : List (ℕ × ℕ)}
    (hw : Swept s ⟨pc, ph, ws, tr⟩ k u n) : Swept s ⟨pc', ph', ws ++ ws', tr'⟩ k u n :=
  ⟨hw.1, fun e he o p hpc => List.mem_append_left _ (hw.2 e he o p hpc)⟩

theorem LogInv.sweeping (hL : LogInv s) (hb : b ≤ s.log.length) :
    Sweeping s ⟨pc, .locking s.log.length
      ((Queries.revokeAllUserTokens k u).rows (Write.applyAll ws s.db)) todo, ws, tr⟩ k u b := by
  intro n ks todo hph
  cases hph
  refine ⟨hb, Nat.le_refl _, fun e he o p hpc => ?_⟩
  have he : (e.1, .issued o u p) ∈ s.log := hpc ▸ List.mem_of_mem_take he
  exact Queries.mem_rows_revokeAllUserTokens
    (Write.ownedBy_applyAll ws (hL.issued e.1 o u p he k))

theorem LogInv.swept {ph : Phase RowKey} {pc' : Pc} {tr' : List (ℕ × ℕ)} (hL : LogInv s)
    (hw : Sweeping s ⟨pc, .locking n ks todo, ws, tr⟩ k u b) :
    Swept s ⟨pc', ph, ws ++ ((Queries.revokeAllUserTokens k u).run ks (Write.applyAll ws s.db)).2,
      tr'⟩ k u n := by
  obtain ⟨_, hn, hcov⟩ := hw n ks todo rfl
  refine ⟨hn, fun e he o p hpc => List.mem_append_right _ ?_⟩
  have he' : (e.1, .issued o u p) ∈ s.log := hpc ▸ List.mem_of_mem_take he
  exact Queries.mem_revokeAllUserTokens
    (Write.ownedBy_applyAll ws (hL.issued e.1 o u p he' k)) (hcov e he o p hpc)

theorem inserted_of_get?_eq_none {r : Token} (hlock : s.lock (.token k r.tokenHash) = some t)
    (hnone : ((Write.applyAll ws s.db).tokens k).get? r.tokenHash = none) :
    Inserted s t (ws ++ [.insertToken k r]) k r.tokenHash r.userId := by
  refine ⟨hlock, ?_, r, ?_, rfl⟩
  · cases hr : (s.db.tokens k).get? r.tokenHash with
    | none => rfl
    | some r' => simp [Write.get?_applyAll_of_some ws hr] at hnone
  · rw [Write.applyAll_append]
    change ((Write.apply (.insertToken k r) (Write.applyAll ws s.db)).tokens k).get? _ = _
    rw [Write.get?_apply, hnone]
    simp [Write.onToken]

theorem TxnInv.andThen {α : Type} {q : Query α} {f : α → Pc} {q' : Stmt Db RowKey Write Pc}
    (hq : Pc.andThen q f = .exec q')
    (hok : ∀ a, (q.run ks d).1 = .ok a → TxnInv s t ⟨f a, .ready, ws ++ (q.run ks d).2, tr⟩) :
    TxnInv s t ⟨(q'.run ks d).1, .ready, ws ++ (q'.run ks d).2, tr⟩ := by
  cases hq
  simp only [Stmt.map]
  cases ha : (q.run ks d).1 with
  | ok a => exact hok a ha
  | error e => trivial

theorem TxnInv.of_locking (hx : TxnInv s t ⟨pc, .locking n ks todo, ws, tr⟩) :
    TxnInv s t ⟨pc, .locking n ks todo', ws, tr⟩ := by
  have hsweep {k : TokenKind} {u : UUID} {b : ℕ}
      (hw : Sweeping s ⟨pc, .locking n ks todo, ws, tr⟩ k u b) :
      Sweeping s ⟨pc, .locking n ks todo', ws, tr⟩ k u b := by
    intro n ks todo hph
    cases hph
    exact hw _ _ _ rfl
  cases pc with
  | revokeAll k h u =>
    cases k with
    | access =>
      obtain ⟨a, b, htr, hr, hw⟩ := hx
      exact ⟨a, b, htr, hr, hsweep hw⟩
    | refresh =>
      obtain ⟨a, b, n', m, htr, hr, hle, hd, hw⟩ := hx
      exact ⟨a, b, n', m, htr, hr, hle, hd, hsweep hw⟩
  | _ => exact hx

section

variable [DecidableEq τ]

theorem TxnInv.select {q : Stmt Db RowKey Write Pc} (hI : AuthInv pw s)
    (hx : s.txn t = some ⟨pc, .ready, ws, tr⟩) (hq : pc.cmd pw = .exec q) :
    TxnInv s t ⟨pc, .locking s.log.length (q.rows (Write.applyAll ws s.db)) todo, ws, tr⟩ := by
  have hinv := hI.txns t _ hx
  cases pc with
  | revokeAll k h u =>
    cases k with
    | access =>
      cases hq
      obtain ⟨a, b, htr, hr, _⟩ := hinv
      exact ⟨a, b, htr, hr, hI.log.sweeping hr.2.2.1⟩
    | refresh =>
      cases hq
      obtain ⟨a, b, n, m, htr, hr, hle, hd, _⟩ := hinv
      exact ⟨a, b, n, m, htr, hr, hle, hd, hI.log.sweeping hd.1⟩
  | _ => exact hinv

theorem TxnInv.settle_getRefreshToken {now : Timestamp} {q : Stmt Db RowKey Write Pc}
    (hI : AuthInv pw s) (hx : s.txn t = some ⟨.getRefreshToken h p now, .locking n ks [], ws, tr⟩)
    (hq : Pc.cmd pw (.getRefreshToken h p now) = .exec q) :
    TxnInv s t ⟨(q.run ks (Write.applyAll ws s.db)).1, .ready,
      ws ++ (q.run ks (Write.applyAll ws s.db)).2, tr ++ [(n, s.log.length)]⟩ := by
  obtain ⟨rfl, rfl⟩ := hI.txns t _ hx
  refine TxnInv.andThen hq fun r hr => ?_
  obtain ⟨hrow, hk, -⟩ := Queries.getToken_ok hr
  have hlock := hI.locks.locked_of_settle hx _ hk
  simp only [Pc.afterGetRefreshToken]
  split
  · refine ⟨n, s.log.length, rfl, ⟨hlock, ⟨r, hrow, rfl⟩, Nat.le_refl _, fun e he => ?_⟩,
      fun _ _ _ hph => by cases hph⟩
    simp at he
  · next hrev =>
    split
    · trivial
    · exact ⟨⟨hlock, r, hrow, by simpa using hrev, rfl⟩, n, s.log.length, [], rfl, Nat.le_refl _⟩

theorem TxnInv.settle_revokePresented {q : Stmt Db RowKey Write Pc} (hI : AuthInv pw s)
    (hx : s.txn t = some ⟨.revokePresented h u p, .locking n ks [], ws, tr⟩)
    (hq : Pc.cmd pw (.revokePresented h u p) = .exec q) :
    TxnInv s t ⟨(q.run ks (Write.applyAll ws s.db)).1, .ready,
      ws ++ (q.run ks (Write.applyAll ws s.db)).2, tr ++ [(n, s.log.length)]⟩ := by
  obtain ⟨hp, hat⟩ := hI.txns t _ hx
  refine TxnInv.andThen hq fun r hr => ⟨⟨hp, ?_, hat.append⟩, fun hk => by cases hk⟩
  exact List.mem_append_right _ (Queries.revokeToken_ok hr).2

theorem TxnInv.settle_createToken {q : Stmt Db RowKey Write Pc} (hI : AuthInv pw s)
    (hx : s.txn t = some ⟨.createToken k o u p, .locking n ks [], ws, tr⟩)
    (hq : Pc.cmd pw (.createToken k o u p) = .exec q) :
    TxnInv s t ⟨(q.run ks (Write.applyAll ws s.db)).1, .ready,
      ws ++ (q.run ks (Write.applyAll ws s.db)).2, tr ++ [(n, s.log.length)]⟩ := by
  obtain ⟨ho, hi⟩ := hI.txns t _ hx
  obtain ⟨q', d, hq', rfl⟩ := hI.locks.selected t _ n ks [] hx rfl
  obtain rfl : q' = q := by simpa [hq] using hq'.symm.trans hq
  have hlock : s.lock (.token k (p.hash k)) = some t := by
    refine hI.locks.locked_of_settle hx _ ?_
    cases k <;> cases hq <;> exact List.mem_singleton_self _
  cases k with
  | access =>
    refine TxnInv.andThen hq fun a ha => ⟨ho.append, fun _ => ?_⟩
    obtain ⟨hnone, hws⟩ := Queries.createToken_ok ha
    rw [Queries.createAccessToken, hws]
    exact inserted_of_get?_eq_none hlock hnone
  | refresh =>
    refine TxnInv.andThen hq fun a ha => ⟨ho.append, fun k => ?_⟩
    obtain ⟨hnone, hws⟩ := Queries.createToken_ok ha
    cases k with
    | access => exact (hi rfl).append
    | refresh =>
      rw [Queries.createRefreshToken, hws]
      exact inserted_of_get?_eq_none hlock hnone

theorem TxnInv.settle_revokeAll {q : Stmt Db RowKey Write Pc} (hI : AuthInv pw s)
    (hx : s.txn t = some ⟨.revokeAll k h u, .locking n ks [], ws, tr⟩)
    (hq : Pc.cmd pw (.revokeAll k h u) = .exec q) :
    TxnInv s t ⟨(q.run ks (Write.applyAll ws s.db)).1, .ready,
      ws ++ (q.run ks (Write.applyAll ws s.db)).2, tr ++ [(n, s.log.length)]⟩ := by
  have hinv := hI.txns t _ hx
  cases k with
  | access =>
    obtain ⟨a, b, rfl, hr, hw⟩ := hinv
    refine TxnInv.andThen hq fun _ _ => ⟨a, b, n, s.log.length, rfl, hr, (hw n ks [] rfl).1,
      hI.log.swept hw, fun _ _ _ hph => by cases hph⟩
  | refresh =>
    obtain ⟨a, b, n', m, rfl, hr, hle, hd, hw⟩ := hinv
    refine TxnInv.andThen hq fun _ _ => ⟨a, b, n', m, n, s.log.length, rfl, hr, hle,
      (hw n ks [] rfl).1, hd.append, hI.log.swept hw⟩

theorem TxnInv.settle {q : Stmt Db RowKey Write Pc} (hI : AuthInv pw s)
    (hx : s.txn t = some ⟨pc, .locking n ks [], ws, tr⟩) (hq : pc.cmd pw = .exec q) :
    TxnInv s t ⟨(q.run ks (Write.applyAll ws s.db)).1, .ready,
      ws ++ (q.run ks (Write.applyAll ws s.db)).2, tr ++ [(n, s.log.length)]⟩ := by
  have hcreate {u : UUID} {p : HashedPair} {o : Origin} (ho : ∀ h, o ≠ .rotation h) {ws tr} :
      TxnInv s t ⟨.createToken .access o u p, .ready, ws, tr⟩ := by
    refine ⟨?_, fun hk => by cases hk⟩
    cases o with
    | rotation h => exact absurd rfl (ho h)
    | _ => trivial
  have hafter {u : User} {newHash : String} {p : HashedPair} {ws tr} :
      TxnInv s t ⟨Pc.afterReactivate pw u newHash p, .ready, ws, tr⟩ := by
    unfold Pc.afterReactivate
    split
    · trivial
    · exact hcreate (by simp)
  cases pc with
  | createUser u p => exact TxnInv.andThen hq fun _ _ => hcreate (by simp)
  | getUserByUsername name password newHash p =>
    refine TxnInv.andThen hq fun u _ => ?_
    unfold Pc.afterGetUser
    split
    · trivial
    · split
      · trivial
      · exact hafter
  | reactivateUser u newHash p => exact TxnInv.andThen hq fun _ _ => hafter
  | updateUserPassword u newHash p => exact TxnInv.andThen hq fun _ _ => hcreate (by simp)
  | getRefreshToken h p now => exact TxnInv.settle_getRefreshToken hI hx hq
  | revokeAll k h u => exact TxnInv.settle_revokeAll hI hx hq
  | revokePresented h u p => exact TxnInv.settle_revokePresented hI hx hq
  | createToken k o u p => exact TxnInv.settle_createToken hI hx hq
  | logoutRefresh r a =>
    refine TxnInv.andThen hq fun _ _ => ?_
    cases a <;> trivial
  | logoutAccess a => exact TxnInv.andThen hq fun _ _ => trivial
  | setDeactivated id v => cases v <;> exact TxnInv.andThen hq fun _ _ => trivial
  | _ => cases hq

/-! ### Commits -/

theorem AuthInv.rotation (hI : AuthInv pw s)
    (hx : s.txn t = some ⟨.issued (.rotation h) u p, .ready, ws, tr⟩) :
    Presented s t h u ∧ .revokeToken .refresh h ∈ ws ∧
      ∀ k, Inserted s t ws k (p.hash k) u :=
  have hinv := hI.txns t _ hx
  ⟨hinv.1.1, hinv.1.2.1, hinv.2⟩

theorem AuthInv.beside_commit {t' : τ} (hI : AuthInv pw s)
    (hx : s.txn t = some ⟨pc, .ready, ws, tr⟩) (hne : t' ≠ t) :
    Beside t' s (s.committed t pc (Write.applyAll ws s.db)) where
  lock _ hk := Sys.close_lock_eq_some.mpr ⟨hne, hk⟩
  row k h hk := hI.locks.obs_of_locked (fun d => (d.tokens k).get? h)
    (fun w d hw => Write.get?_apply_of_ne w d hw) hx hk hne
  log := by
    -- a rotation commits only under its own lock on the presented row
    refine ⟨[(t, pc)], rfl, fun e he h p hp hk => hne ?_⟩
    obtain rfl := List.mem_singleton.mp he
    obtain ⟨u, rfl⟩ := Pc.rotation?_eq_some.mp hp
    exact Option.some.inj (hk.symm.trans (hI.rotation hx).1.1)

theorem LogInv.commit_rotation (hI : AuthInv pw s)
    (hx : s.txn t = some ⟨.issued (.rotation h) u p, .ready, ws, tr⟩) :
    (∀ a ∈ rotations s.log, a.1 ≠ h ∧ a.2.refreshToken ≠ p.refreshToken ∧ a.1 ≠ p.refreshToken) ∧
      h ≠ p.refreshToken := by
  obtain ⟨⟨-, r, hr, hrev, -⟩, -, hins⟩ := hI.rotation hx
  -- the new hash is in no row yet, while every presented and every issued hash is in one
  have hnone : (s.db.tokens .refresh).get? p.refreshToken = none := (hins .refresh).2.1
  have hstored {h' : TokenHash} {r' : Token} (hr' : (s.db.tokens .refresh).get? h' = some r') :
      h' ≠ p.refreshToken := fun heq => by simp [← heq, hr'] at hnone
  refine ⟨fun a ha => ?_, hstored hr⟩
  have hrevoked := hI.log.presented a.1 a.2 ha
  obtain ⟨t', u', hlog⟩ := mem_rotations.mp ha
  obtain ⟨r₁, hr₁, -⟩ := hI.log.issued _ _ _ _ hlog .refresh
  refine ⟨fun heq => hrevoked.not_unrevoked ⟨r, heq ▸ hr, hrev⟩, hstored hr₁, ?_⟩
  obtain ⟨r₂, hr₂, -⟩ := hrevoked
  exact hstored hr₂

theorem LogInv.commit (hI : AuthInv pw s) (hx : s.txn t = some ⟨pc, .ready, ws, tr⟩) :
    LogInv (s.committed t pc (Write.applyAll ws s.db)) := by
  have hL := hI.log
  refine ⟨fun h p hp => ?_, fun t' h u p hp => ?_, fun t' o u p hp k => ?_, ?_, fun h p hp => ?_⟩
  · obtain ⟨t', u, he⟩ := mem_rotations.mp hp
    rcases List.mem_append.mp he with he | he
    · exact Write.revoked_applyAll ws (hL.presented h p (mem_rotations.mpr ⟨t', u, he⟩))
    · obtain ⟨rfl, rfl⟩ := Prod.mk.inj (List.mem_singleton.mp he)
      obtain ⟨⟨-, r, hr, -⟩, hmem, -⟩ := hI.rotation hx
      exact Write.revoked_of_mem hmem ⟨r, hr, rfl⟩
  · rcases List.mem_append.mp hp with hp | hp
    · exact Write.ownedBy_applyAll ws (hL.owner t' h u p hp)
    · obtain ⟨rfl, rfl⟩ := Prod.mk.inj (List.mem_singleton.mp hp)
      obtain ⟨⟨-, r, hr, -, hu⟩, -⟩ := hI.rotation hx
      exact Write.ownedBy_applyAll ws ⟨r, hr, hu⟩
  · rcases List.mem_append.mp hp with hp | hp
    · exact Write.ownedBy_applyAll ws (hL.issued t' o u p hp k)
    · obtain ⟨rfl, rfl⟩ := Prod.mk.inj (List.mem_singleton.mp hp)
      exact ((hI.txns t' _ hx).2 k).2.2
  · change (rotations (s.log ++ [(t, pc)])).Pairwise _
    rw [rotations_append_singleton, List.pairwise_append]
    refine ⟨hL.order, ?_, fun a ha b hb => ?_⟩
    · cases pc.rotation? <;> simp
    · obtain ⟨u, rfl⟩ := Pc.rotation?_eq_some.mp (Option.mem_toList.mp hb)
      exact (LogInv.commit_rotation hI hx).1 a ha
  · change (h, p) ∈ rotations (s.log ++ [(t, pc)]) at hp
    rw [rotations_append_singleton, List.mem_append] at hp
    rcases hp with hp | hp
    · exact hL.fresh h p hp
    · obtain ⟨u, rfl⟩ := Pc.rotation?_eq_some.mp (Option.mem_toList.mp hp)
      exact (LogInv.commit_rotation hI hx).2

theorem TxnInv.setTxn {x y : AuthTxn} {t' : τ} (hI : AuthInv pw s) (hy : TxnInv s t y)
    (hx : (s.setTxn t y).txn t' = some x) : TxnInv (s.setTxn t y) t' x := by
  rcases Sys.setTxn_txn_eq_some hx with ⟨rfl, rfl⟩ | ⟨-, hx⟩
  · exact hy.beside (Beside.of_eq (fun _ hk => hk) rfl rfl)
  · exact (hI.txns t' x hx).beside (Beside.of_eq (fun _ hk => hk) rfl rfl)

theorem authInv_preserves : (transactions pw).Preserves (fun _ _ => True) (AuthInv pw (τ := τ)) where
  begin s t c hI ht := by
    refine ⟨Program.lockInv_preserves.begin s t c hI.locks ht, hI.log.of_eq rfl rfl, fun t' x hx => ?_⟩
    refine (TxnInv.setTxn (y := { pc := c.entry }) hI ?_ hx).beside
      (Beside.of_eq (fun _ hk => hk) rfl rfl)
    cases c with
    | refresh h p now => exact ⟨rfl, rfl⟩
    | _ => trivial
  select s t pc ws tr q hI hx hq :=
    ⟨Program.lockInv_preserves.select s t pc ws tr q hI.locks hx hq, hI.log.of_eq rfl rfl,
      fun _ _ hx' => TxnInv.setTxn hI (TxnInv.select hI hx hq) hx'⟩
  acquire s t k pc n ks todo ws tr hI hx hk ha := by
    refine ⟨Program.lockInv_preserves.acquire s t k pc n ks todo ws tr hI.locks hx hk ha,
      hI.log.of_eq rfl rfl, fun t' x hx' => ?_⟩
    exact (TxnInv.setTxn hI (hI.txns t _ hx).of_locking hx').beside
      (Beside.of_eq (fun _ hk' => Sys.lockRow_lock_of_held ha hk') rfl rfl)
  settle s t pc n ks ws tr q hI hx hq :=
    ⟨Program.lockInv_preserves.settle s t pc n ks ws tr q hI.locks hx hq, hI.log.of_eq rfl rfl,
      fun _ _ hx' => TxnInv.setTxn hI (TxnInv.settle hI hx hq) hx'⟩
  commit s t pc ws tr hI _ hx hc := by
    refine ⟨Program.lockInv_preserves.commit s t pc ws tr hI.locks trivial hx hc,
      LogInv.commit hI hx, fun t' x hx' => ?_⟩
    obtain ⟨hne, hx'⟩ := Sys.close_txn_eq_some (s := s) hx'
    exact (hI.txns t' x hx').beside (hI.beside_commit hx hne)
  abort s t x hI hx := by
    refine ⟨Program.lockInv_preserves.abort s t x hI.locks hx, hI.log.of_eq rfl rfl, fun t' y hy => ?_⟩
    obtain ⟨hne, hy⟩ := Sys.close_txn_eq_some hy
    exact (hI.txns t' y hy).beside
      (Beside.of_eq (fun _ hk => Sys.close_lock_eq_some.mpr ⟨hne, hk⟩) rfl rfl)

theorem authInv_init (d : Db) : AuthInv pw (AuthSys.init d : AuthSys τ) where
  locks := Program.lockInv_init d
  log :=
    { presented := fun _ _ he => by cases he
      owner := fun _ _ _ _ he => by cases he
      issued := fun _ _ _ _ he => by cases he
      order := List.Pairwise.nil
      fresh := fun _ _ he => by cases he }
  txns _ _ hx := by cases hx

theorem authInv_reachable {d : Db}
    (hs : Transition.Reachable (transactions pw).step (AuthSys.init d) s) : AuthInv pw s :=
  authInv_preserves.reachable (authInv_init d) hs

end

end Messenger
