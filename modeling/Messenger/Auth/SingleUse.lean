import Mathlib.Data.List.Nodup
import Mathlib.Logic.Relation
import Messenger.Auth.Invariant

/-! A refresh token is rotated at most once, the tokens rotated from one login form a chain whose
members but the last are revoked, and a second use of a token revokes the pair of the first. -/

namespace Messenger
open ReadCommitted Relation

section

variable {τ : Type} [DecidableEq τ] {pw : PasswordHasher} {s : AuthSys τ} {t : τ}
  {h h' root : TokenHash} {u : UUID} {p : HashedPair}

def Rotated (s : AuthSys τ) (h h' : TokenHash) : Prop :=
  ∃ p, (h, p) ∈ rotations s.log ∧ p.refreshToken = h'

omit [DecidableEq τ] in
theorem LogInv.nodup_presented (hL : LogInv s) : ((rotations s.log).map Prod.fst).Nodup :=
  List.pairwise_map.mpr (hL.order.imp And.left)

omit [DecidableEq τ] in
theorem LogInv.rightUnique (hL : LogInv s) : Relator.RightUnique (Rotated s) := by
  rintro h h₁ h₂ ⟨p₁, hp₁, rfl⟩ ⟨p₂, hp₂, rfl⟩
  have heq := List.inj_on_of_nodup_map hL.nodup_presented hp₁ hp₂ rfl
  rw [(Prod.mk.inj heq).2]

omit [DecidableEq τ] in
/-- Along a path of rotations the commits come in order. -/
theorem LogInv.exists_index_le (hL : LogInv s) (hpath : TransGen (Rotated s) h h') :
    ∃ (i j : ℕ) (p : HashedPair) (q : TokenHash × HashedPair), i ≤ j ∧
      (rotations s.log)[i]? = some (h, p) ∧ (rotations s.log)[j]? = some q ∧ q.2.refreshToken = h' := by
  induction hpath with
  | single hrot =>
    obtain ⟨p, hp, rfl⟩ := hrot
    obtain ⟨i, hi⟩ := List.mem_iff_getElem?.mp hp
    exact ⟨i, i, p, (h, p), Nat.le_refl i, hi, hi, rfl⟩
  | tail _ hrot ih =>
    obtain ⟨i, j, p, q, hij, hi, hj, hq⟩ := ih
    obtain ⟨p', hp', rfl⟩ := hrot
    obtain ⟨m, hm⟩ := List.mem_iff_getElem?.mp hp'
    refine ⟨i, m, p, _, Nat.le_trans hij (Nat.le_of_not_lt fun hlt => ?_), hi, hm, rfl⟩
    obtain ⟨hjl, hj⟩ := List.getElem?_eq_some_iff.mp hj
    obtain ⟨hml, hm⟩ := List.getElem?_eq_some_iff.mp hm
    have hne := (List.pairwise_iff_getElem.mp hL.order m j hml hjl hlt).2.2
    rw [hj, hm] at hne
    exact hne hq.symm

omit [DecidableEq τ] in
theorem LogInv.not_cyclic (hL : LogInv s) : ¬ TransGen (Rotated s) h h := by
  intro hcycle
  obtain ⟨i, j, p, q, hij, hi, hj, hq⟩ := hL.exists_index_le hcycle
  obtain ⟨hjl, hj'⟩ := List.getElem?_eq_some_iff.mp hj
  obtain ⟨hil, hi'⟩ := List.getElem?_eq_some_iff.mp hi
  rcases Nat.lt_or_eq_of_le hij with hlt | rfl
  · have hne := (List.pairwise_iff_getElem.mp hL.order i j hil hjl hlt).2.2
    rw [hi', hj'] at hne
    exact hne hq.symm
  · obtain rfl : q = (h, p) := hj'.symm.trans hi'
    exact hL.fresh h p (List.mem_of_getElem? hi) hq.symm

omit [DecidableEq τ] in
theorem LogInv.eq_of_unrevoked (hL : LogInv s) (hpath : ReflTransGen (Rotated s) h h')
    (hu : s.db.Unrevoked .refresh h) : h = h' := by
  rcases ReflTransGen.cases_head hpath with heq | ⟨_, ⟨p, hp, _⟩, _⟩
  · exact heq
  · exact ((hL.presented h p hp).not_unrevoked hu).elim

theorem AuthInv.revoked_of_reused {ws : List Write} {tr : List (ℕ × ℕ)} (hI : AuthInv pw s)
    (hx : s.txn t = some ⟨.reused h u, .ready, ws, tr⟩) (hp : (h, p) ∈ rotations s.log)
    (k : TokenKind) : (Write.applyAll ws s.db).Revoked k (p.hash k) := by
  obtain ⟨a, b, n, m, n', m', rfl, ⟨-, ho, hb, hdrop⟩, hbn, hnn', hacc, href⟩ := hI.txns t _ hx
  obtain ⟨t', u', he⟩ := mem_rotations.mp hp
  obtain rfl : u' = u := (hI.log.owner t' h u' p he).unique ho
  -- the lock on `h` kept rotations of it out of the log, so the snapshots have seen this one
  have hin {i : ℕ} (hi : b ≤ i) : (t', Pc.issued (.rotation h) u' p) ∈ s.log.take i := by
    rw [← List.take_append_drop b s.log, List.mem_append] at he
    rcases he with he | he
    · exact (List.take_subset_take_left s.log hi) he
    · exact (hdrop _ he p rfl).elim
  have ho := hI.log.issued t' _ u' p he
  cases k with
  | access => exact Write.revoked_of_mem (hacc.2 _ (hin hbn) _ p rfl) (ho .access)
  | refresh => exact Write.revoked_of_mem (href.2 _ (hin (Nat.le_trans hbn hnn')) _ p rfl) (ho .refresh)

/-- In every state of every run, over any database: a token is rotated at most once; two tokens
that come from one login or registration (or any other `root`) lie on one chain and at most one of
them is unrevoked; and a call that commits its reuse branch leaves the pair of the rotation revoked. -/
theorem refresh_single_use (pw : PasswordHasher) (d : Db) (s : AuthSys τ)
    (hs : Transition.Reachable (transactions pw).step (AuthSys.init d) s) :
    (∀ h, ((rotations s.log).map Prod.fst).count h ≤ 1) ∧
      (∀ h, ¬ TransGen (Rotated s) h h) ∧
      (∀ root h h', ReflTransGen (Rotated s) root h → ReflTransGen (Rotated s) root h' →
        (ReflTransGen (Rotated s) h h' ∨ ReflTransGen (Rotated s) h' h) ∧
        (s.db.Unrevoked .refresh h → s.db.Unrevoked .refresh h' → h = h')) ∧
      ∀ t h u p s', (s.txn t).map Txn.pc = some (.reused h u) →
        (transactions pw).step s (.commit t) = some s' → (h, p) ∈ rotations s.log →
        ∀ k, s'.db.Revoked k (p.hash k) := by
  have hI := authInv_reachable hs
  refine ⟨fun h => List.nodup_iff_count_le_one.mp hI.log.nodup_presented h,
    fun h => hI.log.not_cyclic, fun root h h' hh hh' => ?_, fun t h u p s' hpc hc hp k => ?_⟩
  · have htotal := ReflTransGen.total_of_right_unique hI.log.rightUnique hh hh'
    refine ⟨htotal, fun hu hu' => ?_⟩
    rcases htotal with hpath | hpath
    · exact hI.log.eq_of_unrevoked hpath hu
    · exact (hI.log.eq_of_unrevoked hpath hu').symm
  · obtain ⟨pc, ws, tr, hx, _, rfl⟩ := Program.commit_eq_some hc
    rw [hx] at hpc
    obtain rfl : pc = .reused h u := Option.some.inj hpc
    exact hI.revoked_of_reused hx hp k

end

/-! A schedule in which a token is presented again after its rotation. -/

namespace Sample

def hasher : PasswordHasher where
  verify password hash := password = hash
  needsRehash _ := false

def user : User :=
  { userId := ⟨1⟩, username := "ada", passwordHash := "secret", createdAt := 0 }

def pair (n : ℕ) : HashedPair where
  accessToken := ⟨.ofNat 256 n⟩
  refreshToken := ⟨.ofNat 256 n⟩
  accessTokenExpiresAt := 900
  refreshTokenExpiresAt := 9000

def statement (t : ℕ) (rows : List RowKey) : List (AuthAct ℕ) :=
  .start t :: rows.map (.lock t)

def accessRow (n : ℕ) : RowKey := .token .access ⟨.ofNat 256 n⟩
def refreshRow (n : ℕ) : RowKey := .token .refresh ⟨.ofNat 256 n⟩

def register (t n : ℕ) : List (AuthAct ℕ) :=
  .begin t (.register user (pair n)) :: statement t [.user user.userId, .username user.username] ++
    statement t [accessRow n] ++ statement t [refreshRow n] ++ [.commit t]

def present (t n n' : ℕ) : List (AuthAct ℕ) :=
  .begin t (.refresh ⟨.ofNat 256 n⟩ (pair n') 0) :: statement t [refreshRow n]

def rotate (t n n' : ℕ) : List (AuthAct ℕ) :=
  statement t [refreshRow n] ++ statement t [accessRow n'] ++ statement t [refreshRow n']

def reuse : List (AuthAct ℕ) :=
  register 0 0 ++ present 1 0 1 ++ rotate 1 0 1 ++ [.commit 1] ++ present 2 0 2 ++
    statement 2 [accessRow 0, accessRow 1] ++ statement 2 [refreshRow 1, refreshRow 0]

end Sample

theorem refresh_single_use_reuse :
    ∃ s s' : AuthSys ℕ, (transactions Sample.hasher).step s (.commit 2) = some s' ∧
      rotations s'.log = [(⟨.ofNat 256 0⟩, Sample.pair 1)] ∧
      ∀ k, s'.db.Revoked k ((Sample.pair 1).hash k) := by
  obtain ⟨s, hs, s', hc, hpc, hlog, hlog'⟩ :
      ∃ s ∈ Transition.run (transactions Sample.hasher).step (AuthSys.init {}) Sample.reuse,
        ∃ s' ∈ (transactions Sample.hasher).step s (.commit 2),
        (s.txn 2).map Txn.pc = some (.reused ⟨.ofNat 256 0⟩ Sample.user.userId) ∧
        rotations s.log = [(⟨.ofNat 256 0⟩, Sample.pair 1)] ∧ rotations s'.log = rotations s.log := by
    decide
  refine ⟨s, s', hc, hlog'.trans hlog, ?_⟩
  exact (refresh_single_use Sample.hasher {} s ⟨_, hs⟩).2.2.2 2 _ _ _ s' hpc hc
    (hlog ▸ List.mem_singleton_self _)

end Messenger
