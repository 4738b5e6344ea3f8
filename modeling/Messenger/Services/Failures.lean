import Messenger.Services.Transactions

/-! What `login` and `refresh` leave behind when they raise. Everything up to the commit is undone. A
call raises with its changes kept where the answer to its commit is lost, or where the publication fails
that follows the commit and is awaited in the same call. -/

namespace Messenger
open Transactional

def Db.SameTables (d d' : Db) : Prop :=
  d'.users = d.users ∧ d'.accessTokens = d.accessTokens ∧ d'.refreshTokens = d.refreshTokens

theorem Db.SameTables.tokens {d d' : Db} (h : d.SameTables d') (k : TokenKind) :
    d'.tokens k = d.tokens k := by
  cases k with
  | access => exact h.2.1
  | refresh => exact h.2.2

namespace AuthService

variable {env : AuthEnv} {f : Await → Option Fault} {w : AuthState} {d d' : Db} {u : UUID}
  {h : TokenHash} {b : Bool}

def LoginIntact (env : AuthEnv) (f : Await → Option Fault) (w : AuthState)
    (username password : String) : Prop :=
  ∀ e w', login env username password (raising f) w = (.error e, w') → w.db.SameTables w'.db

def RefreshIntact (env : AuthEnv) (f : Await → Option Fault) (w : AuthState) (raw : String) : Prop :=
  ∀ e w', refresh env raw (raising f) w = (.error e, w') → e ≠ .service .tokenRevoked →
    w.db.SameTables w'.db

/-- Something fails once the `COMMIT` has been executed: its answer is lost, or the event is. -/
def FailsAfterCommit (f : Await → Option Fault) (e : SystemEvent) : Prop :=
  (f .commitAnswer).isSome ∨ (f (.publish e)).isSome

/-- The transaction of `login` commits, and its answer is lost, or the call has reactivated the user or
replaced the hash and the publication fails. -/
def LoginHalfDone (env : AuthEnv) (f : Await → Option Fault) (w : AuthState)
    (username password : String) : Prop :=
  f .begin = none ∧ f .commit = none ∧ ∃ user, LoginRuns env f w.db username password user ∧
    ((f .commitAnswer).isSome ∨
      (user.deactivated || env.hasher.needsRehash user.passwordHash) = true ∧
        (f (.publish (.userInvalidated user.userId))).isSome)

def ReuseHalfDone (f : Await → Option Fault) (w : AuthState) (token : Token) : Prop :=
  (∀ k, f (.revokeAllUserTokens k) = none) ∧
    (∃ k h t, (w.db.tokens k).get? h = some t ∧ t.userId = token.userId ∧ t.isRevoked = false) ∧
    FailsAfterCommit f (.userInvalidated token.userId)

def RotationHalfDone (env : AuthEnv) (f : Await → Option Fault) (w : AuthState) (h : TokenHash)
    (token : Token) : Prop :=
  token.isExpired env.now = false ∧ f (.revokeToken .refresh) = none ∧ Issues env f w.db ∧
    (w.db.users.get? token.userId).isSome ∧ FailsAfterCommit f (.tokenRevoked h)

def RefreshHalfDone (env : AuthEnv) (f : Await → Option Fault) (w : AuthState) (raw : String) :
    Prop :=
  (∀ p ∈ [Await.begin, .getRefreshToken, .commit], f p = none) ∧
    ∃ token, (w.db.tokens .refresh).get? (env.hashToken raw) = some token ∧
      if token.isRevoked then ReuseHalfDone f w token
      else RotationHalfDone env f w (env.hashToken raw) token

theorem decorated_of_error {α : Type} {m : AuthOp α} {g g' : Error → Except Error α} {e : Error}
    {w' : AuthState} (hg : g e = .error e ∧ g' e = .error e)
    (hm : m (raising f) w = (.error e, w')) :
    Op.handle g' (Op.handle g m) (raising f) w = (.error e, w') :=
  (Op.handle_of_error ((Op.handle_of_error hm).trans (by rw [hg.1]))).trans (by rw [hg.2])

theorem decorated_snd {α : Type} {m : AuthOp α} {g g' : Error → Except Error α} {w' : AuthState}
    {r r' : Except Error α} (hm : m (raising f) w = (r, w))
    (h : Op.handle g' (Op.handle g m) (raising f) w = (r', w')) : w' = w := by
  have hsnd := congrArg Prod.snd h
  rw [Op.handle_snd, Op.handle_snd, hm] at hsnd
  exact hsnd.symm

/-! ### `refresh` -/

variable {raw : String} {x : Fault}

def refreshEvent (env : AuthEnv) (raw : String) (isReused : Bool) (userId : UUID) : SystemEvent :=
  if isReused then .userInvalidated userId else .tokenRevoked (env.hashToken raw)

theorem refresh_of_fault (hbegin : f .begin = none) (hcommit : f .commit = none)
    (htx : refreshTx env (env.hashToken raw) (raising f) w.db = .ok ((b, u), d))
    (hx : FailsAfterCommit f (refreshEvent env raw b u)) :
    ∃ x : Fault, refresh env raw (raising f) w = (.error x.error, { w with db := d }) := by
  cases hanswer : f .commitAnswer with
  | some x =>
    have hrun : transaction (refreshTx env (env.hashToken raw)) (raising f) w =
        (.error x.error, { w with db := d }) :=
      transaction_of_lost (raising_eq_none.mpr hbegin) htx (raising_eq_none.mpr hcommit)
        (by simp only [raising, hanswer, Option.map_some])
    exact ⟨x, decorated_of_error ⟨handleDbNotFoundError_fault x, handleDbConstraintError_fault x⟩
      (Op.bind_of_error hrun)⟩
  | none =>
    have hlost : (f .commitAnswer).isSome = false := by rw [hanswer]; rfl
    obtain ⟨x, hx⟩ := Option.isSome_iff_exists.mp (hx.resolve_left (Bool.eq_false_iff.mp hlost))
    have hrun : transaction (refreshTx env (env.hashToken raw)) (raising f) w =
        (.ok (b, u), { w with db := d }) :=
      transaction_of_ok (raising_eq_none.mpr hbegin) htx (raising_eq_none.mpr hcommit)
        (raising_eq_none.mpr hanswer)
    refine ⟨x, decorated_of_error
      ⟨handleDbNotFoundError_fault x, handleDbConstraintError_fault x⟩ ((Op.bind_of_ok hrun).trans ?_)⟩
    have hpublish {e : SystemEvent} (he : f (.publish e) = some x) {w' : AuthState} :
        publishStreamEvent e (raising f) w' = (.error x.error, w') :=
      publishStreamEvent_of_some (by simp [raising, he])
    cases b with
    | true => exact Op.bind_of_error (hpublish hx)
    | false => exact Op.bind_of_error (hpublish hx)

theorem refresh_of_published (hbegin : f .begin = none) (hcommit : f .commit = none)
    (htx : refreshTx env (env.hashToken raw) (raising f) w.db = .ok ((b, u), d))
    (hx : ¬ FailsAfterCommit f (refreshEvent env raw b u)) :
    ∃ w', refresh env raw (raising f) w =
      (if b then .error (.service .tokenRevoked) else .ok env.tokenPair, w') := by
  obtain ⟨hanswer, hpublished⟩ := not_or.mp hx
  rw [Bool.not_eq_true, Option.isSome_eq_false_iff, Option.isNone_iff_eq_none] at hanswer hpublished
  have hrun : transaction (refreshTx env (env.hashToken raw)) (raising f) w =
      (.ok (b, u), { w with db := d }) :=
    transaction_of_ok (raising_eq_none.mpr hbegin) htx (raising_eq_none.mpr hcommit)
      (raising_eq_none.mpr hanswer)
  have hpublish := publishStreamEvent_of_none (w := { w with db := d }) (raising_eq_none.mpr hpublished)
  cases b with
  | true =>
    exact ⟨_, decorated_of_error ⟨rfl, rfl⟩ ((Op.bind_of_ok hrun).trans
      ((Op.bind_of_ok hpublish).trans Op.throw_apply))⟩
  | false =>
    exact ⟨_, Op.handle_of_ok (Op.handle_of_ok ((Op.bind_of_ok hrun).trans
      ((Op.bind_of_ok hpublish).trans rfl)))⟩

theorem refresh_eq_error {e : Error} {w' : AuthState}
    (h : refresh env raw (raising f) w = (.error e, w')) (he : e ≠ .service .tokenRevoked) :
    w' = w ∨ ∃ b u, f .begin = none ∧ f .commit = none ∧
      refreshTx env (env.hashToken raw) (raising f) w.db = .ok ((b, u), w'.db) ∧
      FailsAfterCommit f (refreshEvent env raw b u) := by
  rcases transaction_cases (refreshTx env (env.hashToken raw)) (raising f) w with
    ⟨⟨b, u⟩, d, hbegin, htx, hcommit, -⟩ | ⟨e', hrun, -⟩
  · have hbegin := raising_eq_none.mp hbegin
    have hcommit := raising_eq_none.mp hcommit
    refine .inr ⟨b, u, hbegin, hcommit, ?_⟩
    by_cases hf : FailsAfterCommit f (refreshEvent env raw b u)
    · obtain ⟨x, hfault⟩ := refresh_of_fault hbegin hcommit htx hf
      obtain ⟨-, rfl⟩ := Prod.mk.inj (hfault.symm.trans h)
      exact ⟨htx, hf⟩
    · obtain ⟨w₁, hpublished⟩ := refresh_of_published hbegin hcommit htx hf
      obtain ⟨heq, -⟩ := Prod.mk.inj (hpublished.symm.trans h)
      cases b with
      | true => exact absurd (Except.error.inj heq).symm he
      | false => cases heq
  · exact .inl (decorated_snd (Op.bind_of_error hrun) h)

theorem not_sameTables {k : TokenKind} (hu : d.Unrevoked k h) (hr : d'.Revoked k h) :
    ¬ d.SameTables d' := by
  intro hsame
  simp only [Db.Revoked, hsame.tokens] at hr
  exact Db.Revoked.not_unrevoked hr hu

/-- `refresh` leaves the tables as they were when it raises, unless its transaction commits a change
and something fails after it. -/
theorem refresh_intact_iff (env : AuthEnv) (f : Await → Option Fault) (w : AuthState) (raw : String) :
    RefreshIntact env f w raw ↔ ¬ RefreshHalfDone env f w raw := by
  constructor
  · rintro hintact ⟨hf, token, htoken, hrest⟩
    have hbegin : f .begin = none := hf _ (by simp)
    have hget : f .getRefreshToken = none := hf _ (by simp)
    have hcommit : f .commit = none := hf _ (by simp)
    split at hrest
    · next hrev =>
      obtain ⟨hk, ⟨k, h, t, ht, hu, hunrev⟩, hx⟩ := hrest
      have htx : refreshTx env (env.hashToken raw) (raising f) w.db = .ok ((true, token.userId),
          sweep (sweep w.db .access token.userId) .refresh token.userId) := by
        refine refreshTx_eq_ok.mpr ⟨hget, token, htoken, hrev.symm, rfl, ?_⟩
        rw [if_pos hrev]
        exact ⟨hk, rfl⟩
      obtain ⟨x, hfault⟩ := refresh_of_fault hbegin hcommit htx hx
      -- the sweep has revoked a row of the user
      refine not_sameTables ⟨t, ht, hunrev⟩ ?_ (hintact _ _ hfault (by cases x <;> simp [Fault.error]))
      exact revoked_sweeps ⟨t, ht, hu⟩
    · next hrev =>
      obtain ⟨hexp, hrevoke, hissues, hu, hx⟩ := hrest
      have htx : refreshTx env (env.hashToken raw) (raising f) w.db = .ok ((false, token.userId),
          Write.applyAll [.revokeToken .refresh (env.hashToken raw),
            .insertToken .access (env.pair.row .access token.userId),
            .insertToken .refresh (env.pair.row .refresh token.userId)] w.db) := by
        refine refreshTx_eq_ok.mpr ⟨hget, token, htoken, (Bool.eq_false_iff.mpr hrev).symm, rfl, ?_⟩
        rw [if_neg hrev]
        exact ⟨hexp, hrevoke, hissues, hu, rfl⟩
      obtain ⟨x, hfault⟩ := refresh_of_fault hbegin hcommit htx hx
      -- the rotation has revoked the presented row
      refine not_sameTables ⟨token, htoken, Bool.eq_false_iff.mpr hrev⟩ ?_
        (hintact _ _ hfault (by cases x <;> simp [Fault.error]))
      exact Write.revoked_of_mem (List.mem_cons_self ..) ⟨token, htoken, rfl⟩
  · intro hnot e w' h he
    rcases refresh_eq_error h he with rfl | ⟨b, u, hbegin, hcommit, htx, hx⟩
    · exact ⟨rfl, rfl, rfl⟩
    obtain ⟨hget, token, htoken, rfl, rfl, hrest⟩ := refreshTx_eq_ok.mp htx
    have hf : ∀ p ∈ [Await.begin, .getRefreshToken, .commit], f p = none := by simp [*]
    split at hrest
    · next hrev =>
      obtain ⟨hk, hd⟩ := hrest
      -- a sweep that finds nothing to revoke writes nothing
      have hall (k : TokenKind) (h : TokenHash) (t : Token) (ht : (w.db.tokens k).get? h = some t)
          (hu : t.userId = token.userId) : t.isRevoked = true := by
        by_contra hunrev
        refine hnot ⟨hf, token, htoken, ?_⟩
        rw [if_pos hrev]
        refine ⟨hk, ⟨k, h, t, ht, hu, by simpa using hunrev⟩, ?_⟩
        rwa [refreshEvent, if_pos hrev] at hx
      rw [sweep_of_revoked (hall .access), sweep_of_revoked (hall .refresh)] at hd
      exact ⟨congrArg Db.users hd, congrArg Db.accessTokens hd, congrArg Db.refreshTokens hd⟩
    · next hrev =>
      obtain ⟨hexp, hrevoke, hissues, hu, -⟩ := hrest
      refine (hnot ⟨hf, token, htoken, ?_⟩).elim
      rw [if_neg hrev]
      rw [refreshEvent, if_neg hrev] at hx
      exact ⟨hexp, hrevoke, hissues, hu, hx⟩

/-! ### `login` -/

variable {username password : String} {user : User}

theorem login_of_lost (hbegin : f .begin = none) (hcommit : f .commit = none)
    (htx : loginTx env username password (raising f) w.db = .ok ((user, b), d))
    (hanswer : f .commitAnswer = some x) :
    login env username password (raising f) w = (.error x.error, { w with db := d }) := by
  have hrun : transaction (loginTx env username password) (raising f) w =
      (.error x.error, { w with db := d }) :=
    transaction_of_lost (raising_eq_none.mpr hbegin) htx (raising_eq_none.mpr hcommit)
      (by simp only [raising, hanswer, Option.map_some])
  exact decorated_of_error ⟨handleDbNotFoundError_fault x, handleDbConstraintError_fault x⟩
    (Op.bind_of_error hrun)

theorem login_of_fault (hbegin : f .begin = none) (hcommit : f .commit = none)
    (hanswer : f .commitAnswer = none)
    (htx : loginTx env username password (raising f) w.db = .ok ((user, true), d))
    (hx : f (.publish (.userInvalidated user.userId)) = some x) :
    login env username password (raising f) w = (.error x.error, { w with db := d }) := by
  have hrun : transaction (loginTx env username password) (raising f) w =
      (.ok (user, true), { w with db := d }) :=
    transaction_of_ok (raising_eq_none.mpr hbegin) htx (raising_eq_none.mpr hcommit)
      (raising_eq_none.mpr hanswer)
  have hpublish : publishStreamEvent (.userInvalidated user.userId) (raising f) { w with db := d } =
      (.error x.error, { w with db := d }) :=
    publishStreamEvent_of_some (by simp [raising, hx])
  exact decorated_of_error ⟨handleDbNotFoundError_fault x, handleDbConstraintError_fault x⟩
    ((Op.bind_of_ok hrun).trans (Op.bind_of_error hpublish))

theorem login_of_published (hbegin : f .begin = none) (hcommit : f .commit = none)
    (hanswer : f .commitAnswer = none)
    (htx : loginTx env username password (raising f) w.db = .ok ((user, b), d))
    (hx : b = true → f (.publish (.userInvalidated user.userId)) = none) :
    ∃ w', login env username password (raising f) w = (.ok (user, env.tokenPair), w') ∧
      w'.db = d := by
  have hrun : transaction (loginTx env username password) (raising f) w =
      (.ok (user, b), { w with db := d }) :=
    transaction_of_ok (raising_eq_none.mpr hbegin) htx (raising_eq_none.mpr hcommit)
      (raising_eq_none.mpr hanswer)
  cases b with
  | true =>
    have hpublish := publishStreamEvent_of_none (w := { w with db := d })
      (raising_eq_none.mpr (hx rfl))
    exact ⟨_, Op.handle_of_ok (Op.handle_of_ok ((Op.bind_of_ok hrun).trans
      ((Op.bind_of_ok hpublish).trans rfl))), rfl⟩
  | false => exact ⟨_, Op.handle_of_ok (Op.handle_of_ok ((Op.bind_of_ok hrun).trans rfl)), rfl⟩

theorem login_eq_error {e : Error} {w' : AuthState}
    (h : login env username password (raising f) w = (.error e, w')) :
    w' = w ∨ LoginHalfDone env f w username password := by
  rcases transaction_cases (loginTx env username password) (raising f) w with
    ⟨⟨user, b⟩, d, hbegin, htx, hcommit, -⟩ | ⟨e', hrun, -⟩
  · have hbegin := raising_eq_none.mp hbegin
    have hcommit := raising_eq_none.mp hcommit
    obtain ⟨hruns, hb, -⟩ := (loginTx_eq_ok (find?_of_loginTx htx)).mp htx
    cases hanswer : f .commitAnswer with
    | some x => exact .inr ⟨hbegin, hcommit, user, hruns, .inl (by rw [hanswer]; rfl)⟩
    | none =>
      by_cases hx : b = true → f (.publish (.userInvalidated user.userId)) = none
      · obtain ⟨w₁, hpublished, -⟩ := login_of_published hbegin hcommit hanswer htx hx
        cases (Prod.mk.inj (hpublished.symm.trans h)).1
      · obtain ⟨hneeds, hx⟩ := Classical.not_imp.mp hx
        exact .inr ⟨hbegin, hcommit, user, hruns,
          .inr ⟨hb.symm.trans hneeds, Option.isSome_iff_ne_none.mpr hx⟩⟩
  · exact .inl (decorated_snd (Op.bind_of_error hrun) h)

theorem not_sameTables_login (hruns : LoginRuns env f d username password user) :
    ¬ d.SameTables (Write.applyAll (loginWrites env password user) d) := by
  intro hsame
  have hnone : (d.tokens .access).get? (env.pair.hash .access) = none := (hruns.2.1 .access).2
  rw [← hsame.tokens .access] at hnone
  have hmem : .insertToken .access (env.pair.row .access user.userId) ∈
      loginWrites env password user := by simp [loginWrites]
  have hsome := Write.isSome_get?_of_mem (d := d) hmem
  rw [Option.isSome_iff_ne_none] at hsome
  exact hsome hnone

/-- `login` leaves the tables as they were when it raises, unless its transaction commits and its answer
is lost, or the cache needs invalidation then and the publication fails. -/
theorem login_intact_iff (env : AuthEnv) (f : Await → Option Fault) (w : AuthState)
    (username password : String) :
    LoginIntact env f w username password ↔ ¬ LoginHalfDone env f w username password := by
  constructor
  · rintro hintact ⟨hbegin, hcommit, user, hruns, hfails⟩
    have htx := (loginTx_eq_ok hruns.2.2.1).mpr ⟨hruns, rfl, rfl⟩
    refine not_sameTables_login hruns ?_
    cases hanswer : f .commitAnswer with
    | some x => exact hintact _ _ (login_of_lost hbegin hcommit htx hanswer)
    | none =>
      rw [hanswer] at hfails
      obtain ⟨hneeds, hx⟩ := hfails.resolve_left nofun
      obtain ⟨x, hx⟩ := Option.isSome_iff_exists.mp hx
      rw [hneeds] at htx
      exact hintact _ _ (login_of_fault hbegin hcommit hanswer htx hx)
  · intro hnot e w' h
    obtain rfl := (login_eq_error h).resolve_right hnot
    exact ⟨rfl, rfl, rfl⟩

theorem failed_calls_intact_iff (env : AuthEnv) (f : Await → Option Fault) (w : AuthState)
    (username password raw : String) :
    (LoginIntact env f w username password ↔ ¬ LoginHalfDone env f w username password) ∧
      (RefreshIntact env f w raw ↔ ¬ RefreshHalfDone env f w raw) :=
  ⟨login_intact_iff env f w username password, refresh_intact_iff env f w raw⟩

end AuthService

namespace Sample

def noRedis : Await → Option Fault
  | .publish _ => some (.redis .connection)
  | _ => none

def loggedIn : Db :=
  Write.applyAll [.insertUser user, .insertToken .refresh ((pair 2).row .refresh user.userId)] {}

end Sample

/-- The rotation is committed, the publication fails, and the next presentation is taken for reuse. -/
theorem not_refreshIntact_noRedis :
    ¬ AuthService.RefreshIntact Sample.env Sample.noRedis { db := Sample.loggedIn } "rr" := by
  refine fun h => (AuthService.refresh_intact_iff ..).mp h ⟨by decide,
    (Sample.pair 2).row .refresh Sample.user.userId, by decide, ?_⟩
  rw [if_neg (by decide)]
  refine ⟨by decide, rfl, fun k => ?_, by decide, .inr (by decide)⟩
  cases k <;> exact ⟨rfl, by decide⟩

end Messenger
