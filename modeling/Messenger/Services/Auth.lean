import Messenger.Auth.Transactions
import Messenger.Lib.Transactional
import Messenger.Services.Errors

/-! `AuthService`, its `TokenCache` and the system events it publishes, as operations in which
every `await` may fail. -/

namespace Messenger
open Transactional

inductive SystemEvent where
  | userInvalidated (userId : UUID)
  | tokenRevoked (tokenHash : TokenHash)
  deriving DecidableEq

abbrev TokenCache := TokenHash → Option User

namespace TokenCache

def empty : TokenCache := fun _ => none

def set (c : TokenCache) (h : TokenHash) (user : User) : TokenCache :=
  Function.update c h (some user)

def evict (c : TokenCache) (h : TokenHash) : TokenCache := Function.update c h none

def evictUser (c : TokenCache) (id : UUID) : TokenCache := fun h =>
  (c h).filter fun user => user.userId ≠ id

def handleInvalidationEvent (c : TokenCache) : SystemEvent → TokenCache
  | .tokenRevoked h => c.evict h
  | .userInvalidated id => c.evictUser id

variable {c : TokenCache} {h h' : TokenHash} {user user' : User}

@[simp] theorem evict_self : c.evict h h = none := Function.update_self ..

theorem of_evict (hc : c.evict h' h = some user) : c h = some user := by
  by_cases hh : h = h'
  · rw [hh, evict_self] at hc
    cases hc
  · rwa [evict, Function.update_of_ne hh] at hc

theorem of_set (hc : c.set h' user' h = some user) : c h = some user ∨ h = h' ∧ user = user' := by
  by_cases hh : h = h'
  · rw [hh, set, Function.update_self] at hc
    exact .inr ⟨hh, (Option.some.inj hc).symm⟩
  · rw [set, Function.update_of_ne hh] at hc
    exact .inl hc

theorem of_handle {e : SystemEvent} (hc : c.handleInvalidationEvent e h = some user) :
    c h = some user := by
  cases e with
  | tokenRevoked h' => exact of_evict hc
  | userInvalidated id => exact (Option.filter_eq_some_iff.mp hc).1

end TokenCache

structure TokenPair where
  accessToken : String
  refreshToken : String
  accessTokenExpiresAt : Timestamp
  refreshTokenExpiresAt : Timestamp
  deriving DecidableEq

/-- What a call draws from outside: SHA-256 and Argon2, the pair that `_generate_token_pair`
returns, the fresh user id and the clock. -/
structure AuthEnv where
  hashToken : String → TokenHash
  hasher : PasswordHasher
  hashPassword : String → String
  tokenPair : TokenPair
  newUserId : UUID
  now : Timestamp

def AuthEnv.pair (env : AuthEnv) : HashedPair where
  accessToken := env.hashToken env.tokenPair.accessToken
  refreshToken := env.hashToken env.tokenPair.refreshToken
  accessTokenExpiresAt := env.tokenPair.accessTokenExpiresAt
  refreshTokenExpiresAt := env.tokenPair.refreshTokenExpiresAt

inductive Await where
  | begin
  | commit
  /-- The answer to a `COMMIT` that has been executed. -/
  | commitAnswer
  | createUser
  | getUserByUsername
  | deactivateUser
  | reactivateUser
  | deleteUser
  | updateUserPassword
  | getRefreshToken
  | revokeAllUserTokens (kind : TokenKind)
  | revokeToken (kind : TokenKind)
  | createToken (kind : TokenKind)
  | hashPassword
  | verifyPassword
  | needsRehash
  | publish (e : SystemEvent)
  deriving DecidableEq

inductive Fault where
  | driver (e : DriverError)
  | redis (e : RedisError)
  | other
  deriving DecidableEq

def Fault.error : Fault → Error
  | driver e => .db (.driver e)
  | redis e => .redis e
  | other => .other

theorem handleDbNotFoundError_fault {α : Type} {overrides : Entity → Option Handler}
    {suppressed : Entity → Option α} {kwargs : Kwargs} (x : Fault) :
    handleDbNotFoundError overrides suppressed kwargs x.error = .error x.error := by
  cases x <;> rfl

theorem handleDbConstraintError_fault {α : Type} {overrides : Constraint → Option Handler}
    {kwargs : Kwargs} (x : Fault) :
    handleDbConstraintError overrides kwargs x.error = (.error x.error : Except Error α) := by
  cases x <;> rfl

structure AuthState where
  db : Db
  stream : List SystemEvent := []
  cache : TokenCache := .empty

abbrev AuthTx := Tx Await Error Db
abbrev AuthOp := Op Await Error AuthState

def raising (f : Await → Option Fault) : Faults Await Error := fun p => (f p).map Fault.error

/-- One statement of a transaction that nothing runs beside. -/
def query {α : Type} (p : Await) (q : Query α) : AuthTx α := fun f d =>
  match f p with
  | some e => .error e
  | none =>
    match q.run (q.rows d) d with
    | (.ok a, ws) => .ok (a, Write.applyAll ws d)
    | (.error e, _) => .error (.db e)

/-- A `COMMIT` may fail before it is executed, which rolls everything back, or lose its answer after. -/
def transaction {α : Type} (body : AuthTx α) : AuthOp α := do
  let a ← Op.transaction AuthState.db (fun d w => { w with db := d }) .begin .commit body
  Op.await .commitAnswer
  return a

section

variable {α : Type} {p : Await} {q : Query α} {f : Faults Await Error} {f' : Await → Option Fault}
  {d d' : Db} {a : α} {ws : List Write} {e : DbError} {x : Fault}

theorem query_of_ok (hf : f p = none) (hq : q.run (q.rows d) d = (.ok a, ws)) :
    query p q f d = .ok (a, Write.applyAll ws d) := by
  simp only [query, hf, hq]

theorem query_eq_ok : query p q f d = .ok (a, d') ↔
    f p = none ∧ ∃ ws, q.run (q.rows d) d = (.ok a, ws) ∧ d' = Write.applyAll ws d := by
  constructor
  · intro h
    simp only [query] at h
    split at h
    · cases h
    · next hf =>
      split at h
      · next ws hq =>
        obtain ⟨rfl, rfl⟩ := Prod.mk.inj (Except.ok.inj h)
        exact ⟨hf, ws, hq, rfl⟩
      · cases h
  · rintro ⟨hf, ws, hq, rfl⟩
    exact query_of_ok hf hq

theorem query_of_fault (hf : f' p = some x) : query p q (raising f') d = .error x.error := by
  simp only [query, raising, hf, Option.map_some]

theorem query_of_error (hf : f p = none) (hq : q.run (q.rows d) d = (.error e, ws)) :
    query p q f d = .error (.db e) := by
  simp only [query, hf, hq]

@[simp] theorem raising_eq_none : raising f' p = none ↔ f' p = none := by simp [raising]

end

def publishStreamEvent (e : SystemEvent) : AuthOp Unit := do
  Op.await (.publish e)
  Op.modify fun w => { w with stream := w.stream ++ [e] }

section

variable {α : Type} {body : AuthTx α} {f : Faults Await Error} {w : AuthState} {a : α} {d : Db} {e : Error}

theorem transaction_of_ok (hbegin : f .begin = none) (hbody : body f w.db = .ok (a, d))
    (hcommit : f .commit = none) (hanswer : f .commitAnswer = none) :
    transaction body f w = (.ok a, { w with db := d }) :=
  (Op.bind_of_ok (Op.transaction_of_ok hbegin hbody hcommit)).trans
    (Op.bind_of_ok (Op.await_apply_of_none hanswer))

theorem transaction_of_lost (hbegin : f .begin = none) (hbody : body f w.db = .ok (a, d))
    (hcommit : f .commit = none) (hanswer : f .commitAnswer = some e) :
    transaction body f w = (.error e, { w with db := d }) :=
  (Op.bind_of_ok (Op.transaction_of_ok hbegin hbody hcommit)).trans
    (Op.bind_of_error (Op.await_apply_of_some hanswer))

theorem transaction_cases (body : AuthTx α) (f : Faults Await Error) (w : AuthState) :
    (∃ a d, f .begin = none ∧ body f w.db = .ok (a, d) ∧ f .commit = none ∧
        (f .commitAnswer = none ∧ transaction body f w = (.ok a, { w with db := d }) ∨
          ∃ e, f .commitAnswer = some e ∧ transaction body f w = (.error e, { w with db := d }))) ∨
      ∃ e, transaction body f w = (.error e, w) ∧
        (f .begin = some e ∨ body f w.db = .error e ∨ f .commit = some e) := by
  have hcases : (∃ a d, f .begin = none ∧ body f w.db = .ok (a, d) ∧ f .commit = none ∧ _) ∨
      ∃ e, Op.transaction AuthState.db (fun d w => { w with db := d }) .begin .commit body f w =
        (.error e, w) ∧ _ := Op.transaction_cases f w
  rcases hcases with ⟨a, d, hbegin, hbody, hcommit, -⟩ | ⟨e, hrun, he⟩
  · refine .inl ⟨a, d, hbegin, hbody, hcommit, ?_⟩
    cases hanswer : f .commitAnswer with
    | none => exact .inl ⟨rfl, transaction_of_ok hbegin hbody hcommit hanswer⟩
    | some e => exact .inr ⟨e, rfl, transaction_of_lost hbegin hbody hcommit hanswer⟩
  · exact .inr ⟨e, Op.bind_of_error hrun, he⟩

theorem transaction_answered (body : AuthTx α) (w : AuthState) (hanswer : f .commitAnswer = none) :
    (∃ a d, body f w.db = .ok (a, d) ∧ transaction body f w = (.ok a, { w with db := d })) ∨
      ∃ e, transaction body f w = (.error e, w) ∧
        (f .begin = some e ∨ body f w.db = .error e ∨ f .commit = some e) := by
  rcases transaction_cases body f w with ⟨a, d, -, hbody, -, ⟨-, hrun⟩ | ⟨e, hlost, -⟩⟩ | hraised
  · exact .inl ⟨a, d, hbody, hrun⟩
  · cases hanswer.symm.trans hlost
  · exact .inr hraised

/-- A call goes on after its commit, or it raises: with its writes kept where the answer is lost, and
with nothing changed where nothing has been committed. -/
theorem transaction_bind_cases {β γ : Type} (announce : α → List γ) (k : α → AuthOp β)
    (f : Faults Await Error) (w : AuthState) :
    (∃ a d, Op.committed .begin .commit body announce f w.db = some (d, announce a) ∧
        ((transaction body >>= k) f w = k a f { w with db := d } ∨
          ∃ e, f .commitAnswer = some e ∧
            (transaction body >>= k) f w = (.error e, { w with db := d }))) ∨
      Op.committed .begin .commit body announce f w.db = none ∧
        ∃ e, (transaction body >>= k) f w = (.error e, w) := by
  cases hcommitted : Op.committed .begin .commit body announce f w.db with
  | some r =>
    obtain ⟨d, es⟩ := r
    obtain ⟨hbegin, hcommit, a, hbody, rfl⟩ := Op.committed_eq_some.mp hcommitted
    refine .inl ⟨a, d, rfl, ?_⟩
    cases hanswer : f .commitAnswer with
    | none => exact .inl (Op.bind_of_ok (transaction_of_ok hbegin hbody hcommit hanswer))
    | some e => exact .inr ⟨e, rfl, Op.bind_of_error (transaction_of_lost hbegin hbody hcommit hanswer)⟩
  | none =>
    rcases transaction_cases body f w with ⟨a, d, hbegin, hbody, hcommit, -⟩ | ⟨e, hrun, -⟩
    · cases hcommitted.symm.trans (Op.committed_eq_some.mpr ⟨hbegin, hcommit, a, hbody, rfl⟩)
    · exact .inr ⟨rfl, e, Op.bind_of_error hrun⟩

end

theorem publishStreamEvent_of_none {e : SystemEvent} {f : Faults Await Error} {w : AuthState}
    (hf : f (.publish e) = none) :
    publishStreamEvent e f w = (.ok (), { w with stream := w.stream ++ [e] }) :=
  (Op.bind_of_ok (Op.await_apply_of_none hf)).trans rfl

theorem publishStreamEvent_of_some {e : SystemEvent} {f : Faults Await Error} {w : AuthState}
    {x : Error} (hf : f (.publish e) = some x) : publishStreamEvent e f w = (.error x, w) :=
  Op.bind_of_error (Op.await_apply_of_some hf)

theorem publishStreamEvent_cases (e : SystemEvent) (f : Await → Option Fault) (w : AuthState) :
    publishStreamEvent e (raising f) w = (.ok (), { w with stream := w.stream ++ [e] }) ∨
      ∃ x : Fault, publishStreamEvent e (raising f) w = (.error x.error, w) := by
  cases hf : f (.publish e) with
  | none => exact .inl (publishStreamEvent_of_none (raising_eq_none.mpr hf))
  | some x => exact .inr ⟨x, publishStreamEvent_of_some (by simp only [raising, hf, Option.map_some])⟩

namespace AuthService

variable (env : AuthEnv)

def issueTokenPair (user : UUID) : AuthTx Unit := do
  query (.createToken .access) (Queries.createAccessToken (env.pair.row .access user))
  query (.createToken .refresh) (Queries.createRefreshToken (env.pair.row .refresh user))

def registerTx (user : User) : AuthTx User := do
  let user ← query .createUser (Queries.createUser user)
  issueTokenPair env user.userId
  return user

def register (username password : String) : AuthOp (User × TokenPair) :=
  Op.handle (handleDbConstraintError (fun _ => none) [("username", username), ("password", password)])
    do
      Op.await .hashPassword
      let user ← transaction (registerTx env
        { userId := env.newUserId, username, passwordHash := env.hashPassword password,
          createdAt := env.now })
      return (user, env.tokenPair)

def reactivateIfDeactivated (user : User) : AuthTx Unit :=
  if user.deactivated then query .reactivateUser (Queries.reactivateUser user.userId) else return

def rehashIfNeeded (password : String) (user : User) : AuthTx Unit := do
  Tx.await .needsRehash
  if env.hasher.needsRehash user.passwordHash then
    Tx.await .hashPassword
    query .updateUserPassword
      (Queries.updateUserPassword user.userId (env.hashPassword password) user.passwordHash)
  else return

def loginTx (username password : String) : AuthTx (User × Bool) := do
  let user ← query .getUserByUsername (Queries.getUserByUsername username)
  Tx.await .verifyPassword
  if !env.hasher.verify password user.passwordHash then
    Tx.throw (.service .invalidCredentials)
  else
    reactivateIfDeactivated user
    rehashIfNeeded env password user
    issueTokenPair env user.userId
    return (user, user.deactivated || env.hasher.needsRehash user.passwordHash)

def loginConstraints : Constraint → Option Handler
  | .fkAccessTokensUserId => some fun _ => .invalidCredentials
  | .fkRefreshTokensUserId => some fun _ => .invalidCredentials
  | _ => none

def loginEntities : Entity → Option Handler
  | .user => some fun _ => .invalidCredentials
  | _ => none

def login (username password : String) : AuthOp (User × TokenPair) :=
  let kwargs := [("username", username), ("password", password)]
  Op.handle (handleDbConstraintError loginConstraints kwargs) <|
    Op.handle (handleDbNotFoundError loginEntities (fun _ => none) kwargs) do
      let (user, cacheNeedsInvalidation) ← transaction (loginTx env username password)
      if cacheNeedsInvalidation then
        publishStreamEvent (.userInvalidated user.userId)
      return (user, env.tokenPair)

def refreshTx (refreshHash : TokenHash) : AuthTx (Bool × UUID) := do
  let token ← query .getRefreshToken (Queries.getRefreshToken refreshHash true)
  if token.isRevoked then
    query (.revokeAllUserTokens .access) (Queries.revokeAllUserAccessTokens token.userId)
    query (.revokeAllUserTokens .refresh) (Queries.revokeAllUserRefreshTokens token.userId)
    return (true, token.userId)
  else if token.isExpired env.now then
    Tx.throw (.service .tokenExpired)
  else
    query (.revokeToken .refresh) (Queries.revokeRefreshToken refreshHash)
    issueTokenPair env token.userId
    return (false, token.userId)

def refreshEntities : Entity → Option Handler
  | .refreshToken => some fun _ => .invalidToken
  | _ => none

def refresh (rawRefreshToken : String) : AuthOp TokenPair :=
  let kwargs := [("raw_refresh_token", rawRefreshToken)]
  Op.handle (handleDbConstraintError (fun _ => none) kwargs) <|
    Op.handle (handleDbNotFoundError refreshEntities (fun _ => none) kwargs) do
      let refreshHash := env.hashToken rawRefreshToken
      let (isReused, userId) ← transaction (refreshTx env refreshHash)
      if isReused then
        publishStreamEvent (.userInvalidated userId)
        Op.throw (.service .tokenRevoked)
      else
        publishStreamEvent (.tokenRevoked refreshHash)
        return env.tokenPair

def logoutTx (refreshHash : TokenHash) : Option TokenHash → AuthTx Unit
  | none => query (.revokeToken .refresh) (Queries.revokeRefreshToken refreshHash)
  | some accessHash => do
    query (.revokeToken .refresh) (Queries.revokeRefreshToken refreshHash)
    query (.revokeToken .access) (Queries.revokeAccessToken accessHash)

def logoutSuppressed : Entity → Option Unit
  | .refreshToken => some ()
  | .accessToken => some ()
  | _ => none

def afterLogout (refreshHash : TokenHash) : Option TokenHash → AuthOp Unit
  | none => publishStreamEvent (.tokenRevoked refreshHash)
  | some accessHash => do
    Op.modify fun w => { w with cache := w.cache.evict accessHash }
    publishStreamEvent (.tokenRevoked refreshHash)
    publishStreamEvent (.tokenRevoked accessHash)

/-- An empty access token counts as none. -/
def logoutAccessHash (rawAccessToken : Option String) : Option TokenHash :=
  (rawAccessToken.filter (· ≠ "")).map env.hashToken

def logout (rawRefreshToken : String) (rawAccessToken : Option String) : AuthOp Unit :=
  Op.handle (handleDbNotFoundError (fun _ => none) logoutSuppressed []) do
    let refreshHash := env.hashToken rawRefreshToken
    let accessHash := logoutAccessHash env rawAccessToken
    transaction (logoutTx refreshHash accessHash)
    afterLogout refreshHash accessHash

end AuthService
end Messenger
