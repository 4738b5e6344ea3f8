import Messenger.Services.Auth

/-! `authenticate_token`: the lookup in the worker's cache and, behind it, the two reads of the
database. The parts between two awaits are definitions of their own. -/

namespace Messenger

/-- The `HTTPException`s of `authenticate_token`. -/
inductive TokenRejection where
  | deactivated
  | revoked
  | expired
  | invalid
  deriving DecidableEq

namespace TokenRejection

def statusCode (_ : TokenRejection) : ℕ := 401

def headers (_ : TokenRejection) : List (String × String) := [("WWW-Authenticate", "Bearer")]

def detail : TokenRejection → String
  | deactivated => "User account is deactivated."
  | revoked => "Access token has been revoked."
  | expired => "Access token has expired."
  | invalid => "Invalid or nonexistent access token."

end TokenRejection

/-- `except NotFoundError`, which is all that a lookup can raise by itself. -/
def orInvalid {α : Type} : Except DbError α → Except TokenRejection α
  | .ok a => .ok a
  | .error _ => .error .invalid

def checkUser (user : User) (allowDeactivated : Bool) : Except TokenRejection User :=
  if user.deactivated && !allowDeactivated then .error .deactivated else .ok user

def checkToken (token : AccessToken) (now : Timestamp) : Except TokenRejection AccessToken :=
  if token.isRevoked then .error .revoked
  else if token.isExpired now then .error .expired
  else .ok token

/-- `get_access_token` and the checks on its row. -/
def lookupToken (d : Db) (h : TokenHash) (now : Timestamp) : Except TokenRejection AccessToken := do
  let token ← orInvalid ((Queries.getAccessToken h).run [] d).1
  checkToken token now

/-- `get_user_by_id` for the row of a token, and the check on the user. -/
def lookupUser (d : Db) (token : AccessToken) (allowDeactivated : Bool) :
    Except TokenRejection User := do
  let user ← orInvalid ((Queries.getUserById token.userId).run [] d).1
  checkUser user allowDeactivated

/-- A call that nothing runs beside: its answer, and the cache of its worker afterwards. -/
def authenticateToken (d : Db) (cache : TokenCache) (now : Timestamp) (h : TokenHash)
    (allowDeactivated : Bool) : Except TokenRejection User × TokenCache :=
  match cache h with
  | some user => (checkUser user allowDeactivated, cache)
  | none =>
    match lookupToken d h now with
    | .error e => (.error e, cache)
    | .ok token =>
      match lookupUser d token allowDeactivated with
      | .error e => (.error e, cache)
      | .ok user => (.ok user, cache.set h user)

namespace Db

def Locked (d : Db) (id : UUID) : Prop :=
  ∀ user, d.users.get? id = some user → user.deactivated = true

end Db

variable {d : Db} {h : TokenHash} {now : Timestamp} {allow : Bool} {user : User}
  {token : AccessToken}

theorem checkUser_eq_ok {user' : User} :
    checkUser user allow = .ok user' ↔ (user.deactivated = true → allow = true) ∧ user = user' := by
  unfold checkUser
  cases user.deactivated <;> cases allow <;> simp

theorem lookupToken_eq_ok :
    lookupToken d h now = .ok token ↔
      (d.tokens .access).get? h = some token ∧ token.isRevoked = false ∧
        token.isExpired now = false := by
  have hrow : ((Queries.getAccessToken h).run [] d).1 =
      ((d.tokens .access).get? h).elim (.error (.notFound .accessToken h.str)) .ok := by
    unfold Queries.getAccessToken Queries.getToken
    cases ht : (d.tokens .access).get? h <;> simp [ht, TokenKind.entity, Option.filter]
  unfold lookupToken
  rw [hrow]
  cases (d.tokens .access).get? h with
  | none => simp [orInvalid, bind, Except.bind]
  | some t =>
    simp only [Option.elim_some, orInvalid, bind, Except.bind, checkToken, Option.some.injEq]
    cases hr : t.isRevoked <;> cases he : t.isExpired now <;> simp <;> rintro rfl <;> simp_all

theorem lookupUser_eq_ok :
    lookupUser d token allow = .ok user ↔
      d.users.get? token.userId = some user ∧ (user.deactivated = true → allow = true) := by
  have hrow : ((Queries.getUserById token.userId).run [] d).1 =
      (d.users.get? token.userId).elim (.error (.notFound .user token.userId.str)) .ok := by
    unfold Queries.getUserById Queries.selectUser Table.get?
    simp only [Bool.not_false, Bool.true_or, Bool.and_true]
    cases d.users.rows.find? _ <;> simp
  unfold lookupUser
  rw [hrow]
  cases d.users.get? token.userId with
  | none => simp [orInvalid, bind, Except.bind]
  | some u =>
    simp only [Option.elim_some, orInvalid, bind, Except.bind, checkUser_eq_ok, Option.some.injEq]
    constructor
    · rintro ⟨hu, rfl⟩
      exact ⟨rfl, hu⟩
    · rintro ⟨rfl, hu⟩
      exact ⟨hu, rfl⟩

/-- Without `allow_deactivated` the database accepts no token of a locked account. -/
theorem lookupUser_of_locked (hl : d.Locked token.userId) (hok : lookupUser d token false = .ok user) :
    False := by
  obtain ⟨hu, hactive⟩ := lookupUser_eq_ok.mp hok
  exact absurd (hactive (hl user hu)) (by decide)

/-- The worker accepts a token from its cache, or for what the database says now. -/
theorem authenticateToken_eq_ok {cache : TokenCache}
    (hok : (authenticateToken d cache now h allow).1 = .ok user) :
    cache h = some user ∧ (user.deactivated = true → allow = true) ∨
      cache h = none ∧ ∃ token, lookupToken d h now = .ok token ∧
        lookupUser d token allow = .ok user := by
  unfold authenticateToken at hok
  split at hok
  · next user' hc =>
    obtain ⟨hactive, rfl⟩ := checkUser_eq_ok.mp hok
    exact .inl ⟨hc, hactive⟩
  · next hc =>
    split at hok
    · cases hok
    · next token ht =>
      split at hok
      · cases hok
      · next user' hu =>
        obtain rfl := Except.ok.inj hok
        exact .inr ⟨hc, token, ht, hu⟩

end Messenger
