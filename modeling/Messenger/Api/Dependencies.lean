import Messenger.Api.Schemas
import Messenger.App.Lifespan
import Messenger.Services.Roster
import Messenger.Session.Authenticate

/-! What the routers share: the state of the application, the dependencies that authenticate the caller,
and the handlers that make a response of an exception. -/

namespace Messenger
open Transactional

/-- `app.state` of one worker, with what it spawns, and the database and the stream of all workers. -/
structure AppState where
  db : Db
  stream : List SystemEvent := []
  authCache : TokenCache := .empty
  spawned : List PushTask := []

/-- What a request draws from outside. No request needs more than one fresh id. -/
structure Env where
  hashToken : String → TokenHash
  hasher : PasswordHasher
  hashPassword : String → String
  tokenPair : TokenPair
  newId : UUID
  now : Timestamp
  limitOne : RowChoice Friendship
  conversation : NewestFirst DirectMessage (·.createdAt)
  timeline : NewestFirst GroupMessage (·.createdAt)

namespace Env

def auth (env : Env) : AuthEnv where
  hashToken := env.hashToken
  hasher := env.hasher
  hashPassword := env.hashPassword
  tokenPair := env.tokenPair
  newUserId := env.newId
  now := env.now

def messaging (env : Env) : MessagingEnv where
  now := env.now
  messageId := env.newId
  limitOne := env.limitOne
  conversation := env.conversation
  timeline := env.timeline

end Env

/-! ### Exceptions and their responses -/

/-- The `HTTPException`s of the dependencies. -/
inductive Unauthorized where
  | missing
  | rejected (r : TokenRejection)
  deriving DecidableEq

def Unauthorized.detail : Unauthorized → String
  | missing => "Missing Bearer authentication token."
  | rejected r => r.detail

inductive ApiError where
  | unauthorized (e : Unauthorized)
  | invalid (errors : List FieldError)
  | raised (e : Error)
  deriving DecidableEq

/-- What a response carries. Queries without an `ORDER BY` promise no order of their rows. -/
inductive Body where
  | none
  | detail (text : String)
  | errors (es : List FieldError)
  | message (text : String)
  | auth (user : UserResponse) (tokens : TokenPair)
  | tokens (tokens : TokenPair)
  | user (user : UserResponse)
  | friendship (f : Friendship)
  | friendships (fs : Multiset Friendship)
  | group (g : Group)
  | groups (gs : Multiset Group)
  | membership (m : Membership)
  | memberships (ms : Multiset Membership)
  | directMessage (m : DirectMessage)
  | directMessages (ms : List DirectMessage)
  | groupMessage (m : GroupMessage)
  | groupMessages (ms : List GroupMessage)
  deriving DecidableEq

structure Response where
  statusCode : ℕ
  body : Body
  headers : List (String × String) := []
  deriving DecidableEq

/-- The exception handlers of `main.py`. -/
def Error.response : Error → Response
  | .service e => { statusCode := e.statusCode, body := .detail e.message }
  -- no `DatabaseError`, but something that the connection has let through
  | .db (.driver .other) => { statusCode := 500, body := .detail "An internal server error occurred." }
  | .db _ => { statusCode := 500, body := .detail "A database operation failed." }
  | .redis _ =>
    { statusCode := 500, body := .detail "A caching or messaging operation failed." }
  | .other => { statusCode := 500, body := .detail "An internal server error occurred." }

def ApiError.response : ApiError → Response
  | unauthorized e =>
    { statusCode := 401, body := .detail e.detail, headers := [("WWW-Authenticate", "Bearer")] }
  | invalid errors => { statusCode := 422, body := .errors errors }
  | raised e => e.response

inductive TokenAwait where
  | acquire
  | getAccessToken
  | getUserById
  deriving DecidableEq

variable (env : Env) (f : TokenAwait → Option Fault) (s : AppState) (allowDeactivated : Bool)

def awaitToken (p : TokenAwait) : Except ApiError Unit :=
  (f p).elim (.ok ()) fun x => .error (.raised x.error)

def reject {α : Type} : Except TokenRejection α → Except ApiError α :=
  Except.mapError fun r => .unauthorized (.rejected r)

/-- The slow path of `authenticate_token`. -/
def authenticateInDb (h : TokenHash) : Except ApiError User := do
  awaitToken f .acquire
  awaitToken f .getAccessToken
  let token ← reject (lookupToken s.db h env.now)
  awaitToken f .getUserById
  reject (lookupUser s.db token allowDeactivated)

/-- `authenticate_token`, in which every `await` may fail. -/
def authenticate (rawToken : String) : Except ApiError User × AppState :=
  match s.authCache (env.hashToken rawToken) with
  | some user => (reject (checkUser user allowDeactivated), s)
  | none =>
    match authenticateInDb env f s allowDeactivated (env.hashToken rawToken) with
    | .ok user => (.ok user, { s with authCache := s.authCache.set (env.hashToken rawToken) user })
    | .error e => (.error e, s)

/-- `get_current_user` and `get_current_user_allow_deactivated`. -/
def getCurrentUser (credentials : Option String) : Except ApiError User × AppState :=
  match credentials.filter (· ≠ "") with
  | some rawToken => authenticate env f s allowDeactivated rawToken
  | none => (.error (.unauthorized .missing), s)

variable {env f s allowDeactivated} {s' : AppState} {user : User} {h : TokenHash} {rawToken : String}
  {credentials : Option String} {e : ApiError}

theorem reject_eq_ok {α : Type} {r : Except TokenRejection α} {a : α} :
    reject r = .ok a ↔ r = .ok a := by
  cases r <;> simp [reject, Except.mapError]

theorem awaitToken_eq_ok {p : TokenAwait} {u : Unit} : awaitToken f p = .ok u ↔ f p = none := by
  unfold awaitToken
  cases f p <;> simp

theorem except_bind_eq_ok {ε α β : Type} {m : Except ε α} {k : α → Except ε β} {b : β} :
    (m >>= k) = .ok b ↔ ∃ a, m = .ok a ∧ k a = .ok b := by
  cases m with
  | ok a =>
    constructor
    · exact fun h => ⟨a, rfl, h⟩
    · rintro ⟨a', ha, h⟩
      exact Except.ok.inj ha ▸ h
  | error e => exact ⟨nofun, fun ⟨_, hm, _⟩ => nomatch hm⟩

theorem authenticateInDb_eq_ok :
    authenticateInDb env f s allowDeactivated h = .ok user ↔
      (∀ p, f p = none) ∧ ∃ token, lookupToken s.db h env.now = .ok token ∧
        lookupUser s.db token allowDeactivated = .ok user := by
  simp only [authenticateInDb, except_bind_eq_ok, awaitToken_eq_ok, reject_eq_ok]
  constructor
  · rintro ⟨_, hacquire, _, htoken, token, hlookup, _, huser, hfound⟩
    refine ⟨fun p => ?_, token, hlookup, hfound⟩
    cases p <;> assumption
  · rintro ⟨hf, token, hlookup, hfound⟩
    exact ⟨(), hf _, (), hf _, token, hlookup, (), hf _, hfound⟩

theorem getCurrentUser_snd (h : getCurrentUser env f s allowDeactivated credentials = (.ok user, s')) :
    ∃ raw ∈ credentials, raw ≠ "" ∧
      (s' = s ∧ s.authCache (env.hashToken raw) = some user ∧
          (user.deactivated = true → allowDeactivated = true) ∨
        s' = { s with authCache := s.authCache.set (env.hashToken raw) user } ∧
          authenticateInDb env f s allowDeactivated (env.hashToken raw) = .ok user) := by
  unfold getCurrentUser at h
  split at h
  · next raw hraw =>
    obtain ⟨hcredentials, hne⟩ := Option.filter_eq_some_iff.mp hraw
    refine ⟨raw, hcredentials, of_decide_eq_true hne, ?_⟩
    unfold authenticate at h
    split at h
    · next cached hcached =>
      obtain ⟨hcheck, rfl⟩ := Prod.mk.inj h
      obtain ⟨hallow, rfl⟩ := checkUser_eq_ok.mp (reject_eq_ok.mp hcheck)
      exact .inl ⟨rfl, hcached, hallow⟩
    · split at h
      · next found hfound =>
        obtain ⟨hok, rfl⟩ := Prod.mk.inj h
        obtain rfl := Except.ok.inj hok
        exact .inr ⟨rfl, hfound⟩
      · cases (Prod.mk.inj h).1
  · cases (Prod.mk.inj h).1

theorem getCurrentUser_of_error
    (h : getCurrentUser env f s allowDeactivated credentials = (.error e, s')) : s' = s := by
  unfold getCurrentUser at h
  split at h
  · unfold authenticate at h
    split at h
    · exact (Prod.mk.inj h).2.symm
    · split at h
      · cases (Prod.mk.inj h).1
      · exact (Prod.mk.inj h).2.symm
  · exact (Prod.mk.inj h).2.symm

theorem getCurrentUser_frame (env : Env) (f : TokenAwait → Option Fault) (s : AppState)
    (allowDeactivated : Bool) (credentials : Option String) :
    ∃ authCache, (getCurrentUser env f s allowDeactivated credentials).2 = { s with authCache } := by
  cases hauth : getCurrentUser env f s allowDeactivated credentials with
  | mk r s' =>
    cases r with
    | ok user =>
      obtain ⟨raw, -, -, ⟨rfl, -, -⟩ | ⟨rfl, -⟩⟩ := getCurrentUser_snd hauth
      · exact ⟨_, rfl⟩
      · exact ⟨_, rfl⟩
    | error e =>
      obtain rfl := getCurrentUser_of_error hauth
      exact ⟨_, rfl⟩

end Messenger
