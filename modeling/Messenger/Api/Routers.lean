import Messenger.Api.Dependencies

/-! The routes: what each one validates, which service it calls and how it answers. -/

namespace Messenger
open Transactional

inductive ApiAwait where
  | token (p : TokenAwait)
  | auth (p : Await)
  | group (p : GroupAwait)
  | messaging (p : MessagingAwait)
  | friendship (p : FriendshipAwait)
  | read (p : ReadAwait)
  deriving DecidableEq

abbrev ApiFaults := ApiAwait → Option Fault

abbrev RouteHandler := ApiFaults → AppState → Except ApiError Response × AppState

namespace RouteHandler

variable {α : Type} (statusCode : ℕ) (body : α → Body)

def answer (r : Except Error α) : Except ApiError Response :=
  match r with
  | .ok a => .ok { statusCode, body := body a }
  | .error e => .error (.raised e)

def auth (m : AuthOp α) : RouteHandler := fun f s =>
  let (r, w) := m (raising fun p => f (.auth p)) { db := s.db, stream := s.stream, cache := s.authCache }
  (answer statusCode body r, { s with db := w.db, stream := w.stream, authCache := w.cache })

def group (m : GroupOp α) : RouteHandler := fun f s =>
  let (r, w) := m (fun p => (f (.group p)).map Fault.error) { db := s.db }
  (answer statusCode body r, { s with db := w.db, spawned := s.spawned ++ w.spawned.map .group })

def messaging (m : MessagingOp α) : RouteHandler := fun f s =>
  let (r, w) := m (fun p => (f (.messaging p)).map Fault.error) { db := s.db }
  (answer statusCode body r, { s with db := w.db, spawned := s.spawned ++ w.spawned.map .message })

def friendship (c : FriendshipCall) (body : Body) : RouteHandler := fun f s =>
  let (r, d) := c.perform (fun p => (f (.friendship p)).map Fault.error) s.db
  (answer statusCode (fun _ => body) r, { s with db := d })

def read (m : Reading α) : RouteHandler := fun f s =>
  (answer statusCode body (m (fun p => (f (.read p)).map Fault.error) s.db), s)

end RouteHandler

/-- The routes of `auth.py` that ask for no authenticated user. -/
inductive SessionEndpoint where
  | register (username password : String)
  | login (username password : String)
  | refresh (refreshToken : String)
  | logout (refreshToken : String)
  deriving DecidableEq

/-- The routes with an authenticated user, under the names of their functions. -/
inductive UserEndpoint where
  | getMe
  | getMyProfile
  | getUserByUsername (username : String)
  | getUserById (userId : UUID)
  | deactivateMyAccount
  | reactivateMyAccount
  | deleteMyAccount
  | sendRequest (addresseeId : UUID)
  | listPendingRequests
  | acceptRequest (requesterId : UUID)
  | listFriends
  | getStatus (targetId : UUID)
  | removeOrDecline (targetId : UUID)
  | createGroup (name : String)
  | listGroups
  | getGroup (groupId : UUID)
  | deleteGroup (groupId : UUID)
  | addMember (groupId userId : UUID)
  | removeMember (groupId userId : UUID)
  | listGroupMembers (groupId : UUID)
  | sendDirectMessage (recipientId : UUID) (content : String)
  | getDmHistory (recipientId : UUID) (before : Option Timestamp) (limit : Option ℤ)
  | sendGroupMessage (groupId : UUID) (content : String)
  | getGroupHistory (groupId : UUID) (before : Option Timestamp) (limit : Option ℤ)
  deriving DecidableEq

namespace SessionEndpoint

def errors : SessionEndpoint → List FieldError
  | register username password =>
    RegisterRequest.username.check username ++ RegisterRequest.password.check password
  | login .. | refresh _ | logout _ => []

def handle (env : Env) (credentials : Option String) : SessionEndpoint → RouteHandler
  | register username password =>
    .auth 201 (fun (u, t) => .auth (.modelValidate u) t) (AuthService.register env.auth username password)
  | login username password =>
    .auth 200 (fun (u, t) => .auth (.modelValidate u) t) (AuthService.login env.auth username password)
  | refresh refreshToken => .auth 200 .tokens (AuthService.refresh env.auth refreshToken)
  -- `get_raw_access_token` needs no valid token
  | logout refreshToken =>
    .auth 204 (fun _ => .none) (AuthService.logout env.auth refreshToken credentials)

end SessionEndpoint

namespace UserEndpoint

def errors : UserEndpoint → List FieldError
  | createGroup name => CreateGroupRequest.name.check name
  | sendDirectMessage _ content => SendDirectMessageRequest.content.check content
  | sendGroupMessage _ content => SendGroupMessageRequest.content.check content
  | getDmHistory _ _ limit | getGroupHistory _ _ limit => historyLimit.check limit
  | _ => []

/-- Only the reactivation takes a user whose account is deactivated. -/
def allowsDeactivated : UserEndpoint → Bool
  | reactivateMyAccount => true
  | _ => false

def handle (env : Env) (user : User) : UserEndpoint → RouteHandler
  | getMe | getMyProfile => fun _ s =>
    (.ok { statusCode := 200, body := .user (.modelValidate user) }, s)
  | getUserByUsername username =>
    .read 200 (fun u => .user (.modelValidate u)) (Reading.getByUsername username)
  | getUserById userId => .read 200 (fun u => .user (.modelValidate u)) (Reading.getById userId)
  | deactivateMyAccount => .auth 204 (fun _ => .none) (UserService.deactivateAccount user.userId)
  | reactivateMyAccount => .auth 204 (fun _ => .none) (UserService.reactivateAccount user.userId)
  | deleteMyAccount => .auth 204 (fun _ => .none) (UserService.deleteAccount user.userId)
  | sendRequest addresseeId =>
    .friendship 201 (.sendFriendRequest user.userId addresseeId env.now)
      (.message "Friend request sent successfully.")
  | listPendingRequests =>
    .read 200 (fun fs : List Friendship => .friendships fs)
      (Reading.getPendingFriendRequests user.userId)
  | acceptRequest requesterId =>
    .friendship 200 (.acceptFriendRequest user.userId requesterId env.now)
      (.message "Friend request accepted.")
  | listFriends =>
    .read 200 (fun fs : List Friendship => .friendships fs) (Reading.getFriends user.userId)
  | getStatus targetId =>
    .read 200 .friendship (Reading.getFriendshipStatus env.limitOne user.userId targetId)
  | removeOrDecline targetId =>
    .friendship 204 (.removeOrDeclineFriendship user.userId targetId) .none
  | createGroup name =>
    .group 201 (fun (group, _) => .group group)
      (GroupService.createGroup user.userId name env.newId env.now)
  | listGroups =>
    .read 200 (fun gs : List Group => .groups gs) (Reading.listUserGroups user.userId)
  | getGroup groupId => .read 200 .group (Reading.getGroupDetails user.userId groupId)
  | deleteGroup groupId => .group 204 (fun _ => .none) (GroupService.deleteGroup user.userId groupId)
  | addMember groupId userId =>
    .group 201 .membership (GroupService.addMember user.userId groupId userId env.now)
  | removeMember groupId userId =>
    .group 204 (fun _ => .none) (GroupService.removeMember user.userId groupId userId)
  | listGroupMembers groupId =>
    .read 200 (fun ms : List Membership => .memberships ms) (Reading.listGroupMembers groupId)
  | sendDirectMessage recipientId content =>
    .messaging 201 .directMessage
      (MessagingService.sendDirectMessage env.messaging user.userId recipientId content)
  | getDmHistory recipientId before limit =>
    .messaging 200 .directMessages (MessagingService.getDmHistory env.messaging user.userId recipientId
      before (historyLimit.value limit).toNat)
  | sendGroupMessage groupId content =>
    .messaging 201 .groupMessage
      (MessagingService.sendGroupMessage env.messaging user.userId groupId content)
  | getGroupHistory groupId before limit =>
    .messaging 200 .groupMessages (MessagingService.getGroupHistory env.messaging user.userId groupId
      before (historyLimit.value limit).toNat)

end UserEndpoint

inductive Endpoint where
  | session (e : SessionEndpoint)
  | user (e : UserEndpoint)
  deriving DecidableEq

/-- A request with the text of its bearer token, if it has one. -/
structure Request where
  endpoint : Endpoint
  credentials : Option String := none
  deriving DecidableEq

/-- A dependency that raises does so before the parameters of the route are looked at. -/
def serve (env : Env) (f : ApiFaults) (r : Request) (s : AppState) :
    Except ApiError Response × AppState :=
  match r.endpoint with
  | .session e =>
    if e.errors = [] then e.handle env r.credentials f s else (.error (.invalid e.errors), s)
  | .user e =>
    match getCurrentUser env (fun p => f (.token p)) s e.allowsDeactivated r.credentials with
    | (.error x, s) => (.error x, s)
    | (.ok user, s) => if e.errors = [] then e.handle env user f s else (.error (.invalid e.errors), s)

def respond (env : Env) (f : ApiFaults) (r : Request) (s : AppState) : Response × AppState :=
  match serve env f r s with
  | (.ok response, s) => (response, s)
  | (.error e, s) => (e.response, s)

namespace Sample

def api : Env where
  hashToken := env.hashToken
  hasher := env.hasher
  hashPassword := env.hashPassword
  tokenPair := env.tokenPair
  newId := env.newUserId
  now := env.now
  limitOne := .prefer ⟨⟨0⟩, ⟨1⟩, false, 0, 0⟩
  conversation := .stable _
  timeline := .stable _

end Sample

end Messenger
