import Messenger.Database.Models

/-! The exceptions of the services and the decorators that translate database errors into them. -/

namespace Messenger

inductive ServiceError where
  | userAlreadyExists (username : String)
  | invalidCredentials
  | invalidToken
  | tokenExpired
  | tokenRevoked
  | userNotFound (identifier : String)
  | selfFriendship
  | friendRequestAlreadyExists (addresseeId : String)
  | friendRequestNotFound (requesterId : String)
  | groupNotFound (groupId : String)
  | groupNameAlreadyExists (creatorId name : String)
  | alreadyGroupMember (userId groupId : String)
  | notGroupMember (userId groupId : String)
  | insufficientGroupPermission (message : String)
  | directMessageNotAllowed (recipientId : String)
  | groupMessageNotAllowed (groupId : String)
  deriving DecidableEq

namespace ServiceError

def message : ServiceError → String
  | userAlreadyExists name => "Username '" ++ name ++ "' is already taken."
  | invalidCredentials => "Invalid username or password."
  | invalidToken => "Invalid or expired token."
  | tokenExpired => "Token has expired."
  | tokenRevoked => "Security alert: Token reuse detected. All active sessions revoked."
  | userNotFound id => "User '" ++ id ++ "' was not found."
  | selfFriendship => "Cannot send a friend request to yourself."
  | friendRequestAlreadyExists id =>
    "A friend request or active friendship already exists with user '" ++ id ++ "'."
  | friendRequestNotFound id => "No pending friend request found from user '" ++ id ++ "'."
  | groupNotFound id => "Group '" ++ id ++ "' was not found."
  | groupNameAlreadyExists creator name =>
    "Group '" ++ name ++ "' already exists for creator '" ++ creator ++ "'."
  | alreadyGroupMember user group =>
    "User '" ++ user ++ "' is already a member of group '" ++ group ++ "'."
  | notGroupMember user group =>
    "User '" ++ user ++ "' is not an active member of group '" ++ group ++ "'."
  | insufficientGroupPermission message => message
  | directMessageNotAllowed id =>
    "Cannot send message. You are not friends with user '" ++ id ++ "'."
  | groupMessageNotAllowed id =>
    "Cannot send message. You are not a member of group '" ++ id ++ "'."

def statusCode : ServiceError → ℕ
  | userAlreadyExists _ => 409
  | invalidCredentials => 401
  | invalidToken => 401
  | tokenExpired => 401
  | tokenRevoked => 401
  | userNotFound _ => 404
  | selfFriendship => 400
  | friendRequestAlreadyExists _ => 409
  | friendRequestNotFound _ => 404
  | groupNotFound _ => 404
  | groupNameAlreadyExists _ _ => 409
  | alreadyGroupMember _ _ => 409
  | notGroupMember _ _ => 403
  | insufficientGroupPermission _ => 403
  | directMessageNotAllowed _ => 403
  | groupMessageNotAllowed _ => 403

end ServiceError

inductive RedisError where
  | timeout
  | connection
  | command
  deriving DecidableEq

inductive Error where
  | service (e : ServiceError)
  | db (e : DbError)
  | redis (e : RedisError)
  | other
  deriving DecidableEq

abbrev Kwargs := List (String × String)

namespace Kwargs

/-- `kw.get(key, "unknown")`. -/
def getD (kw : Kwargs) (key : String) : String := (kw.lookup key).getD "unknown"

/-- `kw.get(key) or kw.get(other, "unknown")`. -/
def getOr (kw : Kwargs) (key other : String) : String :=
  match kw.lookup key with
  | some v => if v = "" then kw.getD other else v
  | none => kw.getD other

end Kwargs

abbrev Handler := Kwargs → ServiceError

def constraintMap : Constraint → Option Handler
  | .uqUsersUsername => some fun kw => .userAlreadyExists (kw.getD "username")
  | .pkFriendships => some fun kw => .friendRequestAlreadyExists (kw.getD "addressee_id")
  | .fkFriendshipsRequesterId => some fun kw => .userNotFound (kw.getD "requester_id")
  | .fkFriendshipsAddresseeId => some fun kw => .userNotFound (kw.getD "addressee_id")
  | .fkAccessTokensUserId => some fun kw => .userNotFound (kw.getD "user_id")
  | .fkRefreshTokensUserId => some fun kw => .userNotFound (kw.getD "user_id")
  | .uqGroupsCreatedByName =>
    some fun kw => .groupNameAlreadyExists (kw.getD "creator_id") (kw.getD "name")
  | .fkGroupsCreatedBy => some fun kw => .userNotFound (kw.getD "user_id")
  | .fkMembershipsGroupId => some fun kw => .groupNotFound (kw.getD "group_id")
  | .pkMemberships => some fun kw => .alreadyGroupMember (kw.getD "user_id") (kw.getD "group")
  | .fkMembershipsUserId => some fun kw => .userNotFound (kw.getD "user_id")
  | .fkDmSenderId => some fun kw => .userNotFound (kw.getD "sender_id")
  | .fkDmRecipientId => some fun kw => .directMessageNotAllowed (kw.getD "recipient_id")
  | .fkGroupMessagesGroupId => some fun kw => .groupMessageNotAllowed (kw.getD "group_id")
  | .fkGroupMessagesSenderId =>
    some fun kw => .notGroupMember (kw.getD "user_id") (kw.getD "group_id")
  | .pkUsers | .pkAccessTokens | .pkRefreshTokens | .pkGroups | .pkDirectMessages
  | .pkGroupMessages => none

def entityNotFoundMap : Entity → Option Handler
  | .user => some fun kw => .userNotFound (kw.getOr "identifier" "user_id")
  | .group => some fun kw => .groupNotFound (kw.getOr "identifier" "group_id")
  | .membership =>
    some fun kw => .notGroupMember (kw.getOr "actor_id" "user_id") (kw.getD "group_id")
  | .friendship => some fun kw => .friendRequestNotFound (kw.getOr "identifier" "requester_id")
  | .accessToken | .refreshToken | .directMessage | .groupMessage => none

/-- `handle_db_constraint_error(overrides)`, for a call with these keyword arguments. -/
def handleDbConstraintError {α : Type} (overrides : Constraint → Option Handler) (kwargs : Kwargs) :
    Error → Except Error α
  | .db (.constraintViolation table constraint) =>
    match (overrides constraint).or (constraintMap constraint) with
    | some handler => .error (.service (handler kwargs))
    | none => .error (.db (.constraintViolation table constraint))
  | e => .error e

/-- `handle_db_not_found_error(overrides)`; `suppressed` holds the overrides with `None`. -/
def handleDbNotFoundError {α : Type} (overrides : Entity → Option Handler)
    (suppressed : Entity → Option α) (kwargs : Kwargs) : Error → Except Error α
  | .db (.notFound entity identifier) =>
    match suppressed entity with
    | some a => .ok a
    | none =>
      match (overrides entity).or (entityNotFoundMap entity) with
      | some handler => .error (.service (handler (kwargs ++ [("identifier", identifier)])))
      | none => .error (.db (.notFound entity identifier))
  | e => .error e

section

variable {α : Type} {overrides : Constraint → Option Handler} {overrides' : Entity → Option Handler}
  {suppressed : Entity → Option α} {kwargs : Kwargs} {e e' : Error} {a : α}

theorem handleDbConstraintError_ne_ok : handleDbConstraintError overrides kwargs e ≠ .ok a := by
  unfold handleDbConstraintError
  split
  · split <;> simp
  · simp

theorem handleDbNotFoundError_eq_ok (h : handleDbNotFoundError overrides' suppressed kwargs e = .ok a) :
    ∃ entity identifier, e = .db (.notFound entity identifier) ∧ suppressed entity = some a := by
  unfold handleDbNotFoundError at h
  split at h
  · next entity identifier =>
    refine ⟨entity, identifier, rfl, ?_⟩
    split at h
    · next hs => rw [hs, Except.ok.inj h]
    · split at h <;> cases h
  · cases h

end

namespace Sample

theorem ok_of_toOption {ε α : Type} {r : Except ε α} {a : α} (h : r.toOption = some a) :
    r = .ok a := by
  cases r with
  | ok b => exact congrArg Except.ok (Option.some.inj h)
  | error e => cases h

end Sample

end Messenger
