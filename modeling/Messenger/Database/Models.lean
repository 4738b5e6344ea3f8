import Mathlib.Algebra.Group.Nat.Defs
import Messenger.Lib.Table

/-! The persisted models, the tables they are stored in, and the errors of the database layer. -/

namespace Messenger

def hexText (digits n : ℕ) : String :=
  String.ofList ((List.range digits).map fun i => Nat.digitChar (n / 16 ^ (digits - 1 - i) % 16))

structure UUID where
  bits : BitVec 128
  deriving DecidableEq

/-- `str(uuid)`: the five groups of the canonical text. -/
def UUID.str (u : UUID) : String :=
  let n := u.bits.toNat
  hexText 8 (n / 2 ^ 96) ++ "-" ++ hexText 4 (n / 2 ^ 80) ++ "-" ++ hexText 4 (n / 2 ^ 64) ++ "-" ++
    hexText 4 (n / 2 ^ 48) ++ "-" ++ hexText 12 n

/-- What `hash_token` returns: a SHA-256 digest, whose hexadecimal text is what is stored. -/
structure TokenHash where
  digest : BitVec 256
  deriving DecidableEq

def TokenHash.str (h : TokenHash) : String := hexText 64 h.digest.toNat

/-- Microseconds since the epoch. -/
abbrev Timestamp := Int

structure User where
  userId : UUID
  username : String
  passwordHash : String
  deactivated : Bool := false
  createdAt : Timestamp
  deriving DecidableEq

structure Friendship where
  requesterId : UUID
  addresseeId : UUID
  accepted : Bool := false
  createdAt : Timestamp
  updatedAt : Timestamp
  deriving DecidableEq

/-- The dataclasses `AccessToken` and `RefreshToken` have the same fields. -/
structure Token where
  tokenHash : TokenHash
  userId : UUID
  isRevoked : Bool := false
  expiresAt : Timestamp
  deriving DecidableEq

abbrev AccessToken := Token
abbrev RefreshToken := Token

/-- `is_expired`, at the clock reading `now`. -/
def Token.isExpired (t : Token) (now : Timestamp) : Bool := decide (t.expiresAt ≤ now)

/-- `created_by` is a `NOT NULL` column, so a stored group has a creator. -/
structure Group where
  groupId : UUID
  name : String
  createdBy : UUID
  createdAt : Timestamp
  deriving DecidableEq

structure Membership where
  groupId : UUID
  userId : UUID
  joinedAt : Timestamp
  deriving DecidableEq

structure DirectMessage where
  messageId : UUID
  senderId : UUID
  recipientId : UUID
  content : String
  createdAt : Timestamp
  deriving DecidableEq

structure GroupMessage where
  messageId : UUID
  groupId : UUID
  senderId : UUID
  content : String
  createdAt : Timestamp
  deriving DecidableEq

def Friendship.pk (f : Friendship) : UUID × UUID := (f.requesterId, f.addresseeId)
def Membership.pk (m : Membership) : UUID × UUID := (m.groupId, m.userId)

inductive TokenKind where
  | access
  | refresh
  deriving DecidableEq

structure Db where
  users : Table User User.userId := .empty
  friendships : Table Friendship Friendship.pk := .empty
  accessTokens : Table AccessToken Token.tokenHash := .empty
  refreshTokens : Table RefreshToken Token.tokenHash := .empty
  groups : Table Group Group.groupId := .empty
  memberships : Table Membership Membership.pk := .empty
  directMessages : Table DirectMessage DirectMessage.messageId := .empty
  groupMessages : Table GroupMessage GroupMessage.messageId := .empty
  deriving DecidableEq

namespace Db

def modifyUser (d : Db) (id : UUID) (f : User → User) (hf : ∀ u, (f u).userId = u.userId) : Db :=
  { d with users := d.users.updateWhere (·.userId = id) f hf }

def tokens (d : Db) : TokenKind → Table Token Token.tokenHash
  | .access => d.accessTokens
  | .refresh => d.refreshTokens

def modifyTokens (d : Db) (f : Table Token Token.tokenHash → Table Token Token.tokenHash) :
    TokenKind → Db
  | .access => { d with accessTokens := f d.accessTokens }
  | .refresh => { d with refreshTokens := f d.refreshTokens }

variable (d : Db) (f : Table Token Token.tokenHash → Table Token Token.tokenHash) (k k' : TokenKind)

theorem modifyTokens_tokens :
    (d.modifyTokens f k).tokens k' = if k = k' then f (d.tokens k') else d.tokens k' := by
  cases k <;> cases k' <;> rfl

@[simp] theorem modifyTokens_users : (d.modifyTokens f k).users = d.users := by cases k <;> rfl

end Db

inductive Entity where
  | user | accessToken | refreshToken | friendship | group | membership
  | directMessage | groupMessage
  deriving DecidableEq

inductive Constraint where
  | pkUsers | uqUsersUsername
  | pkFriendships | fkFriendshipsRequesterId | fkFriendshipsAddresseeId
  | pkAccessTokens | fkAccessTokensUserId | pkRefreshTokens | fkRefreshTokensUserId
  | pkGroups | uqGroupsCreatedByName | fkGroupsCreatedBy
  | pkMemberships | fkMembershipsGroupId | fkMembershipsUserId
  | pkDirectMessages | fkDmSenderId | fkDmRecipientId
  | pkGroupMessages | fkGroupMessagesGroupId | fkGroupMessagesSenderId
  deriving DecidableEq

/-- What a driver or server failure becomes: the errors `DatabaseManager` raises, and those it
lets through. -/
inductive DriverError where
  | databaseConnection
  | databaseTimeout
  | serialization
  | database
  | other
  deriving DecidableEq

inductive DbError where
  | notFound (entity : Entity) (identifier : String)
  | constraintViolation (table : String) (constraint : Constraint)
  | driver (e : DriverError)
  deriving DecidableEq

end Messenger
