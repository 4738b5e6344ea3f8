import Messenger.Database.AuthQueries

/-! The transactions of `AuthService`, and the two switches of `UserService` on an account, one
statement at a time. A program counter holds what the call has read and what it will do next. -/

namespace Messenger
open ReadCommitted

/-- A `TokenPair` as `_issue_token_pair` stores it: the hashes of its raw tokens. -/
structure HashedPair where
  accessToken : TokenHash
  refreshToken : TokenHash
  accessTokenExpiresAt : Timestamp
  refreshTokenExpiresAt : Timestamp
  deriving DecidableEq

namespace HashedPair

def hash (p : HashedPair) : TokenKind → TokenHash
  | .access => p.accessToken
  | .refresh => p.refreshToken

def expiresAt (p : HashedPair) : TokenKind → Timestamp
  | .access => p.accessTokenExpiresAt
  | .refresh => p.refreshTokenExpiresAt

def row (p : HashedPair) (k : TokenKind) (user : UUID) : Token :=
  { tokenHash := p.hash k, userId := user, expiresAt := p.expiresAt k }

end HashedPair

/-- What `verify_password` and `needs_rehash` answer; a new hash is salted and comes with the call. -/
structure PasswordHasher where
  verify : String → String → Bool
  needsRehash : String → Bool

inductive Call where
  | register (user : User) (pair : HashedPair)
  | login (username password newHash : String) (pair : HashedPair)
  | refresh (h : TokenHash) (pair : HashedPair) (now : Timestamp)
  | logout (refreshHash : TokenHash) (accessHash : Option TokenHash)
  | deactivateAccount (id : UUID)
  | reactivateAccount (id : UUID)
  deriving DecidableEq

inductive Origin where
  | register
  | login
  | rotation (presented : TokenHash)
  deriving DecidableEq

inductive Failure where
  | db (e : DbError)
  | invalidCredentials
  | tokenExpired
  deriving DecidableEq

inductive Pc where
  | createUser (user : User) (pair : HashedPair)
  | getUserByUsername (username password newHash : String) (pair : HashedPair)
  | reactivateUser (user : User) (newHash : String) (pair : HashedPair)
  | updateUserPassword (user : User) (newHash : String) (pair : HashedPair)
  | getRefreshToken (h : TokenHash) (pair : HashedPair) (now : Timestamp)
  | revokeAll (kind : TokenKind) (h : TokenHash) (user : UUID)
  | revokePresented (h : TokenHash) (user : UUID) (pair : HashedPair)
  | createToken (kind : TokenKind) (origin : Origin) (user : UUID) (pair : HashedPair)
  | logoutRefresh (refreshHash : TokenHash) (accessHash : Option TokenHash)
  | logoutAccess (accessHash : TokenHash)
  | setDeactivated (id : UUID) (value : Bool)
  | issued (origin : Origin) (user : UUID) (pair : HashedPair)
  | reused (h : TokenHash) (user : UUID)
  | loggedOut
  | accountSet
  | raised (e : Failure)
  deriving DecidableEq

namespace Pc

/-- A statement that raises ends the transaction. -/
def andThen {α : Type} (q : Query α) (k : α → Pc) : Cmd Db RowKey Write Pc :=
  .exec (q.map fun
    | .ok a => k a
    | .error e => .raised (.db e))

/-- `login` from the rehash test on. -/
def afterReactivate (pw : PasswordHasher) (user : User) (newHash : String) (pair : HashedPair) : Pc :=
  if pw.needsRehash user.passwordHash then .updateUserPassword user newHash pair
  else .createToken .access .login user.userId pair

/-- `login` with the user's row at hand. -/
def afterGetUser (pw : PasswordHasher) (password newHash : String) (pair : HashedPair) (user : User) :
    Pc :=
  if !pw.verify password user.passwordHash then .raised .invalidCredentials
  else if user.deactivated then .reactivateUser user newHash pair
  else afterReactivate pw user newHash pair

/-- `refresh` with the presented token's row at hand. -/
def afterGetRefreshToken (h : TokenHash) (pair : HashedPair) (now : Timestamp) (token : RefreshToken) :
    Pc :=
  if token.isRevoked then .revokeAll .access h token.userId
  else if token.isExpired now then .raised .tokenExpired
  else .revokePresented h token.userId pair

def cmd (pw : PasswordHasher) : Pc → Cmd Db RowKey Write Pc
  | createUser u p => andThen (Queries.createUser u) fun u => .createToken .access .register u.userId p
  | getUserByUsername name password newHash p =>
    andThen (Queries.getUserByUsername name) (afterGetUser pw password newHash p)
  | reactivateUser u newHash p =>
    andThen (Queries.reactivateUser u.userId) fun _ => afterReactivate pw u newHash p
  | updateUserPassword u newHash p =>
    andThen (Queries.updateUserPassword u.userId newHash u.passwordHash) fun _ =>
      .createToken .access .login u.userId p
  | getRefreshToken h p now =>
    andThen (Queries.getRefreshToken h true) (afterGetRefreshToken h p now)
  | revokeAll .access h u =>
    andThen (Queries.revokeAllUserAccessTokens u) fun _ => .revokeAll .refresh h u
  | revokeAll .refresh h u => andThen (Queries.revokeAllUserRefreshTokens u) fun _ => .reused h u
  | revokePresented h u p =>
    andThen (Queries.revokeRefreshToken h) fun _ => .createToken .access (.rotation h) u p
  | createToken .access o u p =>
    andThen (Queries.createAccessToken (p.row .access u)) fun _ => .createToken .refresh o u p
  | createToken .refresh o u p =>
    andThen (Queries.createRefreshToken (p.row .refresh u)) fun _ => .issued o u p
  | logoutRefresh r a =>
    andThen (Queries.revokeRefreshToken r) fun _ => a.elim .loggedOut .logoutAccess
  | logoutAccess a => andThen (Queries.revokeAccessToken a) fun _ => .loggedOut
  | setDeactivated id true => andThen (Queries.deactivateUser id) fun _ => .accountSet
  | setDeactivated id false => andThen (Queries.reactivateUser id) fun _ => .accountSet
  | issued _ _ _ => .commit
  | reused _ _ => .commit
  | loggedOut => .commit
  | accountSet => .commit
  | raised _ => .rollback

theorem run_andThen {α : Type} {q : Query α} {k : α → Pc} {q' : Stmt Db RowKey Write Pc}
    (hq : andThen q k = .exec q') (ks : List RowKey) (d : Db) :
    (∃ a, (q.run ks d).1 = .ok a ∧ (q'.run ks d).1 = k a) ∨
      ∃ e, (q'.run ks d).1 = .raised (.db e) := by
  cases hq
  simp only [Stmt.map]
  cases ha : (q.run ks d).1 with
  | ok a => exact .inl ⟨a, rfl, rfl⟩
  | error e => exact .inr ⟨e, rfl⟩

theorem run_andThen_of_ok {α : Type} {q : Query α} {k : α → Pc} {q' : Stmt Db RowKey Write Pc}
    {ks : List RowKey} {d : Db} {a : α} {ws : List Write} (hq : andThen q k = .exec q')
    (hrun : q.run ks d = (.ok a, ws)) : q'.rows = q.rows ∧ q'.run ks d = (k a, ws) := by
  cases hq
  simp only [Stmt.map, hrun, and_self]

theorem writesLocked_andThen {α : Type} {q : Query α} {k : α → Pc} {q' : Stmt Db RowKey Write Pc}
    (hq : andThen q k = .exec q') (h : q.WritesLocked Write.target) :
    q'.WritesLocked Write.target := by
  cases hq
  exact h.map _

theorem writesLocked_of_cmd (pw : PasswordHasher) (pc : Pc) (q : Stmt Db RowKey Write Pc)
    (hq : pc.cmd pw = .exec q) : q.WritesLocked Write.target := by
  cases pc with
  | createUser u p => exact writesLocked_andThen hq (Queries.createUser_writesLocked u)
  | getUserByUsername name password newHash p =>
    exact writesLocked_andThen hq (Queries.selectUser_writesLocked _ name false)
  | reactivateUser u newHash p =>
    exact writesLocked_andThen hq (Queries.reactivateUser_writesLocked u.userId)
  | updateUserPassword u newHash p =>
    exact writesLocked_andThen hq (Queries.updateUserPassword_writesLocked u.userId newHash _)
  | getRefreshToken h p now =>
    exact writesLocked_andThen hq (Queries.getToken_writesLocked .refresh h true)
  | revokeAll k h u =>
    cases k <;> exact writesLocked_andThen hq (Queries.revokeAllUserTokens_writesLocked _ u)
  | revokePresented h u p =>
    exact writesLocked_andThen hq (Queries.revokeToken_writesLocked .refresh h)
  | createToken k o u p =>
    cases k <;> exact writesLocked_andThen hq (Queries.createToken_writesLocked _ _)
  | logoutRefresh r a => exact writesLocked_andThen hq (Queries.revokeToken_writesLocked .refresh r)
  | logoutAccess a => exact writesLocked_andThen hq (Queries.revokeToken_writesLocked .access a)
  | setDeactivated id v =>
    cases v
    · exact writesLocked_andThen hq (Queries.reactivateUser_writesLocked id)
    · exact writesLocked_andThen hq (Queries.deactivateUser_writesLocked id)
  | _ => cases hq

end Pc

def Call.entry : Call → Pc
  | .register u p => .createUser u p
  | .login name password newHash p => .getUserByUsername name password newHash p
  | .refresh h p now => .getRefreshToken h p now
  | .logout r a => .logoutRefresh r a
  | .deactivateAccount id => .setDeactivated id true
  | .reactivateAccount id => .setDeactivated id false

def transactions (pw : PasswordHasher) : Program Db RowKey Write Call Pc where
  apply := Write.apply
  target := Write.target
  entry := Call.entry
  cmd := Pc.cmd pw
  locked := Pc.writesLocked_of_cmd pw

abbrev AuthSys (τ : Type) := Sys Db RowKey Write τ Pc
abbrev AuthTxn := Txn RowKey Write Pc
abbrev AuthAct (τ : Type) := Act RowKey τ Call

def AuthSys.init {τ : Type} (d : Db) : AuthSys τ := { db := d }

@[simp] theorem transactions_applyAll (pw : PasswordHasher) (ws : List Write) (d : Db) :
    (transactions pw).applyAll ws d = Write.applyAll ws d := rfl

def Pc.rotation? : Pc → Option (TokenHash × HashedPair)
  | .issued (.rotation h) _ p => some (h, p)
  | _ => none

theorem Pc.rotation?_eq_some {pc : Pc} {h : TokenHash} {p : HashedPair} :
    pc.rotation? = some (h, p) ↔ ∃ u, pc = .issued (.rotation h) u p := by
  unfold rotation?
  split
  · simp
  · next hpc => exact ⟨nofun, fun ⟨u, hu⟩ => (hpc h u p hu).elim⟩

def rotations {τ : Type} (log : List (τ × Pc)) : List (TokenHash × HashedPair) :=
  log.filterMap fun e => e.2.rotation?

theorem mem_rotations {τ : Type} {log : List (τ × Pc)} {h : TokenHash} {p : HashedPair} :
    (h, p) ∈ rotations log ↔ ∃ t u, (t, Pc.issued (.rotation h) u p) ∈ log := by
  simp only [rotations, List.mem_filterMap, Pc.rotation?_eq_some]
  constructor
  · rintro ⟨⟨t, pc⟩, he, u, rfl⟩
    exact ⟨t, u, he⟩
  · rintro ⟨t, u, he⟩
    exact ⟨_, he, u, rfl⟩

theorem rotations_append_singleton {τ : Type} (log : List (τ × Pc)) (e : τ × Pc) :
    rotations (log ++ [e]) = rotations log ++ e.2.rotation?.toList := by
  simp only [rotations, List.filterMap_append]
  cases he : e.2.rotation? <;> simp [he]

end Messenger
