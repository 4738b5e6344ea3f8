import Messenger.Services.Failures

/-! What a `login` that returns has stored, and whether the `User` that it returns is the row that is
stored. The row was read before the account was reactivated and the hash replaced. -/

namespace Messenger
open Transactional

namespace AuthService

variable {env : AuthEnv} {f : Await → Option Fault} {w w' : AuthState} {d : Db}
  {username password : String} {user : User} {pair : TokenPair} {b : Bool}

/-- The transaction leaves an active account with a hash of the password and the rows of the two returned
tokens, and every other row as it was. -/
structure LoginStores (env : AuthEnv) (username password : String) (user : User) (pair : TokenPair)
    (d d' : Db) : Prop where
  account : ∃ stored, d'.users.get? user.userId = some stored ∧ stored.username = username ∧
    stored.deactivated = false ∧ env.hasher.verify password stored.passwordHash = true
  access : (d'.tokens .access).get? (env.hashToken pair.accessToken) =
    some ⟨env.hashToken pair.accessToken, user.userId, false, pair.accessTokenExpiresAt⟩
  refresh : (d'.tokens .refresh).get? (env.hashToken pair.refreshToken) =
    some ⟨env.hashToken pair.refreshToken, user.userId, false, pair.refreshTokenExpiresAt⟩
  otherUsers : ∀ id, id ≠ user.userId → d'.users.get? id = d.users.get? id
  otherAccess : ∀ h, h ≠ env.hashToken pair.accessToken →
    (d'.tokens .access).get? h = (d.tokens .access).get? h
  otherRefresh : ∀ h, h ≠ env.hashToken pair.refreshToken →
    (d'.tokens .refresh).get? h = (d.tokens .refresh).get? h
  otherTables : ∃ users accessTokens refreshTokens, d' = { d with users, accessTokens, refreshTokens }

/-- The row that is read for the username is left as it is: the account is active, and its hash needs
no rehash or comes out of it the same. -/
def LoginKeepsRow (env : AuthEnv) (d : Db) (username password : String) : Prop :=
  ∃ stored, d.users.rows.find? (·.username = username) = some stored ∧ stored.deactivated = false ∧
    (env.hasher.needsRehash stored.passwordHash = true →
      env.hashPassword password = stored.passwordHash)

/-! ### The rows that are written -/

theorem tokens_loginWrites (k : TokenKind) :
    (Write.applyAll (loginWrites env password user) d).tokens k =
      (d.tokens k).insertNew (env.pair.row k user.userId) := by
  unfold loginWrites
  cases user.deactivated <;> cases env.hasher.needsRehash user.passwordHash <;> cases k <;> rfl

theorem users_loginWrites_of_ne {id : UUID} (hne : id ≠ user.userId) :
    (Write.applyAll (loginWrites env password user) d).users.get? id = d.users.get? id := by
  have hreactivated (d : Db) :
      ((Write.setDeactivated user.userId false).apply d).users.get? id = d.users.get? id := by
    rw [Write.get?_setDeactivated]
    cases hrow : d.users.get? id with
    | none => rfl
    | some row => rw [Option.map_some, Table.key_of_get? hrow, if_neg hne]
  have hrehashed (d : Db) (hash : String) :
      ((Write.changePassword user.userId hash).apply d).users.get? id = d.users.get? id := by
    rw [Write.get?_changePassword]
    cases hrow : d.users.get? id with
    | none => rfl
    | some row => rw [Option.map_some, Table.key_of_get? hrow, if_neg hne]
  unfold loginWrites
  cases user.deactivated <;> cases env.hasher.needsRehash user.passwordHash
  · rfl
  · exact hrehashed d _
  · exact hreactivated d
  · exact (hrehashed _ _).trans (hreactivated d)

theorem login_stores_of_runs (hpassword : env.hasher.verify password (env.hashPassword password) = true)
    (hruns : LoginRuns env f d username password user) :
    LoginStores env username password user env.tokenPair d
      (Write.applyAll (loginWrites env password user) d) := by
  obtain ⟨-, hissues, hfind, hverify, -⟩ := hruns
  have hrow : (Write.applyAll (loginWrites env password user) d).users.get? user.userId = some _ :=
    get?_loginWrites (get?_of_find? hfind)
  have hnew (k : TokenKind) : ((Write.applyAll (loginWrites env password user) d).tokens k).get?
      (env.pair.hash k) = some (env.pair.row k user.userId) := by
    rw [tokens_loginWrites]
    exact Table.get?_insertNew_self (r := env.pair.row k user.userId) (hissues k).2
  have hother (k : TokenKind) (h : TokenHash) (hne : h ≠ env.pair.hash k) :
      ((Write.applyAll (loginWrites env password user) d).tokens k).get? h = (d.tokens k).get? h := by
    rw [tokens_loginWrites]
    exact Table.get?_insertNew_of_ne (r := env.pair.row k user.userId) hne.symm
  refine ⟨⟨_, hrow, ?_, rfl, ?_⟩, hnew .access, hnew .refresh, fun id => users_loginWrites_of_ne,
    hother .access, hother .refresh, Write.applyAll_eq ..⟩
  · have hname := List.find?_some (p := fun u : User => decide (u.username = username)) hfind
    exact of_decide_eq_true hname
  · show env.hasher.verify password (if _ then _ else _) = true
    split
    · exact hpassword
    · exact hverify

/-! ### The call -/

theorem login_eq_ok (h : login env username password (raising f) w = (.ok (user, pair), w')) :
    pair = env.tokenPair ∧ LoginRuns env f w.db username password user ∧
      w'.db = Write.applyAll (loginWrites env password user) w.db := by
  rcases transaction_cases (loginTx env username password) (raising f) w with
    ⟨⟨user', b⟩, d, hbegin, htx, hcommit, -⟩ | ⟨e, hrun, -⟩
  · have hbegin := raising_eq_none.mp hbegin
    have hcommit := raising_eq_none.mp hcommit
    obtain ⟨hruns, -, hd⟩ := (loginTx_eq_ok (find?_of_loginTx htx)).mp htx
    cases hanswer : f .commitAnswer with
    | some x => cases (Prod.mk.inj ((login_of_lost hbegin hcommit htx hanswer).symm.trans h)).1
    | none =>
      by_cases hx : b = true → f (.publish (.userInvalidated user'.userId)) = none
      · obtain ⟨w₁, hpublished, hdb⟩ := login_of_published hbegin hcommit hanswer htx hx
        obtain ⟨heq, rfl⟩ := Prod.mk.inj (hpublished.symm.trans h)
        obtain ⟨rfl, rfl⟩ := Prod.mk.inj (Except.ok.inj heq)
        exact ⟨rfl, hruns, hdb.trans hd⟩
      · obtain ⟨hb, hfails⟩ := Classical.not_imp.mp hx
        subst hb
        obtain ⟨x, hx⟩ := Option.ne_none_iff_exists'.mp hfails
        cases (Prod.mk.inj ((login_of_fault hbegin hcommit hanswer htx hx).symm.trans h)).1
  · -- no handler turns an error into an answer
    exfalso
    have hbody := Op.bind_of_error (k := fun r : User × Bool => (do
      if r.2 then publishStreamEvent (.userInvalidated r.1.userId)
      return (r.1, env.tokenPair) : AuthOp (User × TokenPair))) hrun
    cases hhandled : (handleDbNotFoundError loginEntities (fun _ => none)
        [("username", username), ("password", password)] e : Except Error (User × TokenPair)) with
    | ok a =>
      obtain ⟨_, _, _, hsuppressed⟩ := handleDbNotFoundError_eq_ok hhandled
      cases hsuppressed
    | error e' =>
      have hinner := (Op.handle_of_error hbody).trans (congrArg (·, w) hhandled)
      have houter := Op.handle_of_error (g := handleDbConstraintError loginConstraints
        [("username", username), ("password", password)]) hinner
      exact handleDbConstraintError_ne_ok (Prod.mk.inj (houter.symm.trans h)).1

/-- A `login` that returns has stored what it says. The `User` that it returns is the stored row if and
only if the row is left as it was read. -/
theorem login_returns_stored_iff (env : AuthEnv) (f : Await → Option Fault) (w w' : AuthState)
    (username password : String) (user : User) (pair : TokenPair)
    (hpassword : env.hasher.verify password (env.hashPassword password) = true)
    (h : login env username password (raising f) w = (.ok (user, pair), w')) :
    LoginStores env username password user pair w.db w'.db ∧
      (w'.db.users.get? user.userId = some user ↔ LoginKeepsRow env w.db username password) := by
  obtain ⟨rfl, hruns, hd⟩ := login_eq_ok h
  have hfind := hruns.2.2.1
  rw [hd]
  refine ⟨login_stores_of_runs hpassword hruns, ?_⟩
  rw [get?_loginWrites (get?_of_find? hfind), Option.some_inj]
  constructor
  · intro hsame
    have hactive : false = user.deactivated := congrArg User.deactivated hsame
    have hhash := congrArg User.passwordHash hsame
    refine ⟨user, hfind, hactive.symm, fun hneeds => ?_⟩
    rwa [if_pos hneeds] at hhash
  · rintro ⟨stored, hstored, hactive, hhash⟩
    obtain rfl := Option.some.inj (hstored.symm.trans hfind)
    have hkept : (if env.hasher.needsRehash stored.passwordHash then env.hashPassword password
        else stored.passwordHash) = stored.passwordHash := by
      split
      · next hneeds => exact hhash hneeds
      · rfl
    rw [hkept, ← hactive]

end AuthService

namespace Sample

def enrolled (deactivated : Bool) : Db :=
  Write.applyAll [.insertUser { user with deactivated }] {}

end Sample

theorem login_returns_stored_active :
    ∃ w', AuthService.login Sample.env "ada" "secret" (raising fun _ => none)
        { db := Sample.enrolled false } = (.ok (Sample.user, Sample.env.tokenPair), w') ∧
      w'.db.users.get? ⟨1⟩ = some Sample.user := by
  obtain ⟨hstores, hreturned⟩ := AuthService.login_returns_stored_iff Sample.env (fun _ => none)
    { db := Sample.enrolled false } _ "ada" "secret" Sample.user Sample.env.tokenPair (by decide) rfl
  exact ⟨_, rfl, hreturned.mpr ⟨Sample.user, by decide, rfl, nofun⟩⟩

/-- The account is reactivated, and the call returns it as deactivated. -/
theorem login_returns_deactivated :
    ∃ w', AuthService.login Sample.env "ada" "secret" (raising fun _ => none)
        { db := Sample.enrolled true } =
          (.ok ({ Sample.user with deactivated := true }, Sample.env.tokenPair), w') ∧
      w'.db.users.get? ⟨1⟩ ≠ some { Sample.user with deactivated := true } :=
  ⟨_, rfl, by decide⟩

end Messenger
