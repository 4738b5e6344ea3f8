import Messenger.Database.Models
import Messenger.Lib.TwoPhase

/-! The statements of `queries.py` over the `users`, `access_tokens` and `refresh_tokens` tables,
each with the rows it locks, and what their writes do to a stored token. -/

namespace Messenger
open ReadCommitted

inductive RowKey where
  | user (id : UUID)
  | username (name : String)
  | token (kind : TokenKind) (hash : TokenHash)
  deriving DecidableEq

inductive Write where
  | insertUser (u : User)
  | setDeactivated (id : UUID) (value : Bool)
  | changePassword (id : UUID) (hash : String)
  | insertToken (kind : TokenKind) (t : Token)
  | revokeToken (kind : TokenKind) (hash : TokenHash)
  deriving DecidableEq

namespace Write

def target : Write → RowKey
  | insertUser u => .user u.userId
  | setDeactivated id _ => .user id
  | changePassword id _ => .user id
  | insertToken k t => .token k t.tokenHash
  | revokeToken k h => .token k h

def apply : Write → Db → Db
  | insertUser u, d => { d with users := d.users.insertNew u }
  | setDeactivated id v, d => d.modifyUser id (fun u => { u with deactivated := v }) fun _ => rfl
  | changePassword id p, d => d.modifyUser id (fun u => { u with passwordHash := p }) fun _ => rfl
  | insertToken k t, d => d.modifyTokens (·.insertNew t) k
  | revokeToken k h, d =>
    d.modifyTokens (·.updateWhere (·.tokenHash = h) (fun t => { t with isRevoked := true })
      fun _ => rfl) k

def applyAll (ws : List Write) (d : Db) : Db := ws.foldl (fun d w => w.apply d) d

end Write

/-- A function of `queries.py`: its answer is what it returns or the error it raises. -/
abbrev Query (α : Type) := Stmt Db RowKey Write (Except DbError α)

def TokenKind.entity : TokenKind → Entity
  | .access => .accessToken
  | .refresh => .refreshToken

def TokenKind.table : TokenKind → String
  | .access => "access_tokens"
  | .refresh => "refresh_tokens"

def TokenKind.primaryKey : TokenKind → Constraint
  | .access => .pkAccessTokens
  | .refresh => .pkRefreshTokens

def TokenKind.userKey : TokenKind → Constraint
  | .access => .fkAccessTokensUserId
  | .refresh => .fkRefreshTokensUserId

namespace Queries

/-- `SELECT * FROM users WHERE p`, for a unique column. With `FOR UPDATE` only rows that the
snapshot selected are read again and returned. -/
def selectUser (p : User → Bool) (identifier : String) (forUpdate : Bool) : Query User where
  rows d := if forUpdate then (d.users.keysWhere p).map .user else []
  run ks d :=
    match d.users.rows.find? fun u => p u && (!forUpdate || decide (.user u.userId ∈ ks)) with
    | some u => (.ok u, [])
    | none => (.error (.notFound .user identifier), [])

def getUserById (id : UUID) (forUpdate : Bool := false) : Query User :=
  selectUser (·.userId = id) id.str forUpdate

def getUserByUsername (name : String) (forUpdate : Bool := false) : Query User :=
  selectUser (·.username = name) name forUpdate

def createUser (u : User) : Query User where
  rows _ := [.user u.userId, .username u.username]
  run _ d :=
    if (d.users.get? u.userId).isSome then
      (.error (.constraintViolation "users" .pkUsers), [])
    else if d.users.rows.any (·.username = u.username) then
      (.error (.constraintViolation "users" .uqUsersUsername), [])
    else (.ok u, [.insertUser u])

/-- The zero-row check on the command tag of an `UPDATE`. -/
def requireRows (entity : Entity) (identifier : String) (n : ℕ) : Except DbError Unit :=
  if n = 0 then .error (.notFound entity identifier) else .ok ()

/-- `UPDATE users SET ... WHERE p`. A row that was waited for is tested again. -/
def updateUsers (p : User → Bool) (set : UUID → Write) : Stmt Db RowKey Write ℕ where
  rows d := (d.users.keysWhere p).map .user
  run ks d :=
    let hit := (d.users.keysWhere p).filter fun id => .user id ∈ ks
    (hit.length, hit.map set)

def deactivateUser (id : UUID) : Query Unit :=
  (updateUsers (·.userId = id) fun id => .setDeactivated id true).map (requireRows .user id.str)

def reactivateUser (id : UUID) : Query Unit :=
  (updateUsers (·.userId = id) fun id => .setDeactivated id false).map (requireRows .user id.str)

def updateUserPassword (id : UUID) (newHash oldHash : String) : Query Unit :=
  (updateUsers (fun u => u.userId = id && u.passwordHash = oldHash && !u.deactivated)
    fun id => .changePassword id newHash).map (requireRows .user id.str)

/-- `SELECT * FROM access_tokens | refresh_tokens WHERE token_hash = $1`. -/
def getToken (kind : TokenKind) (h : TokenHash) (forUpdate : Bool) : Query Token where
  rows d := if forUpdate && ((d.tokens kind).get? h).isSome then [.token kind h] else []
  run ks d :=
    match ((d.tokens kind).get? h).filter fun _ => !forUpdate || decide (.token kind h ∈ ks) with
    | some t => (.ok t, [])
    | none => (.error (.notFound kind.entity h.str), [])

def getAccessToken (h : TokenHash) (forUpdate : Bool := false) : Query AccessToken :=
  getToken .access h forUpdate

def getRefreshToken (h : TokenHash) (forUpdate : Bool := false) : Query RefreshToken :=
  getToken .refresh h forUpdate

/-- The primary key is tested before the foreign key to `users`. -/
def createToken (kind : TokenKind) (t : Token) : Query Unit where
  rows _ := [.token kind t.tokenHash]
  run _ d :=
    if ((d.tokens kind).get? t.tokenHash).isSome then
      (.error (.constraintViolation kind.table kind.primaryKey), [])
    else if (d.users.get? t.userId).isNone then
      (.error (.constraintViolation kind.table kind.userKey), [])
    else (.ok (), [.insertToken kind t])

def createAccessToken (t : AccessToken) : Query Unit := createToken .access t
def createRefreshToken (t : RefreshToken) : Query Unit := createToken .refresh t

/-- `UPDATE access_tokens | refresh_tokens SET is_revoked = TRUE WHERE p`. -/
def revokeTokens (kind : TokenKind) (p : Token → Bool) : Stmt Db RowKey Write ℕ where
  rows d := ((d.tokens kind).keysWhere p).map (.token kind)
  run ks d :=
    let hit := ((d.tokens kind).keysWhere p).filter fun h => .token kind h ∈ ks
    (hit.length, hit.map (.revokeToken kind))

def revokeToken (kind : TokenKind) (h : TokenHash) : Query Unit :=
  (revokeTokens kind (·.tokenHash = h)).map (requireRows kind.entity h.str)

def revokeAccessToken (h : TokenHash) : Query Unit := revokeToken .access h
def revokeRefreshToken (h : TokenHash) : Query Unit := revokeToken .refresh h

def revokeAllUserTokens (kind : TokenKind) (id : UUID) : Query Unit :=
  (revokeTokens kind (·.userId = id)).map fun _ => .ok ()

def revokeAllUserAccessTokens (id : UUID) : Query Unit := revokeAllUserTokens .access id
def revokeAllUserRefreshTokens (id : UUID) : Query Unit := revokeAllUserTokens .refresh id

/-! Every statement writes only rows it has locked. -/

theorem selectUser_writesLocked (p : User → Bool) (i : String) (b : Bool) :
    (selectUser p i b).WritesLocked Write.target := by
  intro d₀ d w hw
  simp only [selectUser] at hw
  split at hw <;> cases hw

theorem createUser_writesLocked (u : User) : (createUser u).WritesLocked Write.target := by
  intro d₀ d w hw
  simp only [createUser] at hw
  split at hw
  · cases hw
  · split at hw
    · cases hw
    · obtain rfl := List.mem_singleton.mp hw
      exact List.mem_cons_self ..

theorem updateUsers_writesLocked (p : User → Bool) {set : UUID → Write}
    (hset : ∀ id, (set id).target = .user id) :
    (updateUsers p set).WritesLocked Write.target := by
  intro d₀ d w hw
  obtain ⟨id, hid, rfl⟩ := List.mem_map.mp hw
  rw [hset]
  exact of_decide_eq_true (List.mem_filter.mp hid).2

theorem getToken_writesLocked (k : TokenKind) (h : TokenHash) (b : Bool) :
    (getToken k h b).WritesLocked Write.target := by
  intro d₀ d w hw
  simp only [getToken] at hw
  split at hw <;> cases hw

theorem createToken_writesLocked (k : TokenKind) (t : Token) :
    (createToken k t).WritesLocked Write.target := by
  intro d₀ d w hw
  simp only [createToken] at hw
  split at hw
  · cases hw
  · split at hw
    · cases hw
    · obtain rfl := List.mem_singleton.mp hw
      exact List.mem_cons_self ..

theorem revokeTokens_writesLocked (k : TokenKind) (p : Token → Bool) :
    (revokeTokens k p).WritesLocked Write.target := by
  intro d₀ d w hw
  obtain ⟨h, hh, rfl⟩ := List.mem_map.mp hw
  exact of_decide_eq_true (List.mem_filter.mp hh).2

theorem deactivateUser_writesLocked (id : UUID) :
    (deactivateUser id).WritesLocked Write.target :=
  (updateUsers_writesLocked _ fun _ => rfl).map _

theorem reactivateUser_writesLocked (id : UUID) :
    (reactivateUser id).WritesLocked Write.target :=
  (updateUsers_writesLocked _ fun _ => rfl).map _

theorem updateUserPassword_writesLocked (id : UUID) (newHash oldHash : String) :
    (updateUserPassword id newHash oldHash).WritesLocked Write.target :=
  (updateUsers_writesLocked _ fun _ => rfl).map _

theorem revokeToken_writesLocked (k : TokenKind) (h : TokenHash) :
    (revokeToken k h).WritesLocked Write.target :=
  (revokeTokens_writesLocked k _).map _

theorem revokeAllUserTokens_writesLocked (k : TokenKind) (id : UUID) :
    (revokeAllUserTokens k id).WritesLocked Write.target :=
  (revokeTokens_writesLocked k _).map _

end Queries

/-! ### Stored tokens -/

namespace Db

def Revoked (d : Db) (k : TokenKind) (h : TokenHash) : Prop :=
  ∃ t, (d.tokens k).get? h = some t ∧ t.isRevoked = true

def Unrevoked (d : Db) (k : TokenKind) (h : TokenHash) : Prop :=
  ∃ t, (d.tokens k).get? h = some t ∧ t.isRevoked = false

def OwnedBy (d : Db) (k : TokenKind) (h : TokenHash) (u : UUID) : Prop :=
  ∃ t, (d.tokens k).get? h = some t ∧ t.userId = u

instance (d : Db) (k : TokenKind) (h : TokenHash) : Decidable (d.Revoked k h) :=
  decidable_of_iff (((d.tokens k).get? h).any (·.isRevoked) = true)
    (by simp [Revoked, Option.any_eq_true])

instance (d : Db) (k : TokenKind) (h : TokenHash) : Decidable (d.Unrevoked k h) :=
  decidable_of_iff (((d.tokens k).get? h).any (!·.isRevoked) = true)
    (by simp [Unrevoked, Option.any_eq_true])

instance (d : Db) (k : TokenKind) (h : TokenHash) (u : UUID) : Decidable (d.OwnedBy k h u) :=
  decidable_of_iff (((d.tokens k).get? h).any (·.userId = u) = true)
    (by simp [OwnedBy, Option.any_eq_true])

variable {d : Db} {k : TokenKind} {h : TokenHash}

theorem Revoked.not_unrevoked (hr : d.Revoked k h) : ¬ d.Unrevoked k h := by
  rintro ⟨t, ht, hu⟩
  obtain ⟨t', ht', hr⟩ := hr
  rw [ht] at ht'
  rw [← Option.some.inj ht', hu] at hr
  cases hr

theorem OwnedBy.unique {u u' : UUID} (ho : d.OwnedBy k h u) (ho' : d.OwnedBy k h u') : u = u' := by
  obtain ⟨t, ht, rfl⟩ := ho
  obtain ⟨t', ht', rfl⟩ := ho'
  rw [Option.some.inj (ht.symm.trans ht')]

end Db

namespace Write

variable {d : Db} {k : TokenKind} {h : TokenHash} {t : Token}

theorem get?_setDeactivated (d : Db) (id i : UUID) (v : Bool) :
    ((setDeactivated id v).apply d).users.get? i =
      (d.users.get? i).map fun u => if u.userId = id then { u with deactivated := v } else u := by
  simp only [apply, Db.modifyUser, Table.get?_updateWhere, decide_eq_true_eq]

theorem get?_changePassword (d : Db) (id i : UUID) (p : String) :
    ((changePassword id p).apply d).users.get? i =
      (d.users.get? i).map fun u => if u.userId = id then { u with passwordHash := p } else u := by
  simp only [apply, Db.modifyUser, Table.get?_updateWhere, decide_eq_true_eq]

/-- The writes reach three tables. -/
theorem applyAll_eq (ws : List Write) (d : Db) :
    ∃ users accessTokens refreshTokens,
      applyAll ws d = { d with users, accessTokens, refreshTokens } := by
  induction ws generalizing d with
  | nil => exact ⟨_, _, _, rfl⟩
  | cons w ws ih =>
    have hw : ∃ users accessTokens refreshTokens,
        w.apply d = { d with users, accessTokens, refreshTokens } := by
      cases w with
      | insertToken k t => cases k <;> exact ⟨_, _, _, rfl⟩
      | revokeToken k h => cases k <;> exact ⟨_, _, _, rfl⟩
      | _ => exact ⟨_, _, _, rfl⟩
    obtain ⟨u, a, r, heq⟩ := hw
    obtain ⟨u', a', r', hrest⟩ := ih (w.apply d)
    rw [heq] at hrest
    refine ⟨u', a', r', ?_⟩
    show applyAll ws (w.apply d) = _
    rw [heq]
    exact hrest

theorem friendships_applyAll (ws : List Write) (d : Db) :
    (applyAll ws d).friendships = d.friendships := by
  obtain ⟨_, _, _, heq⟩ := applyAll_eq ws d
  rw [heq]

theorem groups_applyAll (ws : List Write) (d : Db) : (applyAll ws d).groups = d.groups := by
  obtain ⟨_, _, _, heq⟩ := applyAll_eq ws d
  rw [heq]

theorem memberships_applyAll (ws : List Write) (d : Db) :
    (applyAll ws d).memberships = d.memberships := by
  obtain ⟨_, _, _, heq⟩ := applyAll_eq ws d
  rw [heq]

theorem directMessages_applyAll (ws : List Write) (d : Db) :
    (applyAll ws d).directMessages = d.directMessages := by
  obtain ⟨_, _, _, heq⟩ := applyAll_eq ws d
  rw [heq]

/-- Only an account's deletion takes a user away. -/
theorem isSome_user_applyAll (ws : List Write) {id : UUID} (h : (d.users.get? id).isSome) :
    ((applyAll ws d).users.get? id).isSome := by
  induction ws generalizing d with
  | nil => exact h
  | cons w ws ih =>
    refine ih (d := w.apply d) ?_
    cases w with
    | insertUser u =>
      obtain ⟨row, hrow⟩ := Option.isSome_iff_exists.mp h
      simp [apply, Table.get?_insertNew, hrow]
    | setDeactivated i v => simpa only [get?_setDeactivated, Option.isSome_map] using h
    | changePassword i p => simpa only [get?_changePassword, Option.isSome_map] using h
    | insertToken k t => simpa only [apply, Db.modifyTokens_users] using h
    | revokeToken k h' => simpa only [apply, Db.modifyTokens_users] using h

def onToken (k : TokenKind) (h : TokenHash) : Write → Option Token → Option Token
  | insertToken k' t, r => if k' = k ∧ t.tokenHash = h then r.or (some t) else r
  | revokeToken k' h', r =>
    if k' = k ∧ h' = h then r.map fun t => { t with isRevoked := true } else r
  | _, r => r

theorem get?_apply (w : Write) (d : Db) (k : TokenKind) (h : TokenHash) :
    ((w.apply d).tokens k).get? h = w.onToken k h ((d.tokens k).get? h) := by
  cases w with
  | insertToken k' t =>
    simp only [apply, onToken, Db.modifyTokens_tokens]
    by_cases hk : k' = k
    · by_cases ht : t.tokenHash = h <;> simp [hk, ht, Table.get?_insertNew]
    · simp [hk]
  | revokeToken k' h' =>
    simp only [apply, onToken, Db.modifyTokens_tokens]
    by_cases hk : k' = k
    · rw [if_pos hk, Table.get?_updateWhere]
      cases ht : (d.tokens k).get? h with
      | none => simp
      | some t => by_cases hh : h' = h <;> simp [hk, hh, Table.key_of_get? ht, eq_comm (a := h)]
    · simp [hk]
  | _ => cases k <;> rfl

theorem get?_applyAll_congr {d' : Db} (ws : List Write)
    (hrow : (d.tokens k).get? h = (d'.tokens k).get? h) :
    ((applyAll ws d).tokens k).get? h = ((applyAll ws d').tokens k).get? h := by
  induction ws generalizing d d' with
  | nil => exact hrow
  | cons w ws ih => exact ih (by rw [get?_apply, get?_apply, hrow])

theorem get?_apply_of_ne (w : Write) (d : Db) (hw : w.target ≠ .token k h) :
    ((w.apply d).tokens k).get? h = (d.tokens k).get? h := by
  rw [get?_apply]
  cases w with
  | insertToken k' t =>
    exact if_neg fun ⟨hk, ht⟩ => hw (by simp [target, hk, ht])
  | revokeToken k' h' =>
    exact if_neg fun ⟨hk, hh⟩ => hw (by simp [target, hk, hh])
  | _ => rfl

/-- A stored token keeps every field but the flag, which is only ever raised. -/
theorem get?_apply_of_some (w : Write) (ht : (d.tokens k).get? h = some t) :
    ((w.apply d).tokens k).get? h =
      some { t with isRevoked := t.isRevoked || decide (w = .revokeToken k h) } := by
  rw [get?_apply, ht]
  cases w with
  | insertToken k' t' => simp [onToken]
  | revokeToken k' h' => by_cases hk : k' = k ∧ h' = h <;> simp [onToken, hk]
  | _ => simp [onToken]

theorem get?_applyAll_of_some (ws : List Write) (ht : (d.tokens k).get? h = some t) :
    ((applyAll ws d).tokens k).get? h =
      some { t with isRevoked := t.isRevoked || decide (.revokeToken k h ∈ ws) } := by
  induction ws generalizing d t with
  | nil => simp [applyAll, ht]
  | cons w ws ih =>
    have hw := ih (get?_apply_of_some w ht)
    simp only [applyAll, List.foldl_cons] at hw ⊢
    simp only [hw, Bool.or_assoc, List.mem_cons, Bool.decide_or, eq_comm (a := w)]

theorem revoked_applyAll (ws : List Write) (hr : d.Revoked k h) : (applyAll ws d).Revoked k h := by
  obtain ⟨t, ht, hr⟩ := hr
  exact ⟨_, get?_applyAll_of_some ws ht, by simp [hr]⟩

theorem ownedBy_applyAll {u : UUID} (ws : List Write) (ho : d.OwnedBy k h u) :
    (applyAll ws d).OwnedBy k h u := by
  obtain ⟨t, ht, hu⟩ := ho
  exact ⟨_, get?_applyAll_of_some ws ht, hu⟩

theorem revoked_of_mem {u : UUID} {ws : List Write} (hw : .revokeToken k h ∈ ws)
    (ho : d.OwnedBy k h u) : (applyAll ws d).Revoked k h := by
  obtain ⟨t, ht, _⟩ := ho
  exact ⟨_, get?_applyAll_of_some ws ht, by simp [hw]⟩

theorem applyAll_append (ws ws' : List Write) (d : Db) :
    applyAll (ws ++ ws') d = applyAll ws' (applyAll ws d) := List.foldl_append ..

theorem isSome_get?_of_mem {ws : List Write} (hw : .insertToken k t ∈ ws) :
    (((applyAll ws d).tokens k).get? t.tokenHash).isSome := by
  obtain ⟨ws₁, ws₂, rfl⟩ := List.append_of_mem hw
  have hrow : ((((insertToken k t).apply (applyAll ws₁ d)).tokens k).get? t.tokenHash).isSome := by
    rw [get?_apply, onToken, if_pos ⟨rfl, rfl⟩]
    simp
  obtain ⟨t', ht'⟩ := Option.isSome_iff_exists.mp hrow
  rw [applyAll_append]
  exact Option.isSome_iff_exists.mpr ⟨_, get?_applyAll_of_some ws₂ ht'⟩

theorem apply_revokeToken_of_revoked (hr : d.Revoked k h) : (revokeToken k h).apply d = d := by
  obtain ⟨t, ht, hrev⟩ := hr
  have hself : (d.tokens k).updateWhere (·.tokenHash = h) (fun t => { t with isRevoked := true })
      (fun _ => rfl) = d.tokens k := by
    refine Table.updateWhere_eq_self fun t' ht' hp => ?_
    obtain rfl : t' = t := Option.some.inj
      ((Table.get?_eq_some.mpr ⟨ht', of_decide_eq_true hp⟩).symm.trans ht)
    rw [← hrev]
  cases k
  · exact congrArg (fun x => { d with accessTokens := x }) hself
  · exact congrArg (fun x => { d with refreshTokens := x }) hself

theorem applyAll_revokeToken_of_revoked {hs : List TokenHash} (hr : ∀ h ∈ hs, d.Revoked k h) :
    applyAll (hs.map (revokeToken k)) d = d := by
  induction hs with
  | nil => rfl
  | cons h hs ih =>
    have hhead := apply_revokeToken_of_revoked (hr h (List.mem_cons_self ..))
    have htail := ih fun h' hh' => hr h' (List.mem_cons_of_mem _ hh')
    simpa only [applyAll, List.map_cons, List.foldl_cons, hhead] using htail

end Write

/-! ### What the answer of a statement says -/

namespace Queries

variable {d : Db} {k : TokenKind} {h : TokenHash} {t : Token} {ks : List RowKey} {u : UUID}

theorem getToken_ok (hr : ((getToken k h true).run ks d).1 = .ok t) :
    (d.tokens k).get? h = some t ∧ .token k h ∈ ks ∧ ((getToken k h true).run ks d).2 = [] := by
  simp only [getToken, Bool.not_true, Bool.false_or] at hr ⊢
  split at hr
  · next t' ht =>
    obtain rfl := Except.ok.inj hr
    obtain ⟨ht', hk⟩ := Option.filter_eq_some_iff.mp ht
    exact ⟨ht', of_decide_eq_true hk, rfl⟩
  · cases hr

theorem createToken_ok {a : Unit} (hr : ((createToken k t).run ks d).1 = .ok a) :
    (d.tokens k).get? t.tokenHash = none ∧ ((createToken k t).run ks d).2 = [.insertToken k t] := by
  simp only [createToken] at hr ⊢
  split at hr
  · cases hr
  · next hk =>
    split at hr
    · cases hr
    · next hu => exact ⟨by simpa using hk, by simp [hk, hu]⟩

theorem mem_revokeTokens {p : Token → Bool} (ht : (d.tokens k).get? h = some t) (hp : p t = true)
    (hk : .token k h ∈ ks) : .revokeToken k h ∈ ((revokeTokens k p).run ks d).2 :=
  List.mem_map.mpr ⟨h, List.mem_filter.mpr ⟨Table.mem_keysWhere.mpr ⟨t, ht, hp⟩, decide_eq_true hk⟩, rfl⟩

theorem requireRows_ok {e : Entity} {i : String} {n : ℕ} {a : Unit}
    (hr : requireRows e i n = .ok a) : 0 < n := by
  rcases Nat.eq_zero_or_pos n with rfl | hn
  · cases hr
  · exact hn

theorem revokeToken_ok {a : Unit} (hr : ((revokeToken k h).run ks d).1 = .ok a) :
    .token k h ∈ ks ∧ .revokeToken k h ∈ ((revokeToken k h).run ks d).2 := by
  obtain ⟨h', hh'⟩ := List.exists_mem_of_length_pos (requireRows_ok hr)
  obtain ⟨hkey, hk⟩ := List.mem_filter.mp hh'
  obtain ⟨t, ht, hp⟩ := Table.mem_keysWhere.mp hkey
  obtain rfl : h' = h := (Table.key_of_get? ht).symm.trans (of_decide_eq_true hp)
  exact ⟨of_decide_eq_true hk, List.mem_map.mpr ⟨h', hh', rfl⟩⟩

theorem mem_rows_revokeAllUserTokens (ho : d.OwnedBy k h u) :
    .token k h ∈ (revokeAllUserTokens k u).rows d := by
  obtain ⟨t, ht, hu⟩ := ho
  exact List.mem_map.mpr ⟨h, Table.mem_keysWhere.mpr ⟨t, ht, decide_eq_true hu⟩, rfl⟩

theorem mem_revokeAllUserTokens (ho : d.OwnedBy k h u) (hk : .token k h ∈ ks) :
    .revokeToken k h ∈ ((revokeAllUserTokens k u).run ks d).2 := by
  obtain ⟨t, ht, hu⟩ := ho
  exact mem_revokeTokens ht (decide_eq_true hu) hk

/-! What a statement selects for locking. -/

theorem owned_of_mem_rows_getToken {key : RowKey} (hk : key ∈ (getToken k h true).rows d) :
    key = .token k h ∧ ∃ u, d.OwnedBy k h u := by
  simp only [getToken, Bool.true_and] at hk
  split at hk
  · next hsome =>
    obtain ⟨t, ht⟩ := Option.isSome_iff_exists.mp hsome
    exact ⟨List.mem_singleton.mp hk, t.userId, t, ht, rfl⟩
  · cases hk

theorem exists_of_mem_rows_revokeTokens {p : Token → Bool} {key : RowKey}
    (hk : key ∈ (revokeTokens k p).rows d) :
    ∃ h t, key = .token k h ∧ (d.tokens k).get? h = some t ∧ p t = true := by
  obtain ⟨h, hh, rfl⟩ := List.mem_map.mp hk
  obtain ⟨t, ht, hp⟩ := Table.mem_keysWhere.mp hh
  exact ⟨h, t, rfl, ht, hp⟩

theorem owned_of_mem_rows_revokeToken {key : RowKey} (hk : key ∈ (revokeToken k h).rows d) :
    key = .token k h ∧ ∃ u, d.OwnedBy k h u := by
  obtain ⟨h', t, rfl, ht, hp⟩ := exists_of_mem_rows_revokeTokens hk
  obtain rfl : h' = h := (Table.key_of_get? ht).symm.trans (of_decide_eq_true hp)
  exact ⟨rfl, t.userId, t, ht, rfl⟩

theorem owned_of_mem_rows_revokeAllUserTokens {key : RowKey}
    (hk : key ∈ (revokeAllUserTokens k u).rows d) : ∃ h, key = .token k h ∧ d.OwnedBy k h u := by
  obtain ⟨h, t, rfl, ht, hp⟩ := exists_of_mem_rows_revokeTokens hk
  exact ⟨h, rfl, t, ht, of_decide_eq_true hp⟩

/-! Statements that run alone have locked every row they select. -/

theorem getToken_alone (k : TokenKind) (h : TokenHash) (d : Db) :
    (getToken k h true).run ((getToken k h true).rows d) d =
      match (d.tokens k).get? h with
      | some t => (.ok t, [])
      | none => (.error (.notFound k.entity h.str), []) := by
  cases ht : (d.tokens k).get? h with
  | none => simp [getToken, ht]
  | some t => simp [getToken, ht, Option.filter]

theorem revokeTokens_alone (k : TokenKind) (p : Token → Bool) (d : Db) :
    (revokeTokens k p).run ((revokeTokens k p).rows d) d =
      (((d.tokens k).keysWhere p).length, ((d.tokens k).keysWhere p).map (.revokeToken k)) := by
  have hself : ((d.tokens k).keysWhere p).filter
      (fun h => RowKey.token k h ∈ ((d.tokens k).keysWhere p).map (.token k)) =
        (d.tokens k).keysWhere p :=
    List.filter_eq_self.mpr fun h hh => decide_eq_true (List.mem_map_of_mem hh)
  simp only [revokeTokens, hself]

theorem revokeToken_alone (k : TokenKind) (h : TokenHash) (d : Db) :
    (revokeToken k h).run ((revokeToken k h).rows d) d =
      if ((d.tokens k).get? h).isSome then (.ok (), [.revokeToken k h])
      else (.error (.notFound k.entity h.str), []) := by
  change Prod.map (requireRows k.entity h.str) id ((revokeTokens k _).run ((revokeTokens k _).rows d) d) = _
  rw [revokeTokens_alone, Table.keysWhere_of_key fun t ht => of_decide_eq_true ht]
  cases ht : (d.tokens k).get? h with
  | none => rfl
  | some t => simp [Table.key_of_get? ht, requireRows]

theorem revokeAllUserTokens_alone (k : TokenKind) (u : UUID) (d : Db) :
    (revokeAllUserTokens k u).run ((revokeAllUserTokens k u).rows d) d =
      (.ok (), ((d.tokens k).keysWhere (·.userId = u)).map (.revokeToken k)) := by
  change Prod.map (fun _ => Except.ok ()) id ((revokeTokens k _).run ((revokeTokens k _).rows d) d) = _
  rw [revokeTokens_alone]
  rfl

theorem updateUsers_alone (p : User → Bool) (set : UUID → Write) (d : Db) :
    (updateUsers p set).run ((updateUsers p set).rows d) d =
      ((d.users.keysWhere p).length, (d.users.keysWhere p).map set) := by
  have hself : (d.users.keysWhere p).filter
      (fun id => RowKey.user id ∈ (d.users.keysWhere p).map .user) = d.users.keysWhere p :=
    List.filter_eq_self.mpr fun id hid => decide_eq_true (List.mem_map_of_mem hid)
  simp only [updateUsers, hself]

/-- An update of one user row, for a clause that names its id. -/
theorem updateUser_alone {p : User → Bool} {id : UUID} (hp : ∀ u, p u = true → u.userId = id)
    (set : UUID → Write) (d : Db) :
    ((updateUsers p set).map (requireRows .user id.str)).run
        (((updateUsers p set).map (requireRows .user id.str)).rows d) d =
      if (d.users.get? id).any p then (.ok (), [set id]) else (.error (.notFound .user id.str), []) := by
  change Prod.map (requireRows .user id.str) (fun ws => ws)
    ((updateUsers p set).run ((updateUsers p set).rows d) d) = _
  rw [updateUsers_alone, Table.keysWhere_of_key hp]
  split <;> rfl

end Queries
end Messenger
