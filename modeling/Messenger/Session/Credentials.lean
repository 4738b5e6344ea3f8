import Messenger.Auth.SingleUse
import Messenger.Services.Auth

/-! Whether correct credentials always log in. `login` reads the row without a lock, and what another
call commits before the compare-and-set of the hash makes it miss the row and refuse the credentials. -/

namespace Messenger
open ReadCommitted Transition

/-! ### What a failing transaction makes `login` raise -/

def Failure.error : Failure → Error
  | .db e => .db e
  | .invalidCredentials => .service .invalidCredentials
  | .tokenExpired => .service .tokenExpired

namespace AuthService

def loginRaised (username password : String) (e : Error) : Except Error (User × TokenPair) :=
  let kwargs := [("username", username), ("password", password)]
  match handleDbNotFoundError loginEntities (fun _ => none) kwargs e with
  | .ok a => .ok a
  | .error e => handleDbConstraintError loginConstraints kwargs e

theorem login_of_transaction_error {env : AuthEnv} {f : Transactional.Faults Await Error}
    {w : AuthState} {username password : String} {e : Error}
    (h : (transaction (loginTx env username password) f w).1 = .error e) :
    (login env username password f w).1 = loginRaised username password e := by
  obtain ⟨r, w', hrun⟩ : ∃ r w', transaction (loginTx env username password) f w = (r, w') :=
    ⟨_, _, rfl⟩
  rw [hrun] at h
  subst h
  have hbody := Transactional.Op.bind_of_error (k := fun r : User × Bool => (do
    if r.2 then publishStreamEvent (.userInvalidated r.1.userId)
    return (r.1, env.tokenPair) : AuthOp (User × TokenPair))) hrun
  have hinner := Transactional.Op.handle_of_error (g := handleDbNotFoundError loginEntities
    (fun _ => none) [("username", username), ("password", password)]) hbody
  unfold loginRaised
  dsimp only
  cases hhandled : (handleDbNotFoundError loginEntities (fun _ => none)
      [("username", username), ("password", password)] e : Except Error (User × TokenPair)) with
  | ok a =>
    rw [hhandled] at hinner
    exact congrArg Prod.fst (Transactional.Op.handle_of_ok hinner)
  | error e' =>
    rw [hhandled] at hinner
    exact congrArg Prod.fst (Transactional.Op.handle_of_error hinner)

end AuthService

namespace Pc

def OfLogin : Pc → Prop
  | .getUserByUsername .. | .reactivateUser .. | .updateUserPassword .. | .createToken _ .login _ _ => True
  | _ => False

def Refused (username password : String) : Pc → Prop
  | .raised e =>
    AuthService.loginRaised username password e.error = .error (.service .invalidCredentials)
  | _ => False

/-- The row that the compare-and-set looks for still has the hash that was read, and is active. -/
def HashStands (d : Db) : Pc → Prop
  | .updateUserPassword user _ _ =>
    ∃ row ∈ d.users.get? user.userId, row.passwordHash = user.passwordHash ∧ row.deactivated = false
  | _ => True

end Pc

/-! ### The account -/

/-- The credentials of a user, and the hasher that judges them. -/
structure Credentials where
  pw : PasswordHasher
  username : String
  password : String
  userId : UUID

namespace Credentials

variable (c : Credentials)

def Stored (d : Db) : Prop :=
  ∃ row, d.users.rows.find? (·.username = c.username) = some row ∧ row.userId = c.userId ∧
    c.pw.verify c.password row.passwordHash = true

/-- A `login` with the credentials, whose new hash is one of the password, or a switch of the account. -/
def Concurrent : Call → Prop
  | .login username password newHash _ =>
    username = c.username ∧ password = c.password ∧ c.pw.verify c.password newHash = true
  | .deactivateAccount id | .reactivateAccount id => id = c.userId
  | .register .. | .refresh .. | .logout .. => False

def Runs : Pc → Prop
  | .getUserByUsername username password newHash _ =>
    username = c.username ∧ password = c.password ∧ c.pw.verify c.password newHash = true
  | .reactivateUser user newHash _ | .updateUserPassword user newHash _ =>
    user.userId = c.userId ∧ c.pw.verify c.password newHash = true
  | .createToken _ _ user _ => user = c.userId
  | .setDeactivated id _ => id = c.userId
  | .issued .. | .accountSet | .raised _ => True
  | .createUser .. | .getRefreshToken .. | .revokeAll .. | .revokePresented .. | .logoutRefresh ..
  | .logoutAccess _ | .reused .. | .loggedOut => False

def Harmless : Write → Prop
  | .changePassword _ hash => c.pw.verify c.password hash = true
  | .setDeactivated .. | .insertToken .. => True
  | .insertUser _ | .revokeToken .. => False

variable {c} {d : Db} {w : Write} {ws : List Write}

theorem Stored.modifyUser (h : c.Stored d) (id : UUID) (f : User → User)
    (hf : ∀ u, (f u).userId = u.userId) (hname : ∀ u, (f u).username = u.username)
    (hverify : ∀ u, c.pw.verify c.password u.passwordHash = true →
      c.pw.verify c.password (f u).passwordHash = true) : c.Stored (d.modifyUser id f hf) := by
  obtain ⟨row, hrow, hid, hpassword⟩ := h
  have hsame : (fun u : User => decide ((if decide (u.userId = id) then f u else u).username =
      c.username)) = fun u => decide (u.username = c.username) := by
    funext u
    split
    · rw [hname]
    · rfl
  refine ⟨if decide (row.userId = id) then f row else row, ?_, ?_, ?_⟩
  · show ((d.users.rows.map _).find? _) = _
    rw [List.find?_map]
    show ((d.users.rows.find? fun u => decide ((if decide (u.userId = id) then f u else u).username =
      c.username)).map _) = _
    rw [hsame, hrow]
    rfl
  · split
    · rw [hf, hid]
    · exact hid
  · split
    · exact hverify row hpassword
    · exact hpassword

theorem Stored.apply (h : c.Stored d) (hw : c.Harmless w) : c.Stored (w.apply d) := by
  cases w with
  | insertUser u => exact hw.elim
  | setDeactivated id value =>
    exact h.modifyUser id (fun u => { u with deactivated := value }) (fun _ => rfl) (fun _ => rfl)
      fun _ hv => hv
  | changePassword id hash =>
    exact h.modifyUser id (fun u => { u with passwordHash := hash }) (fun _ => rfl) (fun _ => rfl)
      fun _ _ => hw
  | insertToken k t =>
    unfold Stored
    rw [Write.apply, Db.modifyTokens_users]
    exact h
  | revokeToken k hash => exact hw.elim

theorem Stored.applyAll (h : c.Stored d) (hws : ∀ w ∈ ws, c.Harmless w) :
    c.Stored (Write.applyAll ws d) := by
  induction ws generalizing d with
  | nil => exact h
  | cons w ws ih =>
    have hfirst : c.Stored (w.apply d) := h.apply (hws w (List.mem_cons_self ..))
    exact ih hfirst fun w' hw' => hws w' (List.mem_cons_of_mem _ hw')

theorem Stored.get? (h : c.Stored d) :
    ∃ row, d.users.get? c.userId = some row ∧ c.pw.verify c.password row.passwordHash = true := by
  obtain ⟨row, hrow, hid, hverify⟩ := h
  exact ⟨row, Table.get?_eq_some.mpr ⟨List.mem_of_find?_eq_some hrow, hid⟩, hverify⟩

/-! ### The statements -/

theorem run_updateUser {p : User → Bool} {id : UUID} (hp : ∀ u, p u = true → u.userId = id)
    (set : UUID → Write) (ks : List RowKey) (d : Db) :
    ((Queries.updateUsers p set).map (Queries.requireRows .user id.str)).run ks d =
      if .user id ∈ ks ∧ (d.users.get? id).any p then (.ok (), [set id])
      else (.error (.notFound .user id.str), []) := by
  change Prod.map (Queries.requireRows .user id.str) (fun ws => ws)
    ((Queries.updateUsers p set).run ks d) = _
  simp only [Queries.updateUsers, Table.keysWhere_of_key hp]
  by_cases hhit : (d.users.get? id).any p <;> by_cases hk : RowKey.user id ∈ ks <;>
    simp [hhit, hk, Queries.requireRows]

theorem rows_updateUser {p : User → Bool} {id : UUID} (hp : ∀ u, p u = true → u.userId = id)
    (set : UUID → Write) (d : Db) :
    ((Queries.updateUsers p set).map (Queries.requireRows .user id.str)).rows d =
      if (d.users.get? id).any p then [.user id] else [] := by
  show (d.users.keysWhere p).map RowKey.user = _
  rw [Table.keysWhere_of_key hp]
  split <;> rfl

theorem hashStands_iff {user : User} {newHash : String} {pair : HashedPair} :
    (Pc.updateUserPassword user newHash pair).HashStands d ↔
      (d.users.get? user.userId).any fun u =>
        u.userId = user.userId && u.passwordHash = user.passwordHash && !u.deactivated := by
  show (∃ row ∈ d.users.get? user.userId, _) ↔ _
  rw [Option.any_eq_true]
  refine exists_congr fun row => and_congr_right fun hrow => ?_
  have hid : row.userId = user.userId := Table.key_of_get? hrow
  simp [hid]

theorem run_getUserByUsername (h : c.Stored d) (ks : List RowKey) :
    ∃ row, (Queries.getUserByUsername c.username).run ks d = (.ok row, []) ∧ row.userId = c.userId ∧
      c.pw.verify c.password row.passwordHash = true := by
  obtain ⟨row, hrow, hid, hverify⟩ := h
  refine ⟨row, ?_, hid, hverify⟩
  simp only [Queries.getUserByUsername, Queries.selectUser, Bool.not_false, Bool.true_or,
    Bool.and_true, hrow]

theorem runs_afterReactivate {user : User} {newHash : String} {pair : HashedPair}
    (hid : user.userId = c.userId) (hnew : c.pw.verify c.password newHash = true) :
    c.Runs (Pc.afterReactivate c.pw user newHash pair) := by
  unfold Pc.afterReactivate
  split
  · exact ⟨hid, hnew⟩
  · exact hid

theorem runs_afterGetUser {user : User} {newHash : String} {pair : HashedPair}
    (hid : user.userId = c.userId) (hnew : c.pw.verify c.password newHash = true) :
    c.Runs (Pc.afterGetUser c.pw c.password newHash pair user) := by
  unfold Pc.afterGetUser
  split
  · trivial
  · split
    · exact ⟨hid, hnew⟩
    · exact runs_afterReactivate hid hnew

variable {pc : Pc} {q : Stmt Db RowKey Write Pc}

theorem runs_andThen {α : Type} {query : Query α} {k : α → Pc} {ks : List RowKey}
    (hq : Pc.andThen query k = .exec q)
    (hok : ∀ a, (query.run ks d).1 = .ok a → c.Runs (k a))
    (hws : ∀ w ∈ (query.run ks d).2, c.Harmless w) :
    c.Runs (q.run ks d).1 ∧ ∀ w ∈ (q.run ks d).2, c.Harmless w := by
  cases hq
  refine ⟨?_, hws⟩
  simp only [Stmt.map]
  cases ha : (query.run ks d).1 with
  | ok a => exact hok a ha
  | error e => trivial

theorem harmless_updateUser {p : User → Bool} {id : UUID} {set : UUID → Write} {ks : List RowKey}
    (hp : ∀ u, p u = true → u.userId = id) (hset : c.Harmless (set id)) :
    ∀ w ∈ (((Queries.updateUsers p set).map (Queries.requireRows .user id.str)).run ks d).2,
      c.Harmless w := by
  rw [run_updateUser hp]
  split
  · intro w hw
    rwa [List.mem_singleton.mp hw]
  · exact nofun

theorem Runs.run (h : c.Runs pc) (hq : pc.cmd c.pw = .exec q) (hd : c.Stored d) (ks : List RowKey) :
    c.Runs (q.run ks d).1 ∧ ∀ w ∈ (q.run ks d).2, c.Harmless w := by
  cases pc with
  | getUserByUsername username password newHash pair =>
    obtain ⟨rfl, rfl, hnew⟩ := h
    obtain ⟨row, hrun, hid, -⟩ := run_getUserByUsername hd ks
    refine runs_andThen hq (fun user huser => ?_) (by rw [hrun]; exact nofun)
    rw [hrun] at huser
    obtain rfl := Except.ok.inj huser
    exact runs_afterGetUser hid hnew
  | reactivateUser user newHash pair =>
    exact runs_andThen hq (fun _ _ => runs_afterReactivate h.1 h.2)
      (harmless_updateUser (fun u hu => of_decide_eq_true hu) trivial)
  | updateUserPassword user newHash pair =>
    exact runs_andThen hq (fun _ _ => h.1) (harmless_updateUser (fun u hu => of_decide_eq_true
      (Bool.and_eq_true_iff.mp (Bool.and_eq_true_iff.mp hu).1).1) h.2)
  | setDeactivated id value =>
    cases value with
    | true =>
      exact runs_andThen hq (fun _ _ => trivial)
        (harmless_updateUser (fun u hu => of_decide_eq_true hu) trivial)
    | false =>
      exact runs_andThen hq (fun _ _ => trivial)
        (harmless_updateUser (fun u hu => of_decide_eq_true hu) trivial)
  | createToken kind origin user pair =>
    have hinserted (t : Token) : ∀ w ∈ ((Queries.createToken kind t).run ks d).2, c.Harmless w := by
      intro w hw
      simp only [Queries.createToken] at hw
      split at hw
      · cases hw
      · split at hw
        · cases hw
        · rw [List.mem_singleton.mp hw]
          trivial
    cases kind with
    | access => exact runs_andThen hq (fun _ _ => h) (hinserted _)
    | refresh => exact runs_andThen hq (fun _ _ => trivial) (hinserted _)
  | issued | accountSet | raised => cases hq
  | createUser | getRefreshToken | revokeAll | revokePresented | logoutRefresh | logoutAccess
  | reused | loggedOut => exact h.elim

/-! ### Which statement refuses -/

theorem refused_of_missing (username password id : String) :
    (Pc.raised (.db (.notFound .user id))).Refused username password := rfl

theorem not_refused_of_taken (username password : String) (kind : TokenKind) :
    ¬ (Pc.raised (.db (.constraintViolation kind.table kind.primaryKey))).Refused username password := by
  cases kind <;> exact nofun

theorem not_refused_afterReactivate {user : User} {newHash : String} {pair : HashedPair}
    (username password : String) :
    ¬ (Pc.afterReactivate c.pw user newHash pair).Refused username password := by
  unfold Pc.afterReactivate
  split <;> exact id

theorem not_refused_afterGetUser {user : User} {newHash : String} {pair : HashedPair}
    (hverify : c.pw.verify c.password user.passwordHash = true) :
    ¬ (Pc.afterGetUser c.pw c.password newHash pair user).Refused c.username c.password := by
  unfold Pc.afterGetUser
  rw [hverify, if_neg (by simp)]
  split
  · exact id
  · exact not_refused_afterReactivate _ _

def Locks (q : Stmt Db RowKey Write Pc) (ks : List RowKey) (d : Db) : Prop :=
  ks = q.rows d ∨ ks ≠ [] ∧ ∃ d₀, ks = q.rows d₀

theorem mem_of_locks {q' : Query Unit} {k : Except DbError Unit → Pc} {ks : List RowKey} {key : RowKey}
    (hlocks : Locks (q'.map k) ks d) (hsel : key ∈ q'.rows d)
    (honly : ∀ d₀, ∀ key' ∈ q'.rows d₀, key' = key) : key ∈ ks := by
  rcases hlocks with rfl | ⟨hne, d₀, rfl⟩
  · exact hsel
  · obtain ⟨key', hkey'⟩ := List.exists_mem_of_ne_nil _ hne
    exact honly d₀ key' hkey' ▸ hkey'

theorem rows_updateUser_eq {p : User → Bool} {id : UUID} (hp : ∀ u, p u = true → u.userId = id)
    {set : UUID → Write} {d₀ : Db} {key : RowKey}
    (hkey : key ∈ ((Queries.updateUsers p set).map (Queries.requireRows .user id.str)).rows d₀) :
    key = .user id := by
  rw [rows_updateUser hp] at hkey
  split at hkey
  · exact List.mem_singleton.mp hkey
  · cases hkey

theorem run_updateUser_of_locks {p : User → Bool} {id : UUID} {set : UUID → Write} {ks : List RowKey}
    {k : Except DbError Unit → Pc} (hp : ∀ u, p u = true → u.userId = id)
    (hlocks : Locks (((Queries.updateUsers p set).map (Queries.requireRows .user id.str)).map k) ks d) :
    ((Queries.updateUsers p set).map (Queries.requireRows .user id.str)).run ks d =
      if (d.users.get? id).any p then (.ok (), [set id])
      else (.error (.notFound .user id.str), []) := by
  rw [run_updateUser hp]
  by_cases hany : (d.users.get? id).any p
  · have hlocked : .user id ∈ ks := by
      refine mem_of_locks hlocks ?_ fun d₀ key hkey => rows_updateUser_eq hp hkey
      rw [rows_updateUser hp, if_pos hany]
      exact List.mem_singleton_self _
    rw [if_pos ⟨hlocked, hany⟩, if_pos hany]
  · rw [if_neg fun hboth => hany hboth.2, if_neg hany]

theorem run_createToken (hd : c.Stored d) (kind : TokenKind) {t : Token} (ht : t.userId = c.userId)
    (ks : List RowKey) :
    (∃ ws, (Queries.createToken kind t).run ks d = (.ok (), ws)) ∨
      (Queries.createToken kind t).run ks d =
        (.error (.constraintViolation kind.table kind.primaryKey), []) := by
  obtain ⟨row, hrow, -⟩ := hd.get?
  simp only [Queries.createToken, ht, hrow, Option.isNone_some, Bool.false_eq_true, if_false]
  split
  · exact .inr rfl
  · exact .inl ⟨_, rfl⟩

theorem not_refused_createToken (hd : c.Stored d) (kind : TokenKind) {t : Token}
    (ht : t.userId = c.userId) (ks : List RowKey) {next : Pc}
    (hnext : ¬ next.Refused c.username c.password)
    (hq : Pc.andThen (Queries.createToken kind t) (fun _ => next) = .exec q) :
    ¬ (q.run ks d).1.Refused c.username c.password := by
  cases hq
  rcases run_createToken hd kind ht ks with ⟨ws, hrun⟩ | hrun
  · simp only [Stmt.map, hrun]
    exact hnext
  · simp only [Stmt.map, hrun]
    exact not_refused_of_taken _ _ kind

/-- A statement of a `login` refuses if and only if it is the compare-and-set and the hash does not
stand. -/
theorem refused_iff {ks : List RowKey} (h : c.Runs pc) (hlogin : pc.OfLogin)
    (hq : pc.cmd c.pw = .exec q) (hd : c.Stored d) (hks : Locks q ks d) :
    (q.run ks d).1.Refused c.username c.password ↔ ¬ pc.HashStands d := by
  cases pc with
  | getUserByUsername username password newHash pair =>
    obtain ⟨rfl, rfl, -⟩ := h
    cases hq
    obtain ⟨row, hrun, -, hverify⟩ := run_getUserByUsername hd ks
    refine iff_of_false ?_ fun hnot => hnot trivial
    simp only [Stmt.map, hrun]
    exact not_refused_afterGetUser hverify
  | reactivateUser user newHash pair =>
    obtain ⟨hid, -⟩ := h
    cases hq
    have hexists : (d.users.get? user.userId).any fun u => u.userId = user.userId := by
      obtain ⟨row, hrow, -⟩ := hd.get?
      rw [hid, hrow]
      simpa using Table.key_of_get? hrow
    have hrun : (Queries.reactivateUser user.userId).run ks d =
        (.ok (), [.setDeactivated user.userId false]) :=
      (run_updateUser_of_locks (fun u hu => of_decide_eq_true hu) hks).trans (if_pos hexists)
    refine iff_of_false ?_ fun hnot => hnot trivial
    simp only [Stmt.map, hrun]
    exact not_refused_afterReactivate _ _
  | updateUserPassword user newHash pair =>
    cases hq
    have hrun : (Queries.updateUserPassword user.userId newHash user.passwordHash).run ks d = _ :=
      run_updateUser_of_locks (fun u hu => of_decide_eq_true
        (Bool.and_eq_true_iff.mp (Bool.and_eq_true_iff.mp hu).1).1) hks
    rw [hashStands_iff]
    by_cases hstands : (d.users.get? user.userId).any fun u =>
        u.userId = user.userId && u.passwordHash = user.passwordHash && !u.deactivated
    · rw [if_pos hstands] at hrun
      refine iff_of_false ?_ fun hnot => hnot hstands
      simp only [Stmt.map, hrun]
      exact id
    · rw [if_neg hstands] at hrun
      refine iff_of_true ?_ hstands
      simp only [Stmt.map, hrun]
      exact refused_of_missing ..
  | createToken kind origin user pair =>
    obtain rfl : user = c.userId := h
    refine iff_of_false ?_ fun hnot => hnot trivial
    cases kind with
    | access => exact not_refused_createToken hd .access rfl ks id hq
    | refresh => exact not_refused_createToken hd .refresh rfl ks id hq
  | issued | accountSet | raised => cases hq
  | setDeactivated => exact hlogin.elim
  | createUser | getRefreshToken | revokeAll | revokePresented | logoutRefresh | logoutAccess
  | reused | loggedOut => exact h.elim

/-! ### Runs -/

variable {τ : Type}

structure TxnInv (c : Credentials) (x : AuthTxn) : Prop where
  runs : c.Runs x.pc
  writes : ∀ w ∈ x.writes, c.Harmless w
  selected : ∀ n ks todo, x.phase = .locking n ks todo →
    todo ⊆ ks ∧ ∃ q d, x.pc.cmd c.pw = .exec q ∧ ks = q.rows d

structure Inv (c : Credentials) (s : AuthSys τ) : Prop where
  stored : c.Stored s.db
  txns : ∀ t x, s.txn t = some x → c.TxnInv x

def OnlyConcurrent (c : Credentials) (_ : AuthSys τ) : AuthAct τ → Prop
  | .begin _ call => c.Concurrent call
  | _ => True

variable [DecidableEq τ] {s s' : AuthSys τ} {a : AuthAct τ}

theorem runs_entry {call : Call} (h : c.Concurrent call) : c.Runs call.entry := by
  cases call with
  | login | deactivateAccount | reactivateAccount => exact h
  | register | refresh | logout => exact h.elim

theorem Inv.setTxn {t : τ} {x : AuthTxn} (h : c.Inv s) (hx : c.TxnInv x) : c.Inv (s.setTxn t x) where
  stored := h.stored
  txns u y hy := by
    rcases Sys.setTxn_txn_eq_some hy with ⟨-, rfl⟩ | ⟨-, hy⟩
    · exact hx
    · exact h.txns u y hy

omit [DecidableEq τ] in
theorem Inv.view {t : τ} {x : AuthTxn} (h : c.Inv s) (hx : s.txn t = some x) :
    c.Stored (Write.applyAll x.writes s.db) := h.stored.applyAll (h.txns t x hx).writes

theorem preserves_inv (c : Credentials) :
    (transactions c.pw).PreservesWhen (τ := τ) c.OnlyConcurrent c.Inv where
  begin s t call h hcall _ := by
    have hentry : c.TxnInv ⟨call.entry, .ready, [], []⟩ := ⟨runs_entry hcall, nofun, nofun⟩
    have hset := h.setTxn (t := t) hentry
    exact ⟨hset.stored, hset.txns⟩
  select s t pc ws tr q h hx hq := by
    have hold := h.txns t _ hx
    refine h.setTxn ⟨hold.runs, hold.writes, fun n ks todo hphase => ?_⟩
    cases hphase
    exact ⟨fun _ hk => hk, q, _, hq, rfl⟩
  acquire s t k pc n ks todo ws tr h _ hx hk _ := by
    have hold := h.txns t _ hx
    obtain ⟨hsub, hsel⟩ := hold.selected n ks todo rfl
    have hlocked : c.Inv (s.lockRow t k) := ⟨h.stored, h.txns⟩
    refine hlocked.setTxn ⟨hold.runs, hold.writes, fun n' ks' todo' hphase => ?_⟩
    cases hphase
    exact ⟨fun _ hmem => hsub (List.mem_filter.mp hmem).1, hsel⟩
  settle s t pc n ks ws tr q h hx hq := by
    have hold := h.txns t _ hx
    obtain ⟨hruns, hwrites⟩ := hold.runs.run hq (h.view hx) ks
    refine h.setTxn ⟨hruns, fun w hw => ?_, nofun⟩
    rcases List.mem_append.mp hw with hw | hw
    · exact hold.writes w hw
    · exact hwrites w hw
  commit s t pc ws tr h _ hx _ := by
    have hview := h.view hx
    exact ⟨hview, fun u y hy => h.txns u y (Sys.close_txn_eq_some hy).2⟩
  abort s t x h _ := ⟨h.stored, fun u y hy => h.txns u y (Sys.close_txn_eq_some hy).2⟩

def Refuses (c : Credentials) (s s' : AuthSys τ) : Prop :=
  ∃ t x x', s.txn t = some x ∧ x.pc.OfLogin ∧ s'.txn t = some x' ∧
    x'.pc.Refused c.username c.password

/-- A compare-and-set finds its row as it was read, when it takes its snapshot and when it has the
lock. -/
def HashStands (s : AuthSys τ) : AuthAct τ → Prop
  | .start t | .lock t _ => ∀ x ∈ s.txn t, x.pc.HashStands (Write.applyAll x.writes s.db)
  | _ => True

theorem not_refused_of_login {username password : String} (h : pc.OfLogin) :
    ¬ pc.Refused username password := by
  cases pc with
  | raised e => exact h.elim
  | _ => exact id

theorem hashStands_or_rows (hq : pc.cmd c.pw = .exec q) :
    (∀ d, pc.HashStands d) ∨
      (∀ d, q.rows d ≠ [] → pc.HashStands d) ∧ ∀ d, ∀ key ∈ q.rows d, ∀ key' ∈ q.rows d, key = key' := by
  cases pc with
  | updateUserPassword user newHash pair =>
    cases hq
    have hp : ∀ u : User, (decide (u.userId = user.userId) &&
        decide (u.passwordHash = user.passwordHash) && !u.deactivated) = true →
        u.userId = user.userId := fun u hu =>
      of_decide_eq_true (Bool.and_eq_true_iff.mp (Bool.and_eq_true_iff.mp hu).1).1
    have hrow {d : Db} {key : RowKey}
        (hkey : key ∈ (Queries.updateUserPassword user.userId newHash user.passwordHash).rows d) :
        key = .user user.userId := rows_updateUser_eq hp hkey
    refine .inr ⟨fun d hne => hashStands_iff.mpr ?_, fun d key hkey key' hkey' => ?_⟩
    · by_contra hmiss
      refine hne ?_
      show (Queries.updateUserPassword user.userId newHash user.passwordHash).rows d = []
      rw [Queries.updateUserPassword, rows_updateUser hp, if_neg hmiss]
    · exact (hrow hkey).trans (hrow hkey').symm
  | _ => exact .inl fun _ => trivial

theorem refuses_settle_iff {s₁ : AuthSys τ} {t : τ} {x : AuthTxn} {n : ℕ} {ks todo : List RowKey}
    {tr : List (ℕ × ℕ)} (h : c.Inv s) (hx : s.txn t = some x) (hq : x.pc.cmd c.pw = .exec q)
    (hx₁ : s₁.txn t = some ⟨x.pc, .locking n ks todo, x.writes, tr⟩) (hdb : s₁.db = s.db)
    (hother : ∀ u, u ≠ t → s₁.txn u = s.txn u)
    (hdone : todo = [] → Locks q ks (Write.applyAll x.writes s.db))
    (hwaits : todo ≠ [] → x.pc.HashStands (Write.applyAll x.writes s.db)) :
    c.Refuses s ((transactions c.pw).settle s₁ t) ↔
      ¬ x.pc.HashStands (Write.applyAll x.writes s.db) := by
  -- only `t` goes on
  have hrefuses {s' : AuthSys τ} {y : AuthTxn} (hy : s'.txn t = some y)
      (hrest : ∀ u, u ≠ t → s'.txn u = s.txn u) :
      c.Refuses s s' ↔ x.pc.OfLogin ∧ y.pc.Refused c.username c.password := by
    constructor
    · rintro ⟨u, z, z', hz, hlogin, hz', hrefused⟩
      rcases eq_or_ne u t with rfl | hne
      · cases Option.some.inj (hx.symm.trans hz)
        cases Option.some.inj (hy.symm.trans hz')
        exact ⟨hlogin, hrefused⟩
      · rw [hrest u hne, hz] at hz'
        cases Option.some.inj hz'
        exact absurd hrefused (not_refused_of_login hlogin)
    · exact fun ⟨hlogin, hrefused⟩ => ⟨t, x, y, hx, hlogin, hy, hrefused⟩
  cases todo with
  | nil =>
    rw [Program.settle_of_locked hx₁ hq, hdb, transactions_applyAll, hrefuses Sys.setTxn_txn_self
      fun u hne => (Sys.setTxn_txn_ne hne).trans (hother u hne)]
    by_cases hlogin : x.pc.OfLogin
    · have hiff := refused_iff (h.txns t x hx).runs hlogin hq (h.view hx) (hdone rfl)
      exact (and_iff_right hlogin).trans hiff
    · have hstands : x.pc.HashStands (Write.applyAll x.writes s.db) := by
        cases hpc : x.pc with
        | updateUserPassword user newHash pair =>
          rw [hpc] at hlogin
          exact absurd trivial hlogin
        | _ => trivial
      exact iff_of_false (fun hboth => hlogin hboth.1) fun hnot => hnot hstands
  | cons key todo =>
    have hsame : (transactions c.pw).settle s₁ t = s₁ := by
      simp only [Program.settle, hx₁]
    rw [hsame, hrefuses hx₁ hother]
    have hstands : x.pc.HashStands (Write.applyAll x.writes s.db) := hwaits (List.cons_ne_nil key todo)
    exact iff_of_false (fun hboth => not_refused_of_login hboth.1 hboth.2) fun hnot => hnot hstands

omit [DecidableEq τ] in
theorem forall_mem_txn {t : τ} {x : AuthTxn} {P : AuthTxn → Prop} (hx : s.txn t = some x) :
    (∀ y ∈ s.txn t, P y) ↔ P x := by
  constructor
  · exact fun h => h x hx
  · intro h y hy
    cases Option.some.inj (hx.symm.trans hy)
    exact h

omit [DecidableEq τ] in
theorem not_refuses {t : τ} (hother : ∀ u, u ≠ t → s'.txn u = s.txn u)
    (hself : ∀ x ∈ s'.txn t, ¬ x.pc.Refused c.username c.password) : ¬ c.Refuses s s' := by
  rintro ⟨u, x, x', hx, hlogin, hx', hrefused⟩
  rcases eq_or_ne u t with rfl | hne
  · exact hself x' hx' hrefused
  · rw [hother u hne, hx] at hx'
    cases Option.some.inj hx'
    exact not_refused_of_login hlogin hrefused

theorem refuses_iff (h : c.Inv s) (hs : (transactions c.pw).step s a = some s') :
    c.Refuses s s' ↔ ¬ HashStands s a := by
  cases a with
  | begin t call =>
    simp only [Program.step] at hs
    split at hs
    · cases hs
    · cases hs
      refine iff_of_false (not_refuses (t := t) (fun u hne => Sys.setTxn_txn_ne hne) ?_)
        fun hnot => hnot trivial
      intro x hx
      cases Option.some.inj (Sys.setTxn_txn_self.symm.trans hx)
      cases call <;> exact id
  | start t =>
    simp only [Program.step, Option.map_eq_some_iff] at hs
    obtain ⟨s₁, hs₁, rfl⟩ := hs
    obtain ⟨pc, ws, tr, q, hx, hq, rfl⟩ := Program.select_eq_some hs₁
    have hstands := forall_mem_txn (P := fun y => y.pc.HashStands (Write.applyAll y.writes s.db)) hx
    refine Iff.trans ?_ (not_congr hstands).symm
    refine refuses_settle_iff h hx hq Sys.setTxn_txn_self rfl (fun u hne => Sys.setTxn_txn_ne hne)
      (fun _ => .inl rfl) fun hne => ?_
    rcases hashStands_or_rows hq with hall | ⟨hrows, -⟩
    · exact hall _
    · exact hrows _ hne
  | lock t k =>
    simp only [Program.step, Option.map_eq_some_iff] at hs
    obtain ⟨s₁, hs₁, rfl⟩ := hs
    obtain ⟨pc, n, ks, todo, ws, tr, hx, hk, -, rfl⟩ := Sys.acquire_eq_some hs₁
    obtain ⟨hsub, q, d₀, hq, rfl⟩ := (h.txns t _ hx).selected n ks todo rfl
    have hstands := forall_mem_txn (P := fun y => y.pc.HashStands (Write.applyAll y.writes s.db)) hx
    refine Iff.trans ?_ (not_congr hstands).symm
    refine refuses_settle_iff h hx hq Sys.setTxn_txn_self rfl (fun u hne => Sys.setTxn_txn_ne hne)
      (fun _ => .inr ⟨List.ne_nil_of_mem (hsub hk), d₀, rfl⟩) fun hne => ?_
    rcases hashStands_or_rows hq with hall | ⟨-, honly⟩
    · exact hall _
    · -- the compare-and-set waits for one row only
      exact absurd (Sys.filter_ne_eq_nil fun k' hk' => honly d₀ k' (hsub hk') k (hsub hk)) hne
  | commit t =>
    obtain ⟨pc, ws, tr, hx, -, rfl⟩ := Program.commit_eq_some hs
    refine iff_of_false (not_refuses (t := t) (fun u hne => Sys.close_txn_ne hne) ?_)
      fun hnot => hnot trivial
    intro x hx
    cases Sys.close_txn_self.symm.trans hx
  | abort t =>
    simp only [Program.step] at hs
    split at hs
    · cases hs
      refine iff_of_false (not_refuses (t := t) (fun u hne => Sys.close_txn_ne hne) ?_)
        fun hnot => hnot trivial
      intro x hx
      cases Sys.close_txn_self.symm.trans hx
    · cases hs

omit [DecidableEq τ] in
theorem inv_init {d : Db} (h : c.Stored d) : c.Inv (AuthSys.init d : AuthSys τ) where
  stored := h
  txns t x hx := by cases hx

/-- In every run of logins with the stored credentials and of switches of the account, no login is
refused if and only if each compare-and-set finds its row as it was read. -/
theorem login_never_refused_iff (c : Credentials) (d : Db) (acts : List (AuthAct τ)) (s : AuthSys τ)
    (hstored : c.Stored d) (hcalls : ∀ t call, .begin t call ∈ acts → c.Concurrent call)
    (hrun : run (transactions c.pw).step (AuthSys.init d) acts = some s) :
    Guarded (transactions c.pw).step HashStands (AuthSys.init d) acts ↔
      ∀ pre a post (m m' : AuthSys τ), acts = pre ++ a :: post →
        run (transactions c.pw).step (AuthSys.init d) pre = some m →
        (transactions c.pw).step m a = some m' → ¬ c.Refuses m m' := by
  have hconcurrent : Guarded (transactions c.pw).step c.OnlyConcurrent (AuthSys.init d) acts := by
    refine guarded_of_forall_mem fun a ha m => ?_
    cases a with
    | begin t call => exact hcalls t call ha
    | _ => trivial
  have hinv {pre post : List (AuthAct τ)} {m : AuthSys τ} (hsplit : acts = pre ++ post)
      (hpre : run (transactions c.pw).step (AuthSys.init d) pre = some m) : c.Inv m :=
    (preserves_inv c).guarded_run (inv_init hstored) (hsplit ▸ hconcurrent).append.1 hpre
  rw [guarded_iff_forall_split]
  constructor
  · intro hstands pre a post m m' hsplit hpre hs hrefuses
    have hnot : ¬ HashStands m a := (refuses_iff (hinv hsplit hpre) hs).mp hrefuses
    exact hnot (hstands pre a post hsplit m hpre)
  · intro hnone pre a post hsplit m hpre
    obtain ⟨m₀, hpre₀, hrest⟩ := run_append_eq_some.mp (hsplit ▸ hrun)
    obtain rfl := run_det hpre hpre₀
    obtain ⟨m', hs, -⟩ := run_cons_eq_some.mp hrest
    have hspared : ¬ c.Refuses m m' := hnone pre a post m m' hsplit hpre hs
    exact not_not.mp ((not_congr (refuses_iff (hinv hsplit hpre) hs)).mp hspared)

end Credentials

namespace Sample

/-- Hashes that begin with an x have outdated parameters. -/
def rehasher : PasswordHasher where
  verify password hash := hash = "x" ++ password || hash = password
  needsRehash hash := hash.toList.head? = some 'x'

def credentials : Credentials := ⟨rehasher, "ada", "secret", ⟨1⟩⟩

def outdated : Db where
  users := ⟨[⟨⟨1⟩, "ada", "xsecret", false, 0⟩], List.nodup_singleton _⟩

def readsOutdated (t : ℕ) : List (AuthAct ℕ) :=
  [.begin t (.login "ada" "secret" "secret" (pair t)), .start t]

def rehashes (t : ℕ) : List (AuthAct ℕ) :=
  statement t [.user ⟨1⟩] ++ statement t [accessRow t] ++ statement t [refreshRow t] ++ [.commit t]

/-- One login rehashes, the account is deactivated, and the next login reactivates it. -/
def inTurn : List (AuthAct ℕ) :=
  readsOutdated 0 ++ rehashes 0 ++ .begin 1 (.deactivateAccount ⟨1⟩) :: statement 1 [.user ⟨1⟩] ++
    [.commit 1] ++ readsOutdated 2 ++ rehashes 2

def atOnce : List (AuthAct ℕ) := readsOutdated 0 ++ readsOutdated 1 ++ rehashes 0

end Sample

open Credentials

instance (d : Db) (pc : Pc) : Decidable (pc.HashStands d) := by
  unfold Pc.HashStands
  split <;> infer_instance

instance (s : AuthSys ℕ) (a : AuthAct ℕ) : Decidable (HashStands s a) := by
  cases a <;> unfold HashStands <;> infer_instance

theorem login_never_refused_in_turn :
    ∃ s, run (transactions Sample.rehasher).step (AuthSys.init Sample.outdated) Sample.inTurn = some s ∧
      ∀ pre a post (m m' : AuthSys ℕ), Sample.inTurn = pre ++ a :: post →
        run (transactions Sample.rehasher).step (AuthSys.init Sample.outdated) pre = some m →
        (transactions Sample.rehasher).step m a = some m' → ¬ Sample.credentials.Refuses m m' := by
  obtain ⟨s, hs⟩ := Option.isSome_iff_exists.mp (show (run (transactions Sample.rehasher).step
    (AuthSys.init Sample.outdated) Sample.inTurn).isSome by decide)
  have hstored : Sample.credentials.Stored Sample.outdated :=
    ⟨⟨⟨1⟩, "ada", "xsecret", false, 0⟩, by decide, rfl, by decide⟩
  have hcalls : ∀ t call, .begin t call ∈ Sample.inTurn → Sample.credentials.Concurrent call := by
    intro t call hmem
    simp [Sample.inTurn, Sample.readsOutdated, Sample.rehashes, Sample.statement] at hmem
    rcases hmem with ⟨-, rfl⟩ | ⟨-, rfl⟩ | ⟨-, rfl⟩
    · exact ⟨rfl, rfl, by decide⟩
    · exact rfl
    · exact ⟨rfl, rfl, by decide⟩
  exact ⟨s, hs, (login_never_refused_iff Sample.credentials _ _ s hstored hcalls hs).mp (by decide)⟩

theorem login_refused_at_once :
    Sample.credentials.Stored Sample.outdated ∧
      (∀ t call, .begin t call ∈ Sample.atOnce → Sample.credentials.Concurrent call) ∧
      ∃ m m' : AuthSys ℕ,
        run (transactions Sample.rehasher).step (AuthSys.init Sample.outdated) Sample.atOnce = some m ∧
        (transactions Sample.rehasher).step m (.start 1) = some m' ∧
        Sample.credentials.Refuses m m' := by
  refine ⟨⟨⟨⟨1⟩, "ada", "xsecret", false, 0⟩, by decide, rfl, by decide⟩, ?_, ?_⟩
  · intro t call hmem
    simp [Sample.atOnce, Sample.readsOutdated, Sample.rehashes, Sample.statement] at hmem
    rcases hmem with ⟨-, rfl⟩ | ⟨-, rfl⟩ <;> exact ⟨rfl, rfl, by decide⟩
  · obtain ⟨m, hm, m', hm', hpc, hpc'⟩ :
        ∃ m ∈ run (transactions Sample.rehasher).step (AuthSys.init Sample.outdated) Sample.atOnce,
          ∃ m' ∈ (transactions Sample.rehasher).step m (.start 1),
            (m.txn 1).map (·.pc) = some (.updateUserPassword ⟨⟨1⟩, "ada", "xsecret", false, 0⟩ "secret"
              (Sample.pair 1)) ∧
            (m'.txn 1).map (·.pc) = some (.raised (.db (.notFound .user (UUID.str ⟨1⟩)))) := by decide
    obtain ⟨x, hx, hxpc⟩ := Option.map_eq_some_iff.mp hpc
    obtain ⟨x', hx', hxpc'⟩ := Option.map_eq_some_iff.mp hpc'
    refine ⟨m, m', hm, hm', 1, x, x', hx, ?_, hx', ?_⟩
    · rw [hxpc]
      trivial
    · rw [hxpc']
      exact refused_of_missing ..

end Messenger
