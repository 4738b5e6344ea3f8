import Messenger.Services.Publications
import Messenger.Services.Statements

/-! What a transaction of the services has done by each of its statements. What it knows of the database
it knows of rows that it has locked, so that this is still so when it commits. -/

namespace Messenger
open ReadCommitted Publishing

/-! ### Statements on accounts and tokens -/

namespace Queries

variable {d : Db} {ks : List RowKey} {id : UUID} {k : TokenKind} {h : TokenHash}

theorem updateUser_ok {p : User → Bool} {set : UUID → Write} {a : Unit}
    (hp : ∀ u, p u = true → u.userId = id)
    (hr : (((updateUsers p set).map (requireRows .user id.str)).run ks d).1 = .ok a) :
    ((updateUsers p set).run ks d).2 = [set id] ∧ .user id ∈ ks ∧
      ∃ u, d.users.get? id = some u ∧ p u = true := by
  have hlength := requireRows_ok hr
  simp only [updateUsers, Table.keysWhere_of_key hp] at hlength ⊢
  split at hlength
  · next hany =>
    obtain ⟨u, hu, hpu⟩ := (Option.any_eq_true p _).mp hany
    have hk : .user id ∈ ks := by
      by_contra hnot
      simp [hnot] at hlength
    exact ⟨by simp [hany, hk], hk, u, hu, hpu⟩
  · cases hlength

theorem stored_of_revokeToken_ok {a : Unit} (hr : ((revokeToken k h).run ks d).1 = .ok a) :
    ((d.tokens k).get? h).isSome ∧ ((revokeToken k h).run ks d).2 = [.revokeToken k h] := by
  have hlength := requireRows_ok hr
  change 0 < ((revokeTokens k _).run ks d).1 at hlength
  change _ ∧ ((revokeTokens k _).run ks d).2 = _
  simp only [revokeTokens, Table.keysWhere_of_key fun _ ht => of_decide_eq_true ht] at hlength ⊢
  split at hlength
  · next hany =>
    obtain ⟨t, ht, -⟩ := (Option.any_eq_true _ _).mp hany
    have hk : .token k h ∈ ks := by
      by_contra hnot
      simp [hnot] at hlength
    exact ⟨Option.isSome_iff_exists.mpr ⟨t, ht⟩, by simp [hany, hk]⟩
  · cases hlength

theorem selectUser_ok {p : User → Bool} {identifier : String} {forUpdate : Bool} {u : User}
    (hr : ((selectUser p identifier forUpdate).run ks d).1 = .ok u) :
    p u = true ∧ ((selectUser p identifier forUpdate).run ks d).2 = [] := by
  simp only [selectUser] at hr ⊢
  split at hr
  · next u' hfind =>
    obtain rfl := Except.ok.inj hr
    have hfound := List.find?_some (p := fun u : User => p u && (!forUpdate || decide (.user u.userId ∈ ks)))
      hfind
    exact ⟨(Bool.and_eq_true_iff.mp hfound).1, rfl⟩
  · cases hr

end Queries

/-! ### Calls of `AuthService` -/

namespace AuthPc

def reactivation (user : User) : List Write :=
  if user.deactivated then [.setDeactivated user.userId false] else []

def rehash (pw : PasswordHasher) (user : User) (newHash : String) : List Write :=
  if pw.needsRehash user.passwordHash then [.changePassword user.userId newHash] else []

/-- The row that `login` has read: it is of the user and has the password. -/
def Read (p : AuthPc) (pw : PasswordHasher) (user : User) (newHash : String) : Prop :=
  ∃ password pair, p.call = .login user.username password newHash pair ∧
    pw.verify password user.passwordHash = true

def Revokes (k : TokenKind) (h : TokenHash) (ws : List Write) (held : Set ServiceKey) (d : Db) : Prop :=
  .revokeToken k h ∈ ws ∧ .auth (.token k h) ∈ held ∧ ((d.tokens k).get? h).isSome

/-- The presented token of `u` is a revoked one, and those that have been swept are being revoked. -/
def Reuses (p : AuthPc) (h : TokenHash) (u : UUID) (ws : List Write) (held : Set ServiceKey) (d : Db) :
    Prop :=
  (∃ pair now, p.call = .refresh h pair now) ∧ .auth (.token .refresh h) ∈ held ∧
    d.Revoked .refresh h ∧ d.OwnedBy .refresh h u ∧
      ∀ k h', .token k h' ∈ p.swept → .auth (.token k h') ∈ held ∧
        (d.OwnedBy k h' u → .revokeToken k h' ∈ ws)

def Wrote (pw : PasswordHasher) (user : User) (held : Set ServiceKey) (d : Db) : Prop :=
  .auth (.user user.userId) ∈ held ∧ ∃ row, d.users.get? user.userId = some row ∧
    (pw.needsRehash user.passwordHash = true → row.passwordHash = user.passwordHash)

def LogsIn (pw : PasswordHasher) (p : AuthPc) (u : UUID) (ws : List Write) (held : Set ServiceKey)
    (d : Db) : Prop :=
  ∃ user newHash tokens, u = user.userId ∧ p.Read pw user newHash ∧
    ws = reactivation user ++ rehash pw user newHash ++ tokens ∧
    (∀ w ∈ tokens, ∃ k t, w = .insertToken k t) ∧
    p.cacheNeedsInvalidation = (user.deactivated || pw.needsRehash user.passwordHash) ∧
    (p.cacheNeedsInvalidation = true → Wrote pw user held d)

def Stands (pw : PasswordHasher) (p : AuthPc) (ws : List Write) (held : Set ServiceKey) (d : Db) : Prop :=
  match p.pc with
  | .getUserByUsername name password newHash pair =>
    ws = [] ∧ p.cacheNeedsInvalidation = false ∧ p.call = .login name password newHash pair
  | .reactivateUser user newHash _ =>
    ws = [] ∧ p.cacheNeedsInvalidation = false ∧ p.Read pw user newHash ∧ user.deactivated = true
  | .updateUserPassword user newHash _ =>
    ws = reactivation user ∧ p.cacheNeedsInvalidation = user.deactivated ∧ p.Read pw user newHash ∧
      pw.needsRehash user.passwordHash = true
  | .createToken _ .login u _ | .issued .login u _ => p.LogsIn pw u ws held d
  | .getRefreshToken h pair now => ws = [] ∧ p.swept = [] ∧ p.call = .refresh h pair now
  | .revokeAll _ h u | .reused h u => p.Reuses h u ws held d
  | .revokePresented _ _ _ => ws = []
  | .createToken _ (.rotation h) _ _ | .issued (.rotation h) _ _ => Revokes .refresh h ws held d
  | .logoutRefresh r a => ws = [] ∧ p.call = .logout r a
  | .logoutAccess a =>
    ∃ r, p.call = .logout r (some a) ∧ ws = [.revokeToken .refresh r] ∧ Revokes .refresh r ws held d
  | .loggedOut =>
    ∃ r a, p.call = .logout r a ∧ Revokes .refresh r ws held d ∧
      ∀ h, a = some h → Revokes .access h ws held d
  | _ => True

section

variable {pw : PasswordHasher} {p : AuthPc} {ws ws' : List Write} {held held' : Set ServiceKey} {d d' : Db}
  {k : TokenKind} {h : TokenHash} {u : UUID} {user : User} {newHash : String}

theorem Revokes.frame (hr : Revokes k h ws held d)
    (hrow : ∀ key ∈ held, key ∈ held' ∧ key.row d = key.row d') : Revokes k h ws held' d' := by
  obtain ⟨hw, hk, hstored⟩ := hr
  have hsame : (d.tokens k).get? h = (d'.tokens k).get? h := (hrow _ hk).2
  exact ⟨hw, (hrow _ hk).1, hsame ▸ hstored⟩

theorem Revokes.mono (hr : Revokes k h ws held d) : Revokes k h (ws ++ ws') held d :=
  ⟨List.mem_append_left _ hr.1, hr.2⟩

theorem Reuses.frame (hr : p.Reuses h u ws held d)
    (hrow : ∀ key ∈ held, key ∈ held' ∧ key.row d = key.row d') : p.Reuses h u ws held' d' := by
  obtain ⟨hcall, hk, ⟨t, ht, hrevoked⟩, ⟨t', ht', howner⟩, hswept⟩ := hr
  have hsame {k : TokenKind} {h : TokenHash} (hk : .auth (.token k h) ∈ held) :
      (d.tokens k).get? h = (d'.tokens k).get? h := (hrow (.auth (.token k h)) hk).2
  refine ⟨hcall, (hrow _ hk).1, ⟨t, hsame hk ▸ ht, hrevoked⟩, ⟨t', hsame hk ▸ ht', howner⟩,
    fun k h' hmem => ?_⟩
  obtain ⟨hk', hrevokes⟩ := hswept k h' hmem
  refine ⟨(hrow _ hk').1, fun ⟨t, ht, howner⟩ => hrevokes ⟨t, ?_, howner⟩⟩
  rw [hsame hk', ht]

theorem Wrote.frame (hw : Wrote pw user held d)
    (hrow : ∀ key ∈ held, key ∈ held' ∧ key.row d = key.row d') : Wrote pw user held' d' := by
  obtain ⟨hk, row, hstored, hpassword⟩ := hw
  have hsame : d.users.get? user.userId = d'.users.get? user.userId := (hrow _ hk).2
  exact ⟨(hrow _ hk).1, row, hsame ▸ hstored, hpassword⟩

theorem LogsIn.frame (hp : p.LogsIn pw u ws held d)
    (hrow : ∀ key ∈ held, key ∈ held' ∧ key.row d = key.row d') : p.LogsIn pw u ws held' d' := by
  obtain ⟨user, newHash, tokens, hu, hread, hws, htokens, hflag, hwrote⟩ := hp
  exact ⟨user, newHash, tokens, hu, hread, hws, htokens, hflag, fun h => (hwrote h).frame hrow⟩

theorem LogsIn.insertToken {p' : AuthPc} {t : Token} (hp : p.LogsIn pw u ws held d)
    (hcall : p'.call = p.call) (hflag : p'.cacheNeedsInvalidation = p.cacheNeedsInvalidation) :
    p'.LogsIn pw u (ws ++ [.insertToken k t]) held d := by
  obtain ⟨user, newHash, tokens, hu, ⟨password, pair, hread⟩, rfl, htokens, hchanged, hwrote⟩ := hp
  refine ⟨user, newHash, tokens ++ [.insertToken k t], hu, ⟨password, pair, hcall ▸ hread⟩,
    List.append_assoc .., fun w hw => ?_, hflag.trans hchanged, hflag ▸ hwrote⟩
  rcases List.mem_append.mp hw with hw | hw
  · exact htokens w hw
  · exact ⟨k, t, List.mem_singleton.mp hw⟩

theorem Stands.frame (hp : p.Stands pw ws held d)
    (hrow : ∀ key ∈ held, key ∈ held' ∧ key.row d = key.row d') : p.Stands pw ws held' d' := by
  obtain ⟨call, pc, flag, swept⟩ := p
  cases pc with
  | getUserByUsername | reactivateUser | updateUserPassword | getRefreshToken | revokePresented
    | logoutRefresh => exact hp
  | createToken kind origin u pair =>
    cases origin with
    | register => trivial
    | login => exact LogsIn.frame hp hrow
    | rotation h => exact Revokes.frame hp hrow
  | issued origin u pair =>
    cases origin with
    | register => trivial
    | login => exact LogsIn.frame hp hrow
    | rotation h => exact Revokes.frame hp hrow
  | revokeAll kind h u => exact Reuses.frame hp hrow
  | reused h u => exact Reuses.frame hp hrow
  | logoutAccess a =>
    obtain ⟨r, hcall, hws, hrevokes⟩ := hp
    exact ⟨r, hcall, hws, hrevokes.frame hrow⟩
  | loggedOut =>
    obtain ⟨r, a, hcall, hrefresh, haccess⟩ := hp
    exact ⟨r, a, hcall, hrefresh.frame hrow, fun h ha => (haccess h ha).frame hrow⟩
  | createUser | setDeactivated | accountSet | raised => trivial

/-! A statement that raises leads to a rollback, so that only its answers matter. -/

def after (p : AuthPc) (pc : Pc) (ks : List RowKey) : AuthPc :=
  { p with
    pc := pc
    cacheNeedsInvalidation := p.cacheNeedsInvalidation || p.pc.changesUser
    swept := if p.pc.sweeps then p.swept ++ ks else p.swept }

theorem stands_andThen {α : Type} {Q : Query α} {next : α → Pc} {q : Stmt Db RowKey Write Pc}
    {ks : List RowKey} {v : Db} (hq : Pc.andThen Q next = .exec q)
    (h : ∀ a, (Q.run ks v).1 = .ok a →
      (p.after (next a) ks).Stands pw (ws ++ (Q.run ks v).2) held d) :
    (p.after (q.run ks v).1 ks).Stands pw (ws ++ (q.run ks v).2) held d := by
  cases hq
  simp only [Stmt.map]
  cases ha : (Q.run ks v).1 with
  | ok a => exact h a ha
  | error e => trivial

theorem stands_afterReactivate {call : Call} {flag : Bool} {swept : List RowKey} {pair : HashedPair}
    (hread : Read ⟨call, .accountSet, flag, swept⟩ pw user newHash) (hws : ws = reactivation user)
    (hflag : flag = user.deactivated) (hwrote : user.deactivated = true →
      .auth (.user user.userId) ∈ held ∧ (d.users.get? user.userId).isSome) :
    Stands pw ⟨call, Pc.afterReactivate pw user newHash pair, flag, swept⟩ ws held d := by
  unfold Pc.afterReactivate
  split
  · next hrehash => exact ⟨hws, hflag, hread, hrehash⟩
  · next hrehash =>
    rw [Bool.not_eq_true] at hrehash
    refine ⟨user, newHash, [], rfl, hread, ?_, by simp, ?_, fun hchanged => ?_⟩
    · simp [hws, rehash, hrehash]
    · simp [hflag, hrehash]
    · obtain ⟨hk, hstored⟩ := hwrote (hflag ▸ hchanged)
      obtain ⟨row, hrow⟩ := Option.isSome_iff_exists.mp hstored
      exact ⟨hk, row, hrow, fun hneeds => by rw [hrehash] at hneeds; cases hneeds⟩

theorem stands_afterGetUser {call : Call} {swept : List RowKey} {password : String} {pair : HashedPair}
    (hcall : call = .login user.username password newHash pair) :
    Stands pw ⟨call, Pc.afterGetUser pw password newHash pair user, false, swept⟩ [] held d := by
  unfold Pc.afterGetUser
  split
  · trivial
  · next hverified =>
    have hread : Read ⟨call, .accountSet, false, swept⟩ pw user newHash :=
      ⟨password, pair, hcall, by simpa using hverified⟩
    split
    · next hdeactivated => exact ⟨rfl, rfl, hread, hdeactivated⟩
    · next hactive =>
      refine stands_afterReactivate hread ?_ (by simpa using hactive) fun h => absurd h hactive
      rw [reactivation, if_neg hactive]

theorem Revokes.of_ok {ks : List RowKey} {a : Unit} (hlocked : ∀ key ∈ ks, .auth key ∈ held)
    (hr : ((Queries.revokeToken k h).run ks (Write.applyAll ws d)).1 = .ok a)
    (hold : ((Write.applyAll ws d).tokens k).get? h = (d.tokens k).get? h) :
    Revokes k h (ws ++ ((Queries.revokeToken k h).run ks (Write.applyAll ws d)).2) held d := by
  obtain ⟨hk, hw⟩ := Queries.revokeToken_ok hr
  exact ⟨List.mem_append_right _ hw, hlocked _ hk, hold ▸ (Queries.stored_of_revokeToken_ok hr).1⟩

theorem Reuses.sweep {ks : List RowKey} {kind : TokenKind} (hlocked : ∀ key ∈ ks, .auth key ∈ held)
    (hkind : ∀ key ∈ ks, ∃ h, key = .token kind h) (hp : p.Reuses h u ws held d)
    (hsweeps : p.pc.sweeps = true) (pc : Pc) :
    (p.after pc ks).Reuses h u
      (ws ++ ((Queries.revokeAllUserTokens kind u).run ks (Write.applyAll ws d)).2) held d := by
  obtain ⟨hcall, hk, hrevoked, howned, hswept⟩ := hp
  refine ⟨hcall, hk, hrevoked, howned, fun k h' hmem => ?_⟩
  simp only [after, hsweeps, if_true, List.mem_append] at hmem
  rcases hmem with hold | hnew
  · exact ⟨(hswept k h' hold).1, fun ho => List.mem_append_left _ ((hswept k h' hold).2 ho)⟩
  · obtain ⟨_, heq⟩ := hkind _ hnew
    obtain ⟨rfl, -⟩ := RowKey.token.inj heq
    -- a token does not change hands, so the row is the user's still
    exact ⟨hlocked _ hnew, fun ho => List.mem_append_right _
      (Queries.mem_revokeAllUserTokens (Write.ownedBy_applyAll ws ho) hnew)⟩

theorem stands_revokeAll {call : Call} {flag : Bool} {swept : List RowKey} {kind : TokenKind}
    {q : Stmt Db RowKey Write Pc} {d₀ : Db} {next : Pc}
    (hq : Pc.andThen (Queries.revokeAllUserTokens kind u) (fun _ => next) = .exec q)
    (hlocked : ∀ key ∈ q.rows d₀, .auth key ∈ held)
    (hp : Reuses ⟨call, .revokeAll kind h u, flag, swept⟩ h u ws held d)
    (hnext : ∀ p : AuthPc, p.pc = next → p.Reuses h u ws' held d → p.Stands pw ws' held d)
    (hws : ws' = ws ++ (q.run (q.rows d₀) (Write.applyAll ws d)).2) :
    (after ⟨call, .revokeAll kind h u, flag, swept⟩ (q.run (q.rows d₀) (Write.applyAll ws d)).1
      (q.rows d₀)).Stands pw ws' held d := by
  cases hq
  refine hnext _ rfl ?_
  rw [hws]
  refine hp.sweep hlocked (fun key hkey => ?_) rfl next
  obtain ⟨h', rfl, -⟩ := Queries.owned_of_mem_rows_revokeAllUserTokens hkey
  exact ⟨h', rfl⟩

theorem get?_of_reactivation {u : User}
    (hu : (Write.applyAll (reactivation user) d).users.get? user.userId = some u) :
    ∃ row, d.users.get? user.userId = some row ∧ row.passwordHash = u.passwordHash := by
  unfold reactivation at hu
  split at hu
  · have hview : ((Write.setDeactivated user.userId false).apply d).users.get? user.userId = some u := hu
    rw [Write.get?_setDeactivated] at hview
    obtain ⟨row, hrow, rfl⟩ := Option.map_eq_some_iff.mp hview
    exact ⟨row, hrow, by split <;> rfl⟩
  · exact ⟨u, hu, rfl⟩

theorem Stands.settle {q : Stmt Db RowKey Write Pc} {d₀ : Db} (hq : p.pc.cmd pw = .exec q)
    (hlocked : ∀ key ∈ q.rows d₀, .auth key ∈ held) (hp : p.Stands pw ws held d) :
    (p.after (q.run (q.rows d₀) (Write.applyAll ws d)).1 (q.rows d₀)).Stands pw
      (ws ++ (q.run (q.rows d₀) (Write.applyAll ws d)).2) held d := by
  obtain ⟨call, pc, flag, swept⟩ := p
  cases pc with
  | createUser u pair => exact stands_andThen hq fun _ _ => trivial
  | getUserByUsername name password newHash pair =>
    obtain ⟨rfl, hflag, hcall⟩ := hp
    refine stands_andThen hq fun user hok => ?_
    obtain ⟨hname, hws⟩ := Queries.selectUser_ok hok
    obtain rfl := of_decide_eq_true hname
    obtain rfl : flag = false := hflag
    rw [Queries.getUserByUsername, hws]
    exact stands_afterGetUser hcall
  | reactivateUser user newHash pair =>
    obtain ⟨rfl, hflag, hread, hdeactivated⟩ := hp
    obtain rfl : flag = false := hflag
    refine stands_andThen hq fun _ hok => ?_
    obtain ⟨hws, hk, u, hu, -⟩ := Queries.updateUser_ok (fun _ h => of_decide_eq_true h) hok
    refine stands_afterReactivate hread ?_ hdeactivated.symm
      fun _ => ⟨hlocked _ hk, Option.isSome_iff_exists.mpr ⟨u, hu⟩⟩
    rw [reactivation, if_pos hdeactivated]
    exact hws
  | updateUserPassword user newHash pair =>
    obtain ⟨rfl, hflag, hread, hneeds⟩ := hp
    refine stands_andThen hq fun _ hok => ?_
    obtain ⟨hws, hk, u, hu, hmatches⟩ := Queries.updateUser_ok
      (fun _ h => of_decide_eq_true (Bool.and_eq_true_iff.mp (Bool.and_eq_true_iff.mp h).1).1) hok
    obtain ⟨⟨-, hpassword⟩, -⟩ : (u.userId = user.userId ∧ u.passwordHash = user.passwordHash) ∧ _ := by
      simpa only [Bool.and_eq_true, decide_eq_true_eq] using hmatches
    refine ⟨user, newHash, [], rfl, hread, ?_, by simp, ?_, fun _ => ⟨hlocked _ hk, ?_⟩⟩
    · rw [rehash, if_pos hneeds, List.append_nil]
      exact congrArg (reactivation user ++ ·) hws
    · simp [after, hneeds, Pc.changesUser]
    · -- the reactivation has left the password as it was
      obtain ⟨row, hrow, hsame⟩ := get?_of_reactivation hu
      exact ⟨row, hrow, fun _ => hsame.trans hpassword⟩
  | getRefreshToken h pair now =>
    obtain ⟨rfl, rfl, hcall⟩ := hp
    refine stands_andThen hq fun token hok => ?_
    obtain ⟨htoken, hk, hws⟩ := Queries.getToken_ok hok
    rw [Queries.getRefreshToken, hws, Pc.afterGetRefreshToken]
    split
    · next hrevoked =>
      refine ⟨⟨pair, now, hcall⟩, hlocked _ hk, ⟨token, htoken, hrevoked⟩, ⟨token, htoken, rfl⟩, ?_⟩
      simp [after, Pc.sweeps]
    · split
      · trivial
      · rfl
  | revokeAll kind h u =>
    cases kind with
    | access => exact stands_revokeAll hq hlocked hp (fun p hpc hp => by rw [Stands, hpc]; exact hp) rfl
    | refresh => exact stands_revokeAll hq hlocked hp (fun p hpc hp => by rw [Stands, hpc]; exact hp) rfl
  | revokePresented h u pair =>
    obtain rfl : ws = [] := hp
    exact stands_andThen hq fun _ hok => Revokes.of_ok hlocked hok rfl
  | createToken kind origin u pair =>
    cases origin with
    | register => cases kind <;> exact stands_andThen hq fun _ _ => trivial
    | login =>
      cases kind with
      | access =>
        refine stands_andThen hq fun _ hok => ?_
        rw [Queries.createAccessToken, (Queries.createToken_ok hok).2]
        exact LogsIn.insertToken hp rfl (Bool.or_false _)
      | refresh =>
        refine stands_andThen hq fun _ hok => ?_
        rw [Queries.createRefreshToken, (Queries.createToken_ok hok).2]
        exact LogsIn.insertToken hp rfl (Bool.or_false _)
    | rotation h =>
      cases kind <;> exact stands_andThen hq fun _ _ => Revokes.mono hp
  | logoutRefresh r a =>
    obtain ⟨rfl, hcall⟩ := hp
    refine stands_andThen hq fun _ hok => ?_
    have hrevokes := Revokes.of_ok hlocked hok rfl
    cases a with
    | none => exact ⟨r, none, hcall, hrevokes, fun _ ha => by cases ha⟩
    | some a => exact ⟨r, hcall, (Queries.stored_of_revokeToken_ok hok).2, hrevokes⟩
  | logoutAccess a =>
    obtain ⟨r, hcall, rfl, hrefresh⟩ := hp
    refine stands_andThen hq fun _ hok => ⟨r, some a, hcall, hrefresh.mono, fun h ha => ?_⟩
    obtain rfl := Option.some.inj ha
    exact Revokes.of_ok hlocked hok rfl
  | setDeactivated id value => cases value <;> exact stands_andThen hq fun _ _ => trivial
  | issued | reused | loggedOut | accountSet | raised => cases hq

end

end AuthPc

/-! ### Calls of all services -/

namespace ServicePc

def Deletes (g : UUID) (ws : List ServiceWrite) (held : Set ServiceKey) (d : Db) : Prop :=
  .group g ∈ held ∧ (d.groups.get? g).isSome ∧ .deleteGroup g ∈ ws ∧ ∀ row, .insertGroup row ∉ ws

def Stands (pw : PasswordHasher) (pc : ServicePc) (ws : List ServiceWrite) (held : Set ServiceKey)
    (d : Db) : Prop :=
  match pc with
  | auth p => ∃ authWrites, ws = authWrites.map .auth ∧ p.Stands pw authWrites held d
  | addCreator group => ws = [.insertGroup group]
  | cascadeMemberships g _ | cascadeGroupMessages g _ => Deletes g ws held d
  | spawnTask (.pushGroupMembershipChange u g .join) =>
    .membership (g, u) ∈ held ∧ ¬ d.Member g u ∧ ∃ m : Membership, m.pk = (g, u) ∧
      (ws = [.insertMembership m] ∨ ∃ row, ws = [.insertGroup row, .insertMembership m])
  | spawnTask (.pushGroupMembershipChange u g .leave) =>
    .membership (g, u) ∈ held ∧ d.Member g u ∧ ws = [.deleteMembership (g, u)]
  | spawnTask (.handleGroupDeletionSideEffects g _) => Deletes g ws held d
  | spawnPush (.toUser u e) =>
    .directMessage e.messageId ∈ held ∧ d.directMessages.get? e.messageId = none ∧
      ∃ m : DirectMessage, m.recipientId = u ∧ e = .fromModel m ∧ ws = [.insertDirectMessage m]
  | spawnPush (.toGroup g e sender) =>
    .groupMessage e.messageId ∈ held ∧ d.groupMessages.get? e.messageId = none ∧
      ∃ m : GroupMessage, m.groupId = g ∧ m.senderId = sender ∧ e = .fromModel m ∧
        ws = [.insertGroupMessage m]
  | raised _ => True
  | _ => ws = []

variable {pw : PasswordHasher} {pc next : ServicePc} {ws : List ServiceWrite} {held held' : Set ServiceKey}
  {d d' v : Db} {ks : List ServiceKey} {w : ServiceWrite} {g u : UUID}

theorem Deletes.frame (h : Deletes g ws held d) (hrow : ∀ key ∈ held, key ∈ held' ∧ key.row d = key.row d') :
    Deletes g ws held' d' := by
  obtain ⟨hk, hstored, hws⟩ := h
  have hsame : d.groups.get? g = d'.groups.get? g := (hrow _ hk).2
  exact ⟨(hrow _ hk).1, hsame ▸ hstored, hws⟩

theorem Stands.frame (h : pc.Stands pw ws held d)
    (hrow : ∀ key ∈ held, key ∈ held' ∧ key.row d = key.row d') : pc.Stands pw ws held' d' := by
  cases pc with
  | auth p =>
    obtain ⟨authWrites, hws, hp⟩ := h
    exact ⟨authWrites, hws, hp.frame hrow⟩
  | cascadeMemberships | cascadeGroupMessages => exact Deletes.frame h hrow
  | spawnTask task =>
    cases task with
    | pushGroupMembershipChange u g action =>
      have hsame (hk : .membership (g, u) ∈ held) :
          d.memberships.get? (g, u) = d'.memberships.get? (g, u) := (hrow (.membership (g, u)) hk).2
      cases action with
      | join =>
        obtain ⟨hk, hmember, hm⟩ := h
        exact ⟨(hrow _ hk).1, by rwa [Db.Member, ← hsame hk], hm⟩
      | leave =>
        obtain ⟨hk, hmember, hws⟩ := h
        exact ⟨(hrow _ hk).1, by rwa [Db.Member, ← hsame hk], hws⟩
    | handleGroupDeletionSideEffects g members => exact Deletes.frame h hrow
  | spawnPush push =>
    cases push with
    | toUser u e =>
      obtain ⟨hk, hnone, hm⟩ := h
      have hsame : d.directMessages.get? e.messageId = d'.directMessages.get? e.messageId := (hrow _ hk).2
      exact ⟨(hrow _ hk).1, hsame ▸ hnone, hm⟩
    | toGroup g e sender =>
      obtain ⟨hk, hnone, hm⟩ := h
      have hsame : d.groupMessages.get? e.messageId = d'.groupMessages.get? e.messageId := (hrow _ hk).2
      exact ⟨(hrow _ hk).1, hsame ▸ hnone, hm⟩
  | raised => trivial
  | _ => exact h

theorem stands_select {α : Type} {q : Db → Except Error α} {next : α → ServicePc}
    (h : ∀ a, q v = .ok a → (next a).Stands pw [] held d) :
    ((select q next).run ks v).1.Stands pw ([] ++ ((select q next).run ks v).2) held d := by
  simp only [select]
  split
  · next a hok => exact h a hok
  · trivial

theorem stands_insert {α : Type} {q : Db → Except Error α}
    (h : ∀ a, q v = .ok a → next.Stands pw (ws ++ [w]) held d) :
    ((insert q w next).run ks v).1.Stands pw (ws ++ ((insert q w next).run ks v).2) held d := by
  simp only [insert]
  split
  · next a hok => exact h a hok
  · trivial

theorem stands_delete {found : Db → Bool} {missing : Error}
    (h : found v = true → w.target ∈ ks → next.Stands pw (ws ++ [w]) held d) :
    ((delete found missing w next).run ks v).1.Stands pw
      (ws ++ ((delete found missing w next).run ks v).2) held d := by
  simp only [delete]
  split
  · next hfound =>
    obtain ⟨hfound, hk⟩ := Bool.and_eq_true_iff.mp hfound
    exact h hfound (of_decide_eq_true hk)
  · trivial

theorem Deletes.cascade {f : Db → List ServiceWrite} (h : Deletes g ws held d)
    (hf : ∀ v row, .insertGroup row ∉ f v) (hnext : ∀ ws, Deletes g ws held d → next.Stands pw ws held d) :
    ((ServicePc.cascade f next).run ks v).1.Stands pw (ws ++ ((ServicePc.cascade f next).run ks v).2)
      held d := by
  obtain ⟨hk, hstored, hdelete, hinsert⟩ := h
  refine hnext _ ⟨hk, hstored, List.mem_append_left _ hdelete, fun row hmem => ?_⟩
  rcases List.mem_append.mp hmem with hmem | hmem
  · exact hinsert row hmem
  · exact hf v row (List.mem_filter.mp hmem).1

end ServicePc

theorem ServiceWrite.applyAll_auth (pw : PasswordHasher) (ws : List Write) (d : Db) :
    (publications pw).applyAll (ws.map .auth) d = Write.applyAll ws d := by
  induction ws generalizing d with
  | nil => rfl
  | cons w ws ih => exact ih (w.apply d)

namespace ServicePc

variable {pw : PasswordHasher}

theorem stands_entry (c : ServiceTransaction) (held : Set ServiceKey) (d : Db) :
    (entry c).Stands pw [] held d := by
  cases c with
  | auth c =>
    refine ⟨[], rfl, ?_⟩
    cases c with
    | login | refresh => exact ⟨rfl, rfl, rfl⟩
    | logout => exact ⟨rfl, rfl⟩
    | register | deactivateAccount | reactivateAccount => trivial
  | group op => cases op <;> rfl
  | message op => cases op <;> rfl

theorem mapError_eq_ok {α ε ε' : Type} {f : ε → ε'} {r : Except ε α} {a : α}
    (h : r.mapError f = .ok a) : r = .ok a := by
  cases r with
  | ok b =>
    obtain rfl := Except.ok.inj h
    rfl
  | error e => cases h

theorem stands_insertMembership {m : Membership} {ws : List ServiceWrite} {held : Set ServiceKey}
    {d v : Db} {ks : List ServiceKey} (hk : .membership m.pk ∈ held)
    (hws : ws = [] ∨ ∃ row, ws = [.insertGroup row]) (hv : v.memberships = d.memberships) :
    ((insertMembership m).run ks v).1.Stands pw (ws ++ ((insertMembership m).run ks v).2) held d := by
  refine stands_insert fun d₁ hadd => ⟨hk, ?_, m, rfl, ?_⟩
  · have hnot := GroupOperation.not_member_of_addGroupMember hadd
    rwa [Db.Member, hv] at hnot
  · rcases hws with rfl | ⟨row, rfl⟩
    · exact .inl rfl
    · exact .inr ⟨row, rfl⟩

theorem stands_settle {pc : ServicePc} {q : ServiceStmt} {ws : List ServiceWrite} {held : Set ServiceKey}
    {d₀ d : Db} (hq : pc.cmd pw = .exec q) (hlocked : ∀ k ∈ q.rows d₀, k ∈ held)
    (h : pc.Stands pw ws held d) :
    (q.run (q.rows d₀) ((publications pw).applyAll ws d)).1.Stands pw
      (ws ++ (q.run (q.rows d₀) ((publications pw).applyAll ws d)).2) held d := by
  cases pc with
  | auth p =>
    obtain ⟨q', hq', rfl⟩ := cmd_auth_eq_exec hq
    obtain ⟨authWrites, rfl, hp⟩ := h
    rw [ServiceWrite.applyAll_auth]
    simp only [AuthPc.stmt, filterMap_auth] at hlocked ⊢
    exact ⟨_, (List.map_append ..).symm, hp.settle hq' fun key hkey => hlocked _ (List.mem_map_of_mem hkey)⟩
  | createGroup group =>
    obtain rfl : ws = [] := h
    cases hq
    exact stands_insert fun _ _ => rfl
  | addCreator group =>
    obtain rfl : ws = [.insertGroup group] := h
    cases hq
    exact stands_insertMembership (hlocked _ (List.mem_singleton_self _)) (.inr ⟨group, rfl⟩) rfl
  | addMember actor m =>
    obtain rfl : ws = [] := h
    cases hq
    refine stands_select fun row _ => ?_
    split
    · trivial
    · rfl
  | addGroupMember m =>
    obtain rfl : ws = [] := h
    cases hq
    exact stands_insertMembership (hlocked _ (List.mem_singleton_self _)) (.inl rfl) rfl
  | removeMember actor g target =>
    obtain rfl : ws = [] := h
    cases hq
    refine stands_select fun row _ => ?_
    split
    · trivial
    · split
      · trivial
      · rfl
  | removeGroupMember g target =>
    obtain rfl : ws = [] := h
    cases hq
    exact stands_delete fun hfound hk => ⟨hlocked _ hk, hfound, rfl⟩
  | deleteGroup actor g =>
    obtain rfl : ws = [] := h
    cases hq
    refine stands_select fun row _ => ?_
    split
    · trivial
    · rfl
  | listGroupMemberships actor g =>
    obtain rfl : ws = [] := h
    cases hq
    exact stands_select fun _ _ => rfl
  | deleteGroupRow actor g members =>
    obtain rfl : ws = [] := h
    cases hq
    refine stands_delete fun hfound hk => ⟨hlocked _ hk, ?_, List.mem_singleton_self _, by simp⟩
    exact Option.isSome_of_isSome_filter _ _ hfound
  | cascadeMemberships g members =>
    cases hq
    exact Deletes.cascade h (by simp [membershipCascade]) fun _ => id
  | cascadeGroupMessages g members =>
    cases hq
    exact Deletes.cascade h (by simp [groupMessageCascade]) fun _ => id
  | getFriendshipStatus limitOne m =>
    obtain rfl : ws = [] := h
    cases hq
    refine stands_select fun friendship _ => ?_
    split
    · trivial
    · rfl
  | sendDirectMessage m =>
    obtain rfl : ws = [] := h
    cases hq
    refine stands_insert fun _ hsend => ?_
    obtain ⟨-, hfresh, -⟩ := MessageQueries.sendDirectMessage_eq_ok (mapError_eq_ok hsend)
    exact ⟨hlocked _ (List.mem_singleton_self _), hfresh, m, rfl, rfl, rfl⟩
  | getMembership m =>
    obtain rfl : ws = [] := h
    cases hq
    exact stands_select fun _ _ => rfl
  | sendGroupMessage m =>
    obtain rfl : ws = [] := h
    cases hq
    refine stands_insert fun _ hsend => ?_
    obtain ⟨-, hfresh, -⟩ := MessageQueries.sendGroupMessage_eq_ok (mapError_eq_ok hsend)
    exact ⟨hlocked _ (List.mem_singleton_self _), hfresh, m, rfl, rfl, rfl, rfl⟩
  | spawnTask | spawnPush | raised => cases hq

theorem stable (pw : PasswordHasher) : Stable (publications pw) (Stands pw) where
  entry := stands_entry
  settle _ _ _ _ _ _ hq hlocked h := stands_settle hq hlocked h
  frame _ _ _ _ _ _ h hrow := h.frame hrow

end ServicePc

end Messenger
