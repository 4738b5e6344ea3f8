import Messenger.Services.Transactions
import Messenger.Services.User

/-! The calls of `AuthService` and `UserService` in which nothing fails, cut where other calls can
come in: the transaction, which takes effect when it commits, and then one after another the local
evictions and the publications. -/

namespace Messenger
open Transactional AuthService UserService

inductive Effect where
  | evict (h : TokenHash)
  | publish (e : SystemEvent)
  deriving DecidableEq

def Effect.perform (w : AuthState) : Effect → AuthState
  | evict h => { w with cache := w.cache.evict h }
  | publish e => { w with stream := w.stream ++ [e] }

def SystemEvent.Names (h : TokenHash) (owner : UUID) : SystemEvent → Prop
  | tokenRevoked h' => h' = h
  | userInvalidated id => id = owner

inductive Operation where
  | register (env : AuthEnv) (username password : String)
  | login (env : AuthEnv) (username password : String)
  | refresh (env : AuthEnv) (rawRefreshToken : String)
  | logout (env : AuthEnv) (rawRefreshToken : String) (rawAccessToken : Option String)
  | deactivateAccount (id : UUID)
  | reactivateAccount (id : UUID)
  | deleteAccount (id : UUID)

def noFault : Await → Option Fault := fun _ => none

@[simp] theorem noFault_apply (p : Await) : noFault p = none := rfl

def committed {α : Type} (body : AuthTx α) (effects : α → List Effect) (d : Db) :
    Option (Db × List Effect) :=
  match body (raising noFault) d with
  | .ok (a, d') => some (d', effects a)
  | .error _ => none

def AuthEnv.newUser (env : AuthEnv) (username password : String) : User :=
  { userId := env.newUserId, username, passwordHash := env.hashPassword password,
    createdAt := env.now }

namespace Operation

def commit : Operation → Db → Option (Db × List Effect)
  | register env username password =>
    committed (registerTx env (env.newUser username password)) fun _ => []
  | login env username password =>
    committed (loginTx env username password) fun (user, cacheNeedsInvalidation) =>
      if cacheNeedsInvalidation then [.publish (.userInvalidated user.userId)] else []
  | refresh env raw =>
    committed (refreshTx env (env.hashToken raw)) fun (isReused, userId) =>
      if isReused then [.publish (.userInvalidated userId)]
      else [.publish (.tokenRevoked (env.hashToken raw))]
  | logout env raw access =>
    committed (logoutTx (env.hashToken raw) (logoutAccessHash env access)) fun _ =>
      match logoutAccessHash env access with
      | none => [.publish (.tokenRevoked (env.hashToken raw))]
      | some accessHash =>
        [.evict accessHash, .publish (.tokenRevoked (env.hashToken raw)),
          .publish (.tokenRevoked accessHash)]
  | deactivateAccount id => committed (deactivateAccountTx id) fun _ => []
  | reactivateAccount id => committed (reactivateAccountTx id) fun _ => []
  | deleteAccount id => committed (deleteAccountTx id) fun _ => []

def issues : Operation → Option TokenHash
  | register env _ _ => some (env.pair.hash .access)
  | login env _ _ => some (env.pair.hash .access)
  | refresh env _ => some (env.pair.hash .access)
  | _ => none

def run (w : AuthState) : Operation → AuthState
  | register env username password => (AuthService.register env username password (raising noFault) w).2
  | login env username password => (AuthService.login env username password (raising noFault) w).2
  | refresh env raw => (AuthService.refresh env raw (raising noFault) w).2
  | logout env raw access => (AuthService.logout env raw access (raising noFault) w).2
  | deactivateAccount id => (UserService.deactivateAccount id (raising noFault) w).2
  | reactivateAccount id => (UserService.reactivateAccount id (raising noFault) w).2
  | deleteAccount id => (UserService.deleteAccount id (raising noFault) w).2

end Operation

section

variable {α β : Type} {body : AuthTx α} {effects : α → List Effect} {d d' : Db} {es : List Effect}

theorem committed_eq_some :
    committed body effects d = some (d', es) ↔
      ∃ a, body (raising noFault) d = .ok (a, d') ∧ es = effects a := by
  unfold committed
  rcases body (raising noFault) d with e | ⟨a, d₁⟩
  · simp
  · simp only [Option.some.injEq, Prod.mk.injEq, Except.ok.injEq]
    constructor
    · rintro ⟨rfl, rfl⟩
      exact ⟨a, ⟨rfl, rfl⟩, rfl⟩
    · rintro ⟨_, ⟨rfl, rfl⟩, rfl⟩
      exact ⟨rfl, rfl⟩

theorem Operation.commit_deleteAccount {id : UUID} :
    (Operation.deleteAccount id).commit d = some (d', es) ↔ d.deleteUser id = .ok d' ∧ es = [] := by
  refine committed_eq_some.trans ⟨?_, ?_⟩
  · rintro ⟨_, htx, rfl⟩
    exact ⟨(deleteAccountTx_eq_ok.mp htx).2, rfl⟩
  · rintro ⟨hd, rfl⟩
    exact ⟨(), deleteAccountTx_eq_ok.mpr ⟨rfl, hd⟩, rfl⟩

def Writes {α : Type} (body : AuthTx α) : Prop :=
  ∀ f d a d', body (raising f) d = .ok (a, d') → ∃ ws, d' = Write.applyAll ws d

theorem AuthService.writes_registerTx {env : AuthEnv} {user : User} : Writes (registerTx env user) := by
  intro f d _ d' htx
  obtain ⟨-, -, -, -, -, hd⟩ := registerTx_eq_ok.mp htx
  exact ⟨_, hd⟩

theorem AuthService.writes_loginTx {env : AuthEnv} {username password : String} :
    Writes (loginTx env username password) := by
  intro f d ⟨_, _⟩ d' htx
  obtain ⟨-, -, hd⟩ := (loginTx_eq_ok (find?_of_loginTx htx)).mp htx
  exact ⟨_, hd⟩

theorem AuthService.writes_refreshTx {env : AuthEnv} {h : TokenHash} : Writes (refreshTx env h) := by
  intro f d ⟨_, _⟩ d' htx
  obtain ⟨-, token, -, -, -, hrest⟩ := refreshTx_eq_ok.mp htx
  split at hrest
  · rw [sweep, sweep, ← Write.applyAll_append] at hrest
    exact ⟨_, hrest.2⟩
  · exact ⟨_, hrest.2.2.2.2⟩

theorem AuthService.writes_logoutTx {h : TokenHash} {access : Option TokenHash} :
    Writes (logoutTx h access) :=
  fun _ _ _ _ htx => ⟨_, (logoutTx_eq_ok htx).2.2⟩

theorem UserService.writes_deactivateAccountTx {id : UUID} : Writes (deactivateAccountTx id) :=
  fun _ _ _ _ htx => ⟨[.setDeactivated id true], (query_deactivateUser.mp htx).2.2⟩

theorem UserService.writes_reactivateAccountTx {id : UUID} : Writes (reactivateAccountTx id) :=
  fun _ _ _ _ htx => ⟨[.setDeactivated id false], (query_reactivateUser.mp htx).2.2⟩

theorem Operation.commit_cases {op : Operation} (h : op.commit d = some (d', es)) :
    (∃ ws, d' = Write.applyAll ws d) ∨
      ∃ id, op = .deleteAccount id ∧ d.deleteUser id = .ok d' := by
  have hwrites {α : Type} {body : AuthTx α} {effects : α → List Effect} (hbody : Writes body)
      (hc : committed body effects d = some (d', es)) : ∃ ws, d' = Write.applyAll ws d :=
    let ⟨_, htx, _⟩ := committed_eq_some.mp hc
    hbody _ _ _ _ htx
  cases op with
  | register env username password => exact .inl (hwrites writes_registerTx h)
  | login env username password => exact .inl (hwrites writes_loginTx h)
  | refresh env raw => exact .inl (hwrites writes_refreshTx h)
  | logout env raw access => exact .inl (hwrites writes_logoutTx h)
  | deactivateAccount id => exact .inl (hwrites writes_deactivateAccountTx h)
  | reactivateAccount id => exact .inl (hwrites writes_reactivateAccountTx h)
  | deleteAccount id => exact .inr ⟨id, rfl, (Operation.commit_deleteAccount.mp h).1⟩

def performAll (w : AuthState) : Option (Db × List Effect) → AuthState
  | some (d, es) => es.foldl Effect.perform { w with db := d }
  | none => w

theorem transaction_bind_snd {k : α → AuthOp β}
    (hk : ∀ a w, (k a (raising noFault) w).2 = (effects a).foldl Effect.perform w) (w : AuthState) :
    ((transaction body >>= k) (raising noFault) w).2 = performAll w (committed body effects w.db) := by
  rcases transaction_answered body w (f := raising noFault) rfl with ⟨a, d, hbody, hrun⟩ | ⟨e, hrun, he⟩
  · have hcommit : committed body effects w.db = some (d, effects a) :=
      committed_eq_some.mpr ⟨a, hbody, rfl⟩
    rw [Op.bind_of_ok hrun, hk, hcommit]
    rfl
  · have hbody : body (raising noFault) w.db = .error e := by
      simpa [raising] using he
    have hcommit : committed body effects w.db = none := by
      simp only [committed, hbody]
    rw [Op.bind_of_error hrun, hcommit]
    rfl

theorem publishStreamEvent_snd (e : SystemEvent) (w : AuthState) :
    publishStreamEvent e (raising noFault) w = (.ok (), Effect.perform w (.publish e)) :=
  publishStreamEvent_of_none rfl

theorem account_snd (body : AuthTx Unit) (w : AuthState) :
    (account body (raising noFault) w).2 = performAll w (committed body (fun _ => []) w.db) := by
  rw [account, Op.handle_snd]
  rcases accountTransaction_cases body (raising noFault) w with ⟨d, -, hbody, -, hrun⟩ | ⟨e, hrun, he⟩
  · have hcommit : committed body (fun _ => []) w.db = some (d, []) :=
      committed_eq_some.mpr ⟨(), hbody, rfl⟩
    rw [hrun, hcommit]
    rfl
  · have hbody : body (raising noFault) w.db = .error e := by
      simpa [raising] using he
    have hcommit : committed body (fun _ => []) w.db = none := by
      simp only [committed, hbody]
    rw [hrun, hcommit]
    rfl

/-- A service call in which nothing fails and that nothing runs beside is its transaction followed
by its effects. -/
theorem Operation.run_eq (op : Operation) (w : AuthState) :
    op.run w = performAll w (op.commit w.db) := by
  cases op with
  | register env username password =>
    have hawait : (Op.await .hashPassword : AuthOp Unit) (raising noFault) w = (.ok (), w) :=
      Op.await_apply_of_none rfl
    simp only [run, AuthService.register, Op.handle_snd, Op.bind_of_ok hawait]
    exact transaction_bind_snd (fun _ _ => rfl) w
  | login env username password =>
    simp only [run, AuthService.login, Op.handle_snd]
    refine transaction_bind_snd (fun a w => ?_) w
    obtain ⟨user, b⟩ := a
    cases b with
    | true => exact congrArg Prod.snd (Op.bind_of_ok (publishStreamEvent_snd _ w))
    | false => rfl
  | refresh env raw =>
    simp only [run, AuthService.refresh, Op.handle_snd]
    refine transaction_bind_snd (fun a w => ?_) w
    obtain ⟨b, id⟩ := a
    cases b with
    | true => exact congrArg Prod.snd (Op.bind_of_ok (publishStreamEvent_snd _ w))
    | false => exact congrArg Prod.snd (Op.bind_of_ok (publishStreamEvent_snd _ w))
  | logout env raw access =>
    simp only [run, AuthService.logout, Op.handle_snd]
    refine transaction_bind_snd (fun _ w => ?_) w
    cases logoutAccessHash env access with
    | none => exact congrArg Prod.snd (publishStreamEvent_snd _ w)
    | some h =>
      have hfirst := publishStreamEvent_snd (.tokenRevoked (env.hashToken raw))
        { w with cache := w.cache.evict h }
      have hsecond := publishStreamEvent_snd (.tokenRevoked h) (Effect.perform
        { w with cache := w.cache.evict h } (.publish (.tokenRevoked (env.hashToken raw))))
      have hboth := Op.bind_of_ok (k := fun _ => publishStreamEvent (.tokenRevoked h)) hfirst
      exact congrArg Prod.snd (hboth.trans hsecond)
  | deactivateAccount id => exact account_snd _ w
  | reactivateAccount id => exact account_snd _ w
  | deleteAccount id => exact account_snd _ w

end

end Messenger
