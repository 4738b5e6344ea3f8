import Messenger.Services.Messaging
import Messenger.Session.Operations

/-! What the calls of `AuthService`, `UserService` and `MessagingService` commit when any `await` may
fail, and what they publish or spawn once they have committed it. -/

namespace Messenger
open Transactional

/-! ### The calls on accounts and sessions -/

def AuthState.Publishes (w w' : AuthState) (es : List SystemEvent) : Prop :=
  w'.db = w.db ∧ ∃ sent, sent <+: es ∧ w'.stream = w.stream ++ sent

namespace Operation
open AuthService UserService

def transact (op : Operation) (f : Await → Option Fault) (d : Db) : Option (Db × List SystemEvent) :=
  match op with
  | register env username password =>
    -- the hash is computed before the transaction begins
    if (f .hashPassword).isSome then none
    else Op.committed .begin .commit (registerTx env (env.newUser username password)) (fun _ => [])
      (raising f) d
  | login env username password =>
    Op.committed .begin .commit (loginTx env username password)
      (fun (user, cacheNeedsInvalidation) =>
        if cacheNeedsInvalidation then [.userInvalidated user.userId] else [])
      (raising f) d
  | refresh env raw =>
    Op.committed .begin .commit (refreshTx env (env.hashToken raw))
      (fun (isReused, userId) =>
        if isReused then [.userInvalidated userId] else [.tokenRevoked (env.hashToken raw)])
      (raising f) d
  | logout env raw access =>
    Op.committed .begin .commit (logoutTx (env.hashToken raw) (logoutAccessHash env access))
      (fun _ => .tokenRevoked (env.hashToken raw) ::
        (logoutAccessHash env access).toList.map .tokenRevoked)
      (raising f) d
  | deactivateAccount id =>
    Op.committed .begin .commit (deactivateAccountTx id) (fun _ => []) (raising f) d
  | reactivateAccount id =>
    Op.committed .begin .commit (reactivateAccountTx id) (fun _ => []) (raising f) d
  | deleteAccount id => Op.committed .begin .commit (deleteAccountTx id) (fun _ => []) (raising f) d

def runUnder (op : Operation) (f : Await → Option Fault) (w : AuthState) : AuthState :=
  match op with
  | register env username password => (AuthService.register env username password (raising f) w).2
  | login env username password => (AuthService.login env username password (raising f) w).2
  | refresh env raw => (AuthService.refresh env raw (raising f) w).2
  | logout env raw access => (AuthService.logout env raw access (raising f) w).2
  | deactivateAccount id => (UserService.deactivateAccount id (raising f) w).2
  | reactivateAccount id => (UserService.reactivateAccount id (raising f) w).2
  | deleteAccount id => (UserService.deleteAccount id (raising f) w).2

end Operation

/-! ### The messages -/

inductive MessageOperation where
  | sendDirectMessage (env : MessagingEnv) (senderId recipientId : UUID) (content : String)
  | sendGroupMessage (env : MessagingEnv) (senderId groupId : UUID) (content : String)

namespace MessageOperation
open MessagingService

def transact (op : MessageOperation) (f : Faults MessagingAwait Error) (d : Db) :
    Option (Db × List MessagePush) :=
  match op with
  | sendDirectMessage env sender recipient content =>
    Op.committed .begin .commit (sendDirectMessageTx env sender recipient content)
      (fun dm => [.toUser recipient (.fromModel dm)]) f d
  | sendGroupMessage env sender group content =>
    Op.committed .begin .commit (sendGroupMessageTx env sender group content)
      (fun msg => [.toGroup group (.fromModel msg) sender]) f d

def run (op : MessageOperation) (f : Faults MessagingAwait Error) (w : MessagingState) :
    MessagingState :=
  match op with
  | sendDirectMessage env sender recipient content =>
    (MessagingService.sendDirectMessage env sender recipient content f w).2
  | sendGroupMessage env sender group content =>
    (MessagingService.sendGroupMessage env sender group content f w).2

end MessageOperation

/-! ### The calls and their transactions -/

namespace AuthState.Publishes

variable {es : List SystemEvent} {e : SystemEvent} {f : Await → Option Fault}

theorem refl (w : AuthState) : w.Publishes w es := ⟨rfl, [], List.nil_prefix, (List.append_nil _).symm⟩

theorem publish_bind {α : Type} {k : Unit → AuthOp α}
    (hk : ∀ w, AuthState.Publishes w (k () (raising f) w).2 es) (w : AuthState) :
    w.Publishes ((publishStreamEvent e >>= k) (raising f) w).2 (e :: es) := by
  rcases publishStreamEvent_cases e f w with hpublish | ⟨x, hpublish⟩
  · rw [Op.bind_of_ok hpublish]
    obtain ⟨hdb, sent, hsent, hstream⟩ := hk { w with stream := w.stream ++ [e] }
    refine ⟨hdb, e :: sent, List.cons_prefix_cons.mpr ⟨rfl, hsent⟩, ?_⟩
    rw [hstream, List.append_assoc, List.singleton_append]
  · rw [Op.bind_of_error hpublish]
    exact refl w

theorem publish (w : AuthState) : w.Publishes (publishStreamEvent e (raising f) w).2 [e] := by
  rcases publishStreamEvent_cases e f w with hpublish | ⟨x, hpublish⟩
  · rw [hpublish]
    exact ⟨rfl, [e], List.prefix_rfl, rfl⟩
  · rw [hpublish]
    exact refl w

end AuthState.Publishes

namespace Operation
open AuthService UserService

variable {f : Await → Option Fault} {w : AuthState}

def Follows (r : Option (Db × List SystemEvent)) (w w' : AuthState) : Prop :=
  r.elim (w' = w) fun (d, es) => AuthState.Publishes { w with db := d } w' es

theorem follows_transaction {α β : Type} {body : AuthTx α} {announce : α → List SystemEvent}
    {k : α → AuthOp β}
    (hk : ∀ a w, AuthState.Publishes w (k a (raising f) w).2 (announce a)) (w : AuthState) :
    Follows (Op.committed .begin .commit body announce (raising f) w.db) w
      ((transaction body >>= k) (raising f) w).2 := by
  rcases transaction_bind_cases announce k (raising f) w with
    ⟨a, d, hcommitted, hrun | ⟨e, -, hrun⟩⟩ | ⟨hnone, e, hrun⟩
  · rw [hcommitted, hrun]
    exact hk a { w with db := d }
  · -- nothing is published where the answer to the commit is lost
    rw [hcommitted, hrun]
    exact .refl _
  · rw [hnone, hrun]
    rfl

theorem follows_silent {α : Type} {body : AuthTx α} (w : AuthState) :
    Follows (Op.committed .begin .commit body (fun _ => []) (raising f) w.db) w
      (transaction body (raising f) w).2 := by
  rw [← Op.bind_pure_snd fun _ => ()]
  exact follows_transaction (fun _ w => .refl w) w

theorem follows_account {body : AuthTx Unit} (w : AuthState) :
    Follows (Op.committed .begin .commit body (fun _ => []) (raising f) w.db) w
      (accountTransaction body (raising f) w).2 := by
  rw [accountTransaction, Op.transaction_snd fun _ : Unit => ([] : List SystemEvent)]
  cases hcommitted : Op.committed .begin .commit body (fun _ => ([] : List SystemEvent)) (raising f) w.db with
  | some r => exact .refl _
  | none => rfl

/-- A call leaves what its transaction leaves and publishes what that allows, or nothing at all. -/
theorem runUnder_follows (op : Operation) (f : Await → Option Fault) (w : AuthState) :
    Follows (op.transact f w.db) w (op.runUnder f w) := by
  cases op with
  | register env username password =>
    simp only [runUnder, transact, AuthService.register, Op.handle_snd]
    cases hf : f .hashPassword with
    | none =>
      rw [Op.bind_of_ok (Op.await_apply_of_none (raising_eq_none.mpr hf)), Op.bind_pure_snd]
      exact follows_silent w
    | some x =>
      have hawait : raising f .hashPassword = some x.error := by
        simp only [raising, hf, Option.map_some]
      rw [Op.bind_of_error (Op.await_apply_of_some hawait)]
      rfl
  | login env username password =>
    simp only [runUnder, AuthService.login, Op.handle_snd]
    refine follows_transaction (fun r w => ?_) w
    obtain ⟨user, b⟩ := r
    cases b with
    | true => exact AuthState.Publishes.publish_bind (fun w => .refl w) w
    | false => exact .refl w
  | refresh env raw =>
    simp only [runUnder, AuthService.refresh, Op.handle_snd]
    refine follows_transaction (fun r w => ?_) w
    obtain ⟨b, user⟩ := r
    cases b with
    | true => exact AuthState.Publishes.publish_bind (fun w => .refl w) w
    | false => exact AuthState.Publishes.publish_bind (fun w => .refl w) w
  | logout env raw access =>
    simp only [runUnder, AuthService.logout, Op.handle_snd]
    refine follows_transaction (fun _ w => ?_) w
    cases logoutAccessHash env access with
    | none => exact .publish w
    | some h =>
      -- the local eviction touches neither the database nor the stream
      exact AuthState.Publishes.publish_bind (fun w => .publish w) { w with cache := w.cache.evict h }
  | deactivateAccount id | reactivateAccount id | deleteAccount id =>
    simp only [runUnder, UserService.deactivateAccount, UserService.reactivateAccount,
      UserService.deleteAccount, account, Op.handle_snd]
    exact follows_account w

end Operation

namespace MessageOperation
open MessagingService

variable {f : Faults MessagingAwait Error} {d d' : Db}

theorem transaction_bind_snd {α β : Type} {body : MessagingTx α} {announce : α → List MessagePush}
    {k : α → MessagingOp β}
    (hk : ∀ a w, (k a f w).2 = { w with spawned := w.spawned ++ announce a }) (w : MessagingState) :
    ((MessagingService.transaction body >>= k) f w).2 =
      (Op.committed .begin .commit body announce f w.db).elim w
      fun r => { db := r.1, spawned := w.spawned ++ r.2 } :=
  Op.transaction_bind_snd (fun pushes w => { w with spawned := w.spawned ++ pushes }) hk w

/-- A call leaves what its transaction leaves, and the push, or nothing at all. -/
theorem run_eq (op : MessageOperation) (f : Faults MessagingAwait Error) (w : MessagingState) :
    op.run f w = (op.transact f w.db).elim w
      fun r => { db := r.1, spawned := w.spawned ++ r.2 } := by
  cases op with
  | sendDirectMessage env sender recipient content =>
    simp only [run, MessagingService.sendDirectMessage, decorated, Op.handle_snd]
    exact transaction_bind_snd (fun _ _ => rfl) w
  | sendGroupMessage env sender group content =>
    simp only [run, MessagingService.sendGroupMessage, decorated, Op.handle_snd]
    exact transaction_bind_snd (fun _ _ => rfl) w

theorem transact_sendGroupMessage {env : MessagingEnv} {sender group : UUID} {content : String}
    {pushes : List MessagePush}
    (h : (sendGroupMessage env sender group content).transact f d = some (d', pushes)) :
    ∃ m : GroupMessage, m.groupId = group ∧ m.senderId = sender ∧
      pushes = [.toGroup group (.fromModel m) sender] ∧
      d.groupMessages.get? m.messageId = none ∧
      d' = { d with groupMessages := d.groupMessages.insertNew m } := by
  obtain ⟨-, -, m, hbody, rfl⟩ := Op.committed_eq_some.mp h
  obtain ⟨membership, d₁, hfetch, hinsert⟩ := Tx.bind_eq_ok.mp hbody
  obtain ⟨-, rfl⟩ := fetch_eq_ok hfetch
  obtain ⟨rfl, hfresh, rfl⟩ := MessageQueries.sendGroupMessage_eq_ok (insert_eq_ok hinsert)
  exact ⟨_, rfl, rfl, rfl, hfresh, rfl⟩

end MessageOperation
end Messenger
