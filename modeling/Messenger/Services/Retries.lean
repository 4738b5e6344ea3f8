import Messenger.Database.Connection
import Messenger.Realtime.Ordering
import Messenger.Services.GroupTasks
import Messenger.Services.User

/-! The service operations when PostgreSQL reports serialization failures: how often the block of a
transaction is executed. -/

namespace Messenger
open Coroutine Transactional

inductive Decorator (β : Type) where
  | dbConstraintError (overrides : Constraint → Option Handler) (kwargs : Kwargs)
  | dbNotFoundError (overrides : Entity → Option Handler) (suppressed : Entity → Option β)
      (kwargs : Kwargs)

namespace Decorator

variable {β : Type}

def handle : Decorator β → Error → Except Error β
  | dbConstraintError overrides kwargs => handleDbConstraintError overrides kwargs
  | dbNotFoundError overrides suppressed kwargs => handleDbNotFoundError overrides suppressed kwargs

/-- What decorators, the outermost first, make of an exception. -/
def handleAll (ds : List (Decorator β)) (e : Error) : Except Error β :=
  ds.foldr (fun d r => r.tryCatch d.handle) (.error e)

theorem handle_eq_serializationError {d : Decorator β} {e : Error} :
    d.handle e = .error serializationError ↔ e = serializationError := by
  constructor
  · intro h
    cases d with
    | dbConstraintError overrides kwargs =>
      simp only [handle, handleDbConstraintError] at h
      split at h
      · split at h <;> cases h
      · exact Except.error.inj h
    | dbNotFoundError overrides suppressed kwargs =>
      simp only [handle, handleDbNotFoundError] at h
      split at h
      · split at h
        · cases h
        · split at h <;> cases h
      · exact Except.error.inj h
  · rintro rfl
    cases d <;> rfl

/-- The decorators leave a serialization failure alone, and make none. -/
theorem handleAll_eq_serializationError {ds : List (Decorator β)} {e : Error} :
    handleAll ds e = .error serializationError ↔ e = serializationError := by
  induction ds with
  | nil => simp only [handleAll, List.foldr_nil, Except.error.injEq]
  | cons d ds ih =>
    show (handleAll ds e).tryCatch d.handle = _ ↔ _
    rw [← ih]
    cases handleAll ds e with
    | ok b => exact ⟨nofun, nofun⟩
    | error e => exact handle_eq_serializationError.trans (by rw [Except.error.injEq])

theorem foldr_handle {φ σ : Type} {m : Op φ Error σ β} {f : Faults φ Error} {w w' : σ}
    {r : Except Error β} (ds : List (Decorator β)) (hm : m f w = (r, w')) :
    ds.foldr (fun d => Op.handle d.handle) m f w = (r.tryCatch (handleAll ds), w') := by
  induction ds with
  | nil =>
    rw [List.foldr_nil, hm]
    cases r <;> rfl
  | cons d ds ih =>
    rw [List.foldr_cons]
    cases r with
    | ok b => exact Op.handle_of_ok ih
    | error e =>
      show _ = ((handleAll ds e).tryCatch d.handle, w')
      have hinner : ds.foldr (fun d => Op.handle d.handle) m f w = (handleAll ds e, w') := ih
      cases hd : handleAll ds e with
      | ok b => exact Op.handle_of_ok (hinner.trans (by rw [hd]))
      | error e' => exact Op.handle_of_error (hinner.trans (by rw [hd]))

end Decorator

theorem mapError_error {ε ε' β : Type} {f : ε → ε'} {r : Except ε β} {e' : ε'} :
    r.mapError f = .error e' ↔ ∃ e, r = .error e ∧ f e = e' := by
  cases r with
  | ok b => simp [Except.mapError]
  | error e => simp [Except.mapError]

/-- An operation whose body runs in `async with self._db.transaction()`. What comes after the
transaction publishes and spawns, with which PostgreSQL has nothing to do. -/
structure ServiceOperation (φ δ α β : Type) where
  begin : φ
  commit : φ
  body : Tx φ Error δ α
  after : α → Except Error β
  decorators : List (Decorator β)
  after_ne_serializationError : ∀ a, after a ≠ .error serializationError

namespace ServiceOperation

variable {φ δ α β : Type} (op : ServiceOperation φ δ α β)

def attempt : Tx φ Error δ α := DatabaseManager.attempt op.begin op.commit op.body

def Conflicts (f : Faults φ Error) (d : δ) : Prop := op.attempt f d = .error serializationError

def decorated : Exception → Coroutine Exception (Pool δ) β
  | .driver e => raise (.driver e)
  | .error e => fun s => ((Decorator.handleAll op.decorators e).mapError .error, s)

def run (fs : ℕ → Faults φ Error) : Coroutine Exception (Pool δ) β :=
  tryExcept
    (do
      let a ← DatabaseManager.transaction fs op.begin op.commit none
        (DatabaseManager.statements fs op.body)
      fun s => ((op.after a).mapError .error, s))
    op.decorated

/-- A body that meets serialization failures `n < 3` times and then completes has the operation
succeed, with what that execution leaves, and only three failures make it raise one. -/
def Retried (fs : ℕ → Faults φ Error) (d : δ) : Prop :=
  (∀ n < 3, (∀ k < n, op.Conflicts (fs k) d) → ∀ a d' b, op.attempt (fs n) d = .ok (a, d') →
      op.after a = .ok b → (op.run fs (.of d)).1 = .ok b ∧ (op.run fs (.of d)).2.db = d') ∧
    ((op.run fs (.of d)).1 = .error (.error serializationError) →
      (op.run fs (.of d)).2.acquired = 3 ∧ ∀ k < 3, op.Conflicts (fs k) d)

variable {op} {fs : ℕ → Faults φ Error} {d d' : δ} {a : α} {e : Error}

/-- The first execution decides. -/
theorem run_of_ok (h : op.attempt (fs 0) d = .ok (a, d')) : ∃ working, op.run fs (.of d) =
    (((op.after a).tryCatch (Decorator.handleAll op.decorators)).mapError .error,
     { db := d', working, acquired := 1 }) := by
  have hresults := DatabaseManager.results_transaction (s := .of d) fs op.begin op.commit op.body rfl
  change DatabaseManager.Results (op.attempt (fs 0) d) _ _ _ at hresults
  rw [h] at hresults
  obtain ⟨working, htransaction⟩ := hresults
  refine ⟨working, ?_⟩
  unfold run
  cases hafter : op.after a with
  | ok b =>
    refine tryExcept_of_ok ((bind_of_ok htransaction).trans ?_)
    rw [hafter]
    rfl
  | error e =>
    refine (tryExcept_of_error (e := .error e) ((bind_of_ok htransaction).trans ?_)).trans rfl
    rw [hafter]
    rfl

theorem run_of_error (h : op.attempt (fs 0) d = .error e) : ∃ working, op.run fs (.of d) =
    ((Decorator.handleAll op.decorators e).mapError .error, { db := d, working, acquired := 1 }) := by
  have hresults := DatabaseManager.results_transaction (s := .of d) fs op.begin op.commit op.body rfl
  change DatabaseManager.Results (op.attempt (fs 0) d) _ _ _ at hresults
  rw [h] at hresults
  obtain ⟨working, htransaction⟩ := hresults
  exact ⟨working, tryExcept_of_error (bind_of_error htransaction)⟩

/-- Serialization failures are retried as long as the first execution meets none. -/
theorem retried_iff (op : ServiceOperation φ δ α β) (fs : ℕ → Faults φ Error) (d : δ) :
    op.Retried fs d ↔ ¬ op.Conflicts (fs 0) d := by
  constructor
  · intro ⟨_, hraises⟩ hconflict
    obtain ⟨working, hrun⟩ := run_of_error hconflict
    rw [hrun, Decorator.handleAll_eq_serializationError.mpr rfl] at hraises
    -- one connection has been acquired
    have hone : 1 = 3 := (hraises rfl).1
    exact absurd hone (by decide)
  · intro hconflict
    cases hattempt : op.attempt (fs 0) d with
    | ok r =>
      obtain ⟨a, d'⟩ := r
      obtain ⟨working, hrun⟩ := run_of_ok hattempt
      rw [Retried, hrun]
      constructor
      · -- the first execution meets no failure, so none comes before it
        intro n _ hbefore a₁ d₁ b hn hafter
        have hzero : n = 0 := Nat.eq_zero_of_not_pos fun hn => hconflict (hbefore 0 hn)
        subst hzero
        obtain ⟨rfl, rfl⟩ := Prod.mk.inj (Except.ok.inj (hattempt.symm.trans hn))
        rw [hafter]
        exact ⟨rfl, rfl⟩
      · intro hraised
        cases hafter : op.after a with
        | ok b =>
          rw [hafter] at hraised
          cases hraised
        | error e =>
          rw [hafter] at hraised
          obtain ⟨_, hhandled, heq⟩ := mapError_error.mp hraised
          rw [Exception.error.inj heq] at hhandled
          rw [Decorator.handleAll_eq_serializationError.mp hhandled] at hafter
          exact absurd hafter (op.after_ne_serializationError a)
    | error e =>
      obtain ⟨working, hrun⟩ := run_of_error hattempt
      rw [Retried, hrun]
      constructor
      · intro n _ hbefore a₁ d₁ b hn _
        have hzero : n = 0 := Nat.eq_zero_of_not_pos fun hn => hconflict (hbefore 0 hn)
        subst hzero
        cases hattempt.symm.trans hn
      · intro hraised
        obtain ⟨_, hhandled, heq⟩ := mapError_error.mp hraised
        rw [Exception.error.inj heq] at hhandled
        rw [Decorator.handleAll_eq_serializationError.mp hhandled] at hattempt
        exact absurd hattempt hconflict

/-- The operation as one in which every `await` may fail: `k` is what it does after its transaction. -/
def asOp {σ : Type} (op : ServiceOperation φ δ α β) (get : σ → δ) (set : δ → σ → σ)
    (k : α → Op φ Error σ β) : Op φ Error σ β :=
  op.decorators.foldr (fun d => Op.handle d.handle)
    (Op.transaction get set op.begin op.commit op.body >>= k)

/-- Of all the executions only the first is ever seen. -/
theorem run_eq_asOp {σ : Type} {get : σ → δ} {set : δ → σ → σ} {k : α → Op φ Error σ β}
    (hset : ∀ d w, get (set d w) = d)
    (hk : ∀ a w, (k a (fs 0) w).1 = op.after a ∧ get (k a (fs 0) w).2 = get w) (w : σ) :
    (op.run fs (.of (get w))).1 = (op.asOp get set k (fs 0) w).1.mapError .error ∧
      (op.run fs (.of (get w))).2.db = get (op.asOp get set k (fs 0) w).2 := by
  cases hattempt : op.attempt (fs 0) (get w) with
  | ok r =>
    obtain ⟨a, d⟩ := r
    have htransaction : Op.transaction get set op.begin op.commit op.body (fs 0) w =
        (.ok a, set d w) := by
      unfold attempt DatabaseManager.attempt at hattempt
      simp only [Op.transaction, hattempt]
    obtain ⟨hanswer, hdb⟩ := hk a (set d w)
    have hasOp : op.asOp get set k (fs 0) w =
        ((op.after a).tryCatch (Decorator.handleAll op.decorators), (k a (fs 0) (set d w)).2) :=
      Decorator.foldr_handle op.decorators
        ((Op.bind_of_ok htransaction).trans (Prod.ext hanswer rfl))
    obtain ⟨working, hrun⟩ := run_of_ok hattempt
    constructor
    · rw [hrun, hasOp]
    · rw [hrun, hasOp, hdb, hset]
  | error e =>
    have htransaction : Op.transaction get set op.begin op.commit op.body (fs 0) w =
        (.error e, w) := by
      unfold attempt DatabaseManager.attempt at hattempt
      simp only [Op.transaction, hattempt]
    have hasOp : op.asOp get set k (fs 0) w = _ :=
      Decorator.foldr_handle op.decorators (Op.bind_of_error (k := k) htransaction)
    obtain ⟨working, hrun⟩ := run_of_error hattempt
    constructor
    · rw [hrun, hasOp]
      rfl
    · rw [hrun, hasOp]

def Models {σ : Type} (op : ServiceOperation φ δ α β) (get : σ → δ) (m : Op φ Error σ β) : Prop :=
  ∃ set k, (∀ d w, get (set d w) = d) ∧
    (∀ a f w, (k a f w).1 = op.after a ∧ get (k a f w).2 = get w) ∧ m = op.asOp get set k

/-- It answers and writes what `m` does under the failures of the first execution. -/
theorem Models.run_eq {σ : Type} {get : σ → δ} {m : Op φ Error σ β} (h : op.Models get m) (w : σ) :
    (op.run fs (.of (get w))).1 = (m (fs 0) w).1.mapError .error ∧
      (op.run fs (.of (get w))).2.db = get (m (fs 0) w).2 := by
  obtain ⟨set, k, hset, hk, rfl⟩ := h
  exact run_eq_asOp hset (fun a w => hk a (fs 0) w) w

end ServiceOperation

/-! ### The operations of the services -/

/-- What does no more than spawn after its transaction returns. -/
def ServiceOperation.returning {φ α β : Type} (begin commit : φ) (decorators : List (Decorator β))
    (body : Tx φ Error Db α) (answer : α → β) : ServiceOperation φ Db α β where
  begin
  commit
  body
  after := fun a => .ok (answer a)
  decorators
  after_ne_serializationError := by simp

/-- `handle_db_constraint_error()` over `handle_db_not_found_error(overrides)`. -/
def bothDecorators {β : Type} (overrides : Entity → Option Handler) (kwargs : Kwargs) :
    List (Decorator β) :=
  [.dbConstraintError (fun _ => none) kwargs, .dbNotFoundError overrides (fun _ => none) kwargs]

namespace MessagingService

def sendDirectMessageOperation (env : MessagingEnv) (senderId recipientId : UUID) (content : String) :
    ServiceOperation MessagingAwait Db DirectMessage DirectMessage :=
  .returning .begin .commit
    (bothDecorators directMessageEntities
      [("sender_id", senderId.str), ("recipient_id", recipientId.str), ("content", content)])
    (sendDirectMessageTx env senderId recipientId content) id

def sendGroupMessageOperation (env : MessagingEnv) (senderId groupId : UUID) (content : String) :
    ServiceOperation MessagingAwait Db GroupMessage GroupMessage :=
  .returning .begin .commit
    (bothDecorators groupMessageEntities
      [("sender_id", senderId.str), ("group_id", groupId.str), ("content", content)])
    (sendGroupMessageTx env senderId groupId content) id

theorem models_sendDirectMessage (env : MessagingEnv) (s r : UUID) (content : String) :
    (sendDirectMessageOperation env s r content).Models MessagingState.db
      (sendDirectMessage env s r content) :=
  ⟨_, _, fun _ _ => rfl, fun _ _ _ => ⟨rfl, rfl⟩, rfl⟩

theorem models_sendGroupMessage (env : MessagingEnv) (s g : UUID) (content : String) :
    (sendGroupMessageOperation env s g content).Models MessagingState.db
      (sendGroupMessage env s g content) :=
  ⟨_, _, fun _ _ => rfl, fun _ _ _ => ⟨rfl, rfl⟩, rfl⟩

end MessagingService

namespace GroupService

def createGroupOperation (creatorId : UUID) (name : String) (groupId : UUID) (now : Timestamp) :
    ServiceOperation GroupAwait Db Unit (Group × Membership) :=
  .returning .begin .commit
    [.dbConstraintError (fun _ => none) [("creator_id", creatorId.str), ("name", name)]]
    (createGroupStmts ⟨groupId, name, creatorId, now⟩ ⟨groupId, creatorId, now⟩)
    fun _ => (⟨groupId, name, creatorId, now⟩, ⟨groupId, creatorId, now⟩)

def addMemberOperation (actorId groupId targetUserId : UUID) (now : Timestamp) :
    ServiceOperation GroupAwait Db Membership Membership :=
  .returning .begin .commit
    (bothDecorators (fun _ => none)
      [("actor_id", actorId.str), ("group_id", groupId.str), ("target_user_id", targetUserId.str)])
    (addMemberStmts actorId groupId ⟨groupId, targetUserId, now⟩) id

def removeMemberOperation (actorId groupId targetUserId : UUID) :
    ServiceOperation GroupAwait Db Unit Unit :=
  .returning .begin .commit
    (bothDecorators (fun _ => none)
      [("actor_id", actorId.str), ("group_id", groupId.str), ("target_user_id", targetUserId.str)])
    (removeMemberStmts actorId groupId targetUserId) id

def deleteGroupOperation (actorId groupId : UUID) :
    ServiceOperation GroupAwait Db (List Membership) Unit :=
  .returning .begin .commit
    (bothDecorators (fun _ => none) [("actor_id", actorId.str), ("group_id", groupId.str)])
    (deleteGroupStmts actorId groupId) fun _ => ()

theorem models_createGroup (creator group : UUID) (name : String) (now : Timestamp) :
    (createGroupOperation creator name group now).Models GroupState.db
      (createGroup creator name group now) :=
  ⟨_, _, fun _ _ => rfl, fun _ _ _ => ⟨rfl, rfl⟩, rfl⟩

theorem models_addMember (actor group target : UUID) (now : Timestamp) :
    (addMemberOperation actor group target now).Models GroupState.db
      (addMember actor group target now) :=
  ⟨_, _, fun _ _ => rfl, fun _ _ _ => ⟨rfl, rfl⟩, rfl⟩

theorem models_removeMember (actor group target : UUID) :
    (removeMemberOperation actor group target).Models GroupState.db (removeMember actor group target) :=
  ⟨_, _, fun _ _ => rfl, fun _ _ _ => ⟨rfl, rfl⟩, rfl⟩

theorem models_deleteGroup (actor group : UUID) :
    (deleteGroupOperation actor group).Models GroupState.db (deleteGroup actor group) :=
  ⟨_, _, fun _ _ => rfl, fun _ _ _ => ⟨rfl, rfl⟩, rfl⟩

end GroupService

namespace UserService

def accountOperation (body : AuthTx Unit) : ServiceOperation Await Db Unit Unit :=
  .returning .begin .commit [.dbNotFoundError (fun _ => none) (fun _ => none) []] body id

theorem models_account (body : AuthTx Unit) :
    (accountOperation body).Models AuthState.db (account body) := by
  refine ⟨fun d w => { w with db := d }, fun _ => pure (), fun _ _ => rfl, fun _ _ _ => ⟨rfl, rfl⟩, ?_⟩
  funext f w
  show account body f w = Op.handle _ (accountTransaction body >>= fun _ => pure ()) f w
  unfold account Op.handle
  rcases htransaction : accountTransaction body f w with ⟨_ | _, w'⟩
  · rw [Op.bind_of_error htransaction]
    rfl
  · rw [Op.bind_of_ok htransaction]
    rfl

end UserService

namespace Sample

/-- PostgreSQL reports a serialization failure at the commit of the first execution. -/
def conflictOnce : ℕ → Faults MessagingAwait Error
  | 0 => fun p => if p = .commit then some serializationError else none
  | _ => fun _ => none

def friendlyMessage : ServiceOperation MessagingAwait Db DirectMessage DirectMessage :=
  MessagingService.sendDirectMessageOperation
    ⟨0, ⟨3⟩, .prefer friendship, .stable _, .stable _⟩ ⟨1⟩ ⟨2⟩ "hello"

end Sample
open Sample

/-- The message is not stored although its second execution would have stored it. -/
theorem not_retried_conflictOnce : ¬ friendlyMessage.Retried conflictOnce friends := by
  intro ⟨hretried, _⟩
  have hconflict : friendlyMessage.Conflicts (conflictOnce 0) friends := rfl
  have hcompletes : (friendlyMessage.attempt (conflictOnce 1) friends).isOk := by decide
  cases hattempt : friendlyMessage.attempt (conflictOnce 1) friends with
  | ok r =>
    obtain ⟨m, d⟩ := r
    have hok := (hretried 1 (by decide) (fun k hk => by rwa [Nat.lt_one_iff.mp hk]) m d m hattempt rfl).1
    obtain ⟨working, hrun⟩ := ServiceOperation.run_of_error hconflict
    rw [hrun] at hok
    cases hok
  | error e =>
    rw [hattempt] at hcompletes
    cases hcompletes

end Messenger
