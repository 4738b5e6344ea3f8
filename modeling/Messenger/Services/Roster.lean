import Messenger.Services.Friendship
import Messenger.Services.Retries
import Messenger.Session.Operations

/-! Every operation of `GroupService` and `UserService` as a call that answers or raises, with all that
may fail in it. -/

namespace Messenger
open Transactional

/-! ### The operations that read -/

inductive ReadAwait where
  | acquire
  | getUserByUsername
  | getUserById
  | getFriendshipStatus
  | listAcceptedFriends
  | listPendingRequests
  | getGroupById
  | getMembership
  | listUserGroups
  | listGroupMemberships
  deriving DecidableEq

/-- A reading sees the database and has no way to write it. -/
abbrev Reading (α : Type) := ReaderT (Faults ReadAwait Error) (ReaderT Db (Except Error)) α

namespace Reading

variable {α : Type}

def select (p : ReadAwait) (q : Db → Except Error α) : Reading α := fun f d =>
  match f p with
  | some e => .error e
  | none => q d

def connection (body : Reading α) : Reading α := do
  select .acquire fun _ => .ok ()
  body

def handle (g : Error → Except Error α) (m : Reading α) : Reading α := fun f d => (m f d).tryCatch g

def orNotFound (kwargs : Kwargs) : Reading α → Reading α :=
  handle (handleDbNotFoundError (fun _ => none) (fun _ => none) kwargs)

end Reading

namespace FriendshipQueries

def listPendingRequests (id : UUID) (d : Db) : List Friendship :=
  d.friendships.rows.filter fun f => f.addresseeId = id && !f.accepted

end FriendshipQueries

namespace Reading

/-! Of `GroupService`. -/

def listGroupMembers (groupId : UUID) : Reading (List Membership) :=
  connection (select .listGroupMemberships fun d => .ok (GroupQueries.listGroupMemberships groupId d))

def getGroupDetails (actorId groupId : UUID) : Reading Group :=
  let kwargs := [("actor_id", actorId.str), ("group_id", groupId.str)]
  handle (handleDbConstraintError (fun _ => none) kwargs) <| orNotFound kwargs <| connection do
    let group ← select .getGroupById (GroupQueries.getGroupById groupId)
    let _ ← select .getMembership fun d => (MessageQueries.getMembership groupId actorId d).mapError .db
    return group

def listUserGroups (userId : UUID) : Reading (List Group) :=
  connection (select .listUserGroups fun d => .ok (GroupQueries.listUserGroups userId d))

/-! Of `UserService`. -/

def getByUsername (username : String) : Reading User :=
  orNotFound [] <| connection <| select .getUserByUsername fun d =>
    ((Queries.getUserByUsername username).run [] d).1.mapError .db

def getById (userId : UUID) : Reading User :=
  orNotFound [] <| connection <| select .getUserById fun d =>
    ((Queries.getUserById userId).run [] d).1.mapError .db

def getFriendshipStatus (limitOne : RowChoice Friendship) (userA userB : UUID) : Reading Friendship :=
  orNotFound [("user_a", userA.str), ("user_b", userB.str)] <| connection <|
    select .getFriendshipStatus fun d =>
      (FriendshipQueries.getFriendshipStatus limitOne userA userB d).mapError .db

def getFriends (userId : UUID) : Reading (List Friendship) :=
  connection (select .listAcceptedFriends fun d => .ok (FriendshipQueries.listAcceptedFriends userId d))

def getPendingFriendRequests (userId : UUID) : Reading (List Friendship) :=
  connection (select .listPendingRequests fun d => .ok (FriendshipQueries.listPendingRequests userId d))

end Reading

inductive ReadCall where
  | listGroupMembers (groupId : UUID)
  | getGroupDetails (actorId groupId : UUID)
  | listUserGroups (userId : UUID)
  | getByUsername (username : String)
  | getById (userId : UUID)
  | getFriendshipStatus (limitOne : RowChoice Friendship) (userA userB : UUID)
  | getFriends (userId : UUID)
  | getPendingFriendRequests (userId : UUID)

/-- The call without the rows that it answers with. -/
def ReadCall.run : ReadCall → Reading Unit
  | listGroupMembers g => discard (Reading.listGroupMembers g)
  | getGroupDetails a g => discard (Reading.getGroupDetails a g)
  | listUserGroups u => discard (Reading.listUserGroups u)
  | getByUsername name => discard (Reading.getByUsername name)
  | getById u => discard (Reading.getById u)
  | getFriendshipStatus limitOne a b => discard (Reading.getFriendshipStatus limitOne a b)
  | getFriends u => discard (Reading.getFriends u)
  | getPendingFriendRequests u => discard (Reading.getPendingFriendRequests u)

/-! ### The friendship operations in which every `await` may fail -/

inductive FriendshipAwait where
  | begin
  | commit
  | statement
  deriving DecidableEq

namespace FriendshipCall

def stmts (c : FriendshipCall) : Tx FriendshipAwait Error Db Unit :=
  Tx.statement .statement fun d =>
    match c.query.run (c.query.rows d) d with
    | (.ok _, ws) => .ok ((), FriendshipWrite.applyAll ws d)
    | (.error e, _) => .error (.db e)

def transaction (c : FriendshipCall) : Op FriendshipAwait Error Db Unit :=
  Op.transaction id (fun d _ => d) .begin .commit c.stmts

def perform (c : FriendshipCall) : Op FriendshipAwait Error Db Unit :=
  Op.handle c.handler <|
    match c.refused with
    | some e => Op.throw e
    | none => c.transaction

variable {c : FriendshipCall} {f : Faults FriendshipAwait Error} {d d' : Db}

theorem transaction_cases (c : FriendshipCall) (f : Faults FriendshipAwait Error) (d : Db) :
    (∃ u d', f .begin = none ∧ c.stmts f d = .ok (u, d') ∧ f .commit = none ∧
        c.transaction f d = (.ok u, d')) ∨
      ∃ e, c.transaction f d = (.error e, d) ∧
        (f .begin = some e ∨ c.stmts f d = .error e ∨ f .commit = some e) :=
  @Op.transaction_cases _ _ _ _ _ id (fun d _ => d) .begin .commit c.stmts f d

theorem stmts_eq_ok {u : Unit} (hrefused : c.refused = none) :
    c.stmts f d = .ok (u, d') ↔ f .statement = none ∧ c.run d = .ok d' := by
  rw [stmts, Tx.statement_eq_ok, run_eq_ok]
  rcases c.query.run (c.query.rows d) d with ⟨e | _, ws⟩
  · simp
  · simp [hrefused, eq_comm (a := d')]

/-- Failures only keep the call from doing what it does alone. -/
theorem perform_cases (c : FriendshipCall) (f : Faults FriendshipAwait Error) (d : Db) :
    (∃ d', c.perform f d = (.ok (), d') ∧ c.run d = .ok d') ∨ ∃ e, c.perform f d = (.error e, d) := by
  have hraises {m : Op FriendshipAwait Error Db Unit} {e : Error} (hm : m f d = (.error e, d)) :
      ∃ e', Op.handle c.handler m f d = (.error e', d) := by
    have hhandled := Op.handle_of_error (g := c.handler) hm
    cases hh : c.handler e with
    | ok u => exact absurd hh handler_ne_ok
    | error e' => exact ⟨e', hh ▸ hhandled⟩
  unfold perform
  cases hrefused : c.refused with
  | some e => exact .inr (hraises (Op.throw_apply))
  | none =>
    rcases transaction_cases c f d with ⟨u, d', -, hbody, -, hrun⟩ | ⟨e, hrun, -⟩
    · exact .inl ⟨d', Op.handle_of_ok hrun, ((stmts_eq_ok hrefused).mp hbody).2⟩
    · exact .inr (hraises hrun)

theorem perform_of_no_fault (h : c.run d = .ok d') : c.perform (fun _ => none) d = (.ok (), d') := by
  have hrefused : c.refused = none := (run_eq_ok.mp h).1
  unfold perform
  rw [hrefused]
  exact Op.handle_of_ok (Op.transaction_of_ok rfl ((stmts_eq_ok hrefused).mpr ⟨rfl, h⟩) rfl)

end FriendshipCall

/-! ### Calls that answer or raise -/

def outcome {σ α : Type} (get : σ → Db) (r : Except Error α × σ) : Except Error Unit × Db :=
  (r.1.map fun _ => (), get r.2)

namespace Decorator

variable {β : Type}

theorem handle_dbConstraintError_ne_ok {overrides : Constraint → Option Handler} {kwargs : Kwargs}
    {e : Error} {b : β} : (dbConstraintError overrides kwargs).handle e ≠ .ok b :=
  handleDbConstraintError_ne_ok

theorem handle_dbNotFoundError_ne_ok {overrides : Entity → Option Handler} {kwargs : Kwargs}
    {e : Error} {b : β} :
    (dbNotFoundError overrides (fun _ => none) kwargs).handle e ≠ .ok b := by
  intro h
  have hhandled : handleDbNotFoundError overrides (fun _ => none) kwargs e = .ok b := h
  obtain ⟨_, _, _, hsuppressed⟩ := handleDbNotFoundError_eq_ok hhandled
  cases hsuppressed

theorem handleAll_ne_ok {ds : List (Decorator β)} {e : Error} {b : β}
    (hds : ∀ d ∈ ds, ∀ e b, d.handle e ≠ .ok b) : handleAll ds e ≠ .ok b := by
  induction ds with
  | nil =>
    intro h
    cases h
  | cons d ds ih =>
    have hinner := ih fun d' hd' => hds d' (List.mem_cons_of_mem _ hd')
    show (handleAll ds e).tryCatch d.handle ≠ .ok b
    cases hrest : handleAll ds e with
    | ok b' =>
      intro h
      exact hinner (hrest.trans h)
    | error e' => exact hds d (List.mem_cons_self ..) e' b

end Decorator

namespace ServiceOperation

variable {φ α β σ : Type} {op : ServiceOperation φ Db α β} {get : σ → Db} {m : Op φ Error σ β}

/-- Once its transaction has committed the operation returns, and no decorator answers an error. -/
structure Plain (op : ServiceOperation φ Db α β) : Prop where
  returns : ∀ a, ∃ b, op.after a = .ok b
  raises : ∀ d ∈ op.decorators, ∀ e b, d.handle e ≠ .ok b

/-- A plain operation answers with what its transaction has left, or raises with nothing changed. -/
theorem Models.outcome (h : op.Models get m) (hop : op.Plain) (f : Faults φ Error) (w : σ) :
    (∃ a d', op.attempt f (get w) = .ok (a, d') ∧ outcome get (m f w) = (.ok (), d')) ∨
      ∃ e, outcome get (m f w) = (.error e, get w) := by
  let fs : ℕ → Faults φ Error := fun _ => f
  obtain ⟨hanswer, hdb⟩ : (op.run fs (.of (get w))).1 = (m f w).1.mapError .error ∧
    (op.run fs (.of (get w))).2.db = get (m f w).2 := h.run_eq w
  show (∃ a d', op.attempt (fs 0) (get w) = .ok (a, d') ∧ _) ∨ _
  cases hattempt : op.attempt (fs 0) (get w) with
  | ok r =>
    obtain ⟨a, d'⟩ := r
    obtain ⟨b, hb⟩ := hop.returns a
    obtain ⟨working, hrun⟩ := run_of_ok hattempt
    rw [hrun, hb] at hanswer
    rw [hrun] at hdb
    refine .inl ⟨a, d', rfl, ?_⟩
    cases hm : (m f w).1 with
    | ok b' => simp only [Messenger.outcome, hm, ← hdb, Except.map]
    | error e =>
      rw [hm] at hanswer
      cases hanswer
  | error e =>
    obtain ⟨working, hrun⟩ := run_of_error hattempt
    rw [hrun] at hanswer hdb
    cases hm : (m f w).1 with
    | ok b =>
      rw [hm] at hanswer
      cases hhandled : Decorator.handleAll op.decorators e with
      | ok b' => exact absurd hhandled (Decorator.handleAll_ne_ok hop.raises)
      | error e' =>
        rw [hhandled] at hanswer
        cases hanswer
    | error e' => exact .inr ⟨e', by simp only [Messenger.outcome, hm, ← hdb, Except.map]⟩

/-- What the transaction of an operation leaves when one execution of it completes. -/
theorem committed_of_attempt {γ : Type} (announce : α → List γ) {f : Faults φ Error} {d d' : Db}
    {a : α} (h : op.attempt f d = .ok (a, d')) :
    Op.committed op.begin op.commit op.body announce f d = some (d', announce a) := by
  unfold attempt DatabaseManager.attempt at h
  unfold Op.committed
  rw [h]

theorem plain_returning {begin commit : φ} {ds : List (Decorator β)} {body : Tx φ Error Db α}
    {answer : α → β} (hds : ∀ d ∈ ds, ∀ e b, d.handle e ≠ .ok b) :
    (ServiceOperation.returning begin commit ds body answer).Plain where
  returns a := ⟨answer a, rfl⟩
  raises := hds

theorem plain_both {begin commit : φ} {overrides : Entity → Option Handler} {kwargs : Kwargs}
    {body : Tx φ Error Db α} {answer : α → β} :
    (ServiceOperation.returning begin commit (bothDecorators overrides kwargs) body answer).Plain := by
  refine plain_returning fun d hd e b => ?_
  rcases List.mem_cons.mp hd with rfl | hd
  · exact Decorator.handle_dbConstraintError_ne_ok
  · rw [List.mem_singleton.mp hd]
    exact Decorator.handle_dbNotFoundError_ne_ok

end ServiceOperation

inductive RosterCall where
  | group (op : GroupOperation) (f : Faults GroupAwait Error)
  | deactivateAccount (userId : UUID) (f : Await → Option Fault)
  | reactivateAccount (userId : UUID) (f : Await → Option Fault)
  | deleteAccount (userId : UUID) (f : Await → Option Fault)
  | friendship (c : FriendshipCall) (f : Faults FriendshipAwait Error)
  | read (c : ReadCall) (f : Faults ReadAwait Error)

namespace RosterCall

def run (d : Db) : RosterCall → Except Error Unit × Db
  | group (.createGroup creator name g now) f =>
    outcome GroupState.db (GroupService.createGroup creator name g now f { db := d })
  | group (.addMember actor g target now) f =>
    outcome GroupState.db (GroupService.addMember actor g target now f { db := d })
  | group (.removeMember actor g target) f =>
    outcome GroupState.db (GroupService.removeMember actor g target f { db := d })
  | group (.deleteGroup actor g) f =>
    outcome GroupState.db (GroupService.deleteGroup actor g f { db := d })
  | deactivateAccount id f =>
    outcome AuthState.db (UserService.deactivateAccount id (raising f) { db := d })
  | reactivateAccount id f =>
    outcome AuthState.db (UserService.reactivateAccount id (raising f) { db := d })
  | deleteAccount id f => outcome AuthState.db (UserService.deleteAccount id (raising f) { db := d })
  | friendship c f => c.perform f d
  | read c f => (c.run f d, d)

def Does (d d' : Db) : RosterCall → Prop
  | group op _ => op.tx d = .ok d'
  | deactivateAccount _ _ | reactivateAccount _ _ => ∃ ws, d' = Write.applyAll ws d
  | deleteAccount id _ => d.deleteUser id = .ok d'
  | friendship c _ => c.run d = .ok d'
  | read _ _ => d' = d

theorem account_cases (body : AuthTx Unit) (f : Faults Await Error) (d : Db) :
    (∃ d', outcome AuthState.db (UserService.account body f { db := d }) = (.ok (), d') ∧
        body f d = .ok ((), d')) ∨
      ∃ e, outcome AuthState.db (UserService.account body f { db := d }) = (.error e, d) := by
  have hplain : (UserService.accountOperation body).Plain := by
    refine ServiceOperation.plain_returning fun d' hd e b => ?_
    rw [List.mem_singleton.mp hd]
    exact Decorator.handle_dbNotFoundError_ne_ok
  have hcases := (UserService.models_account body).outcome hplain f { db := d }
  rcases hcases with ⟨u, d', hattempt, hrun⟩ | hraised
  · have hcommitted := ServiceOperation.committed_of_attempt (fun u : Unit => [u]) hattempt
    obtain ⟨-, -, _, hbody, -⟩ := Op.committed_eq_some.mp hcommitted
    exact .inl ⟨d', hrun, hbody⟩
  · exact .inr hraised

theorem group_cases {α β : Type} {service : ServiceOperation GroupAwait Db α β} {m : GroupOp β}
    {announce : α → List GroupTask} {op : GroupOperation} {f : Faults GroupAwait Error} {d : Db}
    (hmodels : service.Models GroupState.db m) (hplain : service.Plain)
    (htransact : op.transact f d =
      Op.committed service.begin service.commit service.body announce f d) :
    (∃ d', outcome GroupState.db (m f { db := d }) = (.ok (), d') ∧ op.tx d = .ok d') ∨
      ∃ e, outcome GroupState.db (m f { db := d }) = (.error e, d) := by
  rcases hmodels.outcome hplain f { db := d } with ⟨a, d', hattempt, hrun⟩ | hraised
  · have hcommitted := ServiceOperation.committed_of_attempt announce hattempt
    exact .inl ⟨d', hrun, GroupOperation.tx_of_transact (htransact.trans hcommitted)⟩
  · exact .inr hraised

/-- A call that returns has done what it is for, and one that raises has changed nothing. -/
theorem run_cases (c : RosterCall) (d : Db) :
    (∃ d', c.run d = (.ok (), d') ∧ c.Does d d') ∨ ∃ e, c.run d = (.error e, d) := by
  cases c with
  | group op f =>
    cases op with
    | createGroup creator name g now =>
      have hplain : (GroupService.createGroupOperation creator name g now).Plain := by
        refine ServiceOperation.plain_returning fun d' hd e b => ?_
        rw [List.mem_singleton.mp hd]
        exact Decorator.handle_dbConstraintError_ne_ok
      exact group_cases (GroupService.models_createGroup ..) hplain rfl
    | addMember actor g target now =>
      exact group_cases (GroupService.models_addMember ..) ServiceOperation.plain_both rfl
    | removeMember actor g target =>
      exact group_cases (GroupService.models_removeMember ..) ServiceOperation.plain_both rfl
    | deleteGroup actor g =>
      exact group_cases (GroupService.models_deleteGroup ..) ServiceOperation.plain_both rfl
  | deactivateAccount id f =>
    exact (account_cases _ (raising f) d).imp_left fun ⟨d', hrun, hbody⟩ =>
      ⟨d', hrun, UserService.writes_deactivateAccountTx _ _ _ _ hbody⟩
  | reactivateAccount id f =>
    exact (account_cases _ (raising f) d).imp_left fun ⟨d', hrun, hbody⟩ =>
      ⟨d', hrun, UserService.writes_reactivateAccountTx _ _ _ _ hbody⟩
  | deleteAccount id f =>
    exact (account_cases _ (raising f) d).imp_left fun ⟨d', hrun, hbody⟩ =>
      ⟨d', hrun, (UserService.deleteAccountTx_eq_ok.mp hbody).2⟩
  | friendship c f => exact c.perform_cases f d
  | read c f =>
    cases hread : c.run f d with
    | ok u => exact .inl ⟨d, congrArg (·, d) hread, rfl⟩
    | error e => exact .inr ⟨e, congrArg (·, d) hread⟩

end RosterCall

end Messenger
