import Messenger.Lib.Transactional
import Messenger.Services.Group

/-! The operations of `GroupService` in which every `await` may fail, and the background tasks that they
spawn once their transaction has committed. -/

namespace Messenger
open Transactional

inductive GroupAwait where
  | begin
  | commit
  | createGroup
  | addGroupMember
  | getGroupById
  | removeGroupMember
  | listGroupMemberships
  | deleteGroup
  deriving DecidableEq

inductive GroupTask where
  | pushGroupMembershipChange (userId groupId : UUID) (action : MembershipAction)
  | handleGroupDeletionSideEffects (groupId : UUID) (memberUserIds : List UUID)
  deriving DecidableEq

structure GroupState where
  db : Db
  spawned : List GroupTask := []

abbrev GroupStmts := Tx GroupAwait Error Db
abbrev GroupOp := Op GroupAwait Error GroupState

inductive TaskAwait where
  | invalidateDeletedGroupCache
  | publishWsPush
  deriving DecidableEq

abbrev TaskOp := Op TaskAwait RedisError (List BusEvent)

namespace WebSocketManager

def publishWsPush (event : BusEvent) : TaskOp Unit := do
  Op.await .publishWsPush
  Op.modify fun channel => channel ++ [event]

def pushGroupMembershipChange (userId groupId : UUID) (action : MembershipAction) : TaskOp Unit :=
  publishWsPush (.groupMembership userId groupId action)

def pushGroupDeleted (groupId : UUID) : TaskOp Unit := publishWsPush (.groupDeleted groupId)

theorem publishWsPush_snd {event : BusEvent} {f : Faults TaskAwait RedisError}
    {channel : List BusEvent} :
    (publishWsPush event f channel).2 = channel ∨
      (publishWsPush event f channel).2 = channel ++ [event] := by
  cases hf : f .publishWsPush with
  | none => exact .inr (congrArg Prod.snd (Op.bind_of_ok (Op.await_apply_of_none hf)))
  | some e => exact .inl (congrArg Prod.snd (Op.bind_of_error (Op.await_apply_of_some hf)))

end WebSocketManager

namespace GroupTask
open WebSocketManager

def run : GroupTask → TaskOp Unit
  | pushGroupMembershipChange userId groupId action =>
    WebSocketManager.pushGroupMembershipChange userId groupId action
  | handleGroupDeletionSideEffects groupId _ => do
    Op.await .invalidateDeletedGroupCache
    pushGroupDeleted groupId

def event : GroupTask → BusEvent
  | pushGroupMembershipChange userId groupId action => .groupMembership userId groupId action
  | handleGroupDeletionSideEffects groupId _ => .groupDeleted groupId

theorem run_snd (task : GroupTask) (f : Faults TaskAwait RedisError) (channel : List BusEvent) :
    (task.run f channel).2 = channel ∨ (task.run f channel).2 = channel ++ [task.event] := by
  cases task with
  | pushGroupMembershipChange userId groupId action => exact publishWsPush_snd
  | handleGroupDeletionSideEffects groupId members =>
    cases hf : f .invalidateDeletedGroupCache with
    | none =>
      have hrun := Op.bind_of_ok (k := fun _ => pushGroupDeleted groupId)
        (Op.await_apply_of_none (w := channel) hf)
      simp only [run, hrun]
      exact publishWsPush_snd
    | some e =>
      -- the event is lost with the clean-up
      exact .inl (congrArg Prod.snd (Op.bind_of_error (Op.await_apply_of_some hf)))

end GroupTask

namespace GroupService

def fetch {α : Type} (p : GroupAwait) (q : Db → Except Error α) : GroupStmts α :=
  Tx.statement p fun d => (q d).map (·, d)

def execute (p : GroupAwait) (q : Db → Except Error Db) : GroupStmts Unit :=
  Tx.statement p fun d => (q d).map ((), ·)

def transaction {α : Type} (body : GroupStmts α) : GroupOp α :=
  Op.transaction GroupState.db (fun d w => { w with db := d }) .begin .commit body

def spawn (task : GroupTask) : GroupOp Unit :=
  Op.modify fun w => { w with spawned := w.spawned ++ [task] }

/-- The decorators of every operation but `create_group`, which has no handler for missing entities. -/
def decorated {α : Type} (kwargs : Kwargs) (m : GroupOp α) : GroupOp α :=
  Op.handle (handleDbConstraintError (fun _ => none) kwargs) <|
    Op.handle (handleDbNotFoundError (fun _ => none) (fun _ => none) kwargs) m

def createGroupStmts (group : Group) (membership : Membership) : GroupStmts Unit := do
  execute .createGroup (GroupQueries.createGroup group)
  execute .addGroupMember (GroupQueries.addGroupMember membership)

def createGroup (creatorId : UUID) (name : String) (groupId : UUID) (now : Timestamp) :
    GroupOp (Group × Membership) :=
  Op.handle (handleDbConstraintError (fun _ => none) [("creator_id", creatorId.str), ("name", name)]) do
    let group : Group := ⟨groupId, name, creatorId, now⟩
    let membership : Membership := ⟨groupId, creatorId, now⟩
    transaction (createGroupStmts group membership)
    spawn (.pushGroupMembershipChange creatorId groupId .join)
    return (group, membership)

def addMemberStmts (actorId groupId : UUID) (membership : Membership) : GroupStmts Membership := do
  let group ← fetch .getGroupById (GroupQueries.getGroupById groupId)
  if group.createdBy ≠ actorId then
    Tx.throw (insufficient "Only the group creator can add new members.")
  else
    execute .addGroupMember (GroupQueries.addGroupMember membership)
    return membership

def addMember (actorId groupId targetUserId : UUID) (now : Timestamp) : GroupOp Membership :=
  decorated [("actor_id", actorId.str), ("group_id", groupId.str), ("target_user_id", targetUserId.str)]
    do
      let membership ← transaction (addMemberStmts actorId groupId ⟨groupId, targetUserId, now⟩)
      spawn (.pushGroupMembershipChange targetUserId groupId .join)
      return membership

def removeMemberStmts (actorId groupId targetUserId : UUID) : GroupStmts Unit := do
  let group ← fetch .getGroupById (GroupQueries.getGroupById groupId)
  if targetUserId = group.createdBy then
    Tx.throw (insufficient "Group creator cannot leave the group. Delete the group instead.")
  else if !(decide (actorId = targetUserId) || decide (group.createdBy = actorId)) then
    Tx.throw (insufficient "Only the group creator can remove other members.")
  else execute .removeGroupMember (GroupQueries.removeGroupMember groupId targetUserId)

def removeMember (actorId groupId targetUserId : UUID) : GroupOp Unit :=
  decorated [("actor_id", actorId.str), ("group_id", groupId.str), ("target_user_id", targetUserId.str)]
    do
      transaction (removeMemberStmts actorId groupId targetUserId)
      spawn (.pushGroupMembershipChange targetUserId groupId .leave)

def deleteGroupStmts (actorId groupId : UUID) : GroupStmts (List Membership) := do
  let group ← fetch .getGroupById (GroupQueries.getGroupById groupId)
  if group.createdBy ≠ actorId then
    Tx.throw (insufficient "Only the group creator can delete this group.")
  else
    let memberships ← fetch .listGroupMemberships fun d =>
      .ok (GroupQueries.listGroupMemberships groupId d)
    execute .deleteGroup (GroupQueries.deleteGroup groupId actorId)
    return memberships

def deleteGroup (actorId groupId : UUID) : GroupOp Unit :=
  decorated [("actor_id", actorId.str), ("group_id", groupId.str)] do
    let memberships ← transaction (deleteGroupStmts actorId groupId)
    spawn (.handleGroupDeletionSideEffects groupId (memberships.map (·.userId)))

end GroupService

namespace GroupOperation
open GroupService

def transact (op : GroupOperation) (f : Faults GroupAwait Error) (d : Db) :
    Option (Db × List GroupTask) :=
  match op with
  | createGroup creator name group now =>
    Op.committed .begin .commit (createGroupStmts ⟨group, name, creator, now⟩ ⟨group, creator, now⟩)
      (fun _ => [.pushGroupMembershipChange creator group .join]) f d
  | addMember actor group target now =>
    Op.committed .begin .commit (addMemberStmts actor group ⟨group, target, now⟩)
      (fun _ => [.pushGroupMembershipChange target group .join]) f d
  | removeMember actor group target =>
    Op.committed .begin .commit (removeMemberStmts actor group target)
      (fun _ => [.pushGroupMembershipChange target group .leave]) f d
  | deleteGroup actor group =>
    Op.committed .begin .commit (deleteGroupStmts actor group)
      (fun memberships => [.handleGroupDeletionSideEffects group (memberships.map (·.userId))]) f d

def run (op : GroupOperation) (f : Faults GroupAwait Error) (w : GroupState) : GroupState :=
  match op with
  | createGroup creator name group now => (GroupService.createGroup creator name group now f w).2
  | addMember actor group target now => (GroupService.addMember actor group target now f w).2
  | removeMember actor group target => (GroupService.removeMember actor group target f w).2
  | deleteGroup actor group => (GroupService.deleteGroup actor group f w).2

end GroupOperation

section

variable {f : Faults GroupAwait Error} {d d' : Db} {p : GroupAwait}

namespace GroupService

theorem fetch_eq_ok {α : Type} {q : Db → Except Error α} {a : α} :
    fetch p q f d = .ok (a, d') ↔ f p = none ∧ q d = .ok a ∧ d' = d := by
  rw [fetch, Tx.statement_eq_ok]
  cases q d <;> simp [Except.map, eq_comm (a := d)]

theorem execute_eq_ok {q : Db → Except Error Db} {a : Unit} :
    execute p q f d = .ok (a, d') ↔ f p = none ∧ q d = .ok d' := by
  rw [execute, Tx.statement_eq_ok]
  cases q d <;> simp [Except.map]

end GroupService

namespace GroupOperation
open GroupService

theorem tx_of_transact {op : GroupOperation} {tasks : List GroupTask}
    (h : op.transact f d = some (d', tasks)) : op.tx d = .ok d' := by
  cases op with
  | createGroup creator name group now =>
    obtain ⟨-, -, _, hbody, -⟩ := Op.committed_eq_some.mp h
    obtain ⟨_, d₁, hcreate, hadd⟩ := Tx.bind_eq_ok.mp hbody
    exact bind_eq_ok.mpr ⟨d₁, (execute_eq_ok.mp hcreate).2, (execute_eq_ok.mp hadd).2⟩
  | addMember actor group target now =>
    obtain ⟨-, -, _, hbody, -⟩ := Op.committed_eq_some.mp h
    obtain ⟨g, _, hget, hrest⟩ := Tx.bind_eq_ok.mp hbody
    obtain ⟨-, hget, rfl⟩ := fetch_eq_ok.mp hget
    refine bind_eq_ok.mpr ⟨g, hget, ?_⟩
    split at hrest
    · cases hrest
    · next hcreator =>
      obtain ⟨_, d₁, hadd, hpure⟩ := Tx.bind_eq_ok.mp hrest
      obtain ⟨-, rfl⟩ := Tx.pure_eq_ok.mp hpure
      rw [if_neg hcreator]
      exact (execute_eq_ok.mp hadd).2
  | removeMember actor group target =>
    obtain ⟨-, -, _, hbody, -⟩ := Op.committed_eq_some.mp h
    obtain ⟨g, _, hget, hrest⟩ := Tx.bind_eq_ok.mp hbody
    obtain ⟨-, hget, rfl⟩ := fetch_eq_ok.mp hget
    refine bind_eq_ok.mpr ⟨g, hget, ?_⟩
    split at hrest
    · cases hrest
    · next hcreator =>
      split at hrest
      · cases hrest
      · next hallowed =>
        rw [if_neg hcreator, if_neg hallowed]
        exact (execute_eq_ok.mp hrest).2
  | deleteGroup actor group =>
    obtain ⟨-, -, _, hbody, -⟩ := Op.committed_eq_some.mp h
    obtain ⟨g, _, hget, hrest⟩ := Tx.bind_eq_ok.mp hbody
    obtain ⟨-, hget, rfl⟩ := fetch_eq_ok.mp hget
    refine bind_eq_ok.mpr ⟨g, hget, ?_⟩
    split at hrest
    · cases hrest
    · next hcreator =>
      obtain ⟨_, _, hlist, hthen⟩ := Tx.bind_eq_ok.mp hrest
      obtain ⟨-, -, rfl⟩ := fetch_eq_ok.mp hlist
      obtain ⟨_, _, hdelete, hpure⟩ := Tx.bind_eq_ok.mp hthen
      obtain ⟨-, rfl⟩ := Tx.pure_eq_ok.mp hpure
      rw [if_neg hcreator]
      exact (execute_eq_ok.mp hdelete).2

theorem event_of_transact {op : GroupOperation} {tasks : List GroupTask}
    (h : op.transact f d = some (d', tasks)) : tasks.map (·.event) = [op.event] := by
  cases op with
  | createGroup | addMember | removeMember | deleteGroup =>
    obtain ⟨-, -, _, -, rfl⟩ := Op.committed_eq_some.mp h
    rfl

theorem transaction_bind_snd {α β : Type} {body : GroupStmts α} {announce : α → List GroupTask}
    {k : α → GroupOp β} (hk : ∀ a w, (k a f w).2 = { w with spawned := w.spawned ++ announce a })
    (w : GroupState) :
    ((GroupService.transaction body >>= k) f w).2 =
      (Op.committed .begin .commit body announce f w.db).elim w
        fun r => { db := r.1, spawned := w.spawned ++ r.2 } :=
  Op.transaction_bind_snd (fun tasks w => { w with spawned := w.spawned ++ tasks }) hk w

/-- A call leaves what its transaction leaves, and the task, or nothing at all. -/
theorem run_eq (op : GroupOperation) (f : Faults GroupAwait Error) (w : GroupState) :
    op.run f w = (op.transact f w.db).elim w
      fun r => { db := r.1, spawned := w.spawned ++ r.2 } := by
  cases op with
  | createGroup creator name group now =>
    simp only [run, GroupService.createGroup, Op.handle_snd]
    exact transaction_bind_snd (fun _ _ => rfl) w
  | addMember actor group target now =>
    simp only [run, GroupService.addMember, decorated, Op.handle_snd]
    exact transaction_bind_snd (fun _ _ => rfl) w
  | removeMember actor group target =>
    simp only [run, GroupService.removeMember, decorated, Op.handle_snd]
    exact transaction_bind_snd (fun _ _ => rfl) w
  | deleteGroup actor group =>
    simp only [run, GroupService.deleteGroup, decorated, Op.handle_snd]
    exact transaction_bind_snd (fun _ _ => rfl) w

end GroupOperation
end
end Messenger
