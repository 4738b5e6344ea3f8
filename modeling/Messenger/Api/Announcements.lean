import Messenger.Api.Network
import Messenger.Social.Notices

/-! The push tasks that a deployment spawns. They announce what its requests have done in the network that
it stands for, all of it, in the order in which it was done. -/

namespace Messenger
open Transactional Mealy

def PushTask.notice : PushTask → Notice UUID UUID Saying
  | .message (.toUser userId e) => .said e.senderId userId (e.messageId, e.content, e.createdAt)
  | .message (.toGroup groupId e senderId) => .posted senderId groupId (e.messageId, e.content, e.createdAt)
  | .group (.pushGroupMembershipChange userId groupId .join) => .joined userId groupId
  | .group (.pushGroupMembershipChange userId groupId .leave) => .left userId groupId
  | .group (.handleGroupDeletionSideEffects groupId _) => .disbanded groupId

namespace UserCall

def tasks (d : Db) : UserCall → List PushTask
  | service (.group op f) => ((op.transact f d).elim [] Prod.snd).map .group
  | service (.message op f) => ((op.transact f d).elim [] Prod.snd).map .message
  | service (.auth ..) | friendship _ => []

variable {c : UserCall} {d d' : Db}

theorem tasks_of_none (hc : c.commit d = none) : c.tasks d = [] := by
  cases c with
  | friendship c => rfl
  | service c =>
    cases c with
    | auth op f => rfl
    | group op f =>
      have hnone : op.transact f d = none := Option.map_eq_none_iff.mp (commit_group.symm.trans hc)
      rw [tasks, hnone]
      rfl
    | message op f =>
      have hnone : op.transact f d = none := Option.map_eq_none_iff.mp (commit_message.symm.trans hc)
      rw [tasks, hnone]
      rfl

end UserCall

/-- From `s` on, the tasks of the call have been spawned, and if there are any it has committed. -/
structure Spawns (c : Option UserCall) (s s' : AppState) : Prop where
  spawned : s'.spawned = s.spawned ++ c.elim [] (·.tasks s.db)
  committed : ∀ x ∈ c, x.tasks s.db ≠ [] → x.commit s.db = some s'.db

section

variable {α : Type} {statusCode : ℕ} {body : α → Body} {f : ApiFaults} {s s' : AppState}

theorem Spawns.of_commit {c : UserCall} (hspawned : s'.spawned = s.spawned ++ c.tasks s.db)
    (hdb : s'.db = (c.commit s.db).getD s.db) : Spawns (some c) s s' where
  spawned := hspawned
  committed := by
    rintro x ⟨⟩ hne
    cases hcommit : c.commit s.db with
    | none => exact absurd (UserCall.tasks_of_none hcommit) hne
    | some d =>
      rw [hcommit] at hdb
      exact congrArg some hdb.symm

end

namespace Deployment

variable {ω : Type} [DecidableEq ω] {x : Deployment ω} {a : ApiAct ω}

end Deployment

end Messenger
