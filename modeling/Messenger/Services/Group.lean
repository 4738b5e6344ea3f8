import Mathlib.Data.Finset.Dedup
import Messenger.Services.Errors

/-! `GroupService`: the transactions of the four operations that change who belongs to a group, and
the event that each spawns once it has committed. -/

namespace Messenger

inductive MembershipAction where
  | join
  | leave
  deriving DecidableEq

/-- The events of the channel `ws_pushes` that change the routing. -/
inductive BusEvent where
  | groupMembership (userId groupId : UUID) (action : MembershipAction)
  | groupDeleted (groupId : UUID)
  deriving DecidableEq

namespace GroupQueries

def getGroupById (id : UUID) (d : Db) : Except Error Group :=
  match d.groups.get? id with
  | some group => .ok group
  | none => .error (.db (.notFound .group id.str))

def listUserGroups (userId : UUID) (d : Db) : List Group :=
  d.groups.rows.filter fun g => (d.memberships.get? (g.groupId, userId)).isSome

def listGroupMemberships (groupId : UUID) (d : Db) : List Membership :=
  d.memberships.rows.filter (·.groupId = groupId)

def createGroup (group : Group) (d : Db) : Except Error Db :=
  if (d.groups.get? group.groupId).isSome then
    .error (.db (.constraintViolation "groups" .pkGroups))
  else if (d.users.get? group.createdBy).isNone then
    .error (.db (.constraintViolation "groups" .fkGroupsCreatedBy))
  else .ok { d with groups := d.groups.insertNew group }

/-- Whichever foreign key is violated, the user is reported to be missing. -/
def addGroupMember (m : Membership) (d : Db) : Except Error Db :=
  if (d.memberships.get? m.pk).isSome then
    .error (.db (.constraintViolation "memberships" .pkMemberships))
  else if (d.groups.get? m.groupId).isNone || (d.users.get? m.userId).isNone then
    .error (.db (.notFound .user m.userId.str))
  else .ok { d with memberships := d.memberships.insertNew m }

def removeGroupMember (groupId userId : UUID) (d : Db) : Except Error Db :=
  if (d.memberships.get? (groupId, userId)).isNone then
    .error (.db (.notFound .membership ("Group:" ++ groupId.str ++ " User:" ++ userId.str)))
  else .ok { d with memberships := d.memberships.deleteWhere (·.pk = (groupId, userId)) }

/-- `DELETE FROM groups WHERE group_id = $1 AND created_by = $2`, which cascades. -/
def deleteGroup (groupId createdBy : UUID) (d : Db) : Except Error Db :=
  if ((d.groups.get? groupId).filter (·.createdBy = createdBy)).isNone then
    .error (.db (.notFound .group groupId.str))
  else .ok
    { d with
      groups := d.groups.deleteWhere (·.groupId = groupId)
      memberships := d.memberships.deleteWhere (·.groupId = groupId)
      groupMessages := d.groupMessages.deleteWhere (·.groupId = groupId) }

end GroupQueries

/-- The calls, with the fresh id and the clock reading that a new row takes. -/
inductive GroupOperation where
  | createGroup (creatorId : UUID) (name : String) (groupId : UUID) (now : Timestamp)
  | addMember (actorId groupId targetUserId : UUID) (now : Timestamp)
  | removeMember (actorId groupId targetUserId : UUID)
  | deleteGroup (actorId groupId : UUID)
  deriving DecidableEq

namespace GroupService
open GroupQueries

def insufficient (message : String) : Error := .service (.insufficientGroupPermission message)

def createGroupTx (creatorId : UUID) (name : String) (groupId : UUID) (now : Timestamp) (d : Db) :
    Except Error Db := do
  let d ← createGroup ⟨groupId, name, creatorId, now⟩ d
  addGroupMember ⟨groupId, creatorId, now⟩ d

def addMemberTx (actorId groupId targetUserId : UUID) (now : Timestamp) (d : Db) :
    Except Error Db := do
  let group ← getGroupById groupId d
  if group.createdBy ≠ actorId then
    .error (insufficient "Only the group creator can add new members.")
  else addGroupMember ⟨groupId, targetUserId, now⟩ d

def removeMemberTx (actorId groupId targetUserId : UUID) (d : Db) : Except Error Db := do
  let group ← getGroupById groupId d
  if targetUserId = group.createdBy then
    .error (insufficient "Group creator cannot leave the group. Delete the group instead.")
  else if !(decide (actorId = targetUserId) || decide (group.createdBy = actorId)) then
    .error (insufficient "Only the group creator can remove other members.")
  else removeGroupMember groupId targetUserId d

def deleteGroupTx (actorId groupId : UUID) (d : Db) : Except Error Db := do
  let group ← getGroupById groupId d
  if group.createdBy ≠ actorId then
    .error (insufficient "Only the group creator can delete this group.")
  else deleteGroup groupId actorId d

end GroupService

namespace GroupOperation
open GroupService

def tx : GroupOperation → Db → Except Error Db
  | createGroup creator name group now => createGroupTx creator name group now
  | addMember actor group target now => addMemberTx actor group target now
  | removeMember actor group target => removeMemberTx actor group target
  | deleteGroup actor group => deleteGroupTx actor group

def kwargs : GroupOperation → Kwargs
  | createGroup creator name _ _ => [("creator_id", creator.str), ("name", name)]
  | addMember actor group target _ | removeMember actor group target =>
    [("actor_id", actor.str), ("group_id", group.str), ("target_user_id", target.str)]
  | deleteGroup actor group => [("actor_id", actor.str), ("group_id", group.str)]

/-- The error that the call raises for an error of its transaction; `create_group` has no handler for
missing entities. -/
def raised (op : GroupOperation) (e : Error) : Except Error Db :=
  match op with
  | createGroup .. => handleDbConstraintError (fun _ => none) op.kwargs e
  | _ =>
    match handleDbNotFoundError (fun _ => none) (fun _ => none) op.kwargs e with
    | .ok d => .ok d
    | .error e => handleDbConstraintError (fun _ => none) op.kwargs e

def call (op : GroupOperation) (d : Db) : Except Error Db :=
  match op.tx d with
  | .ok d' => .ok d'
  | .error e => op.raised e

def event : GroupOperation → BusEvent
  | createGroup creator _ group _ => .groupMembership creator group .join
  | addMember _ group target _ => .groupMembership target group .join
  | removeMember _ group target => .groupMembership target group .leave
  | deleteGroup _ group => .groupDeleted group

theorem call_eq_ok {op : GroupOperation} {d d' : Db} : op.call d = .ok d' ↔ op.tx d = .ok d' := by
  unfold call
  cases htx : op.tx d with
  | ok d₁ => rfl
  | error e =>
    refine ⟨fun h => ?_, nofun⟩
    have hraised : op.raised e ≠ .ok d' := by
      unfold raised
      split
      · exact handleDbConstraintError_ne_ok
      · split
        · next hsuppressed =>
          obtain ⟨_, _, -, hsome⟩ := handleDbNotFoundError_eq_ok hsuppressed
          exact absurd hsome (by simp)
        · exact handleDbConstraintError_ne_ok
    exact absurd h hraised

end GroupOperation

/-! ### What an operation does to the memberships -/

namespace Db

def Member (d : Db) (groupId userId : UUID) : Prop := (d.memberships.get? (groupId, userId)).isSome

instance (d : Db) (groupId userId : UUID) : Decidable (d.Member groupId userId) := by
  unfold Member
  infer_instance

def groupIds (d : Db) (userId : UUID) : Finset UUID :=
  ((GroupQueries.listUserGroups userId d).map (·.groupId)).toFinset

theorem mem_groupIds {d : Db} {g u : UUID} :
    g ∈ d.groupIds u ↔ (d.groups.get? g).isSome ∧ d.Member g u := by
  simp only [groupIds, GroupQueries.listUserGroups, List.mem_toFinset, List.mem_map, List.mem_filter,
    Option.isSome_iff_exists (x := d.groups.get? g), Table.get?_eq_some, Member]
  constructor
  · rintro ⟨group, ⟨hgroup, hmember⟩, rfl⟩
    exact ⟨⟨group, hgroup, rfl⟩, hmember⟩
  · rintro ⟨⟨group, hgroup, rfl⟩, hmember⟩
    exact ⟨group, ⟨hgroup, hmember⟩, rfl⟩

end Db

namespace GroupOperation
open GroupService GroupQueries

def Removes (u g : UUID) : GroupOperation → Prop
  | removeMember _ g' u' => g' = g ∧ u' = u
  | deleteGroup _ g' => g' = g
  | _ => False

def Adds (u g : UUID) : GroupOperation → Prop
  | createGroup u' _ g' _ => u' = u ∧ g' = g
  | addMember _ g' u' _ => u' = u ∧ g' = g
  | _ => False

variable {op : GroupOperation} {d d' : Db} {u g : UUID}

theorem createGroup_eq_ok {group : Group} (h : GroupQueries.createGroup group d = .ok d') :
    (d.users.get? group.createdBy).isSome ∧ d' = { d with groups := d.groups.insertNew group } := by
  unfold GroupQueries.createGroup at h
  split at h
  · cases h
  · split at h
    · cases h
    · next hcreator =>
      rw [Bool.not_eq_true, Option.isNone_eq_false_iff] at hcreator
      exact ⟨hcreator, (Except.ok.inj h).symm⟩

theorem addGroupMember_eq_ok {m : Membership} (h : addGroupMember m d = .ok d') :
    d' = { d with memberships := d.memberships.insertNew m } ∧ (d.groups.get? m.groupId).isSome := by
  unfold addGroupMember at h
  split at h
  · cases h
  · split at h
    · cases h
    · next hfk =>
      refine ⟨(Except.ok.inj h).symm, ?_⟩
      simp only [Bool.or_eq_true, not_or, Bool.not_eq_true, Option.isNone_eq_false_iff] at hfk
      exact hfk.1

theorem member_insertNew {m : Membership} :
    ((d.memberships.insertNew m).get? (g, u)).isSome ↔ d.Member g u ∨ m.userId = u ∧ m.groupId = g := by
  rw [Table.get?_insertNew]
  by_cases hk : m.pk = (g, u)
  · obtain ⟨hg, hu⟩ := Prod.mk.inj hk
    simp [Db.Member, hk, hg, hu]
  · have hne : ¬ (m.userId = u ∧ m.groupId = g) := fun ⟨hu, hg⟩ => hk (by rw [Membership.pk, hg, hu])
    simp [Db.Member, hk, hne]

theorem bind_eq_ok {α β : Type} {m : Except Error α} {k : α → Except Error β} {b : β} :
    (m >>= k) = .ok b ↔ ∃ a, m = .ok a ∧ k a = .ok b := by
  cases m with
  | ok a =>
    constructor
    · exact fun h => ⟨a, rfl, h⟩
    · rintro ⟨a', ha, h⟩
      exact Except.ok.inj ha ▸ h
  | error e => exact ⟨nofun, fun ⟨_, hm, _⟩ => nomatch hm⟩

theorem getGroupById_eq_ok {row : Group} : getGroupById g d = .ok row ↔ d.groups.get? g = some row := by
  unfold getGroupById
  cases d.groups.get? g <;> simp

theorem createGroupTx_eq_ok {creator group : UUID} {name : String} {now : Timestamp}
    (h : createGroupTx creator name group now d = .ok d') :
    d' = { d with
      groups := d.groups.insertNew ⟨group, name, creator, now⟩
      memberships := d.memberships.insertNew ⟨group, creator, now⟩ } ∧
      (d'.groups.get? group).isSome := by
  obtain ⟨d₁, hcreate, hadd⟩ := bind_eq_ok.mp h
  obtain ⟨-, rfl⟩ := createGroup_eq_ok hcreate
  obtain ⟨rfl, hgroup⟩ := addGroupMember_eq_ok hadd
  exact ⟨rfl, hgroup⟩

theorem addMemberTx_eq_ok {actor group target : UUID} {now : Timestamp}
    (h : addMemberTx actor group target now d = .ok d') :
    d' = { d with memberships := d.memberships.insertNew ⟨group, target, now⟩ } ∧
      (d'.groups.get? group).isSome := by
  obtain ⟨g, -, hrest⟩ := bind_eq_ok.mp h
  split at hrest
  · cases hrest
  · obtain ⟨rfl, hgroup⟩ := addGroupMember_eq_ok hrest
    exact ⟨rfl, hgroup⟩

theorem removeGroupMember_eq_ok (h : removeGroupMember g u d = .ok d') :
    d.Member g u ∧ d' = { d with memberships := d.memberships.deleteWhere (·.pk = (g, u)) } := by
  unfold removeGroupMember at h
  split at h
  · cases h
  · next hstored =>
    rw [Bool.not_eq_true, Option.isNone_eq_false_iff] at hstored
    exact ⟨hstored, (Except.ok.inj h).symm⟩

theorem deleteGroup_eq_ok {createdBy : UUID} (h : GroupQueries.deleteGroup g createdBy d = .ok d') :
    d' = { d with
      groups := d.groups.deleteWhere (·.groupId = g)
      memberships := d.memberships.deleteWhere (·.groupId = g)
      groupMessages := d.groupMessages.deleteWhere (·.groupId = g) } := by
  unfold GroupQueries.deleteGroup at h
  split at h
  · cases h
  · exact (Except.ok.inj h).symm

theorem removeMemberTx_eq_ok {actor group target : UUID}
    (h : removeMemberTx actor group target d = .ok d') :
    d' = { d with memberships := d.memberships.deleteWhere (·.pk = (group, target)) } := by
  obtain ⟨g, -, hrest⟩ := bind_eq_ok.mp h
  split at hrest
  · cases hrest
  · split at hrest
    · cases hrest
    · exact (removeGroupMember_eq_ok hrest).2

theorem deleteGroupTx_eq_ok {actor group : UUID} (h : deleteGroupTx actor group d = .ok d') :
    d' = { d with
      groups := d.groups.deleteWhere (·.groupId = group)
      memberships := d.memberships.deleteWhere (·.groupId = group)
      groupMessages := d.groupMessages.deleteWhere (·.groupId = group) } := by
  obtain ⟨g, -, hrest⟩ := bind_eq_ok.mp h
  split at hrest
  · cases hrest
  · exact deleteGroup_eq_ok hrest

theorem tx_frame (h : op.tx d = .ok d') :
    ∃ groups memberships groupMessages, d' = { d with groups, memberships, groupMessages } := by
  cases op with
  | createGroup => exact ⟨_, _, _, (createGroupTx_eq_ok h).1⟩
  | addMember => exact ⟨_, _, _, (addMemberTx_eq_ok h).1⟩
  | removeMember => exact ⟨_, _, _, removeMemberTx_eq_ok h⟩
  | deleteGroup => exact ⟨_, _, _, deleteGroupTx_eq_ok h⟩

theorem member_iff (h : op.tx d = .ok d') :
    d'.Member g u ↔ d.Member g u ∧ ¬ op.Removes u g ∨ op.Adds u g := by
  cases op with
  | createGroup creator name group now =>
    obtain ⟨rfl, -⟩ := createGroupTx_eq_ok h
    simp only [Removes, Adds, not_false_eq_true, and_true]
    exact member_insertNew
  | addMember actor group target now =>
    obtain ⟨rfl, -⟩ := addMemberTx_eq_ok h
    simp only [Removes, Adds, not_false_eq_true, and_true]
    exact member_insertNew
  | removeMember actor group target =>
    obtain rfl := removeMemberTx_eq_ok h
    simp only [Db.Member, Table.get?_deleteWhere, Removes, Adds, or_false]
    cases hm : d.memberships.get? (g, u) with
    | none => simp
    | some m =>
      have hk := Table.key_of_get? hm
      simp only [Option.filter, hk, Prod.mk.injEq, Bool.not_eq_true', decide_eq_false_iff_not,
        Option.isSome_ite, Option.isSome_some, true_and, eq_comm (a := group), eq_comm (a := target)]
  | deleteGroup actor group =>
    obtain rfl := deleteGroupTx_eq_ok h
    simp only [Db.Member, Table.get?_deleteWhere, Removes, Adds, or_false]
    cases hm : d.memberships.get? (g, u) with
    | none => simp
    | some m =>
      have hpk : m.pk = (g, u) := Table.key_of_get? hm
      have hk : m.groupId = g := (Prod.mk.inj hpk).1
      simp [Option.filter, hk, eq_comm (a := group)]

theorem group_of_adds (h : op.tx d = .ok d') (hadds : op.Adds u g) : (d'.groups.get? g).isSome := by
  cases op with
  | createGroup creator name group now =>
    obtain ⟨-, rfl⟩ := hadds
    exact (createGroupTx_eq_ok h).2
  | addMember actor group target now =>
    obtain ⟨-, rfl⟩ := hadds
    exact (addMemberTx_eq_ok h).2
  | removeMember actor group target => exact hadds.elim
  | deleteGroup actor group => exact hadds.elim

theorem not_member_of_addGroupMember {m : Membership} (h : addGroupMember m d = .ok d') :
    ¬ d.Member m.groupId m.userId := by
  unfold addGroupMember at h
  split at h
  · cases h
  · next hfresh => exact hfresh

theorem not_member_of_adds (h : op.tx d = .ok d') (hadds : op.Adds u g) : ¬ d.Member g u := by
  cases op with
  | createGroup creator name group now =>
    obtain ⟨rfl, rfl⟩ := hadds
    obtain ⟨d₁, hcreate, hadd⟩ := bind_eq_ok.mp h
    obtain ⟨-, rfl⟩ := createGroup_eq_ok hcreate
    exact not_member_of_addGroupMember hadd
  | addMember actor group target now =>
    obtain ⟨rfl, rfl⟩ := hadds
    obtain ⟨row, -, hrest⟩ := bind_eq_ok.mp h
    split at hrest
    · cases hrest
    · exact not_member_of_addGroupMember hrest
  | removeMember actor group target => exact hadds.elim
  | deleteGroup actor group => exact hadds.elim

theorem member_of_removeMemberTx {actor : UUID} (h : removeMemberTx actor g u d = .ok d') :
    d.Member g u := by
  obtain ⟨row, -, hrest⟩ := bind_eq_ok.mp h
  split at hrest
  · cases hrest
  · split at hrest
    · cases hrest
    · exact (removeGroupMember_eq_ok hrest).1

/-! ### Who may call an operation -/

theorem creator_of_addMemberTx {actor : UUID} {now : Timestamp} (h : addMemberTx actor g u now d = .ok d') :
    ∃ row, d.groups.get? g = some row ∧ row.createdBy = actor := by
  obtain ⟨row, hget, hrest⟩ := bind_eq_ok.mp h
  split at hrest
  · cases hrest
  · next hcreator => exact ⟨row, getGroupById_eq_ok.mp hget, not_not.mp hcreator⟩

theorem actor_of_removeMemberTx {actor : UUID} (h : removeMemberTx actor g u d = .ok d') :
    ∃ row, d.groups.get? g = some row ∧ u ≠ row.createdBy ∧ (actor = u ∨ row.createdBy = actor) := by
  obtain ⟨row, hget, hrest⟩ := bind_eq_ok.mp h
  refine ⟨row, getGroupById_eq_ok.mp hget, ?_⟩
  split at hrest
  · cases hrest
  · next hnot =>
    split at hrest
    · cases hrest
    · next hallowed =>
      simp only [Bool.not_eq_true', Bool.not_eq_false, Bool.or_eq_true, decide_eq_true_eq] at hallowed
      exact ⟨hnot, hallowed⟩

theorem creator_of_deleteGroupTx {actor : UUID} (h : deleteGroupTx actor g d = .ok d') :
    ∃ row, d.groups.get? g = some row ∧ row.createdBy = actor := by
  obtain ⟨row, hget, hrest⟩ := bind_eq_ok.mp h
  split at hrest
  · cases hrest
  · next hcreator => exact ⟨row, getGroupById_eq_ok.mp hget, not_not.mp hcreator⟩

theorem group_kept (h : op.tx d = .ok d') (hg : (d.groups.get? g).isSome)
    (hop : ∀ actor, op ≠ .deleteGroup actor g) : (d'.groups.get? g).isSome := by
  cases op with
  | createGroup creator name group now =>
    obtain ⟨rfl, -⟩ := createGroupTx_eq_ok h
    obtain ⟨row, hrow⟩ := Option.isSome_iff_exists.mp hg
    simp [Table.get?_insertNew, hrow]
  | addMember actor group target now =>
    obtain ⟨rfl, -⟩ := addMemberTx_eq_ok h
    exact hg
  | removeMember actor group target =>
    obtain rfl := removeMemberTx_eq_ok h
    exact hg
  | deleteGroup actor group =>
    obtain rfl := deleteGroupTx_eq_ok h
    obtain ⟨row, hrow⟩ := Option.isSome_iff_exists.mp hg
    have hne : g ≠ group := by
      rintro rfl
      exact hop actor rfl
    simp [Table.get?_deleteWhere, hrow, Option.filter, Table.key_of_get? hrow, hne]

end GroupOperation
end Messenger
