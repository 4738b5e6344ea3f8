import Mathlib.Data.Multiset.Filter
import Messenger.Services.Group
import Messenger.Services.Messaging

/-! What a user who is not a member of a group can learn about it: the group reads of the API, in two
states of the database that differ in what only members should see. -/

namespace Messenger
open Transactional MessagingService

namespace GroupService

/-- The router passes both ids by keyword. -/
def getGroupDetails (actorId groupId : UUID) (d : Db) : Except Error Group :=
  let kwargs := [("actor_id", actorId.str), ("group_id", groupId.str)]
  let found : Except Error Group := do
    let group ← GroupQueries.getGroupById groupId d
    match MessageQueries.getMembership groupId actorId d with
    | .ok _ => .ok group
    | .error e => .error (.db e)
  match found with
  | .ok group => .ok group
  | .error e =>
    match handleDbNotFoundError (fun _ => none) (fun _ => none) kwargs e with
    | .ok group => .ok group
    | .error e => handleDbConstraintError (fun _ => none) kwargs e

def listUserGroups (userId : UUID) (d : Db) : List Group := GroupQueries.listUserGroups userId d

def listGroupMembers (groupId : UUID) (d : Db) : List Membership :=
  GroupQueries.listGroupMemberships groupId d

end GroupService

inductive GroupRead where
  | getGroupDetails (groupId : UUID)
  | listUserGroups
  | listGroupMembers (groupId : UUID)
  | getGroupHistory (groupId : UUID) (before : Option Timestamp) (limit : ℕ)

/-- Queries without an `ORDER BY` promise no order of their rows. -/
inductive GroupAnswer where
  | group (g : Group)
  | groups (gs : Multiset Group)
  | members (ms : Multiset Membership)
  | messages (ms : List GroupMessage)

def GroupRead.answer (env : MessagingEnv) (actorId : UUID) (d : Db) :
    GroupRead → Except Error GroupAnswer
  | getGroupDetails groupId => (GroupService.getGroupDetails actorId groupId d).map .group
  | listUserGroups => .ok (.groups (GroupService.listUserGroups actorId d))
  | listGroupMembers groupId => .ok (.members (GroupService.listGroupMembers groupId d))
  | getGroupHistory groupId before limit =>
    (MessagingService.getGroupHistory env actorId groupId before limit (fun _ => none) { db := d }).1.map
      .messages

/-- The states differ only in the memberships of `g` that others than `a` hold, and in the messages
of `g`. -/
structure Db.SameBeside (g a : UUID) (d d' : Db) : Prop where
  users : d.users = d'.users
  friendships : d.friendships = d'.friendships
  accessTokens : d.accessTokens = d'.accessTokens
  refreshTokens : d.refreshTokens = d'.refreshTokens
  groups : d.groups = d'.groups
  memberships : d.memberships.rows.filter (fun m => m.groupId ≠ g || m.userId = a) =
    d'.memberships.rows.filter fun m => m.groupId ≠ g || m.userId = a
  directMessages : d.directMessages = d'.directMessages
  groupMessages : d.groupMessages.rows.filter (fun m => m.groupId ≠ g) =
    d'.groupMessages.rows.filter fun m => m.groupId ≠ g

theorem filter_congr_of_shared {ρ : Type} {rows rows' : List ρ} {p q : ρ → Bool}
    (h : rows.filter p = rows'.filter p) (hq : ∀ r, q r = true → p r = true) :
    rows.filter q = rows'.filter q := by
  have hnarrow (rows : List ρ) : (rows.filter p).filter q = rows.filter q := by
    rw [List.filter_filter]
    refine List.filter_congr fun r _ => ?_
    cases hr : q r with
    | true => rw [hq r hr, Bool.and_true]
    | false => rw [Bool.false_and]
  rw [← hnarrow rows, ← hnarrow rows', h]

variable {env : MessagingEnv} {d d' : Db} {g a : UUID} {groupId : UUID}

namespace Db.SameBeside

theorem get?_membership (h : SameBeside g a d d') {k : UUID × UUID} (hk : k.1 ≠ g ∨ k.2 = a) :
    d.memberships.get? k = d'.memberships.get? k := by
  have hrows : d.memberships.rows.filter (fun m => m.pk = k) =
      d'.memberships.rows.filter fun m => m.pk = k := by
    refine filter_congr_of_shared h.memberships fun m hm => ?_
    obtain rfl : m.pk = k := of_decide_eq_true hm
    simpa [Membership.pk] using hk
  ext m
  have hmem (d : Db) : d.memberships.get? k = some m ↔
      m ∈ d.memberships.rows.filter fun m => m.pk = k := by
    rw [Table.get?_eq_some, List.mem_filter, decide_eq_true_eq]
  rw [hmem, hmem, hrows]

theorem getMembership (h : SameBeside g a d d') (groupId : UUID) :
    MessageQueries.getMembership groupId a d = MessageQueries.getMembership groupId a d' := by
  unfold MessageQueries.getMembership
  rw [h.get?_membership (k := (groupId, a)) (.inr rfl)]

theorem getGroupDetails (h : SameBeside g a d d') (groupId : UUID) :
    GroupService.getGroupDetails a groupId d = GroupService.getGroupDetails a groupId d' := by
  unfold GroupService.getGroupDetails GroupQueries.getGroupById
  rw [h.groups, h.getMembership groupId]

theorem listUserGroups (h : SameBeside g a d d') :
    GroupService.listUserGroups a d = GroupService.listUserGroups a d' := by
  unfold GroupService.listUserGroups GroupQueries.listUserGroups
  rw [h.groups]
  refine List.filter_congr fun group _ => ?_
  rw [h.get?_membership (k := (group.groupId, a)) (.inr rfl)]

theorem listGroupMembers (h : SameBeside g a d d') (hg : groupId ≠ g) :
    GroupService.listGroupMembers groupId d = GroupService.listGroupMembers groupId d' := by
  refine filter_congr_of_shared h.memberships fun m hm => ?_
  have hm : m.groupId = groupId := of_decide_eq_true hm
  simp [hm, hg]

theorem getGroupMessagesTimeline (h : SameBeside g a d d') (hg : groupId ≠ g)
    (order : NewestFirst GroupMessage (·.createdAt)) (before : Timestamp) (limit : ℕ) :
    MessageQueries.getGroupMessagesTimeline order groupId before limit d =
      MessageQueries.getGroupMessagesTimeline order groupId before limit d' := by
  unfold MessageQueries.getGroupMessagesTimeline
  have hrows := filter_congr_of_shared (q := fun m => m.groupId = groupId && decide (m.createdAt < before))
    h.groupMessages fun m hm => ?_
  · rw [hrows]
  · have hm : m.groupId = groupId := of_decide_eq_true (Bool.and_eq_true_iff.mp hm).1
    simp [hm, hg]

/-- A history is read after the caller's membership, and a user who is not a member reads none. -/
theorem getGroupHistory (h : SameBeside g a d d') (hne : ¬ d.Member g a) (groupId : UUID)
    (before : Option Timestamp) (limit : ℕ) :
    (MessagingService.getGroupHistory env a groupId before limit (fun _ => none) { db := d }).1 =
      (MessagingService.getGroupHistory env a groupId before limit (fun _ => none) { db := d' }).1 := by
  refine decorated_fst_congr ?_
  have hsame := h.getMembership groupId
  cases hm : MessageQueries.getMembership groupId a d with
  | error e =>
    have hbody (d : Db) (hm : MessageQueries.getMembership groupId a d = .error e) :=
      connection_of_error (w := { db := d }) rfl
        (Tx.bind_of_error (k := fun _ => fetch .getGroupMessagesTimeline fun d =>
          .ok (MessageQueries.getGroupMessagesTimeline env.timeline groupId (before.getD env.now)
            limit d)) (fetch_of_error (p := .getMembership) (f := fun _ => none) rfl hm))
    exact (congrArg Prod.fst (hbody d hm)).trans (congrArg Prod.fst (hbody d' (hsame ▸ hm))).symm
  | ok m =>
    have hg : groupId ≠ g := by
      rintro rfl
      refine hne ?_
      unfold MessageQueries.getMembership at hm
      split at hm
      · next hrow => exact Option.isSome_iff_exists.mpr ⟨_, hrow⟩
      · cases hm
    have hbody (d : Db) (hm : MessageQueries.getMembership groupId a d = .ok m) :=
      connection_of_ok (w := { db := d }) rfl
        ((Tx.bind_of_ok (k := fun _ => fetch .getGroupMessagesTimeline fun d =>
          .ok (MessageQueries.getGroupMessagesTimeline env.timeline groupId (before.getD env.now)
            limit d)) (fetch_of_ok (p := .getMembership) (f := fun _ => none) rfl hm)).trans
          (fetch_of_ok rfl rfl))
    refine (congrArg Prod.fst (hbody d hm)).trans
      (Eq.trans ?_ (congrArg Prod.fst (hbody d' (hsame ▸ hm))).symm)
    exact congrArg Except.ok (h.getGroupMessagesTimeline hg env.timeline _ limit)

theorem listGroupMembers_self :
    (GroupService.listGroupMembers g d : Multiset Membership) = GroupService.listGroupMembers g d' ↔
      ∀ u, d.memberships.get? (g, u) = d'.memberships.get? (g, u) := by
  have hmem (d : Db) (m : Membership) : m ∈ GroupService.listGroupMembers g d ↔
      m ∈ d.memberships.rows ∧ m.groupId = g := by
    simp [GroupService.listGroupMembers, GroupQueries.listGroupMemberships, List.mem_filter]
  have hnodup (d : Db) : (GroupService.listGroupMembers g d).Nodup :=
    (d.memberships.nodup.of_map _).filter _
  rw [Multiset.coe_eq_coe, List.perm_ext_iff_of_nodup (hnodup d) (hnodup d')]
  simp only [hmem]
  constructor
  · intro h u
    ext m
    rw [Table.get?_eq_some, Table.get?_eq_some]
    have hkey : m.pk = (g, u) → m.groupId = g := fun hk => (Prod.mk.inj hk).1
    constructor
    · rintro ⟨hrow, hk⟩
      exact ⟨((h m).mp ⟨hrow, hkey hk⟩).1, hk⟩
    · rintro ⟨hrow, hk⟩
      exact ⟨((h m).mpr ⟨hrow, hkey hk⟩).1, hk⟩
  · intro h m
    refine and_congr_left fun hg => ?_
    have hrow (d : Db) : m ∈ d.memberships.rows ↔ d.memberships.get? (g, m.userId) = some m := by
      rw [Table.get?_eq_some, ← hg]
      exact (and_iff_left rfl).symm
    rw [hrow, hrow, h]

end Db.SameBeside

/-- A user who is not a member reads the same answers in both states exactly if the group has the same
members in both. -/
theorem group_reads_confidential (a g : UUID) (d d' : Db) (hne : ¬ d.Member g a)
    (hsame : d.SameBeside g a d') :
    (∀ env (r : GroupRead), r.answer env a d = r.answer env a d') ↔
      ∀ u, d.memberships.get? (g, u) = d'.memberships.get? (g, u) := by
  rw [← Db.SameBeside.listGroupMembers_self]
  constructor
  · intro h
    let env : MessagingEnv := ⟨0, ⟨0⟩, .prefer ⟨⟨0⟩, ⟨0⟩, false, 0, 0⟩, .stable _, .stable _⟩
    exact GroupAnswer.members.inj (Except.ok.inj (h env (.listGroupMembers g)))
  · intro hmembers env r
    cases r with
    | getGroupDetails groupId =>
      exact congrArg (Except.map GroupAnswer.group) (hsame.getGroupDetails groupId)
    | listUserGroups =>
      exact congrArg (fun gs : List Group => Except.ok (GroupAnswer.groups gs)) hsame.listUserGroups
    | listGroupMembers groupId =>
      by_cases hg : groupId = g
      · subst hg
        exact congrArg (fun ms => Except.ok (GroupAnswer.members ms)) hmembers
      · exact congrArg (fun ms : List Membership => Except.ok (GroupAnswer.members ms))
          (hsame.listGroupMembers hg)
    | getGroupHistory groupId before limit =>
      exact congrArg (Except.map GroupAnswer.messages)
        (hsame.getGroupHistory hne groupId before limit)

namespace Sample

def account (id : UUID) (name : String) : User :=
  { userId := id, username := name, passwordHash := "", createdAt := 0 }

def ownGroup : Db :=
  { users := ((Table.empty.insertNew (account ⟨1⟩ "ada")).insertNew (account ⟨2⟩ "bob")).insertNew
      (account ⟨3⟩ "eve")
    groups := Table.empty.insertNew ⟨⟨7⟩, "friends", ⟨1⟩, 0⟩
    memberships := Table.empty.insertNew ⟨⟨7⟩, ⟨1⟩, 0⟩ }

def withMessage : Db :=
  { ownGroup with groupMessages := Table.empty.insertNew ⟨⟨8⟩, ⟨7⟩, ⟨1⟩, "hello", 1⟩ }

def withMember : Db :=
  { ownGroup with memberships := ownGroup.memberships.insertNew ⟨⟨7⟩, ⟨2⟩, 1⟩ }

def messagingEnv : MessagingEnv :=
  ⟨0, ⟨0⟩, .prefer ⟨⟨0⟩, ⟨0⟩, false, 0, 0⟩, .stable _, .stable _⟩

end Sample

/-- The messages of a group stay hidden from a user who is not a member. -/
theorem group_reads_confidential_message :
    GroupRead.answer Sample.messagingEnv ⟨3⟩ Sample.ownGroup (.getGroupHistory ⟨7⟩ none 50) =
      GroupRead.answer Sample.messagingEnv ⟨3⟩ Sample.withMessage (.getGroupHistory ⟨7⟩ none 50) :=
  (group_reads_confidential ⟨3⟩ ⟨7⟩ Sample.ownGroup Sample.withMessage (by decide)
    ⟨rfl, rfl, rfl, rfl, rfl, rfl, rfl, by decide⟩).mpr (fun _ => rfl) Sample.messagingEnv _

/-- Who the members are does not. -/
theorem not_group_reads_confidential :
    ¬ Sample.ownGroup.Member ⟨7⟩ ⟨3⟩ ∧ Sample.ownGroup.SameBeside ⟨7⟩ ⟨3⟩ Sample.withMember ∧
      GroupRead.answer Sample.messagingEnv ⟨3⟩ Sample.ownGroup (.listGroupMembers ⟨7⟩) ≠
        GroupRead.answer Sample.messagingEnv ⟨3⟩ Sample.withMember (.listGroupMembers ⟨7⟩) := by
  refine ⟨by decide, ⟨rfl, rfl, rfl, rfl, rfl, by decide, rfl, rfl⟩, fun h => ?_⟩
  have hlength := congrArg Multiset.card (GroupAnswer.members.inj (Except.ok.inj h))
  exact absurd hlength (by decide)

end Messenger
