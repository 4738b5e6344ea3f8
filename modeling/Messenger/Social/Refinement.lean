import Messenger.Lib.TableView
import Messenger.Services.Authority
import Messenger.Social.Network

/-! The database as the network that it stands for. Each call that commits does a deed that the network
allows, or one that the network does not show. -/

namespace Messenger
open Transactional AuthService

abbrev Saying := UUID × String × Timestamp

abbrev MessengerNetwork := Network UUID String UUID Saying
abbrev MessengerDeed := Deed UUID String UUID Saying

def User.account (x : User) : Option (UUID × String) := some (x.userId, x.username)

def Friendship.pair (accepted : Bool) (f : Friendship) : Option (UUID × UUID) :=
  if f.accepted = accepted then some f.pk else none

def Group.founding (g : Group) : Option (UUID × UUID) := some (g.groupId, g.createdBy)

def Membership.pair (m : Membership) : Option (UUID × UUID) := some m.pk

def DirectMessage.said (m : DirectMessage) : UUID × UUID × Saying :=
  (m.senderId, m.recipientId, m.messageId, m.content, m.createdAt)

def GroupMessage.said (m : GroupMessage) : UUID × UUID × Saying :=
  (m.groupId, m.senderId, m.messageId, m.content, m.createdAt)

def Db.network (d : Db) : MessengerNetwork where
  accounts := d.users.shown User.account
  asked := d.friendships.shown (Friendship.pair false)
  friends := d.friendships.shown (Friendship.pair true)
  groups := d.groups.shown Group.founding
  members := d.memberships.shown Membership.pair
  direct := d.directMessages.shown fun m => some m.said
  posts := d.groupMessages.shown fun m => some m.said

/-- What the call does where it succeeds, if that is something that the network shows. -/
def UserCall.deed : UserCall → Option MessengerDeed
  | service (.auth (.register env username _) _) => some (.join env.newUserId username)
  | service (.auth (.deleteAccount id) _) => some (.leave id)
  | service (.auth _ _) => none
  | service (.group (.createGroup creator _ group _) _) => some (.found creator group)
  | service (.group (.addMember actor group target _) _) => some (.invite actor group target)
  | service (.group (.removeMember actor group target) _) => some (.expel actor group target)
  | service (.group (.deleteGroup actor group) _) => some (.disband actor group)
  | service (.message (.sendDirectMessage env sender recipient content) _) =>
    some (.say sender recipient (env.messageId, content, env.now))
  | service (.message (.sendGroupMessage env sender group content) _) =>
    some (.post sender group (env.messageId, content, env.now))
  | friendship (.sendFriendRequest requester addressee _) => some (.ask requester addressee)
  | friendship (.acceptFriendRequest addressee requester _) => some (.accept addressee requester)
  | friendship (.removeOrDeclineFriendship a b) => some (.part a b)

section

variable {d d' : Db} {u v g : UUID}

/-! ### What the network shows of the tables -/

theorem Db.hasUser_network : d.network.HasUser u ↔ (d.users.get? u).isSome := by
  rw [Option.isSome_iff_exists]
  constructor
  · rintro ⟨name, x, hx, haccount⟩
    obtain ⟨rfl, -⟩ := Prod.mk.inj (Option.some.inj haccount)
    exact ⟨x, Table.mem_rows_iff.mp hx⟩
  · rintro ⟨x, hx⟩
    obtain ⟨hrow, rfl⟩ := Table.get?_eq_some.mp hx
    exact ⟨x.username, x, hrow, rfl⟩

theorem Db.nameless_iff {name : String} :
    (∀ v, (v, name) ∉ d.network.accounts) ↔ ∀ x ∈ d.users.rows, x.username ≠ name := by
  constructor
  · rintro h x hx rfl
    exact h x.userId ⟨x, hx, rfl⟩
  · rintro h v ⟨x, hx, haccount⟩
    exact h x hx (Prod.mk.inj (Option.some.inj haccount)).2

theorem Db.mem_groups : (g, u) ∈ d.network.groups ↔ ∃ row, d.groups.get? g = some row ∧ row.createdBy = u := by
  constructor
  · rintro ⟨row, hrow, hfounding⟩
    obtain ⟨rfl, rfl⟩ := Prod.mk.inj (Option.some.inj hfounding)
    exact ⟨row, Table.mem_rows_iff.mp hrow, rfl⟩
  · rintro ⟨row, hrow, rfl⟩
    obtain ⟨hmem, rfl⟩ := Table.get?_eq_some.mp hrow
    exact ⟨row, hmem, rfl⟩

theorem Db.hasGroup_network : d.network.HasGroup g ↔ (d.groups.get? g).isSome := by
  rw [Option.isSome_iff_exists]
  constructor
  · rintro ⟨u, hu⟩
    obtain ⟨row, hrow, -⟩ := mem_groups.mp hu
    exact ⟨row, hrow⟩
  · rintro ⟨row, hrow⟩
    exact ⟨row.createdBy, mem_groups.mpr ⟨row, hrow, rfl⟩⟩

theorem Db.mem_members : (g, u) ∈ d.network.members ↔ d.Member g u := by
  rw [Db.Member, Option.isSome_iff_exists]
  constructor
  · rintro ⟨m, hm, hpair⟩
    rw [← Option.some.inj hpair]
    exact ⟨m, Table.mem_rows_iff.mp hm⟩
  · rintro ⟨m, hm⟩
    obtain ⟨hrow, hpk⟩ := Table.get?_eq_some.mp hm
    exact ⟨m, hrow, congrArg some hpk⟩

theorem Friendship.pair_eq_some {accepted : Bool} {f : Friendship} {p : UUID × UUID} :
    f.pair accepted = some p ↔ f.accepted = accepted ∧ f.pk = p := by
  rw [pair, Option.ite_none_right_eq_some, Option.some_inj]

theorem Db.mem_pairs {accepted : Bool} {p : UUID × UUID} :
    p ∈ d.friendships.shown (Friendship.pair accepted) ↔
      ∃ f, d.friendships.get? p = some f ∧ f.accepted = accepted := by
  constructor
  · rintro ⟨f, hf, hpair⟩
    obtain ⟨haccepted, rfl⟩ := Friendship.pair_eq_some.mp hpair
    exact ⟨f, Table.mem_rows_iff.mp hf, haccepted⟩
  · rintro ⟨f, hf, haccepted⟩
    obtain ⟨hrow, hpk⟩ := Table.get?_eq_some.mp hf
    exact ⟨f, hrow, Friendship.pair_eq_some.mpr ⟨haccepted, hpk⟩⟩

theorem Db.mem_relations {p : UUID × UUID} :
    p ∈ d.network.relations ↔ (d.friendships.get? p).isSome := by
  rw [Option.isSome_iff_exists]
  constructor
  · rintro (hp | hp)
    · exact (mem_pairs.mp hp).imp fun _ => And.left
    · exact (mem_pairs.mp hp).imp fun _ => And.left
  · rintro ⟨f, hf⟩
    cases haccepted : f.accepted with
    | false => exact .inl (mem_pairs.mpr ⟨f, hf, haccepted⟩)
    | true => exact .inr (mem_pairs.mpr ⟨f, hf, haccepted⟩)

theorem Db.accepted_iff_network :
    d.Accepted u v ↔ (u, v) ∈ d.network.friends ∨ (v, u) ∈ d.network.friends := by
  constructor
  · rintro ⟨f, hf | hf, haccepted⟩
    · exact .inl (mem_pairs.mpr ⟨f, hf, haccepted⟩)
    · exact .inr (mem_pairs.mpr ⟨f, hf, haccepted⟩)
  · rintro (hp | hp)
    · obtain ⟨f, hf, haccepted⟩ := mem_pairs.mp hp
      exact ⟨f, .inl hf, haccepted⟩
    · obtain ⟨f, hf, haccepted⟩ := mem_pairs.mp hp
      exact ⟨f, .inr hf, haccepted⟩

/-! ### Accounts and sessions -/

theorem Db.network_modifyUser {id : UUID} {f : User → User} {hf : ∀ x, (f x).userId = x.userId}
    (hname : ∀ x, (f x).username = x.username) : (d.modifyUser id f hf).network = d.network := by
  have haccount : ∀ x, (f x).account = x.account := by
    intro x
    rw [User.account, hf, hname, User.account]
  exact Network.ext (Table.shown_updateWhere_of_eq hf haccount) rfl rfl rfl rfl rfl rfl

theorem Db.network_modifyTokens {k : TokenKind}
    {f : Table Token Token.tokenHash → Table Token Token.tokenHash} :
    (d.modifyTokens f k).network = d.network := by
  cases k <;> rfl

theorem Write.network_apply {w : Write} (hw : ∀ x, w ≠ .insertUser x) :
    (w.apply d).network = d.network := by
  cases w with
  | insertUser x => exact absurd rfl (hw x)
  | setDeactivated id value | changePassword id p => exact Db.network_modifyUser fun _ => rfl
  | insertToken k t | revokeToken k h => exact Db.network_modifyTokens

theorem Write.network_applyAll {ws : List Write} (hws : ∀ w ∈ ws, ∀ x, w ≠ .insertUser x) :
    (applyAll ws d).network = d.network := by
  induction ws generalizing d with
  | nil => rfl
  | cons w ws ih =>
    have hrest : (applyAll ws (w.apply d)).network = (w.apply d).network :=
      ih fun w' hw' => hws w' (List.mem_cons_of_mem w hw')
    exact hrest.trans (network_apply (hws w (List.mem_cons_self ..)))

theorem network_sweep {k : TokenKind} : (sweep d k u).network = d.network := by
  refine Write.network_applyAll fun w hw x => ?_
  obtain ⟨h, -, rfl⟩ := List.mem_map.mp hw
  nofun

theorem Write.network_insertUser {x : User} (hid : d.users.get? x.userId = none) :
    ((insertUser x).apply d).network = d.network.after (.join x.userId x.username) :=
  Network.ext (Table.shown_insertNew hid rfl) rfl rfl rfl rfl rfl rfl

theorem network_deleteUser {id : UUID} (h : d.deleteUser id = .ok d') :
    d.network.Does (some (.leave id)) d'.network := by
  obtain ⟨huser, hgroups, rfl⟩ := Db.deleteUser_eq_ok h
  have hallowed : d.network.Allowed (.leave id) := by
    refine ⟨Db.hasUser_network.mpr huser, fun g hg => ?_⟩
    obtain ⟨row, hrow, hcreator⟩ := Db.mem_groups.mp hg
    exact hgroups row (Table.get?_eq_some.mp hrow).1 hcreator
  have hpairs (accepted : Bool) : ∀ f p, Friendship.pair accepted f = some p →
      ((decide (f.requesterId = id) || decide (f.addresseeId = id)) = false ↔ p.1 ≠ id ∧ p.2 ≠ id) := by
    intro f p hp
    obtain ⟨-, rfl⟩ := Friendship.pair_eq_some.mp hp
    simp [Friendship.pk]
  refine ⟨hallowed, Network.ext ?_ ?_ ?_ rfl ?_ ?_ ?_⟩
  · refine Table.shown_deleteWhere fun x p hp => ?_
    obtain rfl := Option.some.inj hp
    exact decide_eq_false_iff_not
  · exact Table.shown_deleteWhere (hpairs false)
  · exact Table.shown_deleteWhere (hpairs true)
  · refine Table.shown_deleteWhere fun m p hp => ?_
    obtain rfl := Option.some.inj hp
    exact decide_eq_false_iff_not
  · refine Table.shown_deleteWhere fun m p hp => ?_
    obtain rfl := Option.some.inj hp
    simp [DirectMessage.said]
  · refine Table.shown_deleteWhere fun m p hp => ?_
    obtain rfl := Option.some.inj hp
    exact decide_eq_false_iff_not

theorem Operation.network_transact {op : Operation} {f : Await → Option Fault} {es : List SystemEvent}
    (hc : op.transact f d = some (d', es)) :
    d.network.Does (UserCall.service (.auth op f)).deed d'.network := by
  cases op with
  | register env username password =>
    simp only [transact] at hc
    split at hc
    · cases hc
    · obtain ⟨-, -, _, htx, -⟩ := Op.committed_eq_some.mp hc
      obtain ⟨-, -, -, hid, hname, rfl⟩ := registerTx_eq_ok.mp htx
      have hnameless : ∀ x ∈ d.users.rows, x.username ≠ (env.newUser username password).username := by
        simpa using hname
      have hnew : ¬ d.network.HasUser env.newUserId := by
        rw [Db.hasUser_network, Option.not_isSome_iff_eq_none]
        exact hid
      -- after the account only tokens are stored
      have htokens {d₁ : Db} {t t' : Token} :
          (Write.applyAll [.insertToken .access t, .insertToken .refresh t'] d₁).network = d₁.network :=
        Write.network_applyAll (by simp)
      exact ⟨⟨hnew, Db.nameless_iff.mpr hnameless⟩, htokens.trans (Write.network_insertUser hid)⟩
  | login env username password =>
    obtain ⟨-, -, ⟨user, b⟩, htx, -⟩ := Op.committed_eq_some.mp hc
    obtain ⟨-, -, rfl⟩ := (loginTx_eq_ok (find?_of_loginTx htx)).mp htx
    refine Write.network_applyAll fun w hw x => ?_
    rintro rfl
    simp [loginWrites] at hw
  | refresh env raw =>
    obtain ⟨-, -, ⟨b, u⟩, htx, -⟩ := Op.committed_eq_some.mp hc
    obtain ⟨-, token, -, -, rfl, hrest⟩ := refreshTx_eq_ok.mp htx
    split at hrest
    · obtain ⟨-, rfl⟩ := hrest
      exact network_sweep.trans network_sweep
    · obtain ⟨-, -, -, -, rfl⟩ := hrest
      exact Write.network_applyAll (by simp)
  | logout env raw access =>
    obtain ⟨-, -, _, htx, -⟩ := Op.committed_eq_some.mp hc
    obtain ⟨-, -, rfl⟩ := logoutTx_eq_ok htx
    exact Write.network_applyAll (by simp [logoutWrites])
  | deactivateAccount id =>
    obtain ⟨-, -, _, htx, -⟩ := Op.committed_eq_some.mp hc
    obtain ⟨-, -, rfl⟩ := query_deactivateUser.mp htx
    apply Write.network_apply
    rintro x ⟨⟩
  | reactivateAccount id =>
    obtain ⟨-, -, _, htx, -⟩ := Op.committed_eq_some.mp hc
    obtain ⟨-, -, rfl⟩ := query_reactivateUser.mp htx
    apply Write.network_apply
    rintro x ⟨⟩
  | deleteAccount id =>
    obtain ⟨-, -, _, htx, -⟩ := Op.committed_eq_some.mp hc
    exact network_deleteUser (UserService.deleteAccountTx_eq_ok.mp htx).2

/-! ### Groups -/

theorem Db.members_insertNew {m : Membership} (hnew : ¬ d.Member m.groupId m.userId) :
    (d.memberships.insertNew m).shown Membership.pair =
      insert (m.groupId, m.userId) d.network.members :=
  Table.shown_insertNew (Option.not_isSome_iff_eq_none.mp hnew) rfl

theorem GroupOperation.fresh_of_createGroup {group : Group}
    (h : GroupQueries.createGroup group d = .ok d') : d.groups.get? group.groupId = none := by
  unfold GroupQueries.createGroup at h
  split at h
  · cases h
  · next hfresh => exact Option.not_isSome_iff_eq_none.mp hfresh

theorem GroupOperation.network_tx {op : GroupOperation} {f : Faults GroupAwait Error}
    (htx : op.tx d = .ok d') : d.network.Does (UserCall.service (.group op f)).deed d'.network := by
  cases op with
  | createGroup creator name group now =>
    have hnew : ¬ d.Member group creator := not_member_of_adds htx ⟨rfl, rfl⟩
    obtain ⟨d₁, hcreate, -⟩ := bind_eq_ok.mp htx
    obtain ⟨hcreator, -⟩ := createGroup_eq_ok hcreate
    have hfresh : d.groups.get? group = none := fresh_of_createGroup hcreate
    have hgroup : ¬ d.network.HasGroup group := by
      rw [Db.hasGroup_network, hfresh]
      exact Bool.false_ne_true
    obtain ⟨rfl, -⟩ := createGroupTx_eq_ok htx
    exact ⟨⟨Db.hasUser_network.mpr hcreator, hgroup⟩,
      Network.ext rfl rfl rfl (Table.shown_insertNew hfresh rfl) (Db.members_insertNew hnew) rfl rfl⟩
  | addMember actor group target now =>
    have hnew : ¬ d.Member group target := not_member_of_adds htx ⟨rfl, rfl⟩
    have htarget : (d.users.get? target).isSome := by
      obtain ⟨row, -, hrest⟩ := bind_eq_ok.mp htx
      split at hrest
      · cases hrest
      · exact user_of_addGroupMember hrest
    have hactor : (group, actor) ∈ d.network.groups := Db.mem_groups.mpr (creator_of_addMemberTx htx)
    obtain ⟨rfl, -⟩ := addMemberTx_eq_ok htx
    exact ⟨⟨hactor, Db.hasUser_network.mpr htarget, fun hm => hnew (Db.mem_members.mp hm)⟩,
      Network.ext rfl rfl rfl rfl (Db.members_insertNew hnew) rfl rfl⟩
  | removeMember actor group target =>
    have hmember : d.Member group target := member_of_removeMemberTx htx
    obtain ⟨row, hrow, hne, hmay⟩ := actor_of_removeMemberTx htx
    obtain rfl := removeMemberTx_eq_ok htx
    refine ⟨⟨Db.mem_members.mpr hmember, row.createdBy, Db.mem_groups.mpr ⟨row, hrow, rfl⟩, hne,
      hmay.imp_right Eq.symm⟩, Network.ext rfl rfl rfl rfl ?_ rfl rfl⟩
    refine Table.shown_deleteWhere fun m p hp => ?_
    obtain rfl := Option.some.inj hp
    exact decide_eq_false_iff_not
  | deleteGroup actor group =>
    have hactor : (group, actor) ∈ d.network.groups := Db.mem_groups.mpr (creator_of_deleteGroupTx htx)
    obtain rfl := deleteGroupTx_eq_ok htx
    refine ⟨hactor, Network.ext rfl rfl rfl ?_ ?_ rfl ?_⟩
    · refine Table.shown_deleteWhere fun row p hp => ?_
      obtain rfl := Option.some.inj hp
      exact decide_eq_false_iff_not
    · refine Table.shown_deleteWhere fun m p hp => ?_
      obtain rfl := Option.some.inj hp
      exact decide_eq_false_iff_not
    · refine Table.shown_deleteWhere fun m p hp => ?_
      obtain rfl := Option.some.inj hp
      exact decide_eq_false_iff_not

/-! ### Messages -/

theorem MessageOperation.network_transact {op : MessageOperation} {f : Faults MessagingAwait Error}
    {pushes : List MessagePush} (hc : op.transact f d = some (d', pushes)) :
    d.network.Does (UserCall.service (.message op f)).deed d'.network := by
  cases op with
  | sendDirectMessage env sender recipient content =>
    obtain ⟨-, -, m, hbody, -⟩ := Op.committed_eq_some.mp hc
    obtain ⟨_, d₁, hfriends, hinsert⟩ := Tx.bind_eq_ok.mp hbody
    obtain ⟨rfl, haccepted⟩ := accepted_of_requireFriendship hfriends
    obtain ⟨rfl, hfresh, rfl⟩ := MessageQueries.sendDirectMessage_eq_ok (MessagingService.insert_eq_ok hinsert)
    exact ⟨Db.accepted_iff_network.mp haccepted,
      Network.ext rfl rfl rfl rfl rfl (Table.shown_insertNew hfresh rfl) rfl⟩
  | sendGroupMessage env sender group content =>
    obtain ⟨-, -, m, hbody, -⟩ := Op.committed_eq_some.mp hc
    obtain ⟨membership, d₁, hfetch, hinsert⟩ := Tx.bind_eq_ok.mp hbody
    obtain ⟨hmembership, rfl⟩ := MessagingService.fetch_eq_ok hfetch
    have hmember : d₁.Member group sender := MessageQueries.member_of_getMembership hmembership
    obtain ⟨rfl, hfresh, rfl⟩ := MessageQueries.sendGroupMessage_eq_ok (MessagingService.insert_eq_ok hinsert)
    exact ⟨Db.mem_members.mpr hmember,
      Network.ext rfl rfl rfl rfl rfl rfl (Table.shown_insertNew hfresh rfl)⟩

/-! ### Friendships -/

theorem Db.network_accept {pair : UUID × UUID} {now : Timestamp}
    (hpair : (d.friendships.get? pair).isSome) :
    ((FriendshipWrite.accept pair now).apply d).network = { d.network with
      asked := {p ∈ d.network.asked | p ≠ pair}
      friends := insert pair d.network.friends } := by
  have hget (p : UUID × UUID) (accepted : Bool) :
      p ∈ ((FriendshipWrite.accept pair now).apply d).friendships.shown (Friendship.pair accepted) ↔
        ∃ f, d.friendships.get? p = some f ∧ (if p = pair then true else f.accepted) = accepted := by
    have hsame (f : Friendship) : (if p = pair then f.accept now else f).accepted =
        if p = pair then true else f.accepted := by
      split <;> rfl
    simp only [mem_pairs, FriendshipWrite.get?_accept, Option.map_eq_some_iff]
    constructor
    · rintro ⟨_, ⟨f, hf, rfl⟩, haccepted⟩
      exact ⟨f, hf, (hsame f).symm.trans haccepted⟩
    · rintro ⟨f, hf, haccepted⟩
      exact ⟨_, ⟨f, hf, rfl⟩, (hsame f).trans haccepted⟩
  refine Network.ext rfl (Set.ext fun p => ?_) (Set.ext fun p => ?_) rfl rfl rfl rfl
  · refine (hget p false).trans ?_
    by_cases hp : p = pair
    · simp [hp]
    · simp only [if_neg hp]
      exact ⟨fun h => ⟨mem_pairs.mpr h, hp⟩, fun h => mem_pairs.mp h.1⟩
  · refine (hget p true).trans ?_
    by_cases hp : p = pair
    · subst hp
      simp [← Option.isSome_iff_exists, hpair]
    · simp only [if_neg hp]
      exact ⟨fun h => .inr (mem_pairs.mpr h), fun h => mem_pairs.mp (h.resolve_left hp)⟩

open FriendshipQueries in
theorem FriendshipCall.run_removeOrDecline_iff :
    (∃ d', (FriendshipCall.removeOrDeclineFriendship u v).run d = .ok d') ↔
      (u, v) ∈ d.network.relations ∨ (v, u) ∈ d.network.relations := by
  have halone : (removeFriendship u v).run ((removeFriendship u v).rows d) d =
      Prod.map (Queries.requireRows .friendship (u.str ++ ", " ++ v.str)) id
        ((d.friendships.keysWhere (Between u v ·)).length,
          (d.friendships.keysWhere (Between u v ·)).map .delete) :=
    congrArg (Prod.map _ id) (writeFriendships_alone (Between u v ·) .delete d)
  have hpairs : (∃ k, k ∈ d.friendships.keysWhere (Between u v ·)) ↔
      (u, v) ∈ d.network.relations ∨ (v, u) ∈ d.network.relations := by
    simp only [mem_keysWhere_between, Db.mem_relations]
    constructor
    · rintro ⟨k, rfl | rfl, hk⟩
      · exact .inl hk
      · exact .inr hk
    · rintro (hk | hk)
      · exact ⟨_, .inl rfl, hk⟩
      · exact ⟨_, .inr rfl, hk⟩
  rw [← hpairs]
  constructor
  · rintro ⟨d', hrun⟩
    obtain ⟨-, ws, hws, -⟩ := run_eq_ok.mp hrun
    have hrows : Queries.requireRows .friendship (u.str ++ ", " ++ v.str)
        (d.friendships.keysWhere (Between u v ·)).length = .ok () :=
      congrArg Prod.fst (halone.symm.trans hws)
    exact List.exists_mem_of_length_pos (Queries.requireRows_ok hrows)
  · rintro ⟨k, hk⟩
    have hrows : (d.friendships.keysWhere (Between u v ·)).length ≠ 0 :=
      Nat.ne_of_gt (List.length_pos_of_mem hk)
    have hwrites : (removeFriendship u v).run ((removeFriendship u v).rows d) d =
        (.ok (), (d.friendships.keysWhere (Between u v ·)).map .delete) := by
      rw [halone, Prod.map_apply, Queries.requireRows, if_neg hrows, id]
    exact ⟨_, run_eq_ok.mpr ⟨rfl, _, hwrites, rfl⟩⟩

theorem FriendshipCall.network_run {c : FriendshipCall} (hrun : c.run d = .ok d') :
    d.network.Does (UserCall.friendship c).deed d'.network := by
  cases c with
  | sendFriendRequest requester addressee now =>
    obtain ⟨hne, hnew, hrequester, haddressee, rfl⟩ := run_sendFriendRequest.mp hrun
    have hunrelated : (requester, addressee) ∉ d.network.relations := by
      rw [Db.mem_relations, hnew]
      exact Bool.false_ne_true
    exact ⟨⟨hne, Db.hasUser_network.mpr hrequester, Db.hasUser_network.mpr haddressee, hunrelated⟩,
      Network.ext rfl (Table.shown_insertNew hnew rfl) (Table.shown_insertNew_of_none rfl) rfl rfl rfl rfl⟩
  | acceptFriendRequest addressee requester now =>
    obtain ⟨hpair, rfl⟩ := run_acceptFriendRequest.mp hrun
    exact ⟨Db.mem_relations.mpr hpair, Db.network_accept hpair⟩
  | removeOrDeclineFriendship a b =>
    have hget := run_removeOrDeclineFriendship hrun
    have hstored := run_removeOrDecline_iff.mp ⟨d', hrun⟩
    obtain ⟨friendships, rfl⟩ := run_frame hrun
    have hrows (f : Friendship) : f ∈ friendships.rows ↔
        f ∈ d.friendships.rows ∧ (f.pk ≠ (a, b) ∧ f.pk ≠ (b, a)) := by
      rw [Table.mem_rows_iff, Table.mem_rows_iff, hget, ← not_or]
      split <;> simp [*]
    have hview (accepted : Bool) : ∀ f p, Friendship.pair accepted f = some p →
        (f.pk ≠ (a, b) ∧ f.pk ≠ (b, a) ↔ p ≠ (a, b) ∧ p ≠ (b, a)) := by
      intro f p hp
      rw [(Friendship.pair_eq_some.mp hp).2]
    exact ⟨hstored, Network.ext rfl (Table.shown_of_kept hrows (hview false))
      (Table.shown_of_kept hrows (hview true)) rfl rfl rfl rfl⟩

/-- A call that commits does its deed, and one without a deed changes nothing that the network shows. -/
theorem UserCall.network_commit {c : UserCall} (hc : c.commit d = some d') :
    d.network.Does c.deed d'.network := by
  cases c with
  | friendship c =>
    cases hrun : c.run d with
    | ok d₁ =>
      simp only [commit, hrun] at hc
      obtain rfl := Option.some.inj hc
      exact FriendshipCall.network_run hrun
    | error e => simp [commit, hrun, Except.toOption] at hc
  | service c =>
    obtain ⟨⟨d₁, bs⟩, hservice, rfl⟩ := Option.map_eq_some_iff.mp hc
    cases c with
    | auth op f =>
      obtain ⟨⟨d₂, es⟩, htransact, heq⟩ := Option.map_eq_some_iff.mp hservice
      obtain ⟨rfl, -⟩ := Prod.mk.inj heq
      exact op.network_transact htransact
    | group op f =>
      obtain ⟨⟨d₂, tasks⟩, htransact, heq⟩ := Option.map_eq_some_iff.mp hservice
      obtain ⟨rfl, -⟩ := Prod.mk.inj heq
      exact GroupOperation.network_tx (GroupOperation.tx_of_transact htransact)
    | message op f =>
      obtain ⟨⟨d₂, pushes⟩, htransact, heq⟩ := Option.map_eq_some_iff.mp hservice
      obtain ⟨rfl, -⟩ := Prod.mk.inj heq
      exact op.network_transact htransact

/-- The calls that commit one after another make a run of the network, by their deeds. -/
theorem UserCall.network_run {cs : List UserCall} (hrun : Transition.run commit d cs = some d') :
    Network.Run d.network (cs.filterMap deed) d'.network := by
  induction cs generalizing d with
  | nil =>
    obtain rfl := Option.some.inj hrun
    exact .nil _
  | cons c cs ih =>
    obtain ⟨d₁, hc, hrest⟩ := Transition.run_cons_eq_some.mp hrun
    have hdoes := network_commit hc
    cases hdeed : c.deed with
    | none =>
      rw [hdeed] at hdoes
      rw [List.filterMap_cons_none hdeed, ← hdoes]
      exact ih hrest
    | some deed =>
      rw [hdeed] at hdoes
      obtain ⟨hallowed, hafter⟩ := hdoes
      have htail := ih hrest
      rw [hafter] at htail
      rw [List.filterMap_cons_some hdeed]
      exact .cons hallowed htail

end

end Messenger
