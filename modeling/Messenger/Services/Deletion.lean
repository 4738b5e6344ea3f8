import Messenger.Services.Group
import Messenger.Session.Operations

/-! What `delete_account` leaves behind. Most foreign keys to `users` cascade. The one of a group to its
creator is to be set to `NULL`, which its column does not allow. -/

namespace Messenger
open Transactional UserService

inductive Row where
  | user (u : User)
  | friendship (f : Friendship)
  | accessToken (t : AccessToken)
  | refreshToken (t : RefreshToken)
  | group (g : Group)
  | membership (m : Membership)
  | directMessage (m : DirectMessage)
  | groupMessage (m : GroupMessage)
  deriving DecidableEq

namespace Row

def RefersTo (id : UUID) : Row → Prop
  | user _ => False
  | friendship f => f.requesterId = id ∨ f.addresseeId = id
  | accessToken t => t.userId = id
  | refreshToken t => t.userId = id
  | group g => g.createdBy = id
  | membership m => m.userId = id
  | directMessage m => m.senderId = id ∨ m.recipientId = id
  | groupMessage m => m.senderId = id

def References : Row → Row → Prop
  | r, user u => r.RefersTo u.userId
  | membership m, group g => m.groupId = g.groupId
  | groupMessage m, group g => m.groupId = g.groupId
  | _, _ => False

end Row

namespace Db

def Has (d : Db) : Row → Prop
  | .user u => u ∈ d.users.rows
  | .friendship f => f ∈ d.friendships.rows
  | .accessToken t => t ∈ d.accessTokens.rows
  | .refreshToken t => t ∈ d.refreshTokens.rows
  | .group g => g ∈ d.groups.rows
  | .membership m => m ∈ d.memberships.rows
  | .directMessage m => m ∈ d.directMessages.rows
  | .groupMessage m => m ∈ d.groupMessages.rows

/-- The account's own row, and the rows that refer to one that is involved. -/
inductive Involved (d : Db) (id : UUID) : Row → Prop where
  | account {u : User} (hu : u.userId = id) : Involved d id (.user u)
  | reference {r r' : Row} (h : Involved d id r') (hr' : d.Has r') (href : r.References r') :
    Involved d id r

/-- The account `id` is gone from `d'` without a trace, and nothing else has changed. -/
structure Deleted (d d' : Db) (id : UUID) : Prop where
  gone : d'.users.get? id = none
  unreferenced : ∀ r, d'.Has r → ¬ r.RefersTo id
  kept : ∀ r, d.Has r → ¬ d.Involved id r → d'.Has r
  nothingNew : ∀ r, d'.Has r → d.Has r

variable {d d' : Db} {id : UUID}

theorem mem_deleteWhere {ρ κ : Type} {key : ρ → κ} {t : Table ρ key} {p : ρ → Bool} {r : ρ} :
    r ∈ (t.deleteWhere p).rows ↔ r ∈ t.rows ∧ p r = false := by
  simp [Table.deleteWhere, List.mem_filter]

theorem has_deleteUser (h : d.deleteUser id = .ok d') (r : Row) :
    d'.Has r ↔ d.Has r ∧ ¬ r.RefersTo id ∧ ∀ u, r = .user u → u.userId ≠ id := by
  obtain ⟨-, hgroups, rfl⟩ := deleteUser_eq_ok h
  cases r with
  | group g =>
    simp only [Has, Row.RefersTo, reduceCtorEq, false_implies, implies_true, and_true]
    exact ⟨fun hg => ⟨hg, hgroups g hg⟩, And.left⟩
  | _ => simp [Has, Row.RefersTo, mem_deleteWhere]

theorem deleted_of_deleteUser (h : d.deleteUser id = .ok d') : Deleted d d' id := by
  obtain ⟨hsome, -⟩ := deleteUser_eq_ok h
  obtain ⟨u, hu⟩ := Option.isSome_iff_exists.mp hsome
  refine ⟨Table.get?_eq_none.mpr fun u' hu' => ?_, fun r hr => ((has_deleteUser h r).mp hr).2.1,
    fun r hr hnot => ?_, fun r hr => ((has_deleteUser h r).mp hr).1⟩
  · exact ((has_deleteUser h (.user u')).mp hu').2.2 u' rfl
  · refine (has_deleteUser h r).mpr ⟨hr, fun href => hnot ?_, fun u' hr' hid => hnot ?_⟩
    · -- the row refers to the account, whose row is stored
      have hself : u.userId = id := Table.key_of_get? hu
      have hrefs : r.References (.user u) := by simpa only [Row.References, hself] using href
      exact .reference (.account hself) (Table.get?_eq_some.mp hu).1 hrefs
    · rw [hr']
      exact .account hid

theorem deleteUser_of_no_groups (hsome : (d.users.get? id).isSome)
    (hgroups : ∀ g ∈ d.groups.rows, g.createdBy ≠ id) : ∃ d', d.deleteUser id = .ok d' := by
  have hpresent : ¬ (d.users.get? id).isNone = true := fun hnone =>
    Option.isSome_iff_ne_none.mp hsome (Option.isNone_iff_eq_none.mp hnone)
  have hnone : ¬ d.groups.rows.any (·.createdBy = id) = true := by simpa using hgroups
  unfold deleteUser
  rw [if_neg hpresent, if_neg hnone]
  exact ⟨_, rfl⟩

end Db

theorem deleteAccount_eq_ok {w w' : AuthState} {id : UUID} :
    UserService.deleteAccount id (raising noFault) w = (.ok (), w') ↔
      ∃ d', w.db.deleteUser id = .ok d' ∧ w' = { w with db := d' } := by
  have hfault {p : Await} : raising noFault p = none := rfl
  rcases accountTransaction_cases (deleteAccountTx id) (raising noFault) w with
    ⟨d, -, hbody, -, hrun⟩ | ⟨e, hrun, he⟩
  · have hd := (deleteAccountTx_eq_ok.mp hbody).2
    have hok : UserService.deleteAccount id (raising noFault) w = (.ok (), { w with db := d }) :=
      Op.handle_of_ok hrun
    rw [hok]
    simp only [hd, Prod.mk.injEq, true_and, Except.ok.injEq, exists_eq_left']
    exact eq_comm
  · have hbody : deleteAccountTx id (raising noFault) w.db = .error e := by
      simpa [hfault] using he
    constructor
    · intro h
      have hhandled := (Op.handle_of_error hrun).symm.trans h
      obtain ⟨_, _, -, hsuppressed⟩ := handleDbNotFoundError_eq_ok (Prod.mk.inj hhandled).1
      cases hsuppressed
    · rintro ⟨d', hd, -⟩
      have hok : deleteAccountTx id (raising noFault) w.db = .ok ((), d') :=
        deleteAccountTx_eq_ok.mpr ⟨rfl, hd⟩
      cases hok.symm.trans hbody

/-- Deleting an existing account succeeds and leaves no trace exactly where it has created no group
that still exists. -/
theorem delete_account_leaves_nothing (w : AuthState) (id : UUID)
    (hid : (w.db.users.get? id).isSome) :
    (∃ w', UserService.deleteAccount id (raising noFault) w = (.ok (), w') ∧
        w.db.Deleted w'.db id) ↔
      ∀ g ∈ w.db.groups.rows, g.createdBy ≠ id := by
  constructor
  · rintro ⟨w', hok, -⟩
    obtain ⟨d', hd, -⟩ := deleteAccount_eq_ok.mp hok
    exact (Db.deleteUser_eq_ok hd).2.1
  · intro hgroups
    obtain ⟨d', hd⟩ := Db.deleteUser_of_no_groups hid hgroups
    exact ⟨_, deleteAccount_eq_ok.mpr ⟨d', hd, rfl⟩, Db.deleted_of_deleteUser hd⟩

namespace Sample

def registered : Option Db := ((Operation.register env "ada" "secret").commit {}).map Prod.fst

def createsGroup : GroupOperation := .createGroup env.newUserId "friends" ⟨7⟩ 0

end Sample

theorem delete_account_leaves_nothing_registered :
    ∃ d w', Sample.registered = some d ∧
      UserService.deleteAccount Sample.env.newUserId (raising noFault) { db := d } = (.ok (), w') ∧
        d.Deleted w'.db Sample.env.newUserId := by
  obtain ⟨d, hd, hid, hgroups⟩ :
      ∃ d ∈ Sample.registered, (d.users.get? Sample.env.newUserId).isSome ∧
        ∀ g ∈ d.groups.rows, g.createdBy ≠ Sample.env.newUserId := by decide
  obtain ⟨w', hok, hdeleted⟩ :=
    (delete_account_leaves_nothing { db := d } Sample.env.newUserId hid).mpr hgroups
  exact ⟨d, w', hd, hok, hdeleted⟩

/-- A user who has created a group cannot be deleted. -/
theorem not_delete_account_leaves_nothing :
    ∃ d d', Sample.registered = some d ∧ Sample.createsGroup.call d = .ok d' ∧
      (d'.users.get? Sample.env.newUserId).isSome ∧
        ∀ w', UserService.deleteAccount Sample.env.newUserId (raising noFault) { db := d' } ≠
          (.ok (), w') := by
  obtain ⟨d, hd, d', hd', hid, g, hg, hcreator⟩ :
      ∃ d ∈ Sample.registered, ∃ d' ∈ (Sample.createsGroup.call d).toOption,
        (d'.users.get? Sample.env.newUserId).isSome ∧
        ∃ g ∈ d'.groups.rows, g.createdBy = Sample.env.newUserId := by decide
  refine ⟨d, d', hd, Sample.ok_of_toOption hd', hid, fun w' hok => ?_⟩
  obtain ⟨d'', hdelete, -⟩ := deleteAccount_eq_ok.mp hok
  exact (Db.deleteUser_eq_ok hdelete).2.1 g hg hcreator

end Messenger
