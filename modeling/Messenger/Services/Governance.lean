import Messenger.Lib.SharedLocks
import Messenger.Services.Calls

/-! The transactions of the services on users, groups and memberships, one statement at a time, with the
locks that PostgreSQL takes for them. A row that is written is locked exclusively, and a row that a
foreign key points to is shared until the transaction ends. -/

namespace Messenger
open SharedLocks

inductive RosterKey where
  | user (id : UUID)
  | group (id : UUID)
  | membership (pk : UUID × UUID)
  deriving DecidableEq

/-- What the other transactions write. No `groups` and `memberships` row is among it, and of `users`
nothing is deleted. Their locks are left out, so that they wait for less than they would. -/
inductive OtherWrite where
  | auth (w : Write)
  | friendship (w : FriendshipWrite)
  | directMessage (m : DirectMessage)
  | groupMessage (m : GroupMessage)
  deriving DecidableEq

inductive RosterWrite where
  | insertGroup (g : Group)
  | insertMembership (m : Membership)
  | deleteMembership (pk : UUID × UUID)
  | deleteGroup (id : UUID)
  | deleteUser (id : UUID)
  | other (w : OtherWrite)
  deriving DecidableEq

def OtherWrite.apply : OtherWrite → Db → Db
  | auth w, d => w.apply d
  | friendship w, d => w.apply d
  | directMessage m, d => { d with directMessages := d.directMessages.insertNew m }
  | groupMessage m, d => { d with groupMessages := d.groupMessages.insertNew m }

def RosterWrite.apply : RosterWrite → Db → Db
  | insertGroup g, d => { d with groups := d.groups.insertNew g }
  | insertMembership m, d => { d with memberships := d.memberships.insertNew m }
  | deleteMembership pk, d => { d with memberships := d.memberships.deleteWhere (·.pk = pk) }
  | deleteGroup id, d =>
    { d with
      groups := d.groups.deleteWhere (·.groupId = id)
      memberships := d.memberships.deleteWhere (·.groupId = id)
      groupMessages := d.groupMessages.deleteWhere (·.groupId = id) }
  | deleteUser id, d =>
    { d with
      users := d.users.deleteWhere (·.userId = id)
      friendships := d.friendships.deleteWhere fun f => f.requesterId = id || f.addresseeId = id
      accessTokens := d.accessTokens.deleteWhere (·.userId = id)
      refreshTokens := d.refreshTokens.deleteWhere (·.userId = id)
      memberships := d.memberships.deleteWhere (·.userId = id)
      directMessages := d.directMessages.deleteWhere fun m => m.senderId = id || m.recipientId = id
      groupMessages := d.groupMessages.deleteWhere (·.senderId = id) }
  | other w, d => w.apply d

inductive TableCall where
  | group (op : GroupOperation)
  | deleteAccount (userId : UUID)
  | other (ws : List OtherWrite)
  deriving DecidableEq

namespace TableCall

def draws (g : UUID) : TableCall → Bool
  | group (.createGroup _ _ g' _) => g' = g
  | _ => false

def fresh (begun : List TableCall) : TableCall → Bool
  | group (.createGroup _ _ g _) => begun.all fun c => !c.draws g
  | _ => true

def writes : TableCall → List RosterWrite
  | group (.createGroup creator name g now) =>
    [.insertGroup ⟨g, name, creator, now⟩, .insertMembership ⟨g, creator, now⟩]
  | group (.addMember _ g target now) => [.insertMembership ⟨g, target, now⟩]
  | group (.removeMember _ g target) => [.deleteMembership (g, target)]
  | group (.deleteGroup _ g) => [.deleteGroup g]
  | deleteAccount id => [.deleteUser id]
  | other ws => ws.map .other

end TableCall

/-- Each but the last two has a statement to run. -/
inductive RosterPc where
  | createGroup (group : Group)
  | addCreator (group : Group)
  | addMember (actorId groupId targetUserId : UUID) (now : Timestamp)
  | addGroupMember (actorId groupId targetUserId : UUID) (now : Timestamp)
  | removeMember (actorId groupId targetUserId : UUID)
  | removeGroupMember (actorId groupId targetUserId : UUID)
  | deleteGroup (actorId groupId : UUID)
  | listGroupMemberships (actorId groupId : UUID)
  | deleteGroupRow (actorId groupId : UUID)
  | deleteUser (userId : UUID)
  | other (ws : List OtherWrite)
  | completed (c : TableCall)
  | raised (e : Error)
  deriving DecidableEq

abbrev RosterStmt := Stmt Db RosterKey RosterWrite RosterPc

namespace RosterPc
open GroupService

def select {α : Type} (q : Db → Except Error α) (next : α → RosterPc) : RosterStmt where
  locks _ := []
  run d :=
    match q d with
    | .ok a => (next a, [])
    | .error e => (raised e, [])

def write (q : Db → Except Error Db) (locks : Db → List (RosterKey × Mode)) (w : RosterWrite)
    (next : RosterPc) : RosterStmt where
  locks := locks
  run d :=
    match q d with
    | .ok _ => (next, [w])
    | .error e => (raised e, [])

section

variable {α : Type} {d d' : Db} {a : α}

theorem run_select {q : Db → Except Error α} {next : α → RosterPc} (h : q d = .ok a) :
    (select q next).run d = (next a, []) := by
  simp only [select, h]

theorem run_write {q : Db → Except Error Db} {locks : Db → List (RosterKey × Mode)} {w : RosterWrite}
    {next : RosterPc} (h : q d = .ok d') : (write q locks w next).run d = (next, [w]) := by
  simp only [write, h]

end

def insertMembership (m : Membership) (next : RosterPc) : RosterStmt :=
  write (GroupQueries.addGroupMember m)
    (fun _ => [(.membership m.pk, .exclusive), (.group m.groupId, .shared), (.user m.userId, .shared)])
    (.insertMembership m) next

def membershipLocks (p : Membership → Bool) (d : Db) : List (RosterKey × Mode) :=
  (d.memberships.keysWhere p).map fun pk => (.membership pk, .exclusive)

def cmd : RosterPc → Cmd Db RosterKey RosterWrite RosterPc
  | createGroup group => .exec <|
    write (GroupQueries.createGroup group)
      (fun _ => [(.group group.groupId, .exclusive), (.user group.createdBy, .shared)])
      (.insertGroup group) (addCreator group)
  | addCreator group => .exec <|
    insertMembership ⟨group.groupId, group.createdBy, group.createdAt⟩
      (completed (.group (.createGroup group.createdBy group.name group.groupId group.createdAt)))
  | addMember actor g target now => .exec <| select (GroupQueries.getGroupById g) fun group =>
    if group.createdBy ≠ actor then
      raised (insufficient "Only the group creator can add new members.")
    else addGroupMember actor g target now
  | addGroupMember actor g target now => .exec <|
    insertMembership ⟨g, target, now⟩ (completed (.group (.addMember actor g target now)))
  | removeMember actor g target => .exec <| select (GroupQueries.getGroupById g) fun group =>
    if target = group.createdBy then
      raised (insufficient "Group creator cannot leave the group. Delete the group instead.")
    else if !(decide (actor = target) || decide (group.createdBy = actor)) then
      raised (insufficient "Only the group creator can remove other members.")
    else removeGroupMember actor g target
  | removeGroupMember actor g target => .exec <|
    write (GroupQueries.removeGroupMember g target) (fun _ => [(.membership (g, target), .exclusive)])
      (.deleteMembership (g, target)) (completed (.group (.removeMember actor g target)))
  | deleteGroup actor g => .exec <| select (GroupQueries.getGroupById g) fun group =>
    if group.createdBy ≠ actor then
      raised (insufficient "Only the group creator can delete this group.")
    else listGroupMemberships actor g
  | listGroupMemberships actor g => .exec <|
    select (fun d => .ok (GroupQueries.listGroupMemberships g d)) fun _ => deleteGroupRow actor g
  | deleteGroupRow actor g => .exec <|
    write (GroupQueries.deleteGroup g actor)
      (fun d => (.group g, .exclusive) :: membershipLocks (·.groupId = g) d)
      (.deleteGroup g) (completed (.group (.deleteGroup actor g)))
  | deleteUser id => .exec <|
    write (fun d => (d.deleteUser id).mapError .db)
      (fun d => (.user id, .exclusive) :: membershipLocks (·.userId = id) d)
      (.deleteUser id) (completed (.deleteAccount id))
  | other ws => .exec { locks := fun _ => [], run := fun _ => (completed (.other ws), ws.map .other) }
  | completed _ => .commit
  | raised _ => .rollback

def entry : TableCall → RosterPc
  | .group (.createGroup creator name g now) => createGroup ⟨g, name, creator, now⟩
  | .group (.addMember actor g target now) => addMember actor g target now
  | .group (.removeMember actor g target) => removeMember actor g target
  | .group (.deleteGroup actor g) => deleteGroup actor g
  | .deleteAccount id => deleteUser id
  | .other ws => other ws

def wrote : RosterPc → List RosterWrite
  | addCreator group => [.insertGroup group]
  | completed c => c.writes
  | _ => []

end RosterPc

def rosterTransactions : Program Db RosterKey RosterWrite TableCall RosterPc where
  apply := RosterWrite.apply
  entry := RosterPc.entry
  cmd := RosterPc.cmd
  fresh := TableCall.fresh

abbrev RosterSys (τ : Type) := Sys Db RosterKey RosterWrite τ TableCall RosterPc
abbrev RosterAct (τ : Type) := Act τ TableCall

/-! ### A call by itself -/

section

variable {d d' : Db}

theorem OtherWrite.applyAll_auth (ws : List Write) (d : Db) :
    rosterTransactions.applyAll ((ws.map OtherWrite.auth).map .other) d = Write.applyAll ws d := by
  induction ws generalizing d with
  | nil => rfl
  | cons w ws ih => exact ih (w.apply d)

theorem OtherWrite.applyAll_friendship (ws : List FriendshipWrite) (d : Db) :
    rosterTransactions.applyAll ((ws.map OtherWrite.friendship).map .other) d =
      FriendshipWrite.applyAll ws d := by
  induction ws generalizing d with
  | nil => rfl
  | cons w ws ih => exact ih (w.apply d)

namespace TableCall

def serial (c : TableCall) (d : Db) : Option Db :=
  rosterTransactions.serial 4 { pc := RosterPc.entry c } d

theorem serial_other (ws : List OtherWrite) (d : Db) :
    (other ws).serial d = some (rosterTransactions.applyAll (ws.map .other) d) := rfl

theorem serial_deleteAccount {id : UUID} (h : d.deleteUser id = .ok d') :
    (deleteAccount id).serial d = some d' := by
  have hstmt : (d.deleteUser id).mapError Error.db = .ok d' := congrArg (Except.mapError Error.db) h
  obtain ⟨-, -, rfl⟩ := Db.deleteUser_eq_ok h
  exact (Program.serial_exec rfl (RosterPc.run_write hstmt)).trans (Program.serial_commit rfl)

open GroupOperation in
theorem serial_group {op : GroupOperation} (h : op.tx d = .ok d') : (group op).serial d = some d' := by
  cases op with
  | createGroup creator name g now =>
    obtain ⟨d₁, hcreate, hadd⟩ := bind_eq_ok.mp h
    obtain ⟨-, rfl⟩ := createGroup_eq_ok hcreate
    obtain ⟨rfl, -⟩ := addGroupMember_eq_ok hadd
    show rosterTransactions.serial 4 { pc := .createGroup ⟨g, name, creator, now⟩ } d = _
    refine Eq.trans (Program.serial_exec rfl (RosterPc.run_write hcreate)) ?_
    refine Eq.trans (Program.serial_exec rfl (RosterPc.run_write hadd)) ?_
    exact Program.serial_commit rfl
  | addMember actor g target now =>
    obtain ⟨row, hget, hrest⟩ := bind_eq_ok.mp h
    show rosterTransactions.serial 4 { pc := .addMember actor g target now } d = _
    refine Eq.trans (Program.serial_exec rfl (RosterPc.run_select hget)) ?_
    split at hrest
    · cases hrest
    · next hcreator =>
      rw [if_neg hcreator]
      refine Eq.trans (Program.serial_exec rfl (RosterPc.run_write hrest)) ?_
      obtain ⟨rfl, -⟩ := addGroupMember_eq_ok hrest
      exact Program.serial_commit rfl
  | removeMember actor g target =>
    obtain ⟨row, hget, hrest⟩ := bind_eq_ok.mp h
    show rosterTransactions.serial 4 { pc := .removeMember actor g target } d = _
    refine Eq.trans (Program.serial_exec rfl (RosterPc.run_select hget)) ?_
    split at hrest
    · cases hrest
    · next hcreator =>
      split at hrest
      · cases hrest
      · next hallowed =>
        rw [if_neg hcreator, if_neg hallowed]
        refine Eq.trans (Program.serial_exec rfl (RosterPc.run_write hrest)) ?_
        obtain ⟨-, rfl⟩ := removeGroupMember_eq_ok hrest
        exact Program.serial_commit rfl
  | deleteGroup actor g =>
    obtain ⟨row, hget, hrest⟩ := bind_eq_ok.mp h
    show rosterTransactions.serial 4 { pc := .deleteGroup actor g } d = _
    refine Eq.trans (Program.serial_exec rfl (RosterPc.run_select hget)) ?_
    split at hrest
    · cases hrest
    · next hcreator =>
      rw [if_neg hcreator]
      have hlist : (.ok (GroupQueries.listGroupMemberships g d) : Except Error _) = .ok _ := rfl
      refine Eq.trans (Program.serial_exec rfl (RosterPc.run_select hlist)) ?_
      refine Eq.trans (Program.serial_exec rfl (RosterPc.run_write hrest)) ?_
      obtain rfl := deleteGroup_eq_ok hrest
      exact Program.serial_commit rfl

end TableCall

/-- Every call that commits is one of the transactions, run by itself. -/
theorem UserCall.serial_of_commit {c : UserCall} (h : c.commit d = some d') :
    ∃ call : TableCall, call.serial d = some d' ∧
      ∀ op, call = .group op → ∃ f, c = .service (.group op f) := by
  cases effect_of_commit h with
  | writes ws hop =>
    exact ⟨.other (ws.map .auth), (TableCall.serial_other ..).trans
      (congrArg some (OtherWrite.applyAll_auth ws d)), by simp⟩
  | @deletes id _ _ hdelete =>
    exact ⟨.deleteAccount id, TableCall.serial_deleteAccount hdelete, by simp⟩
  | @group op f _ hgroup =>
    refine ⟨.group op, TableCall.serial_group hgroup, fun op' hop => ⟨f, ?_⟩⟩
    rw [TableCall.group.inj hop]
  | @directMessage env s r content _ hfriends hfresh =>
    exact ⟨.other [.directMessage (directMessage env s r content)], rfl, by simp⟩
  | groupMessage m => exact ⟨.other [.groupMessage m], rfl, by simp⟩
  | friendship hrun =>
    obtain ⟨-, ws, -, rfl⟩ := FriendshipCall.run_eq_ok.mp hrun
    exact ⟨.other (ws.map .friendship), (TableCall.serial_other ..).trans
      (congrArg some (OtherWrite.applyAll_friendship ws d)), by simp⟩

/-- What a call does that nothing runs beside, the transactions can do. -/
theorem UserCall.reachable_of_commit {τ : Type} [DecidableEq τ] {s : RosterSys τ} {t : τ} {c : UserCall}
    (h : c.commit s.db = some d') (hfree : s.txn t = none) (halone : ∀ k, s.holders k = [])
    (hfresh : ∀ op f, c = .service (.group op f) → TableCall.fresh s.begun (.group op) = true) :
    ∃ s' : RosterSys τ, Transition.Reachable rosterTransactions.step s s' ∧ s'.db = d' := by
  obtain ⟨call, hserial, hgroup⟩ := serial_of_commit h
  have hcall : TableCall.fresh s.begun call = true := by
    cases call with
    | group op =>
      obtain ⟨f, hc⟩ := hgroup op rfl
      exact hfresh op f hc
    | deleteAccount | other => rfl
  have hbegin : rosterTransactions.step s (.begin t call) =
      some (s.opened t call (RosterPc.entry call)) := if_pos ⟨by rw [hfree]; rfl, hcall⟩
  obtain ⟨s', ⟨as, has⟩, hdb⟩ := Program.serial_reachable (t := t)
    (s := s.opened t call (RosterPc.entry call)) hserial (Function.update_self ..) fun k hk hmem => by
      have hnone : hk ∈ s.holders k := hmem
      rw [halone k] at hnone
      cases hnone
  exact ⟨s', ⟨.begin t call :: as, Transition.run_cons_eq_some.mpr ⟨_, hbegin, has⟩⟩, hdb⟩

end

end Messenger
