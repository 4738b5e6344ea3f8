import Messenger.Lib.Publishing
import Messenger.Services.Broadcasts

/-! The transactions of `AuthService`, `GroupService` and `MessagingService`, one statement at a time,
with what each call broadcasts once its transaction has committed. The locks that a foreign key takes on
the row that it points to are left out, so that a statement waits for less than it would. -/

namespace Messenger
open ReadCommitted Publishing

/-! ### Rows -/

inductive ServiceKey where
  | auth (k : RowKey)
  | friendship (pk : UUID × UUID)
  | group (id : UUID)
  | membership (pk : UUID × UUID)
  | directMessage (id : UUID)
  | groupMessage (id : UUID)
  deriving DecidableEq

inductive ServiceWrite where
  | auth (w : Write)
  | deleteUser (id : UUID)
  | deleteToken (kind : TokenKind) (h : TokenHash)
  | friendship (w : FriendshipWrite)
  | insertGroup (g : Group)
  | deleteGroup (id : UUID)
  | insertMembership (m : Membership)
  | deleteMembership (pk : UUID × UUID)
  | insertDirectMessage (m : DirectMessage)
  | deleteDirectMessage (id : UUID)
  | insertGroupMessage (m : GroupMessage)
  | deleteGroupMessage (id : UUID)
  deriving DecidableEq

namespace ServiceKey

def auth? : ServiceKey → Option RowKey
  | auth k => some k
  | _ => none

def Row : ServiceKey → Type
  | auth (.user _) => Option User
  | auth (.username _) => Unit
  | auth (.token _ _) => Option Token
  | friendship _ => Option Friendship
  | group _ => Option Group
  | membership _ => Option Membership
  | directMessage _ => Option DirectMessage
  | groupMessage _ => Option GroupMessage

def row : (k : ServiceKey) → Db → k.Row
  | auth (.user id), d => d.users.get? id
  | auth (.username _), _ => ()
  | auth (.token kind h), d => (d.tokens kind).get? h
  | friendship pk, d => d.friendships.get? pk
  | group id, d => d.groups.get? id
  | membership pk, d => d.memberships.get? pk
  | directMessage id, d => d.directMessages.get? id
  | groupMessage id, d => d.groupMessages.get? id

end ServiceKey

namespace ServiceWrite

def target : ServiceWrite → ServiceKey
  | auth w => .auth w.target
  | deleteUser id => .auth (.user id)
  | deleteToken kind h => .auth (.token kind h)
  | friendship w => .friendship w.target
  | insertGroup g => .group g.groupId
  | deleteGroup id => .group id
  | insertMembership m => .membership m.pk
  | deleteMembership pk => .membership pk
  | insertDirectMessage m => .directMessage m.messageId
  | deleteDirectMessage id => .directMessage id
  | insertGroupMessage m => .groupMessage m.messageId
  | deleteGroupMessage id => .groupMessage id

def apply : ServiceWrite → Db → Db
  | auth w, d => w.apply d
  | deleteUser id, d => { d with users := d.users.deleteWhere (·.userId = id) }
  | deleteToken kind h, d => d.modifyTokens (·.deleteWhere (·.tokenHash = h)) kind
  | friendship w, d => w.apply d
  | insertGroup g, d => { d with groups := d.groups.insertNew g }
  | deleteGroup id, d => { d with groups := d.groups.deleteWhere (·.groupId = id) }
  | insertMembership m, d => { d with memberships := d.memberships.insertNew m }
  | deleteMembership pk, d => { d with memberships := d.memberships.deleteWhere (·.pk = pk) }
  | insertDirectMessage m, d => { d with directMessages := d.directMessages.insertNew m }
  | deleteDirectMessage id, d =>
    { d with directMessages := d.directMessages.deleteWhere (·.messageId = id) }
  | insertGroupMessage m, d => { d with groupMessages := d.groupMessages.insertNew m }
  | deleteGroupMessage id, d =>
    { d with groupMessages := d.groupMessages.deleteWhere (·.messageId = id) }

def applyAll (ws : List ServiceWrite) (d : Db) : Db := ws.foldl (fun d w => w.apply d) d

theorem row_apply_auth {w : Write} {k : RowKey} (d : Db) (h : w.target ≠ k) :
    ServiceKey.row (.auth k) (w.apply d) = ServiceKey.row (.auth k) d := by
  cases k with
  | username name => rfl
  | token kind hash => exact Write.get?_apply_of_ne w d h
  | user id =>
    cases w with
    | insertUser u => exact Table.get?_insertNew_of_ne fun heq => h (congrArg RowKey.user heq)
    | setDeactivated i v =>
      exact Table.get?_updateWhere_of_ne (f := fun u : User => { u with deactivated := v }) (fun _ => rfl)
        fun heq => h (congrArg RowKey.user heq)
    | changePassword i p =>
      exact Table.get?_updateWhere_of_ne (f := fun u : User => { u with passwordHash := p }) (fun _ => rfl)
        fun heq => h (congrArg RowKey.user heq)
    | insertToken kind t | revokeToken kind t => cases kind <;> rfl

theorem row_auth_congr {d d' : Db} {k : RowKey} (husers : d'.users = d.users)
    (htokens : ∀ kind, d'.tokens kind = d.tokens kind) :
    ServiceKey.row (.auth k) d' = ServiceKey.row (.auth k) d := by
  cases k with
  | user id => exact congrArg (Table.get? · id) husers
  | username name => rfl
  | token kind hash => exact congrArg (Table.get? · hash) (htokens kind)

theorem row_apply_of_ne (w : ServiceWrite) (k : ServiceKey) (d : Db) (h : w.target ≠ k) :
    k.row (w.apply d) = k.row d := by
  cases w with
  | auth w =>
    obtain ⟨users, accessTokens, refreshTokens, heq⟩ := Write.applyAll_eq [w] d
    have happly : w.apply d = { d with users, accessTokens, refreshTokens } := heq
    cases k with
    | auth k => exact row_apply_auth d fun heq => h (congrArg ServiceKey.auth heq)
    | _ =>
      rw [apply, happly]
      rfl
  | friendship w =>
    obtain ⟨friendships, heq⟩ := FriendshipWrite.applyAll_eq [w] d
    have happly : w.apply d = { d with friendships } := heq
    cases k with
    | friendship pk =>
      have hne : w.target ≠ pk := fun heq => h (congrArg ServiceKey.friendship heq)
      cases w with
      | insert f => exact Table.get?_insertNew_of_ne hne
      | accept pair now =>
        exact Table.get?_updateWhere_of_ne (f := fun f : Friendship => f.accept now) (fun _ => rfl) hne
      | delete pair => exact Table.get?_deleteWhere_of_ne hne
    | auth k =>
      rw [apply, happly]
      exact row_auth_congr rfl fun kind => by cases kind <;> rfl
    | _ =>
      rw [apply, happly]
      rfl
  | deleteUser id =>
    cases k with
    | auth k =>
      cases k with
      | user id' => exact Table.get?_deleteWhere_of_ne fun heq => h (heq ▸ rfl)
      | username name => rfl
      | token kind hash => cases kind <;> rfl
    | _ => rfl
  | deleteToken kind hash =>
    cases k with
    | auth k =>
      cases k with
      | token kind' hash' =>
        simp only [apply, ServiceKey.row, Db.modifyTokens_tokens]
        split
        · next hkind =>
          subst hkind
          exact Table.get?_deleteWhere_of_ne fun heq => h (heq ▸ rfl)
        · rfl
      | _ => cases kind <;> rfl
    | _ => cases kind <;> rfl
  | insertGroup g =>
    cases k with
    | group id => exact Table.get?_insertNew_of_ne fun heq => h (congrArg ServiceKey.group heq)
    | auth k => exact row_auth_congr rfl fun kind => by cases kind <;> rfl
    | _ => rfl
  | deleteGroup id =>
    cases k with
    | group id' => exact Table.get?_deleteWhere_of_ne fun heq => h (congrArg ServiceKey.group heq)
    | auth k => exact row_auth_congr rfl fun kind => by cases kind <;> rfl
    | _ => rfl
  | insertMembership m =>
    cases k with
    | membership pk => exact Table.get?_insertNew_of_ne fun heq => h (congrArg ServiceKey.membership heq)
    | auth k => exact row_auth_congr rfl fun kind => by cases kind <;> rfl
    | _ => rfl
  | deleteMembership pk =>
    cases k with
    | membership pk' =>
      exact Table.get?_deleteWhere_of_ne fun heq => h (congrArg ServiceKey.membership heq)
    | auth k => exact row_auth_congr rfl fun kind => by cases kind <;> rfl
    | _ => rfl
  | insertDirectMessage m =>
    cases k with
    | directMessage id =>
      exact Table.get?_insertNew_of_ne fun heq => h (congrArg ServiceKey.directMessage heq)
    | auth k => exact row_auth_congr rfl fun kind => by cases kind <;> rfl
    | _ => rfl
  | deleteDirectMessage id =>
    cases k with
    | directMessage id' =>
      exact Table.get?_deleteWhere_of_ne fun heq => h (congrArg ServiceKey.directMessage heq)
    | auth k => exact row_auth_congr rfl fun kind => by cases kind <;> rfl
    | _ => rfl
  | insertGroupMessage m =>
    cases k with
    | groupMessage id =>
      exact Table.get?_insertNew_of_ne fun heq => h (congrArg ServiceKey.groupMessage heq)
    | auth k => exact row_auth_congr rfl fun kind => by cases kind <;> rfl
    | _ => rfl
  | deleteGroupMessage id =>
    cases k with
    | groupMessage id' =>
      exact Table.get?_deleteWhere_of_ne fun heq => h (congrArg ServiceKey.groupMessage heq)
    | auth k => exact row_auth_congr rfl fun kind => by cases kind <;> rfl
    | _ => rfl

end ServiceWrite

/-! ### Transactions -/

inductive ServiceTransaction where
  | auth (c : Call)
  | group (op : GroupOperation)
  | message (op : MessageOperation)

/-- A call of `AuthService`. `swept` are the tokens that its revocations of all tokens have locked. -/
structure AuthPc where
  call : Call
  pc : Pc
  cacheNeedsInvalidation : Bool := false
  swept : List RowKey := []
  deriving DecidableEq

/-- Each but the last three and a call that has nothing more to run has a statement to run. -/
inductive ServicePc where
  | auth (p : AuthPc)
  | createGroup (group : Group)
  | addCreator (group : Group)
  | addMember (actorId : UUID) (membership : Membership)
  | addGroupMember (membership : Membership)
  | removeMember (actorId groupId targetUserId : UUID)
  | removeGroupMember (groupId targetUserId : UUID)
  | deleteGroup (actorId groupId : UUID)
  | listGroupMemberships (actorId groupId : UUID)
  | deleteGroupRow (actorId groupId : UUID) (memberships : List Membership)
  | cascadeMemberships (groupId : UUID) (memberships : List Membership)
  | cascadeGroupMessages (groupId : UUID) (memberships : List Membership)
  | getFriendshipStatus (limitOne : RowChoice Friendship) (message : DirectMessage)
  | sendDirectMessage (message : DirectMessage)
  | getMembership (message : GroupMessage)
  | sendGroupMessage (message : GroupMessage)
  | spawnTask (task : GroupTask)
  | spawnPush (push : MessagePush)
  | raised (e : Error)

abbrev ServiceStmt := Stmt Db ServiceKey ServiceWrite ServicePc

namespace Pc

def changesUser : Pc → Bool
  | reactivateUser .. => true
  | updateUserPassword .. => true
  | _ => false

def sweeps : Pc → Bool
  | revokeAll .. => true
  | _ => false

end Pc

namespace AuthPc

def stmt (p : AuthPc) (q : Stmt Db RowKey Write Pc) : ServiceStmt where
  rows d := (q.rows d).map .auth
  run ks d :=
    let ks := ks.filterMap ServiceKey.auth?
    let r := q.run ks d
    (.auth
      { p with
        pc := r.1
        cacheNeedsInvalidation := p.cacheNeedsInvalidation || p.pc.changesUser
        swept := if p.pc.sweeps then p.swept ++ ks else p.swept },
      r.2.map .auth)

def cmd (pw : PasswordHasher) (p : AuthPc) : Cmd Db ServiceKey ServiceWrite ServicePc :=
  match p.pc.cmd pw with
  | .exec q => .exec (p.stmt q)
  | .commit => .commit
  | .rollback => .rollback

def events (p : AuthPc) : List SystemEvent :=
  match p.pc, p.call with
  | .issued .login u _, _ => if p.cacheNeedsInvalidation then [.userInvalidated u] else []
  | .issued (.rotation h) _ _, _ => [.tokenRevoked h]
  | .reused _ u, _ => [.userInvalidated u]
  | .loggedOut, .logout r a => .tokenRevoked r :: a.toList.map .tokenRevoked
  | _, _ => []

end AuthPc

namespace ServicePc
open GroupService

/-- A `SELECT` takes no lock. -/
def select {α : Type} (q : Db → Except Error α) (next : α → ServicePc) : ServiceStmt where
  rows _ := []
  run _ d :=
    match q d with
    | .ok a => (next a, [])
    | .error e => (raised e, [])

/-- An `INSERT` waits for whoever has locked its key. -/
def insert {α : Type} (q : Db → Except Error α) (w : ServiceWrite) (next : ServicePc) : ServiceStmt where
  rows _ := [w.target]
  run _ d :=
    match q d with
    | .ok _ => (next, [w])
    | .error e => (raised e, [])

/-- A `DELETE` of one row. If the row had to be waited for, it is tested again. -/
def delete (found : Db → Bool) (missing : Error) (w : ServiceWrite) (next : ServicePc) :
    ServiceStmt where
  rows d := if found d then [w.target] else []
  run ks d := if found d && decide (w.target ∈ ks) then (next, [w]) else (raised missing, [])

/-- The `DELETE` of all rows with a foreign key to a row that has been deleted. -/
def cascade (ws : Db → List ServiceWrite) (next : ServicePc) : ServiceStmt where
  rows d := (ws d).map (·.target)
  run ks d := (next, (ws d).filter (·.target ∈ ks))

def insertMembership (m : Membership) : ServiceStmt :=
  insert (GroupQueries.addGroupMember m) (.insertMembership m)
    (spawnTask (.pushGroupMembershipChange m.userId m.groupId .join))

def membershipCascade (groupId : UUID) (d : Db) : List ServiceWrite :=
  (d.memberships.keysWhere (·.groupId = groupId)).map .deleteMembership

def groupMessageCascade (groupId : UUID) (d : Db) : List ServiceWrite :=
  (d.groupMessages.keysWhere (·.groupId = groupId)).map .deleteGroupMessage

def cmd (pw : PasswordHasher) : ServicePc → Cmd Db ServiceKey ServiceWrite ServicePc
  | auth p => p.cmd pw
  | createGroup group => .exec <|
    insert (GroupQueries.createGroup group) (.insertGroup group) (addCreator group)
  | addCreator group => .exec <| insertMembership ⟨group.groupId, group.createdBy, group.createdAt⟩
  | addMember actor m => .exec <| select (GroupQueries.getGroupById m.groupId) fun group =>
    if group.createdBy ≠ actor then
      raised (insufficient "Only the group creator can add new members.")
    else addGroupMember m
  | addGroupMember m => .exec <| insertMembership m
  | removeMember actor g target => .exec <| select (GroupQueries.getGroupById g) fun group =>
    if target = group.createdBy then
      raised (insufficient "Group creator cannot leave the group. Delete the group instead.")
    else if !(decide (actor = target) || decide (group.createdBy = actor)) then
      raised (insufficient "Only the group creator can remove other members.")
    else removeGroupMember g target
  | removeGroupMember g target => .exec <|
    delete (fun d => (d.memberships.get? (g, target)).isSome)
      (.db (.notFound .membership ("Group:" ++ g.str ++ " User:" ++ target.str)))
      (.deleteMembership (g, target)) (spawnTask (.pushGroupMembershipChange target g .leave))
  | deleteGroup actor g => .exec <| select (GroupQueries.getGroupById g) fun group =>
    if group.createdBy ≠ actor then
      raised (insufficient "Only the group creator can delete this group.")
    else listGroupMemberships actor g
  | listGroupMemberships actor g => .exec <|
    select (fun d => .ok (GroupQueries.listGroupMemberships g d)) (deleteGroupRow actor g)
  | deleteGroupRow actor g memberships => .exec <|
    delete (fun d => ((d.groups.get? g).filter (·.createdBy = actor)).isSome)
      (.db (.notFound .group g.str)) (.deleteGroup g) (cascadeMemberships g memberships)
  | cascadeMemberships g memberships => .exec <|
    cascade (membershipCascade g) (cascadeGroupMessages g memberships)
  | cascadeGroupMessages g memberships => .exec <|
    cascade (groupMessageCascade g)
      (spawnTask (.handleGroupDeletionSideEffects g (memberships.map (·.userId))))
  | getFriendshipStatus limitOne m => .exec <|
    select (fun d => (FriendshipQueries.getFriendshipStatus limitOne m.senderId m.recipientId d).mapError
      .db) fun friendship =>
        if !friendship.accepted then raised (.service (.directMessageNotAllowed m.recipientId.str))
        else sendDirectMessage m
  | sendDirectMessage m => .exec <|
    insert (fun d => (MessageQueries.sendDirectMessage m d).mapError .db) (.insertDirectMessage m)
      (spawnPush (.toUser m.recipientId (.fromModel m)))
  | getMembership m => .exec <|
    select (fun d => (MessageQueries.getMembership m.groupId m.senderId d).mapError .db) fun _ =>
      sendGroupMessage m
  | sendGroupMessage m => .exec <|
    insert (fun d => (MessageQueries.sendGroupMessage m d).mapError .db) (.insertGroupMessage m)
      (spawnPush (.toGroup m.groupId (.fromModel m) m.senderId))
  | spawnTask _ => .commit
  | spawnPush _ => .commit
  | raised _ => .rollback

def entry : ServiceTransaction → ServicePc
  | .auth c => auth { call := c, pc := c.entry }
  | .group (.createGroup creator name g now) => createGroup ⟨g, name, creator, now⟩
  | .group (.addMember actor g target now) => addMember actor ⟨g, target, now⟩
  | .group (.removeMember actor g target) => removeMember actor g target
  | .group (.deleteGroup actor g) => deleteGroup actor g
  | .message (.sendDirectMessage env sender recipient content) =>
    getFriendshipStatus env.limitOne
      { messageId := env.messageId, senderId := sender, recipientId := recipient, content,
        createdAt := env.now }
  | .message (.sendGroupMessage env sender g content) =>
    getMembership
      { messageId := env.messageId, groupId := g, senderId := sender, content, createdAt := env.now }

def announces : ServicePc → List Broadcast
  | auth p => p.events.map .system
  | spawnTask task => [.bus task.event]
  | spawnPush push => [.push push]
  | _ => []

section

variable {q : ServiceStmt}

theorem insert_writesLocked {α : Type} (q : Db → Except Error α) (w : ServiceWrite) (next : ServicePc) :
    (insert q w next).WritesLocked ServiceWrite.target := by
  intro d₀ d w' hw
  simp only [insert] at hw ⊢
  split at hw
  · rw [List.mem_singleton.mp hw]
    exact List.mem_singleton_self _
  · cases hw

theorem select_writesLocked {α : Type} (q : Db → Except Error α) (next : α → ServicePc) :
    (select q next).WritesLocked ServiceWrite.target := by
  intro d₀ d w hw
  simp only [select] at hw
  split at hw <;> cases hw

theorem delete_writesLocked (found : Db → Bool) (missing : Error) (w : ServiceWrite) (next : ServicePc) :
    (delete found missing w next).WritesLocked ServiceWrite.target := by
  intro d₀ d w' hw
  have hrun (ks : List ServiceKey) (h : w' ∈ ((delete found missing w next).run ks d).2) :
      w' = w ∧ w.target ∈ ks := by
    simp only [delete] at h
    split at h
    · next hfound =>
      exact ⟨List.mem_singleton.mp h, of_decide_eq_true (Bool.and_eq_true_iff.mp hfound).2⟩
    · cases h
  obtain ⟨rfl, hk⟩ := hrun _ hw
  exact hk

theorem cascade_writesLocked (ws : Db → List ServiceWrite) (next : ServicePc) :
    (cascade ws next).WritesLocked ServiceWrite.target :=
  fun _ _ _ hw => of_decide_eq_true (List.mem_filter.mp hw).2

theorem filterMap_auth (ks : List RowKey) :
    (ks.map ServiceKey.auth).filterMap ServiceKey.auth? = ks := by
  rw [List.filterMap_map]
  exact List.filterMap_some

theorem stmt_writesLocked (p : AuthPc) {q : Stmt Db RowKey Write Pc}
    (hq : q.WritesLocked Write.target) : (p.stmt q).WritesLocked ServiceWrite.target := by
  intro d₀ d w hw
  simp only [AuthPc.stmt, filterMap_auth] at hw ⊢
  obtain ⟨w', hw', rfl⟩ := List.mem_map.mp hw
  exact List.mem_map_of_mem (hq d₀ d w' hw')

theorem cmd_auth_eq_exec {pw : PasswordHasher} {p : AuthPc} (h : p.cmd pw = .exec q) :
    ∃ q', p.pc.cmd pw = .exec q' ∧ q = p.stmt q' := by
  unfold AuthPc.cmd at h
  split at h
  · next q' hq' => exact ⟨q', hq', (Cmd.exec.inj h).symm⟩
  · cases h
  · cases h

theorem locked_of_cmd (pw : PasswordHasher) (pc : ServicePc) (q : ServiceStmt) (h : pc.cmd pw = .exec q) :
    q.WritesLocked ServiceWrite.target := by
  cases pc with
  | auth p =>
    obtain ⟨q', hq', rfl⟩ := cmd_auth_eq_exec h
    exact stmt_writesLocked p (Pc.writesLocked_of_cmd pw p.pc q' hq')
  | addMember | removeMember | deleteGroup | listGroupMemberships | getFriendshipStatus | getMembership =>
    exact Cmd.exec.inj h ▸ select_writesLocked _ _
  | createGroup | addCreator | addGroupMember | sendDirectMessage | sendGroupMessage =>
    exact Cmd.exec.inj h ▸ insert_writesLocked _ _ _
  | removeGroupMember | deleteGroupRow => exact Cmd.exec.inj h ▸ delete_writesLocked _ _ _ _
  | cascadeMemberships | cascadeGroupMessages => exact Cmd.exec.inj h ▸ cascade_writesLocked _ _
  | spawnTask | spawnPush | raised => cases h

end

end ServicePc

def publications (pw : PasswordHasher) :
    Publisher Db ServiceKey ServiceWrite ServiceTransaction ServicePc Broadcast ServiceKey.Row where
  apply := ServiceWrite.apply
  target := ServiceWrite.target
  entry := ServicePc.entry
  cmd := ServicePc.cmd pw
  locked := ServicePc.locked_of_cmd pw
  announces := ServicePc.announces
  row := ServiceKey.row
  frame := ServiceWrite.row_apply_of_ne

abbrev ServiceRun (τ : Type) := State Db ServiceKey ServiceWrite τ ServicePc Broadcast
abbrev ServiceAct (τ : Type) := Publishing.Act ServiceKey ServiceWrite τ ServiceTransaction

end Messenger
