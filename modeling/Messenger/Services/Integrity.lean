import Messenger.Services.Calls
import Messenger.Services.Deletion

/-! The references between the rows. Whatever calls are made, and whatever fails in them, no stored row
refers to an account or a group that is not stored. -/

namespace Messenger
open Transactional AuthService

namespace Row

def InGroup (id : UUID) : Row → Prop
  | membership m => m.groupId = id
  | groupMessage m => m.groupId = id
  | _ => False

structure Supported (d : Db) (r : Row) : Prop where
  accounts : ∀ id, r.RefersTo id → (d.users.get? id).isSome
  groups : ∀ id, r.InGroup id → (d.groups.get? id).isSome

theorem Supported.mono {d d' : Db} {r : Row} (h : r.Supported d)
    (husers : ∀ id, (d.users.get? id).isSome → (d'.users.get? id).isSome)
    (hgroups : ∀ id, (d.groups.get? id).isSome → (d'.groups.get? id).isSome) : r.Supported d' where
  accounts id hid := husers id (h.accounts id hid)
  groups id hid := hgroups id (h.groups id hid)

end Row

/-- The foreign keys and the unique usernames of the DDL, and that nobody has befriended themselves. -/
structure Db.Intact (d : Db) : Prop where
  supported : ∀ r, d.Has r → r.Supported d
  usernames : ∀ u ∈ d.users.rows, ∀ v ∈ d.users.rows, u.username = v.username → u.userId = v.userId
  distinct : ∀ f ∈ d.friendships.rows, f.requesterId ≠ f.addresseeId

theorem Db.intact_empty : ({} : Db).Intact where
  supported r hr := by cases r <;> cases hr
  usernames u hu := by cases hu
  distinct f hf := by cases hf

namespace Db.Intact

variable {d d' : Db}

/-- A row that is stored anew, or changed, is to be supported by what was there before. -/
theorem extend (h : d.Intact) (husers : d'.users = d.users) (hgroups : d'.groups = d.groups)
    (hrows : ∀ r, d'.Has r → d.Has r ∨ r.Supported d)
    (hdistinct : ∀ f ∈ d'.friendships.rows, f.requesterId ≠ f.addresseeId) : d'.Intact where
  supported r hr := by
    have hbefore : r.Supported d := (hrows r hr).elim (h.supported r) id
    exact hbefore.mono (fun _ hid => husers ▸ hid) fun _ hid => hgroups ▸ hid
  usernames := husers ▸ h.usernames
  distinct := hdistinct

theorem supported_token {k : TokenKind} {t : Token} (h : d.Intact) (ht : t ∈ (d.tokens k).rows) :
    (d.users.get? t.userId).isSome := by
  cases k with
  | access => exact (h.supported (.accessToken t) ht).accounts _ rfl
  | refresh => exact (h.supported (.refreshToken t) ht).accounts _ rfl

theorem modifyTokens (h : d.Intact) (k : TokenKind)
    (f : Table Token Token.tokenHash → Table Token Token.tokenHash)
    (hrows : ∀ t ∈ (f (d.tokens k)).rows, (d.users.get? t.userId).isSome) :
    (d.modifyTokens f k).Intact := by
  cases k with
  | access =>
    refine h.extend rfl rfl (fun r hr => ?_) h.distinct
    cases r with
    | accessToken t => exact .inr ⟨fun id hid => hid ▸ hrows t hr, fun _ => False.elim⟩
    | _ => exact .inl hr
  | refresh =>
    refine h.extend rfl rfl (fun r hr => ?_) h.distinct
    cases r with
    | refreshToken t => exact .inr ⟨fun id hid => hid ▸ hrows t hr, fun _ => False.elim⟩
    | _ => exact .inl hr

theorem modifyUser (h : d.Intact) (id : UUID) (f : User → User) (hid : ∀ u, (f u).userId = u.userId)
    (hname : ∀ u, (f u).username = u.username) : (d.modifyUser id f hid).Intact where
  supported r hr := by
    have hbefore : r.Supported d := by
      cases r with
      | user u => exact ⟨fun _ => False.elim, fun _ => False.elim⟩
      | _ => exact h.supported _ hr
    refine hbefore.mono (fun id' hid' => ?_) fun _ hgroup => hgroup
    simp only [Db.modifyUser, Table.get?_updateWhere, Option.isSome_map, hid']
  usernames u hu v hv heq := by
    obtain ⟨u₀, hu₀, hcase⟩ := Table.mem_updateWhere hid hu
    obtain ⟨v₀, hv₀, hcase'⟩ := Table.mem_updateWhere hid hv
    have hu' : u.username = u₀.username ∧ u.userId = u₀.userId := by
      rcases hcase with rfl | rfl
      · exact ⟨rfl, rfl⟩
      · exact ⟨hname u₀, hid u₀⟩
    have hv' : v.username = v₀.username ∧ v.userId = v₀.userId := by
      rcases hcase' with rfl | rfl
      · exact ⟨rfl, rfl⟩
      · exact ⟨hname v₀, hid v₀⟩
    rw [hu'.2, hv'.2]
    exact h.usernames u₀ hu₀ v₀ hv₀ (hu'.1.symm.trans (heq.trans hv'.1))
  distinct := h.distinct

theorem insertUser (h : d.Intact) (user : User)
    (hname : ∀ u ∈ d.users.rows, u.username ≠ user.username) :
    ({ d with users := d.users.insertNew user } : Db).Intact where
  supported r hr := by
    have hbefore : r.Supported d := by
      cases r with
      | user u => exact ⟨fun _ => False.elim, fun _ => False.elim⟩
      | _ => exact h.supported _ hr
    exact hbefore.mono (fun _ => Table.isSome_insertNew) fun _ hgroup => hgroup
  usernames u hu v hv heq := by
    rcases Table.mem_of_mem_insertNew hu with hu | hu <;>
      rcases Table.mem_of_mem_insertNew hv with hv | hv
    · exact h.usernames u hu v hv heq
    · exact absurd (hv ▸ heq) (hname u hu)
    · exact absurd (hu ▸ heq).symm (hname v hv)
    · rw [hu, hv]
  distinct := h.distinct

end Db.Intact

/-! ### The writes of the two services on accounts and sessions -/

def Write.Fits (d : Db) : Write → Prop
  | insertUser user => ∀ u ∈ d.users.rows, u.username ≠ user.username
  | insertToken _ t => (d.users.get? t.userId).isSome
  | setDeactivated .. | changePassword .. | revokeToken .. => True

def Write.FitAll : Db → List Write → Prop
  | _, [] => True
  | d, w :: ws => w.Fits d ∧ FitAll (w.apply d) ws

section

variable {d d' : Db} {ws ws' : List Write}

theorem Write.fitAll_append : FitAll d (ws ++ ws') ↔ FitAll d ws ∧ FitAll (applyAll ws d) ws' := by
  induction ws generalizing d with
  | nil => exact (true_and _).symm.to_iff
  | cons w ws ih =>
    rw [List.cons_append, FitAll, FitAll, ih, and_assoc]
    rfl

theorem Write.fitAll_of_forall (h : ∀ w ∈ ws, ∀ d, w.Fits d) : FitAll d ws := by
  induction ws generalizing d with
  | nil => trivial
  | cons w ws ih =>
    exact ⟨h w (List.mem_cons_self ..) d, ih fun w' hw' => h w' (List.mem_cons_of_mem _ hw')⟩

theorem Write.fitAll_revokeTokens (k : TokenKind) (hs : List TokenHash) :
    FitAll d (hs.map (.revokeToken k)) := by
  refine fitAll_of_forall fun w hw d => ?_
  obtain ⟨h, -, rfl⟩ := List.mem_map.mp hw
  trivial

theorem Write.fitAll_pair {t t' : Token} (h : (d.users.get? t.userId).isSome)
    (h' : t'.userId = t.userId) : FitAll d [.insertToken .access t, .insertToken .refresh t'] := by
  refine ⟨h, ?_, trivial⟩
  rw [Fits, apply, Db.modifyTokens_users, h']
  exact h

theorem Db.Intact.apply (h : d.Intact) {w : Write} (hw : w.Fits d) : (w.apply d).Intact := by
  cases w with
  | insertUser user => exact h.insertUser user hw
  | setDeactivated id v => exact h.modifyUser id _ _ fun _ => rfl
  | changePassword id p => exact h.modifyUser id _ _ fun _ => rfl
  | insertToken k t =>
    refine h.modifyTokens k (·.insertNew t) fun t' ht' => ?_
    rcases Table.mem_of_mem_insertNew ht' with hold | rfl
    · exact h.supported_token hold
    · exact hw
  | revokeToken k hash =>
    refine h.modifyTokens k (·.updateWhere _ _ _) fun t' ht' => ?_
    obtain ⟨t, ht, hsame⟩ := Table.mem_updateWhere _ ht'
    have hstored := h.supported_token ht
    rcases hsame with rfl | rfl <;> exact hstored

theorem Db.Intact.applyAll (h : d.Intact) (hws : Write.FitAll d ws) : (Write.applyAll ws d).Intact := by
  induction ws generalizing d with
  | nil => exact h
  | cons w ws ih => exact ih (h.apply hws.1) hws.2

/-! ### The calls -/

theorem Db.intact_deleteUser {id : UUID} (h : d.Intact) (hd : d.deleteUser id = .ok d') : d'.Intact where
  supported r hr := by
    obtain ⟨hold, hnot, -⟩ := (Db.has_deleteUser hd r).mp hr
    obtain ⟨-, -, rfl⟩ := Db.deleteUser_eq_ok hd
    refine ⟨fun id' hid' => ?_, (h.supported r hold).groups⟩
    -- the row refers to another account, whose own row is kept
    obtain ⟨u, hu⟩ := Option.isSome_iff_exists.mp ((h.supported r hold).accounts id' hid')
    have hne : u.userId ≠ id := by
      rintro rfl
      exact hnot (Table.key_of_get? hu ▸ hid')
    simp [Table.get?_deleteWhere, hu, Option.filter, hne]
  usernames u hu v hv heq :=
    h.usernames u ((Db.has_deleteUser hd (.user u)).mp hu).1 v
      ((Db.has_deleteUser hd (.user v)).mp hv).1 heq
  distinct f hf := h.distinct f ((Db.has_deleteUser hd (.friendship f)).mp hf).1

theorem Operation.intact_transact {op : Operation} {f : Await → Option Fault} {es : List SystemEvent}
    (h : d.Intact) (hc : op.transact f d = some (d', es)) : d'.Intact := by
  cases op with
  | register env username password =>
    simp only [transact] at hc
    split at hc
    · cases hc
    · obtain ⟨-, -, _, htx, -⟩ := Op.committed_eq_some.mp hc
      obtain ⟨-, -, -, hid, hname, rfl⟩ := registerTx_eq_ok.mp htx
      have hnew : ∀ u ∈ d.users.rows, u.username ≠ (env.newUser username password).username := by
        simpa using hname
      refine h.applyAll ⟨hnew, Write.fitAll_pair ?_ rfl⟩
      have hstored : (d.users.insertNew (env.newUser username password)).get? env.newUserId =
          some (env.newUser username password) := Table.get?_insertNew_self hid
      exact Option.isSome_iff_exists.mpr ⟨_, hstored⟩
  | login env username password =>
    obtain ⟨-, -, ⟨user, b⟩, htx, -⟩ := Op.committed_eq_some.mp hc
    have hfound := find?_of_loginTx htx
    obtain ⟨-, -, rfl⟩ := (loginTx_eq_ok hfound).mp htx
    have hstored : (d.users.get? user.userId).isSome :=
      Option.isSome_iff_exists.mpr ⟨user, get?_of_find? hfound⟩
    refine h.applyAll (Write.fitAll_append.mpr ⟨Write.fitAll_of_forall fun w hw d => ?_,
      Write.fitAll_pair (Write.isSome_user_applyAll _ hstored) rfl⟩)
    rcases List.mem_append.mp hw with hw | hw <;> split at hw
    · obtain rfl := List.mem_singleton.mp hw
      trivial
    · cases hw
    · obtain rfl := List.mem_singleton.mp hw
      trivial
    · cases hw
  | refresh env raw =>
    obtain ⟨-, -, ⟨b, u⟩, htx, -⟩ := Op.committed_eq_some.mp hc
    obtain ⟨-, token, -, -, rfl, hrest⟩ := refreshTx_eq_ok.mp htx
    split at hrest
    · obtain ⟨-, rfl⟩ := hrest
      exact (h.applyAll (Write.fitAll_revokeTokens _ _)).applyAll (Write.fitAll_revokeTokens _ _)
    · obtain ⟨-, -, -, hstored, rfl⟩ := hrest
      refine h.applyAll ⟨trivial, Write.fitAll_pair ?_ rfl⟩
      rwa [Write.apply, Db.modifyTokens_users]
  | logout env raw access =>
    obtain ⟨-, -, _, htx, -⟩ := Op.committed_eq_some.mp hc
    obtain ⟨-, -, rfl⟩ := logoutTx_eq_ok htx
    exact h.applyAll ⟨trivial, Write.fitAll_revokeTokens _ _⟩
  | deactivateAccount id =>
    obtain ⟨-, -, _, htx, -⟩ := Op.committed_eq_some.mp hc
    obtain ⟨-, -, rfl⟩ := query_deactivateUser.mp htx
    exact h.apply trivial
  | reactivateAccount id =>
    obtain ⟨-, -, _, htx, -⟩ := Op.committed_eq_some.mp hc
    obtain ⟨-, -, rfl⟩ := query_reactivateUser.mp htx
    exact h.apply trivial
  | deleteAccount id =>
    obtain ⟨-, -, _, htx, -⟩ := Op.committed_eq_some.mp hc
    exact Db.intact_deleteUser h (UserService.deleteAccountTx_eq_ok.mp htx).2

theorem Db.Intact.insertMembership (h : d.Intact) {m : Membership}
    (hgroup : (d.groups.get? m.groupId).isSome) (huser : (d.users.get? m.userId).isSome) :
    ({ d with memberships := d.memberships.insertNew m } : Db).Intact := by
  refine h.extend rfl rfl (fun r hr => ?_) h.distinct
  cases r with
  | membership m' =>
    rcases Table.mem_of_mem_insertNew hr with hold | rfl
    · exact .inl hold
    · exact .inr ⟨fun id hid => hid ▸ huser, fun id hid => hid ▸ hgroup⟩
  | _ => exact .inl hr

theorem Db.Intact.insertGroup (h : d.Intact) {g : Group} (hcreator : (d.users.get? g.createdBy).isSome) :
    ({ d with groups := d.groups.insertNew g } : Db).Intact where
  supported r hr := by
    have hbefore : r.Supported d := by
      cases r with
      | group g' =>
        rcases Table.mem_of_mem_insertNew hr with hold | rfl
        · exact h.supported (.group g') hold
        · exact ⟨fun id hid => hid ▸ hcreator, fun _ => False.elim⟩
      | _ => exact h.supported _ hr
    exact hbefore.mono (fun _ hid => hid) fun _ => Table.isSome_insertNew
  usernames := h.usernames
  distinct := h.distinct

theorem Db.Intact.deleteGroup (h : d.Intact) (id : UUID) :
    ({ d with
      groups := d.groups.deleteWhere (·.groupId = id)
      memberships := d.memberships.deleteWhere (·.groupId = id)
      groupMessages := d.groupMessages.deleteWhere (·.groupId = id) } : Db).Intact where
  supported r hr := by
    have hold : d.Has r ∧ ¬ r.InGroup id := by
      cases r with
      | group g => exact ⟨(Db.mem_deleteWhere.mp hr).1, False.elim⟩
      | membership m | groupMessage m => simpa [Db.Has, Db.mem_deleteWhere, Row.InGroup] using hr
      | _ => exact ⟨hr, False.elim⟩
    obtain ⟨hold, hnot⟩ := hold
    refine ⟨(h.supported r hold).accounts, fun g hg => ?_⟩
    obtain ⟨row, hrow⟩ := Option.isSome_iff_exists.mp ((h.supported r hold).groups g hg)
    have hne : row.groupId ≠ id := by
      rintro rfl
      exact hnot (Table.key_of_get? hrow ▸ hg)
    simp [Table.get?_deleteWhere, hrow, Option.filter, hne]
  usernames := h.usernames
  distinct := h.distinct

theorem GroupOperation.user_of_addGroupMember {m : Membership}
    (h : GroupQueries.addGroupMember m d = .ok d') : (d.users.get? m.userId).isSome := by
  unfold GroupQueries.addGroupMember at h
  split at h
  · cases h
  · split at h
    · cases h
    · next hfk =>
      simp only [Bool.or_eq_true, not_or, Bool.not_eq_true, Option.isNone_eq_false_iff] at hfk
      exact hfk.2

theorem GroupOperation.intact_addGroupMember {m : Membership} (h : d.Intact)
    (hadd : GroupQueries.addGroupMember m d = .ok d') : d'.Intact := by
  have huser := user_of_addGroupMember hadd
  obtain ⟨rfl, hgroup⟩ := addGroupMember_eq_ok hadd
  exact h.insertMembership hgroup huser

theorem GroupOperation.intact_tx {op : GroupOperation} (h : d.Intact) (htx : op.tx d = .ok d') :
    d'.Intact := by
  cases op with
  | createGroup creator name group now =>
    obtain ⟨d₁, hcreate, hadd⟩ := bind_eq_ok.mp htx
    obtain ⟨hcreator, rfl⟩ := createGroup_eq_ok hcreate
    exact intact_addGroupMember (h.insertGroup hcreator) hadd
  | addMember actor group target now =>
    obtain ⟨row, -, hrest⟩ := bind_eq_ok.mp htx
    split at hrest
    · cases hrest
    · exact intact_addGroupMember h hrest
  | removeMember actor group target =>
    obtain rfl := removeMemberTx_eq_ok htx
    refine h.extend rfl rfl (fun r hr => .inl ?_) h.distinct
    cases r with
    | membership m => exact (Db.mem_deleteWhere.mp hr).1
    | _ => exact hr
  | deleteGroup actor group =>
    obtain rfl := deleteGroupTx_eq_ok htx
    exact h.deleteGroup group

theorem MessageQueries.intact_sendDirectMessage {m m' : DirectMessage} (h : d.Intact)
    (hsend : sendDirectMessage m d = .ok (m', d')) : d'.Intact := by
  have hparties : (d.users.get? m.senderId).isSome ∧ (d.users.get? m.recipientId).isSome := by
    unfold sendDirectMessage at hsend
    grind [Option.isNone_eq_false_iff]
  obtain ⟨rfl, -, rfl⟩ := sendDirectMessage_eq_ok hsend
  refine h.extend rfl rfl (fun r hr => ?_) h.distinct
  cases r with
  | directMessage dm =>
    rcases Table.mem_of_mem_insertNew hr with hold | rfl
    · exact .inl hold
    · refine .inr ⟨fun id hid => ?_, fun _ => False.elim⟩
      rcases hid with rfl | rfl
      · exact hparties.1
      · exact hparties.2
  | _ => exact .inl hr

theorem MessageQueries.intact_sendGroupMessage {m m' : GroupMessage} (h : d.Intact)
    (hsend : sendGroupMessage m d = .ok (m', d')) : d'.Intact := by
  have hparties : (d.groups.get? m.groupId).isSome ∧ (d.users.get? m.senderId).isSome := by
    unfold sendGroupMessage at hsend
    grind [Option.isNone_eq_false_iff]
  obtain ⟨rfl, -, rfl⟩ := sendGroupMessage_eq_ok hsend
  refine h.extend rfl rfl (fun r hr => ?_) h.distinct
  cases r with
  | groupMessage gm =>
    rcases Table.mem_of_mem_insertNew hr with hold | rfl
    · exact .inl hold
    · exact .inr ⟨fun id hid => hid ▸ hparties.2, fun id hid => hid ▸ hparties.1⟩
  | _ => exact .inl hr

theorem MessageOperation.intact_transact {op : MessageOperation} {f : Faults MessagingAwait Error}
    {pushes : List MessagePush} (h : d.Intact) (hc : op.transact f d = some (d', pushes)) :
    d'.Intact := by
  cases op with
  | sendDirectMessage env sender recipient content =>
    obtain ⟨-, -, m, hbody, -⟩ := Op.committed_eq_some.mp hc
    obtain ⟨_, d₁, hfriends, hinsert⟩ := Tx.bind_eq_ok.mp hbody
    obtain ⟨rfl, -⟩ := accepted_of_requireFriendship hfriends
    exact MessageQueries.intact_sendDirectMessage h (MessagingService.insert_eq_ok hinsert)
  | sendGroupMessage env sender group content =>
    obtain ⟨-, -, m, hbody, -⟩ := Op.committed_eq_some.mp hc
    obtain ⟨_, d₁, hfetch, hinsert⟩ := Tx.bind_eq_ok.mp hbody
    obtain ⟨-, rfl⟩ := MessagingService.fetch_eq_ok hfetch
    exact MessageQueries.intact_sendGroupMessage h (MessagingService.insert_eq_ok hinsert)

theorem FriendshipWrite.intact_apply (h : d.Intact) {w : FriendshipWrite}
    (hw : ∀ f, w = .insert f → f.requesterId ≠ f.addresseeId ∧
      (d.users.get? f.requesterId).isSome ∧ (d.users.get? f.addresseeId).isSome) :
    (w.apply d).Intact := by
  -- each row that is stored afterwards is between two accounts, as it was or by `hw`
  have hrows : ∀ f ∈ (w.apply d).friendships.rows, f.requesterId ≠ f.addresseeId ∧
      (d.users.get? f.requesterId).isSome ∧ (d.users.get? f.addresseeId).isSome := by
    have hbefore : ∀ f ∈ d.friendships.rows, f.requesterId ≠ f.addresseeId ∧
        (d.users.get? f.requesterId).isSome ∧ (d.users.get? f.addresseeId).isSome := fun f hf =>
      ⟨h.distinct f hf, (h.supported (.friendship f) hf).accounts _ (.inl rfl),
        (h.supported (.friendship f) hf).accounts _ (.inr rfl)⟩
    intro f hf
    cases w with
    | insert f' =>
      rcases Table.mem_of_mem_insertNew hf with hold | rfl
      · exact hbefore f hold
      · exact hw f rfl
    | accept pair now =>
      have hkey : ∀ f : Friendship, (f.accept now).pk = f.pk := fun _ => rfl
      obtain ⟨f₀, hf₀, hsame⟩ := Table.mem_updateWhere hkey hf
      have hold := hbefore f₀ hf₀
      rcases hsame with rfl | rfl <;> exact hold
    | delete pair => exact hbefore f (Db.mem_deleteWhere.mp hf).1
  have hgroups : (w.apply d).groups = d.groups := by cases w <;> rfl
  refine h.extend (users_apply w d) hgroups (fun r hr => ?_) fun f hf => (hrows f hf).1
  cases r with
  | friendship f =>
    refine .inr ⟨fun id hid => ?_, fun _ => False.elim⟩
    rcases hid with rfl | rfl
    · exact (hrows f hr).2.1
    · exact (hrows f hr).2.2
  | _ => cases w <;> exact .inl hr

theorem FriendshipWrite.intact_deletes (pairs : List (UUID × UUID)) (h : d.Intact) :
    (applyAll (pairs.map .delete) d).Intact := by
  induction pairs generalizing d with
  | nil => exact h
  | cons pair pairs ih => exact ih (intact_apply h nofun)

theorem FriendshipCall.intact_run {c : FriendshipCall} (h : d.Intact) (hrun : c.run d = .ok d') :
    d'.Intact := by
  cases c with
  | sendFriendRequest requester addressee now =>
    obtain ⟨hne, -, hrequester, haddressee, rfl⟩ := run_sendFriendRequest.mp hrun
    refine FriendshipWrite.intact_apply h fun f hf => ?_
    obtain rfl := FriendshipWrite.insert.inj hf
    exact ⟨hne, hrequester, haddressee⟩
  | acceptFriendRequest addressee requester now =>
    obtain ⟨-, rfl⟩ := run_acceptFriendRequest.mp hrun
    exact FriendshipWrite.intact_apply h nofun
  | removeOrDeclineFriendship a b =>
    obtain ⟨-, ws, hws, rfl⟩ := run_eq_ok.mp hrun
    have halone := congrArg Prod.snd (FriendshipQueries.writeFriendships_alone
      (FriendshipQueries.Between a b ·) .delete d)
    obtain rfl : _ = ws := halone.symm.trans (congrArg Prod.snd hws)
    exact FriendshipWrite.intact_deletes _ h

/-- A call that commits leaves no reference without what it refers to. -/
theorem UserCall.intact_commit {c : UserCall} (h : d.Intact) (hc : c.commit d = some d') : d'.Intact := by
  cases c with
  | friendship c =>
    cases hrun : c.run d with
    | ok d₁ =>
      simp only [commit, hrun] at hc
      obtain rfl := Option.some.inj hc
      exact FriendshipCall.intact_run h hrun
    | error e => simp [commit, hrun, Except.toOption] at hc
  | service c =>
    obtain ⟨⟨d₁, bs⟩, hservice, rfl⟩ := Option.map_eq_some_iff.mp hc
    cases c with
    | auth op f =>
      obtain ⟨⟨d₂, es⟩, htransact, heq⟩ := Option.map_eq_some_iff.mp hservice
      obtain ⟨rfl, -⟩ := Prod.mk.inj heq
      exact op.intact_transact h htransact
    | group op f =>
      obtain ⟨⟨d₂, tasks⟩, htransact, heq⟩ := Option.map_eq_some_iff.mp hservice
      obtain ⟨rfl, -⟩ := Prod.mk.inj heq
      exact GroupOperation.intact_tx h (GroupOperation.tx_of_transact htransact)
    | message op f =>
      obtain ⟨⟨d₂, pushes⟩, htransact, heq⟩ := Option.map_eq_some_iff.mp hservice
      obtain ⟨rfl, -⟩ := Prod.mk.inj heq
      exact op.intact_transact h htransact

end
end Messenger
