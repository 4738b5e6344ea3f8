import Messenger.Services.Integrity

/-! Whom a call acts for, and whom a row concerns. A call changes no row that concerns none of the users
that it acts for. -/

namespace Messenger
open Transactional AuthService

/-- The account's own row, a row that refers to it, or a row inside a group of its. -/
def Row.Concerns (d : Db) (u : UUID) (r : Row) : Prop :=
  r.RefersTo u ∨ (∃ x, r = .user x ∧ x.userId = u) ∨
    ∃ g ∈ d.groups.rows, g.createdBy = u ∧ r.InGroup g.groupId

namespace GroupOperation

def actor : GroupOperation → UUID
  | createGroup creator _ _ _ => creator
  | addMember actor _ _ _ | removeMember actor _ _ | deleteGroup actor _ => actor

end GroupOperation

def MessageOperation.senderId : MessageOperation → UUID
  | sendDirectMessage _ sender _ _ | sendGroupMessage _ sender _ _ => sender

def FriendshipCall.actor : FriendshipCall → UUID
  | sendFriendRequest requester _ _ => requester
  | acceptFriendRequest addressee _ _ => addressee
  | removeOrDeclineFriendship a _ => a

/-- The users that the call is made for: a new user, the one whose password it brings, those whose
tokens it brings, or its actor. -/
def UserCall.ActsFor (d : Db) (u : UUID) : UserCall → Prop
  | service (.auth (.register env _ _) _) => env.newUserId = u
  | service (.auth (.login env username password) _) =>
    ∃ user, d.users.get? u = some user ∧ user.username = username ∧
      env.hasher.verify password user.passwordHash = true
  | service (.auth (.refresh env raw) _) => d.OwnedBy .refresh (env.hashToken raw) u
  | service (.auth (.logout env raw access) _) =>
    d.OwnedBy .refresh (env.hashToken raw) u ∨
      ∃ h, logoutAccessHash env access = some h ∧ d.OwnedBy .access h u
  | service (.auth (.deactivateAccount id) _) | service (.auth (.reactivateAccount id) _)
  | service (.auth (.deleteAccount id) _) => id = u
  | service (.group op _) => op.actor = u
  | service (.message op _) => op.senderId = u
  | friendship c => c.actor = u

def Write.For (d : Db) (u : UUID) : Write → Prop
  | insertUser user => user.userId = u
  | setDeactivated id _ | changePassword id _ => id = u
  | insertToken _ t => t.userId = u
  | revokeToken k h => d.OwnedBy k h u

section

variable {d d' : Db} {u : UUID} {r : Row} {w : Write} {ws : List Write}

theorem Write.groups_apply (w : Write) (d : Db) : (w.apply d).groups = d.groups :=
  Write.groups_applyAll [w] d

theorem Write.For.apply (h : w.For d u) (w' : Write) : w.For (w'.apply d) u := by
  cases w with
  | revokeToken k hash => exact Write.ownedBy_applyAll [w'] h
  | _ => exact h

theorem Row.concerns_apply : r.Concerns (w.apply d) u ↔ r.Concerns d u := by
  rw [Concerns, Concerns, Write.groups_apply]

theorem Row.not_concerns_user {x : User} (h : ¬ (Row.user x).Concerns d u) : x.userId ≠ u :=
  fun hx => h (.inr (.inl ⟨x, rfl, hx⟩))

theorem Db.has_modifyTokens {k : TokenKind}
    {f : Table Token Token.tokenHash → Table Token Token.tokenHash} (hr : ¬ r.Concerns d u)
    (hf : ∀ t : Token, t.userId ≠ u → (t ∈ (f (d.tokens k)).rows ↔ t ∈ (d.tokens k).rows)) :
    (d.modifyTokens f k).Has r ↔ d.Has r := by
  cases k with
  | access =>
    cases r with
    | accessToken t => exact hf t fun ht => hr (.inl ht)
    | _ => exact Iff.rfl
  | refresh =>
    cases r with
    | refreshToken t => exact hf t fun ht => hr (.inl ht)
    | _ => exact Iff.rfl

theorem Db.has_modifyUser {f : User → User} {hf : ∀ x, (f x).userId = x.userId}
    (hr : ¬ r.Concerns d u) : (d.modifyUser u f hf).Has r ↔ d.Has r := by
  cases r with
  | user x =>
    refine Table.mem_updateWhere_iff hf fun x' hx' => decide_eq_false ?_
    rw [Table.key_of_get? hx']
    exact Row.not_concerns_user hr
  | _ => exact Iff.rfl

theorem Db.mem_revoked {k : TokenKind} {h : TokenHash} {t : Token} (ho : d.OwnedBy k h u)
    (ht : t.userId ≠ u) :
    t ∈ ((d.tokens k).updateWhere (·.tokenHash = h) (fun t => { t with isRevoked := true })
      fun _ => rfl).rows ↔ t ∈ (d.tokens k).rows := by
  obtain ⟨owned, howned, rfl⟩ := ho
  by_cases hh : t.tokenHash = h
  · -- the row under this hash is another one, before and after
    subst hh
    rw [Table.mem_rows_iff, Table.mem_rows_iff, Table.get?_updateWhere, howned, Option.map_some,
      if_pos (decide_eq_true (Table.key_of_get? howned))]
    constructor
    · exact fun heq => absurd (congrArg Token.userId (Option.some.inj heq)).symm ht
    · exact fun heq => absurd (congrArg Token.userId (Option.some.inj heq)).symm ht
  · refine Table.mem_updateWhere_iff _ fun t' ht' => decide_eq_false ?_
    rwa [Table.key_of_get? ht']

theorem Write.has_apply (hw : w.For d u) (hr : ¬ r.Concerns d u) : (w.apply d).Has r ↔ d.Has r := by
  cases w with
  | insertUser user =>
    cases r with
    | user x =>
      refine Table.mem_insertNew_iff ?_
      rintro rfl
      exact Row.not_concerns_user hr hw
    | _ => exact Iff.rfl
  | setDeactivated id v | changePassword id p =>
    obtain rfl : id = u := hw
    exact Db.has_modifyUser hr
  | insertToken k t =>
    refine Db.has_modifyTokens hr fun t' ht' => Table.mem_insertNew_iff ?_
    rintro rfl
    exact ht' hw
  | revokeToken k h => exact Db.has_modifyTokens hr fun t ht => Db.mem_revoked hw ht

theorem Write.has_applyAll (hws : ∀ w ∈ ws, ∃ u, w.For d u ∧ ¬ r.Concerns d u) :
    (applyAll ws d).Has r ↔ d.Has r := by
  induction ws generalizing d with
  | nil => exact Iff.rfl
  | cons w ws ih =>
    obtain ⟨u, hfor, hr⟩ := hws w (List.mem_cons_self ..)
    have hrest : ∀ w' ∈ ws, ∃ u, w'.For (w.apply d) u ∧ ¬ r.Concerns (w.apply d) u := by
      intro w' hw'
      obtain ⟨u', hfor', hr'⟩ := hws w' (List.mem_cons_of_mem _ hw')
      exact ⟨u', hfor'.apply w, fun hc => hr' (Row.concerns_apply.mp hc)⟩
    exact (ih hrest).trans (has_apply hfor hr)

theorem Row.concerns_applyAll : r.Concerns (Write.applyAll ws d) u ↔ r.Concerns d u := by
  rw [Concerns, Concerns, Write.groups_applyAll]

theorem has_sweep {k : TokenKind} (hr : ¬ r.Concerns d u) : (sweep d k u).Has r ↔ d.Has r := by
  refine Write.has_applyAll fun w hw => ⟨u, ?_, hr⟩
  obtain ⟨h, hh, rfl⟩ := List.mem_map.mp hw
  obtain ⟨t, ht, hu⟩ := Table.mem_keysWhere.mp hh
  exact ⟨t, ht, of_decide_eq_true hu⟩

theorem Write.for_pair {p : HashedPair}
    (hw : w ∈ [insertToken .access (p.row .access u), insertToken .refresh (p.row .refresh u)]) :
    w.For d u := by
  rcases List.mem_pair.mp hw with rfl | rfl
  · exact rfl
  · exact rfl

theorem Write.for_loginWrites {env : AuthEnv} {password : String} {user : User}
    (hw : w ∈ loginWrites env password user) : w.For d user.userId := by
  rcases List.mem_append.mp hw with hw | hw
  · rcases List.mem_append.mp hw with hw | hw
    · split at hw
      · rw [List.mem_singleton.mp hw, For]
      · cases hw
    · split at hw
      · rw [List.mem_singleton.mp hw, For]
      · cases hw
  · exact for_pair hw

theorem Db.has_deleteUser_of_not_concerns {id : UUID} (hd : d.deleteUser id = .ok d')
    (hr : ¬ r.Concerns d id) : d'.Has r ↔ d.Has r := by
  rw [Db.has_deleteUser hd]
  refine and_iff_left ⟨fun href => hr (.inl href), ?_⟩
  rintro x rfl
  exact Row.not_concerns_user hr

theorem Operation.has_transact {op : Operation} {f : Await → Option Fault} {es : List SystemEvent}
    (hc : op.transact f d = some (d', es))
    (hr : ∀ u, (UserCall.service (.auth op f)).ActsFor d u → ¬ r.Concerns d u) :
    d'.Has r ↔ d.Has r := by
  cases op with
  | register env username password =>
    simp only [transact] at hc
    split at hc
    · cases hc
    · obtain ⟨-, -, _, htx, -⟩ := Op.committed_eq_some.mp hc
      obtain ⟨-, -, -, -, -, rfl⟩ := registerTx_eq_ok.mp htx
      refine Write.has_applyAll fun w hw => ⟨env.newUserId, ?_, hr _ rfl⟩
      rcases List.mem_cons.mp hw with rfl | hw
      · exact rfl
      · exact Write.for_pair hw
  | login env username password =>
    obtain ⟨-, -, ⟨user, b⟩, htx, -⟩ := Op.committed_eq_some.mp hc
    have hfound := find?_of_loginTx htx
    obtain ⟨hruns, -, rfl⟩ := (loginTx_eq_ok hfound).mp htx
    have hname : user.username = username := by simpa using List.find?_some hfound
    have hacts : (UserCall.service (.auth (.login env username password) f)).ActsFor d user.userId :=
      ⟨user, get?_of_find? hfound, hname, hruns.2.2.2.1⟩
    exact Write.has_applyAll fun w hw => ⟨user.userId, Write.for_loginWrites hw, hr _ hacts⟩
  | refresh env raw =>
    obtain ⟨-, -, ⟨b, u⟩, htx, -⟩ := Op.committed_eq_some.mp hc
    obtain ⟨-, token, htoken, -, rfl, hrest⟩ := refreshTx_eq_ok.mp htx
    have hnot : ¬ r.Concerns d token.userId := hr _ ⟨token, htoken, rfl⟩
    split at hrest
    · obtain ⟨-, rfl⟩ := hrest
      exact (has_sweep fun hc => hnot (Row.concerns_applyAll.mp hc)).trans (has_sweep hnot)
    · obtain ⟨-, -, -, -, rfl⟩ := hrest
      refine Write.has_applyAll fun w hw => ⟨token.userId, ?_, hnot⟩
      rcases List.mem_cons.mp hw with rfl | hw
      · exact ⟨token, htoken, rfl⟩
      · exact Write.for_pair hw
  | logout env raw access =>
    obtain ⟨-, -, _, htx, -⟩ := Op.committed_eq_some.mp hc
    obtain ⟨hrefresh, haccess, rfl⟩ := logoutTx_eq_ok htx
    refine Write.has_applyAll fun w hw => ?_
    rcases List.mem_cons.mp hw with rfl | hw
    · obtain ⟨t, ht⟩ := Option.isSome_iff_exists.mp hrefresh
      exact ⟨t.userId, ⟨t, ht, rfl⟩, hr _ (.inl ⟨t, ht, rfl⟩)⟩
    · obtain ⟨h, hh, rfl⟩ := List.mem_map.mp hw
      have hlogout := Option.mem_toList.mp hh
      obtain ⟨t, ht⟩ := Option.isSome_iff_exists.mp (haccess h hlogout)
      exact ⟨t.userId, ⟨t, ht, rfl⟩, hr _ (.inr ⟨h, hlogout, t, ht, rfl⟩)⟩
  | deactivateAccount id =>
    obtain ⟨-, -, _, htx, -⟩ := Op.committed_eq_some.mp hc
    obtain ⟨-, -, rfl⟩ := query_deactivateUser.mp htx
    exact Write.has_apply rfl (hr id rfl)
  | reactivateAccount id =>
    obtain ⟨-, -, _, htx, -⟩ := Op.committed_eq_some.mp hc
    obtain ⟨-, -, rfl⟩ := query_reactivateUser.mp htx
    exact Write.has_apply rfl (hr id rfl)
  | deleteAccount id =>
    obtain ⟨-, -, _, htx, -⟩ := Op.committed_eq_some.mp hc
    exact Db.has_deleteUser_of_not_concerns (UserService.deleteAccountTx_eq_ok.mp htx).2 (hr id rfl)

theorem Row.not_inGroup {g : UUID} {row : Group} (hg : d.groups.get? g = some row)
    (hcreator : row.createdBy = u) (hr : ¬ r.Concerns d u) : ¬ r.InGroup g := by
  obtain ⟨hrow, rfl⟩ := Table.get?_eq_some.mp hg
  exact fun hin => hr (.inr (.inr ⟨row, hrow, hcreator, hin⟩))

theorem GroupOperation.has_tx {op : GroupOperation} (htx : op.tx d = .ok d')
    (hr : ¬ r.Concerns d op.actor) : d'.Has r ↔ d.Has r := by
  cases op with
  | createGroup creator name group now =>
    obtain ⟨rfl, -⟩ := createGroupTx_eq_ok htx
    cases r with
    | group g =>
      refine Table.mem_insertNew_iff ?_
      rintro rfl
      exact hr (.inl rfl)
    | membership m =>
      refine Table.mem_insertNew_iff ?_
      rintro rfl
      exact hr (.inl rfl)
    | _ => exact Iff.rfl
  | addMember actor group target now =>
    obtain ⟨row, hget, hcreator⟩ := creator_of_addMemberTx htx
    have hnot : ¬ r.InGroup group := Row.not_inGroup hget hcreator hr
    obtain ⟨rfl, -⟩ := addMemberTx_eq_ok htx
    cases r with
    | membership m =>
      refine Table.mem_insertNew_iff ?_
      rintro rfl
      exact hnot rfl
    | _ => exact Iff.rfl
  | removeMember actor group target =>
    obtain ⟨row, hget, -, hmay⟩ := actor_of_removeMemberTx htx
    obtain rfl := removeMemberTx_eq_ok htx
    cases r with
    | membership m =>
      refine Db.mem_deleteWhere.trans (and_iff_left (decide_eq_false fun hpk => ?_))
      obtain ⟨hgroup, huser⟩ := Prod.mk.inj hpk
      rcases hmay with rfl | hcreator
      · exact hr (.inl huser)
      · exact Row.not_inGroup hget hcreator hr hgroup
    | _ => exact Iff.rfl
  | deleteGroup actor group =>
    obtain ⟨row, hget, hcreator⟩ := creator_of_deleteGroupTx htx
    have hnot : ¬ r.InGroup group := Row.not_inGroup hget hcreator hr
    obtain rfl := deleteGroupTx_eq_ok htx
    cases r with
    | group g =>
      refine Db.mem_deleteWhere.trans (and_iff_left_of_imp fun hg => decide_eq_false fun hid => ?_)
      -- a stored group with this id is the one that the actor has created
      have hsame : d.groups.get? group = some g := Table.get?_eq_some.mpr ⟨hg, hid⟩
      obtain rfl := Option.some.inj (hsame.symm.trans hget)
      exact hr (.inl hcreator)
    | membership m | groupMessage m =>
      exact Db.mem_deleteWhere.trans (and_iff_left (decide_eq_false hnot))
    | _ => exact Iff.rfl

theorem FriendshipWrite.has_apply {w : FriendshipWrite} (hr : ¬ r.Concerns d u)
    (hw : w.target.1 = u ∨ w.target.2 = u) : (w.apply d).Has r ↔ d.Has r := by
  cases r with
  | friendship f =>
    have hpk : f.pk ≠ w.target := by
      intro hpk
      refine hr (.inl ?_)
      rwa [← hpk] at hw
    rw [Db.Has, Db.Has, Table.mem_rows_iff, Table.mem_rows_iff]
    cases w with
    | insert f' =>
      have hne : f'.pk ≠ f.pk := Ne.symm hpk
      rw [get?_insert, if_neg hne, Option.or_none]
    | accept pair now =>
      have hne : f.pk ≠ pair := hpk
      simp only [get?_accept, if_neg hne, Option.map_id']
    | delete pair =>
      have hne : f.pk ≠ pair := hpk
      rw [get?_delete, if_neg hne]
  | _ => cases w <;> exact Iff.rfl

theorem FriendshipCall.has_run {c : FriendshipCall} (hrun : c.run d = .ok d')
    (hr : ¬ r.Concerns d c.actor) : d'.Has r ↔ d.Has r := by
  cases c with
  | sendFriendRequest requester addressee now =>
    obtain ⟨-, -, -, -, rfl⟩ := run_sendFriendRequest.mp hrun
    exact FriendshipWrite.has_apply hr (.inl rfl)
  | acceptFriendRequest addressee requester now =>
    obtain ⟨-, rfl⟩ := run_acceptFriendRequest.mp hrun
    exact FriendshipWrite.has_apply hr (.inr rfl)
  | removeOrDeclineFriendship a b =>
    have hget := run_removeOrDeclineFriendship hrun
    obtain ⟨friendships, rfl⟩ := run_frame hrun
    cases r with
    | friendship f =>
      have hpk : ¬ (f.pk = (a, b) ∨ f.pk = (b, a)) := by
        rintro (hpk | hpk)
        · exact hr (.inl (.inl (Prod.mk.inj hpk).1))
        · exact hr (.inl (.inr (Prod.mk.inj hpk).2))
      rw [Db.Has, Db.Has, Table.mem_rows_iff, Table.mem_rows_iff, hget, if_neg hpk]
    | _ => exact Iff.rfl

theorem MessageOperation.has_transact {op : MessageOperation} {f : Faults MessagingAwait Error}
    {pushes : List MessagePush} (hc : op.transact f d = some (d', pushes))
    (hr : ¬ r.Concerns d op.senderId) : d'.Has r ↔ d.Has r := by
  cases op with
  | sendDirectMessage env sender recipient content =>
    obtain ⟨-, -, m, hbody, -⟩ := Op.committed_eq_some.mp hc
    obtain ⟨_, d₁, hfriends, hinsert⟩ := Tx.bind_eq_ok.mp hbody
    obtain ⟨rfl, -⟩ := accepted_of_requireFriendship hfriends
    obtain ⟨rfl, -, rfl⟩ := MessageQueries.sendDirectMessage_eq_ok (MessagingService.insert_eq_ok hinsert)
    cases r with
    | directMessage m' =>
      refine Table.mem_insertNew_iff ?_
      rintro rfl
      exact hr (.inl (.inl rfl))
    | _ => exact Iff.rfl
  | sendGroupMessage env sender group content =>
    obtain ⟨-, -, m, hbody, -⟩ := Op.committed_eq_some.mp hc
    obtain ⟨_, d₁, hfetch, hinsert⟩ := Tx.bind_eq_ok.mp hbody
    obtain ⟨-, rfl⟩ := MessagingService.fetch_eq_ok hfetch
    obtain ⟨rfl, -, rfl⟩ := MessageQueries.sendGroupMessage_eq_ok (MessagingService.insert_eq_ok hinsert)
    cases r with
    | groupMessage m' =>
      refine Table.mem_insertNew_iff ?_
      rintro rfl
      exact hr (.inl rfl)
    | _ => exact Iff.rfl

/-- A call changes no row that concerns none of those that it is made for. -/
theorem UserCall.has_iff_of_commit {c : UserCall} (hc : c.commit d = some d')
    (hr : ∀ u, c.ActsFor d u → ¬ r.Concerns d u) : d'.Has r ↔ d.Has r := by
  cases c with
  | friendship c =>
    cases hrun : c.run d with
    | ok d₁ =>
      simp only [commit, hrun] at hc
      obtain rfl := Option.some.inj hc
      exact FriendshipCall.has_run hrun (hr _ rfl)
    | error e => simp [commit, hrun, Except.toOption] at hc
  | service c =>
    obtain ⟨⟨d₁, bs⟩, hservice, rfl⟩ := Option.map_eq_some_iff.mp hc
    cases c with
    | auth op f =>
      obtain ⟨⟨d₂, es⟩, htransact, heq⟩ := Option.map_eq_some_iff.mp hservice
      obtain ⟨rfl, -⟩ := Prod.mk.inj heq
      exact op.has_transact htransact hr
    | group op f =>
      obtain ⟨⟨d₂, tasks⟩, htransact, heq⟩ := Option.map_eq_some_iff.mp hservice
      obtain ⟨rfl, -⟩ := Prod.mk.inj heq
      exact GroupOperation.has_tx (GroupOperation.tx_of_transact htransact) (hr _ rfl)
    | message op f =>
      obtain ⟨⟨d₂, pushes⟩, htransact, heq⟩ := Option.map_eq_some_iff.mp hservice
      obtain ⟨rfl, -⟩ := Prod.mk.inj heq
      exact op.has_transact htransact (hr _ rfl)

end

end Messenger
