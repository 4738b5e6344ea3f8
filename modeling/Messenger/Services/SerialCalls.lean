import Messenger.Services.Calls
import Messenger.Services.Commitments

/-! The calls of the services as wholes are those runs of their transactions in which nothing comes
between the statements of a call. -/

namespace Messenger
open ReadCommitted Publishing Transactional

/-! ### Statements that nothing comes between -/

namespace ServicePc

/-- From the view `v` of its transaction the call gets to its commit by itself, leaves `d'` then, and has
`bs` to announce. -/
def Leaves (pw : PasswordHasher) (pc : ServicePc) (v d' : Db) (bs : List Broadcast) : Prop :=
  ∀ ws d, (publications pw).applyAll ws d = v → ∃ pc' ws',
    (publications pw).Completes d pc ws pc' ws' ∧ (publications pw).applyAll ws' d = d' ∧
      pc'.announces = bs

variable {pw : PasswordHasher} {pc next : ServicePc} {v d' : Db} {bs : List Broadcast} {w : ServiceWrite}

namespace Leaves

theorem commit (hc : pc.cmd pw = .commit) (hbs : pc.announces = bs) : pc.Leaves pw v v bs :=
  fun ws _ hview => ⟨pc, ws, .commit hc, hview, hbs⟩

theorem exec {q : ServiceStmt} {ws : List ServiceWrite} (hq : pc.cmd pw = .exec q)
    (hrun : q.run (q.rows v) v = (next, ws)) (h : next.Leaves pw ((publications pw).applyAll ws v) d' bs) :
    pc.Leaves pw v d' bs := by
  rintro ws₀ d rfl
  obtain ⟨pc', ws', hcompletes, hrest⟩ := h (ws₀ ++ ws) d (List.foldl_append ..)
  refine ⟨pc', ws', .exec hq ?_, hrest⟩
  rw [hrun]
  exact hcompletes

theorem select {α : Type} {q : Db → Except Error α} {k : α → ServicePc} {a : α}
    (hcmd : pc.cmd pw = .exec (select q k)) (hq : q v = .ok a) (h : (k a).Leaves pw v d' bs) :
    pc.Leaves pw v d' bs := by
  have hrun : (ServicePc.select q k).run [] v = (k a, []) := by simp only [ServicePc.select, hq]
  exact exec hcmd hrun h

theorem insert {α : Type} {q : Db → Except Error α} {a : α} (hcmd : pc.cmd pw = .exec (insert q w next))
    (hq : q v = .ok a) (h : next.Leaves pw (w.apply v) d' bs) : pc.Leaves pw v d' bs := by
  have hrun : (ServicePc.insert q w next).run [w.target] v = (next, [w]) := by
    simp only [ServicePc.insert, hq]
  exact exec hcmd hrun h

theorem delete {found : Db → Bool} {missing : Error} (hcmd : pc.cmd pw = .exec (delete found missing w next))
    (hfound : found v = true) (h : next.Leaves pw (w.apply v) d' bs) : pc.Leaves pw v d' bs := by
  have hrun : (ServicePc.delete found missing w next).run
      ((ServicePc.delete found missing w next).rows v) v = (next, [w]) := by
    simp [ServicePc.delete, hfound]
  exact exec hcmd hrun h

theorem cascade {f : Db → List ServiceWrite} (hcmd : pc.cmd pw = .exec (cascade f next))
    (h : next.Leaves pw ((publications pw).applyAll (f v) v) d' bs) : pc.Leaves pw v d' bs := by
  have hrun : (ServicePc.cascade f next).run ((f v).map (·.target)) v = (next, f v) :=
    congrArg (next, ·) (List.filter_eq_self.mpr fun w hw => decide_eq_true (List.mem_map_of_mem hw))
  exact exec hcmd hrun h

theorem query {α : Type} {p : AuthPc} {k : α → Pc} {aw : Await} {q : Query α} {f : Faults Await Error}
    {a : α} {v' : Db} (hcmd : p.pc.cmd pw = Pc.andThen q k) (hq : Messenger.query aw q f v = .ok (a, v'))
    (h : (auth (p.after (k a) (q.rows v))).Leaves pw v' d' bs) : (auth p).Leaves pw v d' bs := by
  obtain ⟨-, ws, hrun, rfl⟩ := query_eq_ok.mp hq
  obtain ⟨q', hq', hstmt⟩ : ∃ q', p.cmd pw = .exec (p.stmt q') ∧ Pc.andThen q k = .exec q' :=
    ⟨_, by unfold AuthPc.cmd; rw [hcmd]; rfl, rfl⟩
  obtain ⟨hrows, hnext⟩ := Pc.run_andThen_of_ok hstmt hrun
  have hrun' : (p.stmt q').run ((p.stmt q').rows v) v =
      (auth (p.after (k a) (q.rows v)), ws.map .auth) := by
    simp only [AuthPc.stmt, filterMap_auth, hrows, hnext]
    rfl
  exact exec hq' hrun' (ServiceWrite.applyAll_auth pw ws v ▸ h)

end Leaves

/-! ### The calls of `AuthService` -/

open AuthService UserService

variable {env : AuthEnv} {f : Await → Option Fault} {d : Db} {es : List SystemEvent} {call : Call}
  {flag : Bool} {swept : List RowKey} {u : UUID} {a : Unit}

theorem leaves_issueTokenPair {origin : Origin} (h : issueTokenPair env u (raising f) v = .ok (a, d')) :
    (auth ⟨call, .createToken .access origin u env.pair, flag, swept⟩).Leaves pw v d'
      (auth ⟨call, .issued origin u env.pair, flag, swept⟩).announces := by
  obtain ⟨_, v₁, haccess, hrefresh⟩ := Tx.bind_eq_ok.mp h
  refine .query rfl haccess (.query rfl hrefresh (.commit rfl ?_))
  simp [announces, AuthPc.after, Pc.changesUser, Pc.sweeps]

theorem leaves_rehash {password : String} {user : User} {v₁ : Db} {a' : Unit}
    (hrehash : rehashIfNeeded env password user (raising f) v = .ok (a, v₁))
    (hissue : issueTokenPair env user.userId (raising f) v₁ = .ok (a', d')) :
    (auth ⟨call, Pc.afterReactivate env.hasher user (env.hashPassword password) env.pair, flag,
      swept⟩).Leaves env.hasher v d'
      (auth ⟨call, .issued .login user.userId env.pair,
        flag || env.hasher.needsRehash user.passwordHash, swept⟩).announces := by
  obtain ⟨_, _, hawait, hrehash⟩ := Tx.bind_eq_ok.mp hrehash
  obtain ⟨-, rfl⟩ := Tx.await_eq_ok.mp hawait
  unfold Pc.afterReactivate
  split at hrehash
  · next hneeds =>
    obtain ⟨_, _, hawait, hupdate⟩ := Tx.bind_eq_ok.mp hrehash
    obtain ⟨-, rfl⟩ := Tx.await_eq_ok.mp hawait
    rw [if_pos hneeds, hneeds]
    exact .query rfl hupdate (leaves_issueTokenPair hissue)
  · next hneeds =>
    obtain ⟨-, rfl⟩ := Tx.pure_eq_ok.mp hrehash
    rw [if_neg hneeds, Bool.eq_false_of_not_eq_true hneeds, Bool.or_false]
    exact leaves_issueTokenPair hissue

theorem leaves_login {username password : String} {user : User} {b : Bool}
    (h : loginTx env username password (raising f) d = .ok ((user, b), d')) :
    (entry (.auth (.login username password (env.hashPassword password) env.pair))).Leaves env.hasher d d'
      ((if b then [.userInvalidated user.userId] else []).map .system) := by
  obtain ⟨user', _, hget, hrest⟩ := Tx.bind_eq_ok.mp h
  obtain ⟨_, _, hawait, hrest⟩ := Tx.bind_eq_ok.mp hrest
  obtain ⟨-, rfl⟩ := Tx.await_eq_ok.mp hawait
  refine .query rfl hget ?_
  unfold Pc.afterGetUser AuthPc.after
  split at hrest
  · cases hrest
  · next hverified =>
    obtain ⟨_, _, hreactivate, hrest⟩ := Tx.bind_eq_ok.mp hrest
    obtain ⟨_, _, hrehash, hrest⟩ := Tx.bind_eq_ok.mp hrest
    obtain ⟨_, _, hissue, hpure⟩ := Tx.bind_eq_ok.mp hrest
    obtain ⟨heq, rfl⟩ := Tx.pure_eq_ok.mp hpure
    obtain ⟨rfl, rfl⟩ := Prod.mk.inj heq
    rw [if_neg hverified]
    unfold reactivateIfDeactivated at hreactivate
    split at hreactivate
    · next hdeactivated =>
      rw [if_pos hdeactivated, hdeactivated]
      exact .query rfl hreactivate (leaves_rehash hrehash hissue)
    · next hactive =>
      obtain ⟨-, rfl⟩ := Tx.pure_eq_ok.mp hreactivate
      rw [if_neg hactive, Bool.eq_false_of_not_eq_true hactive]
      exact leaves_rehash hrehash hissue

theorem leaves_refresh {h : TokenHash} {b : Bool}
    (htx : refreshTx env h (raising f) d = .ok ((b, u), d')) :
    (entry (.auth (.refresh h env.pair env.now))).Leaves pw d d'
      ((if b then [.userInvalidated u] else [.tokenRevoked h]).map .system) := by
  obtain ⟨token, _, hget, hrest⟩ := Tx.bind_eq_ok.mp htx
  refine .query rfl hget ?_
  unfold Pc.afterGetRefreshToken AuthPc.after
  split at hrest
  · next hrevoked =>
    obtain ⟨_, _, haccess, hrest⟩ := Tx.bind_eq_ok.mp hrest
    obtain ⟨_, _, hrefresh, hpure⟩ := Tx.bind_eq_ok.mp hrest
    obtain ⟨heq, rfl⟩ := Tx.pure_eq_ok.mp hpure
    obtain ⟨rfl, rfl⟩ := Prod.mk.inj heq
    rw [if_pos hrevoked]
    exact .query rfl haccess (.query rfl hrefresh (.commit rfl rfl))
  · next hlive =>
    split at hrest
    · cases hrest
    · next hunexpired =>
      obtain ⟨_, _, hrevoke, hrest⟩ := Tx.bind_eq_ok.mp hrest
      obtain ⟨_, _, hissue, hpure⟩ := Tx.bind_eq_ok.mp hrest
      obtain ⟨heq, rfl⟩ := Tx.pure_eq_ok.mp hpure
      obtain ⟨rfl, rfl⟩ := Prod.mk.inj heq
      rw [if_neg hlive, if_neg hunexpired]
      exact .query rfl hrevoke (leaves_issueTokenPair hissue)

theorem leaves_logout {r : TokenHash} {access : Option TokenHash}
    (h : logoutTx r access (raising f) d = .ok (a, d')) :
    (entry (.auth (.logout r access))).Leaves pw d d'
      ((.tokenRevoked r :: access.toList.map .tokenRevoked).map .system) := by
  cases access with
  | none => exact .query rfl h (.commit rfl rfl)
  | some hash =>
    obtain ⟨_, _, hrefresh, haccess⟩ := Tx.bind_eq_ok.mp h
    exact .query rfl hrefresh (.query rfl haccess (.commit rfl rfl))

theorem leaves_register {user user' : User} (h : registerTx env user (raising f) d = .ok (user', d')) :
    (entry (.auth (.register user env.pair))).Leaves pw d d' [] := by
  obtain ⟨_, _, hcreate, hrest⟩ := Tx.bind_eq_ok.mp h
  obtain ⟨_, _, hissue, hpure⟩ := Tx.bind_eq_ok.mp hrest
  obtain ⟨-, rfl⟩ := Tx.pure_eq_ok.mp hpure
  exact .query rfl hcreate (leaves_issueTokenPair hissue)

/-! ### The calls of `GroupService` and `MessagingService` -/

theorem leaves_insertMembership {m : Membership} (hcmd : pc.cmd pw = .exec (insertMembership m))
    (h : GroupQueries.addGroupMember m v = .ok d') :
    pc.Leaves pw v d' [.bus (.groupMembership m.userId m.groupId .join)] := by
  obtain ⟨rfl, -⟩ := GroupOperation.addGroupMember_eq_ok h
  exact .insert hcmd h (.commit rfl rfl)

theorem applyAll_membershipCascade (g : UUID) :
    (publications pw).applyAll (membershipCascade g v) v =
      { v with memberships := v.memberships.deleteWhere (·.groupId = g) } := by
  have hfold (ks : List (UUID × UUID)) (d : Db) :
      (publications pw).applyAll (ks.map .deleteMembership) d =
        { d with memberships := ks.foldl (fun t k => t.deleteWhere (·.pk = k)) d.memberships } := by
    induction ks generalizing d with
    | nil => rfl
    | cons k ks ih => exact ih _
  rw [membershipCascade, hfold, Table.foldl_deleteWhere]

theorem applyAll_groupMessageCascade (g : UUID) :
    (publications pw).applyAll (groupMessageCascade g v) v =
      { v with groupMessages := v.groupMessages.deleteWhere (·.groupId = g) } := by
  have hfold (ks : List UUID) (d : Db) :
      (publications pw).applyAll (ks.map .deleteGroupMessage) d =
        { d with
          groupMessages := ks.foldl (fun t k => t.deleteWhere (·.messageId = k)) d.groupMessages } := by
    induction ks generalizing d with
    | nil => rfl
    | cons k ks ih => exact ih _
  rw [groupMessageCascade, hfold, Table.foldl_deleteWhere]

theorem leaves_group {op : GroupOperation} (h : op.tx d = .ok d') :
    (entry (.group op)).Leaves pw d d' [.bus op.event] := by
  cases op with
  | createGroup creator name g now =>
    obtain ⟨d₁, hcreate, hadd⟩ := GroupOperation.bind_eq_ok.mp h
    obtain ⟨-, rfl⟩ := GroupOperation.createGroup_eq_ok hcreate
    exact .insert rfl hcreate (leaves_insertMembership rfl hadd)
  | addMember actor g target now =>
    obtain ⟨group, hget, hrest⟩ := GroupOperation.bind_eq_ok.mp h
    refine .select rfl hget ?_
    split at hrest
    · cases hrest
    · next hcreator =>
      rw [if_neg hcreator]
      exact leaves_insertMembership rfl hrest
  | removeMember actor g target =>
    obtain ⟨group, hget, hrest⟩ := GroupOperation.bind_eq_ok.mp h
    refine .select rfl hget ?_
    split at hrest
    · cases hrest
    · next hcreator =>
      split at hrest
      · cases hrest
      · next hallowed =>
        rw [if_neg hcreator, if_neg hallowed]
        obtain ⟨hmember, rfl⟩ := GroupOperation.removeGroupMember_eq_ok hrest
        exact .delete rfl hmember (.commit rfl rfl)
  | deleteGroup actor g =>
    obtain ⟨group, hget, hrest⟩ := GroupOperation.bind_eq_ok.mp h
    refine .select rfl hget ?_
    split at hrest
    · cases hrest
    · next hcreator =>
      have hstored : ((d.groups.get? g).filter (·.createdBy = actor)).isSome := by
        rw [GroupOperation.getGroupById_eq_ok.mp hget]
        simp [Option.filter, of_not_not hcreator]
      obtain rfl := GroupOperation.deleteGroup_eq_ok hrest
      rw [if_neg hcreator]
      refine .select rfl rfl (.delete rfl hstored (.cascade rfl ?_))
      rw [applyAll_membershipCascade]
      refine .cascade rfl ?_
      rw [applyAll_groupMessageCascade]
      exact .commit rfl rfl

open MessagingService

theorem leaves_sendDirectMessage {env : MessagingEnv} {f : Faults MessagingAwait Error}
    {s r : UUID} {content : String} {m : DirectMessage}
    (h : sendDirectMessageTx env s r content f d = .ok (m, d')) :
    (entry (.message (.sendDirectMessage env s r content))).Leaves pw d d'
      [.push (.toUser r (.fromModel m))] := by
  obtain ⟨_, d₁, hfriends, hinsert⟩ := Tx.bind_eq_ok.mp h
  obtain ⟨friendship, d₂, hfetch, hrest⟩ := Tx.bind_eq_ok.mp hfriends
  obtain ⟨hstatus, rfl⟩ := fetch_eq_ok hfetch
  refine .select rfl (congrArg (Except.mapError Error.db) hstatus) ?_
  split at hrest
  · exact absurd hrest Tx.throw_eq_ok
  · next haccepted =>
    obtain ⟨-, rfl⟩ := Tx.pure_eq_ok.mp hrest
    rw [if_neg haccepted]
    have hsend := insert_eq_ok hinsert
    obtain ⟨rfl, -, rfl⟩ := MessageQueries.sendDirectMessage_eq_ok hsend
    exact .insert rfl (congrArg (Except.mapError Error.db) hsend) (.commit rfl rfl)

theorem leaves_sendGroupMessage {env : MessagingEnv} {f : Faults MessagingAwait Error}
    {s g : UUID} {content : String} {m : GroupMessage}
    (h : sendGroupMessageTx env s g content f d = .ok (m, d')) :
    (entry (.message (.sendGroupMessage env s g content))).Leaves pw d d'
      [.push (.toGroup g (.fromModel m) s)] := by
  obtain ⟨membership, _, hfetch, hinsert⟩ := Tx.bind_eq_ok.mp h
  obtain ⟨hmember, rfl⟩ := fetch_eq_ok hfetch
  have hsend := insert_eq_ok hinsert
  obtain ⟨rfl, -, rfl⟩ := MessageQueries.sendGroupMessage_eq_ok hsend
  exact .select rfl (congrArg (Except.mapError Error.db) hmember)
    (.insert rfl (congrArg (Except.mapError Error.db) hsend) (.commit rfl rfl))

end ServicePc

/-! ### Calls as wholes -/

/-- The deletion of an account, which publishes nothing, is no transaction of its own here. -/
def Operation.call? : Operation → Option Call
  | register env username password => some (.register (env.newUser username password) env.pair)
  | login env username password => some (.login username password (env.hashPassword password) env.pair)
  | refresh env raw => some (.refresh (env.hashToken raw) env.pair env.now)
  | logout env raw access => some (.logout (env.hashToken raw) (AuthService.logoutAccessHash env access))
  | deactivateAccount id => some (.deactivateAccount id)
  | reactivateAccount id => some (.reactivateAccount id)
  | deleteAccount _ => none

namespace ServiceCall

def transaction? : ServiceCall → Option ServiceTransaction
  | auth op _ => op.call?.map .auth
  | group op _ => some (.group op)
  | message op _ => some (.message op)

/-- Every login verifies passwords in the same way. -/
def Hashes (pw : PasswordHasher) : ServiceCall → Prop
  | auth (.login env _ _) _ => env.hasher = pw
  | _ => True

variable {pw : PasswordHasher} {c : ServiceCall} {tx : ServiceTransaction} {d d' : Db} {bs : List Broadcast}

/-- The statements of a call do together what its transaction does as a whole. -/
theorem leaves (htx : c.transaction? = some tx) (hpw : c.Hashes pw) (h : c.transact d = some (d', bs)) :
    (ServicePc.entry tx).Leaves pw d d' bs := by
  cases c with
  | group op f =>
    obtain rfl := Option.some.inj htx
    obtain ⟨⟨d₁, tasks⟩, htransact, heq⟩ := Option.map_eq_some_iff.mp h
    obtain ⟨rfl, rfl⟩ := Prod.mk.inj heq
    have hevent : tasks.map (fun task => Broadcast.bus task.event) = [.bus op.event] := by
      rw [← List.map_singleton, ← GroupOperation.event_of_transact htransact, List.map_map]
      rfl
    rw [hevent]
    exact ServicePc.leaves_group (GroupOperation.tx_of_transact htransact)
  | message op f =>
    obtain rfl := Option.some.inj htx
    obtain ⟨⟨d₁, pushes⟩, htransact, heq⟩ := Option.map_eq_some_iff.mp h
    obtain ⟨rfl, rfl⟩ := Prod.mk.inj heq
    cases op with
    | sendDirectMessage env s r content =>
      obtain ⟨-, -, m, hbody, rfl⟩ := Op.committed_eq_some.mp htransact
      exact ServicePc.leaves_sendDirectMessage hbody
    | sendGroupMessage env s g content =>
      obtain ⟨-, -, m, hbody, rfl⟩ := Op.committed_eq_some.mp htransact
      exact ServicePc.leaves_sendGroupMessage hbody
  | auth op f =>
    obtain ⟨⟨d₁, es⟩, htransact, heq⟩ := Option.map_eq_some_iff.mp h
    obtain ⟨rfl, rfl⟩ := Prod.mk.inj heq
    cases op with
    | deleteAccount id => cases htx
    | register env username password =>
      obtain rfl := Option.some.inj htx
      simp only [Operation.transact] at htransact
      split at htransact
      · cases htransact
      · obtain ⟨-, -, user, hbody, rfl⟩ := Op.committed_eq_some.mp htransact
        exact ServicePc.leaves_register hbody
    | login env username password =>
      obtain rfl := Option.some.inj htx
      obtain rfl : env.hasher = pw := hpw
      obtain ⟨-, -, ⟨user, b⟩, hbody, rfl⟩ := Op.committed_eq_some.mp htransact
      exact ServicePc.leaves_login hbody
    | refresh env raw =>
      obtain rfl := Option.some.inj htx
      obtain ⟨-, -, ⟨b, u⟩, hbody, rfl⟩ := Op.committed_eq_some.mp htransact
      exact ServicePc.leaves_refresh hbody
    | logout env raw access =>
      obtain rfl := Option.some.inj htx
      obtain ⟨-, -, _, hbody, rfl⟩ := Op.committed_eq_some.mp htransact
      exact ServicePc.leaves_logout hbody
    | deactivateAccount id | reactivateAccount id =>
      obtain rfl := Option.some.inj htx
      obtain ⟨-, -, _, hbody, rfl⟩ := Op.committed_eq_some.mp htransact
      exact .query rfl hbody (.commit rfl rfl)

end ServiceCall

/-- From `s` to `s'` there is nothing but the call of `t`: it leaves `d`, has published `sent`, and has
still to publish `rest`. -/
structure Serial {τ : Type} [DecidableEq τ] (pw : PasswordHasher) (t : τ) (s : ServiceRun τ) (d : Db)
    (sent rest : List Broadcast) (s' : ServiceRun τ) : Prop where
  reachable : Transition.Reachable (publications pw).step s s'
  db : s'.sys.db = d
  log : ∃ x, x.ends? = some t ∧ s'.outbox.log = s.outbox.log ++ x :: sent.map (.published t)
  pending : s'.outbox.pending t = rest

section

variable {τ : Type} [DecidableEq τ] {pw : PasswordHasher} {t : τ} {s : ServiceRun τ} {d₀ : Db}

theorem ServiceCall.exists_serial {c : ServiceCall} {tx : ServiceTransaction} {d : Db}
    {sent rest : List Broadcast} (htx : c.transaction? = some tx) (hpw : c.Hashes pw)
    (hs : Transition.Reachable (publications pw).step (Publisher.init d₀) s) (hnew : t ∉ s.sys.started)
    (hlocks : ∀ k, s.sys.lock k = none)
    (hc : (c.transact s.sys.db).getD (s.sys.db, []) = (d, sent ++ rest)) :
    ∃ s', Serial pw t s d sent rest s' := by
  have hinv := Inv.reachable (ServicePc.stable pw) hs
  have hended : t ∉ s.outbox.log.filterMap Outbox.Entry.ends? := fun hmem => hnew (hinv.ended t hmem).1
  cases htransact : c.transact s.sys.db with
  | some r =>
    rw [htransact, Option.getD_some] at hc
    subst hc
    obtain ⟨pc, ws, hcompletes, hdb, hannounces⟩ := c.leaves htx hpw htransact [] s.sys.db rfl
    obtain ⟨s', hreach, hdb', hpending, hlog⟩ :=
      Publisher.committed_reachable hnew hlocks hended hinv.db hcompletes hannounces
    exact ⟨s', hreach, hdb'.trans hdb, ⟨_, rfl, hlog⟩, hpending⟩
  | none =>
    rw [htransact, Option.getD_none] at hc
    obtain ⟨rfl, hnil⟩ := Prod.mk.inj hc
    obtain ⟨rfl, rfl⟩ := List.append_eq_nil_iff.mp hnil.symm
    obtain ⟨s', hreach, hdb, hpending, hlog⟩ :=
      Publisher.rolledBack_reachable (P := publications pw) tx hnew hlocks hended
    exact ⟨s', hreach, hdb, ⟨_, rfl, hlog⟩,
      (congrFun hpending t).trans (List.append_eq_nil_iff.mp (hinv.outbox.idle hended)).2⟩

theorem Operation.exists_serial {op : Operation} {f : Await → Option Fault} {w : AuthState} {c : Call}
    (hop : op.call? = some c) (hpw : (ServiceCall.auth op f).Hashes pw)
    (hs : Transition.Reachable (publications pw).step (Publisher.init d₀) s) (hnew : t ∉ s.sys.started)
    (hlocks : ∀ k, s.sys.lock k = none) (hw : w.db = s.sys.db) :
    ∃ sent rest s', (op.runUnder f w).stream = w.stream ++ sent ∧
      Serial pw t s (op.runUnder f w).db (sent.map .system) rest s' := by
  have htx : (ServiceCall.auth op f).transaction? = some (.auth c) :=
    congrArg (Option.map ServiceTransaction.auth) hop
  have hfollows := op.runUnder_follows f w
  cases htransact : op.transact f w.db with
  | none =>
    rw [htransact] at hfollows
    have hsame : op.runUnder f w = w := hfollows
    have hc : ((ServiceCall.auth op f).transact s.sys.db).getD (s.sys.db, []) = (w.db, [] ++ []) := by
      rw [ServiceCall.transact, ← hw, htransact]
      rfl
    obtain ⟨s', hs'⟩ := ServiceCall.exists_serial htx hpw hs hnew hlocks hc
    rw [hsame]
    exact ⟨[], [], s', (List.append_nil _).symm, hs'⟩
  | some r =>
    rw [htransact] at hfollows
    obtain ⟨hdb, sent, ⟨rest, hsent⟩, hstream⟩ := hfollows
    have hc : ((ServiceCall.auth op f).transact s.sys.db).getD (s.sys.db, []) =
        ((op.runUnder f w).db, sent.map .system ++ rest.map .system) := by
      rw [ServiceCall.transact, ← hw, htransact, ← List.map_append, hsent, hdb]
      rfl
    obtain ⟨s', hs'⟩ := ServiceCall.exists_serial htx hpw hs hnew hlocks hc
    exact ⟨sent, _, s', hstream, hs'⟩

theorem GroupOperation.exists_serial {op : GroupOperation} {f : Faults GroupAwait Error} {w : GroupState}
    (hs : Transition.Reachable (publications pw).step (Publisher.init d₀) s) (hnew : t ∉ s.sys.started)
    (hlocks : ∀ k, s.sys.lock k = none) (hw : w.db = s.sys.db) :
    ∃ tasks s', (op.run f w).spawned = w.spawned ++ tasks ∧
      Serial pw t s (op.run f w).db [] (tasks.map fun task => .bus task.event) s' := by
  obtain ⟨tasks, hspawned, hc⟩ : ∃ tasks, (op.run f w).spawned = w.spawned ++ tasks ∧
      ((ServiceCall.group op f).transact s.sys.db).getD (s.sys.db, []) =
        ((op.run f w).db, [] ++ tasks.map fun task => .bus task.event) := by
    rw [op.run_eq, ServiceCall.transact, ← hw]
    cases op.transact f w.db with
    | none => exact ⟨[], (List.append_nil _).symm, rfl⟩
    | some r => exact ⟨r.2, rfl, rfl⟩
  obtain ⟨s', hs'⟩ := ServiceCall.exists_serial (c := .group op f) rfl trivial hs hnew hlocks hc
  exact ⟨tasks, s', hspawned, hs'⟩

theorem MessageOperation.exists_serial {op : MessageOperation} {f : Faults MessagingAwait Error}
    {w : MessagingState} (hs : Transition.Reachable (publications pw).step (Publisher.init d₀) s)
    (hnew : t ∉ s.sys.started) (hlocks : ∀ k, s.sys.lock k = none) (hw : w.db = s.sys.db) :
    ∃ pushes s', (op.run f w).spawned = w.spawned ++ pushes ∧
      Serial pw t s (op.run f w).db [] (pushes.map .push) s' := by
  obtain ⟨pushes, hspawned, hc⟩ : ∃ pushes, (op.run f w).spawned = w.spawned ++ pushes ∧
      ((ServiceCall.message op f).transact s.sys.db).getD (s.sys.db, []) =
        ((op.run f w).db, [] ++ pushes.map .push) := by
    rw [op.run_eq, ServiceCall.transact, ← hw]
    cases op.transact f w.db with
    | none => exact ⟨[], (List.append_nil _).symm, rfl⟩
    | some r => exact ⟨r.2, rfl, rfl⟩
  obtain ⟨s', hs'⟩ := ServiceCall.exists_serial (c := .message op f) rfl trivial hs hnew hlocks hc
  exact ⟨pushes, s', hspawned, hs'⟩

end

end Messenger
