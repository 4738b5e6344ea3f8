import Messenger.Services.Broadcasts
import Messenger.Social.Agreement

/-! The calls of all services, each the transaction that it commits, and what each can do to the
tables. -/

namespace Messenger
open Transactional MessagingService

/-- A call of one of the services. The router passes the authenticated user as the requester of a
request, as the addressee who accepts it, as the first user of a removal, as the sender of a message and
as the actor of a group operation, and the account that it deletes is theirs. -/
inductive UserCall where
  | service (c : ServiceCall)
  | friendship (c : FriendshipCall)

namespace UserCall

def directMessage (env : MessagingEnv) (senderId recipientId : UUID) (content : String) :
    Messenger.DirectMessage where
  messageId := env.messageId
  senderId := senderId
  recipientId := recipientId
  content := content
  createdAt := env.now

def commit (d : Db) : UserCall → Option Db
  | service c => (c.transact d).map Prod.fst
  | friendship c => (c.run d).toOption

inductive Effect (d : Db) : UserCall → Db → Prop where
  | writes {op : Operation} {f : Await → Option Fault} (ws : List Write)
      (hop : ∀ id, op ≠ .deleteAccount id) :
    Effect d (.service (.auth op f)) (Write.applyAll ws d)
  | deletes {id : UUID} {f : Await → Option Fault} {d' : Db} (h : d.deleteUser id = .ok d') :
    Effect d (.service (.auth (.deleteAccount id) f)) d'
  | group {op : GroupOperation} {f : Faults GroupAwait Error} {d' : Db} (h : op.tx d = .ok d') :
    Effect d (.service (.group op f)) d'
  | directMessage {env : MessagingEnv} {s r : UUID} {content : String}
      {f : Faults MessagingAwait Error} (hfriends : d.Accepted s r)
      (hfresh : d.directMessages.get? env.messageId = none) :
    Effect d (.service (.message (.sendDirectMessage env s r content) f))
      { d with directMessages := d.directMessages.insertNew (directMessage env s r content) }
  | groupMessage {env : MessagingEnv} {s g : UUID} {content : String}
      {f : Faults MessagingAwait Error} (m : GroupMessage) :
    Effect d (.service (.message (.sendGroupMessage env s g content) f))
      { d with groupMessages := d.groupMessages.insertNew m }
  | friendship {c : FriendshipCall} {d' : Db} (h : c.run d = .ok d') : Effect d (.friendship c) d'

end UserCall

section

variable {d d' : Db}

theorem Operation.transact_cases {op : Operation} {f : Await → Option Fault} {es : List SystemEvent}
    (h : op.transact f d = some (d', es)) :
    (∃ ws, d' = Write.applyAll ws d ∧ ∀ id, op ≠ .deleteAccount id) ∨
      ∃ id, op = .deleteAccount id ∧ d.deleteUser id = .ok d' := by
  have hwrites {α : Type} {body : AuthTx α} {announce : α → List SystemEvent} (hbody : Writes body)
      (hc : Op.committed .begin .commit body announce (raising f) d = some (d', es)) :
      ∃ ws, d' = Write.applyAll ws d :=
    let ⟨_, _, _, htx, _⟩ := Op.committed_eq_some.mp hc
    hbody _ _ _ _ htx
  have hother (hne : ∀ id, op ≠ .deleteAccount id) (h : ∃ ws, d' = Write.applyAll ws d) :
      ∃ ws, d' = Write.applyAll ws d ∧ ∀ id, op ≠ .deleteAccount id :=
    h.imp fun _ hd => ⟨hd, hne⟩
  cases op with
  | register env username password =>
    simp only [transact] at h
    split at h
    · cases h
    · exact .inl (hother (by simp) (hwrites AuthService.writes_registerTx h))
  | login env username password => exact .inl (hother (by simp) (hwrites AuthService.writes_loginTx h))
  | refresh env raw => exact .inl (hother (by simp) (hwrites AuthService.writes_refreshTx h))
  | logout env raw access => exact .inl (hother (by simp) (hwrites AuthService.writes_logoutTx h))
  | deactivateAccount id => exact .inl (hother (by simp) (hwrites UserService.writes_deactivateAccountTx h))
  | reactivateAccount id => exact .inl (hother (by simp) (hwrites UserService.writes_reactivateAccountTx h))
  | deleteAccount id =>
    obtain ⟨-, -, _, htx, -⟩ := Op.committed_eq_some.mp h
    exact .inr ⟨id, rfl, (UserService.deleteAccountTx_eq_ok.mp htx).2⟩

theorem accepted_of_requireFriendship {env : MessagingEnv} {s r : UUID}
    {f : Faults MessagingAwait Error} {u : Unit} (h : requireFriendship env s r f d = .ok (u, d')) :
    d' = d ∧ d.Accepted s r := by
  obtain ⟨friendship, d₁, hfetch, hrest⟩ := Tx.bind_eq_ok.mp h
  obtain ⟨hstatus, rfl⟩ := fetch_eq_ok hfetch
  split at hrest
  · exact absurd hrest Tx.throw_eq_ok
  · next haccepted =>
    refine ⟨(Tx.pure_eq_ok.mp hrest).2.symm, ?_⟩
    have hallows : Allows env.limitOne d₁ s r := ⟨friendship, hstatus, by simpa using haccepted⟩
    exact hallows.accepted

theorem UserCall.commit_auth {op : Operation} {f : Await → Option Fault} :
    (UserCall.service (.auth op f)).commit d = (op.transact f d).map Prod.fst := by
  simp only [commit, ServiceCall.transact, Option.map_map]
  rfl

theorem UserCall.commit_group {op : GroupOperation} {f : Faults GroupAwait Error} :
    (UserCall.service (.group op f)).commit d = (op.transact f d).map Prod.fst := by
  simp only [commit, ServiceCall.transact, Option.map_map]
  rfl

theorem UserCall.commit_message {op : MessageOperation} {f : Faults MessagingAwait Error} :
    (UserCall.service (.message op f)).commit d = (op.transact f d).map Prod.fst := by
  simp only [commit, ServiceCall.transact, Option.map_map]
  rfl

theorem MessageQueries.member_of_getMembership {g u : UUID} {m : Membership}
    (h : getMembership g u d = .ok m) : d.Member g u := by
  unfold getMembership at h
  split at h
  · next m' hm => exact Option.isSome_iff_exists.mpr ⟨m', hm⟩
  · cases h

theorem UserCall.effect_of_commit {c : UserCall} (h : c.commit d = some d') : c.Effect d d' := by
  cases c with
  | friendship c =>
    cases hrun : c.run d with
    | ok d₁ =>
      simp only [commit, hrun] at h
      obtain rfl := Option.some.inj h
      exact .friendship hrun
    | error e => simp [commit, hrun, Except.toOption] at h
  | service c =>
    obtain ⟨⟨d₁, es⟩, hservice, rfl⟩ := Option.map_eq_some_iff.mp h
    cases c with
    | auth op f =>
      obtain ⟨⟨d₂, es'⟩, htransact, heq⟩ := Option.map_eq_some_iff.mp hservice
      obtain ⟨rfl, -⟩ := Prod.mk.inj heq
      rcases Operation.transact_cases htransact with ⟨ws, rfl, hop⟩ | ⟨id, rfl, hdelete⟩
      · exact .writes ws hop
      · exact .deletes hdelete
    | group op f =>
      obtain ⟨⟨d₂, tasks⟩, htransact, heq⟩ := Option.map_eq_some_iff.mp hservice
      obtain ⟨rfl, -⟩ := Prod.mk.inj heq
      exact .group (GroupOperation.tx_of_transact htransact)
    | message op f =>
      obtain ⟨⟨d₂, pushes⟩, htransact, heq⟩ := Option.map_eq_some_iff.mp hservice
      obtain ⟨rfl, -⟩ := Prod.mk.inj heq
      cases op with
      | sendDirectMessage env s r content =>
        obtain ⟨-, -, m, hbody, -⟩ := Op.committed_eq_some.mp htransact
        obtain ⟨_, d₃, hfriends, hinsert⟩ := Tx.bind_eq_ok.mp hbody
        obtain ⟨rfl, haccepted⟩ := accepted_of_requireFriendship hfriends
        obtain ⟨rfl, hfresh, rfl⟩ := MessageQueries.sendDirectMessage_eq_ok (insert_eq_ok hinsert)
        exact .directMessage haccepted hfresh
      | sendGroupMessage env s g content =>
        obtain ⟨m, -, -, -, -, rfl⟩ := MessageOperation.transact_sendGroupMessage htransact
        exact .groupMessage m

end

end Messenger
