import Mathlib.Data.Sym.Sym2
import Messenger.Lib.Related
import Messenger.Services.Calls
import Messenger.Services.Roster

/-! Which operations do not tell apart two databases that differ only in the direct messages of some
conversations: all those that are about no such conversation. -/

namespace Messenger
open Transactional

/-- Of the conversations, each the pair of those who have it, some are hidden. -/
abbrev HiddenConversations := Sym2 UUID → Bool

structure Db.SameBut (hidden : HiddenConversations) (d d' : Db) : Prop where
  others : d' = { d with directMessages := d'.directMessages }
  messages : d'.directMessages.rows.filter (fun m => !hidden s(m.senderId, m.recipientId)) =
    d.directMessages.rows.filter fun m => !hidden s(m.senderId, m.recipientId)

namespace Db.SameBut

variable {hidden : HiddenConversations} {d d' d'' : Db}

theorem refl (d : Db) : d.SameBut hidden d := ⟨rfl, rfl⟩

theorem symm (h : d.SameBut hidden d') : d'.SameBut hidden d := by
  refine ⟨?_, h.messages.symm⟩
  rw [h.others]

theorem trans (h : d.SameBut hidden d') (h' : d'.SameBut hidden d'') : d.SameBut hidden d'' := by
  refine ⟨?_, h'.messages.trans h.messages⟩
  rw [h'.others, h.others]

/-- What sees of the direct messages at most those that are not hidden sees the same. -/
theorem eq_of_ignores {α : Type} {q : Db → α} (h : d.SameBut hidden d')
    (hq : ∀ d messages, q { d with directMessages := messages } = q d) : q d' = q d := by
  rw [h.others]
  exact hq d _

/-- Both databases are changed beside the direct messages. -/
theorem update {g : Db → Db} (h : d.SameBut hidden d')
    (hg : ∀ d messages, g { d with directMessages := messages } =
      { g d with directMessages := messages }) : (g d).SameBut hidden (g d') := by
  have hself (d : Db) : (g d).directMessages = d.directMessages := by
    have hsame : g d = { g d with directMessages := d.directMessages } := hg d d.directMessages
    exact (congrArg Db.directMessages hsame).trans rfl
  refine ⟨?_, ?_⟩
  · rw [hself d', h.others]
    exact hg d _
  · rw [hself, hself]
    exact h.messages

end Db.SameBut

/-! ### Statements beside the direct messages -/

section

variable {α : Type} {hidden : HiddenConversations}

theorem Write.applyAll_withMessages (ws : List Write) (d : Db)
    (messages : Table DirectMessage DirectMessage.messageId) :
    applyAll ws { d with directMessages := messages } =
      { applyAll ws d with directMessages := messages } := by
  induction ws generalizing d with
  | nil => rfl
  | cons w ws ih =>
    have happly : w.apply { d with directMessages := messages } =
        { w.apply d with directMessages := messages } := by
      cases w with
      | insertToken k t | revokeToken k h => cases k <;> rfl
      | _ => rfl
    show applyAll ws (w.apply _) = _
    rw [happly]
    exact ih (w.apply d)

theorem respects_query {p : Await} {q : Query α}
    (hq : ∀ d messages, q.run (q.rows { d with directMessages := messages })
      { d with directMessages := messages } = q.run (q.rows d) d) :
    (query p q).Respects (Db.SameBut hidden) := by
  intro f d d' h
  have hrun : q.run (q.rows d') d' = q.run (q.rows d) d := h.eq_of_ignores (q := fun d => q.run (q.rows d) d) hq
  unfold query
  rw [hrun]
  cases f p with
  | some e => exact .error e
  | none =>
    rcases q.run (q.rows d) d with ⟨e | a, ws⟩
    · exact .error (Error.db e)
    · exact .ok (h.update (Write.applyAll_withMessages ws))

namespace AuthService

variable {env : AuthEnv} {user : User} {id : UUID} {username password : String} {h : TokenHash}
  {a : Option TokenHash}

theorem respects_createToken {p : Await} {k : TokenKind} {t : Token} :
    (query p (Queries.createToken k t)).Respects (Db.SameBut hidden) :=
  respects_query fun _ _ => by cases k <;> rfl

theorem respects_revokeToken {p : Await} {k : TokenKind} :
    (query p (Queries.revokeToken k h)).Respects (Db.SameBut hidden) :=
  respects_query fun _ _ => by cases k <;> rfl

theorem respects_issueTokenPair : (issueTokenPair env id).Respects (Db.SameBut hidden) :=
  .bind respects_createToken fun _ => respects_createToken

theorem respects_registerTx : (registerTx env user).Respects (Db.SameBut hidden) :=
  .bind (respects_query fun _ _ => rfl) fun _ => .bind respects_issueTokenPair fun _ => .pure

theorem respects_loginTx : (loginTx env username password).Respects (Db.SameBut hidden) := by
  refine .bind (respects_query fun _ _ => rfl) fun user => .bind .await fun _ => ?_
  split
  · exact .throw
  refine .bind ?_ fun _ => .bind ?_ fun _ => .bind respects_issueTokenPair fun _ => .pure
  · unfold reactivateIfDeactivated
    split
    · exact respects_query fun _ _ => rfl
    · exact .pure
  · refine .bind .await fun _ => ?_
    split
    · exact .bind .await fun _ => respects_query fun _ _ => rfl
    · exact .pure

theorem respects_refreshTx : (refreshTx env h).Respects (Db.SameBut hidden) := by
  refine .bind (respects_query fun _ _ => rfl) fun token => ?_
  split
  · exact .bind (respects_query fun _ _ => rfl) fun _ =>
      .bind (respects_query fun _ _ => rfl) fun _ => .pure
  · split
    · exact .throw
    · exact .bind respects_revokeToken fun _ => .bind respects_issueTokenPair fun _ => .pure

theorem respects_logoutTx : (logoutTx h a).Respects (Db.SameBut hidden) := by
  cases a with
  | none => exact respects_revokeToken
  | some h' => exact .bind respects_revokeToken fun _ => respects_revokeToken

end AuthService

/-! ### Accounts -/

namespace UserService

/-- The messages of an account go with it, those of hidden conversations among them. -/
theorem deleteUser_cases (id : UUID) {d d' : Db} (h : d.SameBut hidden d') :
    (∃ d₁ d₁', d.deleteUser id = .ok d₁ ∧ d'.deleteUser id = .ok d₁' ∧ d₁.SameBut hidden d₁') ∨
      ∃ e, d.deleteUser id = .error e ∧ d'.deleteUser id = .error e := by
  have husers : d'.users = d.users := h.eq_of_ignores fun _ _ => rfl
  have hgroups : d'.groups = d.groups := h.eq_of_ignores fun _ _ => rfl
  unfold Db.deleteUser
  rw [husers, hgroups]
  split
  · exact .inr ⟨_, rfl, rfl⟩
  · split
    · exact .inr ⟨_, rfl, rfl⟩
    · refine .inl ⟨_, _, rfl, rfl, ?_, ?_⟩
      · rw [h.others]
      · have hcomm (rows : List DirectMessage) (p q : DirectMessage → Bool) :
            (rows.filter p).filter q = (rows.filter q).filter p := List.filter_comm ..
        show (d'.directMessages.rows.filter _).filter _ = (d.directMessages.rows.filter _).filter _
        rw [hcomm, h.messages, hcomm]

theorem respects_deleteAccountTx {id : UUID} :
    (deleteAccountTx id).Respects (Db.SameBut hidden) := by
  intro f d d' h
  unfold deleteAccountTx
  cases f .deleteUser with
  | some e => exact .error e
  | none =>
    rcases deleteUser_cases id h with ⟨d₁, d₁', hrun, hrun', h₁⟩ | ⟨e, hrun, hrun'⟩
    · rw [hrun, hrun']
      exact .ok h₁
    · rw [hrun, hrun']
      exact .error _

end UserService

/-! ### Groups -/

/-- A statement beside the direct messages may write, too. -/
theorem Db.SameBut.answer {ε : Type} {q : Db → Except ε (α × Db)} {d d' : Db} (h : d.SameBut hidden d')
    (hq : ∀ d messages, q { d with directMessages := messages } =
      (q d).map fun r => (r.1, { r.2 with directMessages := messages })) :
    SameAnswer (Db.SameBut hidden) (q d) (q d') := by
  have hrun : q d' = (q d).map fun r => (r.1, { r.2 with directMessages := d'.directMessages }) := by
    rw [h.others]
    exact hq d _
  have hself : q d = (q d).map fun r => (r.1, { r.2 with directMessages := d.directMessages }) := hq d _
  rw [hrun]
  cases hqd : q d with
  | error e => exact .error e
  | ok r =>
    rw [hqd] at hself
    have hmessages : r.2.directMessages = d.directMessages := by
      have hr := congrArg Prod.snd (Except.ok.inj hself)
      exact (congrArg Db.directMessages hr).trans rfl
    refine .ok ⟨rfl, ?_⟩
    rw [hmessages]
    exact h.messages

namespace GroupService

variable {actor g target creator : UUID} {name : String} {now : Timestamp}

theorem respects_fetch {p : GroupAwait} {q : Db → Except Error α}
    (hq : ∀ d messages, q { d with directMessages := messages } = q d) :
    (fetch p q).Respects (Db.SameBut hidden) := by
  refine .statement fun d d' h => h.answer (q := fun d => (q d).map (·, d)) fun d messages => ?_
  rw [hq]
  cases q d <;> rfl

theorem respects_execute {p : GroupAwait} {q : Db → Except Error Db}
    (hq : ∀ d messages, q { d with directMessages := messages } =
      (q d).map fun d => { d with directMessages := messages }) :
    (execute p q).Respects (Db.SameBut hidden) := by
  refine .statement fun d d' h => h.answer (q := fun d => (q d).map ((), ·)) fun d messages => ?_
  rw [hq]
  cases q d <;> rfl

theorem respects_addGroupMember {m : Membership} :
    (execute .addGroupMember (GroupQueries.addGroupMember m)).Respects (Db.SameBut hidden) := by
  refine respects_execute fun d messages => ?_
  unfold GroupQueries.addGroupMember
  split
  · rfl
  · split <;> rfl

theorem respects_getGroupById :
    (fetch .getGroupById (GroupQueries.getGroupById g)).Respects (Db.SameBut hidden) :=
  respects_fetch fun _ _ => rfl

theorem respects_createGroupStmts {group : Group} {membership : Membership} :
    (createGroupStmts group membership).Respects (Db.SameBut hidden) := by
  refine .bind (respects_execute fun d messages => ?_) fun _ => respects_addGroupMember
  unfold GroupQueries.createGroup
  split
  · rfl
  · split <;> rfl

theorem respects_addMemberStmts {membership : Membership} :
    (addMemberStmts actor g membership).Respects (Db.SameBut hidden) := by
  refine .bind respects_getGroupById fun group => ?_
  split
  · exact .throw
  · exact .bind respects_addGroupMember fun _ => .pure

theorem respects_removeMemberStmts :
    (removeMemberStmts actor g target).Respects (Db.SameBut hidden) := by
  refine .bind respects_getGroupById fun group => ?_
  split
  · exact .throw
  · split
    · exact .throw
    · refine respects_execute fun d messages => ?_
      unfold GroupQueries.removeGroupMember
      split <;> rfl

theorem respects_deleteGroupStmts : (deleteGroupStmts actor g).Respects (Db.SameBut hidden) := by
  refine .bind respects_getGroupById fun group => ?_
  split
  · exact .throw
  · refine .bind (respects_fetch fun _ _ => rfl) fun _ => .bind (respects_execute fun d messages => ?_)
      fun _ => .pure
    unfold GroupQueries.deleteGroup
    split <;> rfl

end GroupService

/-! ### Friendships -/

theorem FriendshipWrite.applyAll_withMessages (ws : List FriendshipWrite) (d : Db)
    (messages : Table DirectMessage DirectMessage.messageId) :
    applyAll ws { d with directMessages := messages } =
      { applyAll ws d with directMessages := messages } := by
  induction ws generalizing d with
  | nil => rfl
  | cons w ws ih =>
    have happly : w.apply { d with directMessages := messages } =
        { w.apply d with directMessages := messages } := by
      cases w <;> rfl
    show applyAll ws (w.apply _) = _
    rw [happly]
    exact ih (w.apply d)

theorem FriendshipCall.respects_stmts (c : FriendshipCall) : c.stmts.Respects (Db.SameBut hidden) := by
  refine .statement fun d d' h => ?_
  have hrun : c.query.run (c.query.rows d') d' = c.query.run (c.query.rows d) d :=
    h.eq_of_ignores (q := fun d => c.query.run (c.query.rows d) d) fun _ _ => by cases c <;> rfl
  rw [hrun]
  rcases c.query.run (c.query.rows d) d with ⟨e | a, ws⟩
  · exact .error _
  · exact .ok (h.update (FriendshipWrite.applyAll_withMessages ws))

theorem FriendshipCall.respects_perform (c : FriendshipCall) :
    c.perform.Respects (Db.SameBut hidden) := by
  apply Op.Respects.handle
  split
  · exact .throw
  · exact .transaction (fun _ _ h => h) (fun _ _ _ _ h _ => h) c.respects_stmts

/-! ### Messages -/

/-- Besides, an id is a key of both tables of direct messages or of neither. -/
structure Db.SameTaken (hidden : HiddenConversations) (id : UUID) (d d' : Db) : Prop where
  same : d.SameBut hidden d'
  taken : (d'.directMessages.get? id).isSome = (d.directMessages.get? id).isSome

/-- What the query selects among the direct messages that are not hidden. -/
theorem Db.SameBut.filter_eq {d d' : Db} {p : DirectMessage → Bool} (h : d.SameBut hidden d')
    (hp : ∀ m, p m = true → hidden s(m.senderId, m.recipientId) = false) :
    d'.directMessages.rows.filter p = d.directMessages.rows.filter p := by
  have hshown (rows : List DirectMessage) :
      (rows.filter fun m => !hidden s(m.senderId, m.recipientId)).filter p = rows.filter p := by
    rw [List.filter_filter]
    refine List.filter_congr fun m _ => ?_
    cases hm : p m with
    | false => rfl
    | true => rw [hp m hm]; rfl
  rw [← hshown, h.messages, hshown]

namespace MessagingService

variable {env : MessagingEnv} {sender recipient group : UUID} {content : String}
  {before : Option Timestamp} {limit : ℕ} {R : Db → Db → Prop}

/-- Messages are stored alike where none is hidden and the key is free in both tables or in neither. -/
theorem sameAnswer_sendDirectMessage {m : DirectMessage} {d d' : Db}
    (h : d.SameTaken hidden m.messageId d') :
    SameAnswer (Db.SameTaken hidden m.messageId) (MessageQueries.sendDirectMessage m d)
      (MessageQueries.sendDirectMessage m d') := by
  have husers : d'.users = d.users := h.same.eq_of_ignores fun _ _ => rfl
  unfold MessageQueries.sendDirectMessage
  rw [husers, h.taken]
  split
  · exact .error _
  · next hfresh =>
    split
    · exact .error _
    · split
      · exact .error _
      · have hnone : d.directMessages.get? m.messageId = none := Option.not_isSome_iff_eq_none.mp hfresh
        have hnone' : d'.directMessages.get? m.messageId = none := by
          rw [← Option.not_isSome_iff_eq_none, h.taken]
          exact hfresh
        refine .ok ⟨⟨?_, ?_⟩, ?_⟩
        · rw [h.same.others]
        · show (d'.directMessages.insertNew m).rows.filter _ =
            (d.directMessages.insertNew m).rows.filter _
          rw [Table.rows_insertNew hnone, Table.rows_insertNew hnone', List.filter_append,
            List.filter_append, h.same.messages]
        · show ((d'.directMessages.insertNew m).get? _).isSome =
            ((d.directMessages.insertNew m).get? _).isSome
          rw [Table.get?_insertNew_self hnone, Table.get?_insertNew_self hnone']

theorem respects_fetch {p : MessagingAwait} {q : Db → Except DbError α}
    (hq : ∀ d d', R d d' → q d' = q d) : (fetch p q).Respects R := by
  intro f d d' h
  unfold fetch
  rw [hq d d' h]
  cases f p with
  | some e => exact .error e
  | none =>
    cases q d with
    | ok a => exact .ok h
    | error e => exact .error _

theorem respects_insert {p : MessagingAwait} {q : Db → Except DbError (α × Db)}
    (hq : ∀ d d', R d d' → SameAnswer R (q d) (q d')) : (insert p q).Respects R := by
  intro f d d' h
  unfold insert
  cases f p with
  | some e => exact .error e
  | none =>
    rcases (hq d d' h).cases with ⟨a, d₁, d₁', hrun, hrun', h₁⟩ | ⟨e, hrun, hrun'⟩
    · rw [hrun, hrun']
      exact .ok h₁
    · rw [hrun, hrun']
      exact .error _

theorem respects_requireFriendship (hR : ∀ d d', R d d' → d.SameBut hidden d') :
    (requireFriendship env sender recipient).Respects R := by
  refine .bind (respects_fetch fun d d' h => (hR d d' h).eq_of_ignores fun _ _ => rfl) fun f => ?_
  split
  · exact .throw
  · exact .pure

theorem respects_sendDirectMessageTx : (sendDirectMessageTx env sender recipient content).Respects
    (Db.SameTaken hidden env.messageId) :=
  .bind (respects_requireFriendship fun _ _ h => h.same) fun _ => respects_insert fun _ _ h =>
    sameAnswer_sendDirectMessage (m := UserCall.directMessage env sender recipient content) h

theorem respects_getMembership : (fetch .getMembership (MessageQueries.getMembership group sender)).Respects
    (Db.SameBut hidden) :=
  respects_fetch fun _ _ h => h.eq_of_ignores fun _ _ => rfl

theorem respects_sendGroupMessageTx : (sendGroupMessageTx env sender group content).Respects
    (Db.SameBut hidden) := by
  refine .bind respects_getMembership fun _ => respects_insert fun d d' h => h.answer fun d messages => ?_
  unfold MessageQueries.sendGroupMessage
  split
  · rfl
  · split
    · rfl
    · split <;> rfl

theorem timeline_eq {order : NewestFirst GroupMessage (·.createdAt)} {before : Timestamp} {d d' : Db}
    (h : d.SameBut hidden d') : MessageQueries.getGroupMessagesTimeline order group before limit d' =
      MessageQueries.getGroupMessagesTimeline order group before limit d :=
  h.eq_of_ignores fun _ _ => rfl

/-- The history of a conversation that is not hidden. -/
theorem history_eq {order : NewestFirst DirectMessage (·.createdAt)} {before : Timestamp} {d d' : Db}
    (h : d.SameBut hidden d') (hshown : hidden s(sender, recipient) = false) :
    MessageQueries.getDmConversationHistory order sender recipient before limit d' =
      MessageQueries.getDmConversationHistory order sender recipient before limit d := by
  have hside {a b : UUID} (hab : hidden s(a, b) = false) :
      MessageQueries.directMessagesTo order a b before limit d' =
        MessageQueries.directMessagesTo order a b before limit d := by
    unfold MessageQueries.directMessagesTo
    rw [h.filter_eq fun m hm => ?_]
    simp only [Bool.and_eq_true, decide_eq_true_eq] at hm
    rw [hm.1.1, hm.1.2]
    exact hab
  have hswap : hidden s(recipient, sender) = false := by
    rw [Sym2.eq_swap]
    exact hshown
  unfold MessageQueries.getDmConversationHistory
  rw [hside hshown, hside hswap]

end MessagingService

end

/-! ### Operations -/

structure AuthState.SameBut (hidden : HiddenConversations) (w w' : AuthState) : Prop where
  db : w.db.SameBut hidden w'.db
  stream : w'.stream = w.stream
  cache : w'.cache = w.cache

structure GroupState.SameBut (hidden : HiddenConversations) (w w' : GroupState) : Prop where
  db : w.db.SameBut hidden w'.db
  spawned : w'.spawned = w.spawned

structure MessagingState.Same (R : Db → Db → Prop) (w w' : MessagingState) : Prop where
  db : R w.db w'.db
  spawned : w'.spawned = w.spawned

section

variable {α : Type} {hidden : HiddenConversations}

namespace AuthService

variable {env : AuthEnv} {raw username password : String} {access : Option String} {event : SystemEvent}

theorem respects_transaction {body : AuthTx α} (hbody : body.Respects (Db.SameBut hidden)) :
    (transaction body).Respects (AuthState.SameBut hidden) :=
  .bind (.transaction (fun _ _ h => h.db) (fun _ _ _ _ hd h => ⟨hd, h.stream, h.cache⟩) hbody) fun _ =>
    .bind .await fun _ => .pure

theorem respects_publish : (publishStreamEvent event).Respects (AuthState.SameBut hidden) := by
  refine .bind .await fun _ => .modify fun w w' h => ⟨h.db, ?_, h.cache⟩
  show w'.stream ++ [event] = w.stream ++ [event]
  rw [h.stream]

theorem respects_register : (register env username password).Respects (AuthState.SameBut hidden) :=
  .handle (.bind .await fun _ => .bind (respects_transaction respects_registerTx) fun _ => .pure)

theorem respects_login : (login env username password).Respects (AuthState.SameBut hidden) := by
  refine .handle (.handle (.bind (respects_transaction respects_loginTx) fun a => ?_))
  obtain ⟨user, cacheNeedsInvalidation⟩ := a
  cases cacheNeedsInvalidation with
  | true => exact .bind respects_publish fun _ => .pure
  | false => exact .pure

theorem respects_refresh : (refresh env raw).Respects (AuthState.SameBut hidden) := by
  refine .handle (.handle (.bind (respects_transaction respects_refreshTx) fun a => ?_))
  obtain ⟨isReused, userId⟩ := a
  cases isReused with
  | true => exact .bind respects_publish fun _ => .throw
  | false => exact .bind respects_publish fun _ => .pure

theorem respects_logout : (logout env raw access).Respects (AuthState.SameBut hidden) := by
  refine .handle (.bind (respects_transaction respects_logoutTx) fun _ => ?_)
  unfold afterLogout
  split
  · exact respects_publish
  · next h _ =>
    refine .bind (.modify fun w w' hw => ⟨hw.db, hw.stream, ?_⟩) fun _ =>
      .bind respects_publish fun _ => respects_publish
    show w'.cache.evict h = w.cache.evict h
    rw [hw.cache]

end AuthService

theorem UserService.respects_account {body : AuthTx Unit} (hbody : body.Respects (Db.SameBut hidden)) :
    (account body).Respects (AuthState.SameBut hidden) :=
  .handle (.transaction (fun _ _ h => h.db) (fun _ _ _ _ hd h => ⟨hd, h.stream, h.cache⟩) hbody)

namespace GroupService

theorem respects_transaction {body : GroupStmts α} (hbody : body.Respects (Db.SameBut hidden)) :
    (transaction body).Respects (GroupState.SameBut hidden) :=
  .transaction (fun _ _ h => h.db) (fun _ _ _ _ hd h => ⟨hd, h.spawned⟩) hbody

theorem respects_spawn {task : GroupTask} : (spawn task).Respects (GroupState.SameBut hidden) := by
  refine .modify fun w w' h => ⟨h.db, ?_⟩
  show w'.spawned ++ [task] = w.spawned ++ [task]
  rw [h.spawned]

end GroupService

namespace MessagingService

variable {R : Db → Db → Prop}

theorem respects_transaction {body : MessagingTx α} (hbody : body.Respects R) :
    (transaction body).Respects (MessagingState.Same R) :=
  .transaction (fun _ _ h => h.db) (fun _ _ _ _ hd h => ⟨hd, h.spawned⟩) hbody

theorem respects_spawn {push : MessagePush} : (spawn push).Respects (MessagingState.Same R) := by
  refine .modify fun w w' h => ⟨h.db, ?_⟩
  show w'.spawned ++ [push] = w.spawned ++ [push]
  rw [h.spawned]

theorem respects_connection {body : MessagingTx α} (hbody : body.Respects R) :
    (connection body).Respects (MessagingState.Same R) := by
  intro f w w' h
  have hacquired : (do Tx.await .acquire; body : MessagingTx α).Respects R := .bind .await fun _ => hbody
  unfold connection
  rcases (hacquired f w.db w'.db h.db).cases with ⟨a, d, d', hrun, hrun', -⟩ | ⟨e, hrun, hrun'⟩
  · rw [hrun, hrun']
    exact ⟨rfl, h⟩
  · rw [hrun, hrun']
    exact ⟨rfl, h⟩

end MessagingService

end

end Messenger
