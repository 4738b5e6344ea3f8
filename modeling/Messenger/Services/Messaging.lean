import Mathlib.Data.List.Sort
import Messenger.Database.FriendshipQueries
import Messenger.Lib.Transactional
import Messenger.Services.Errors

/-! `MessagingService` as operations in which every `await` may fail, and the pushes that they spawn
once their transaction has committed. -/

namespace Messenger
open Transactional

/-- `ORDER BY created_at DESC`, which leaves open in what order rows of one time come. -/
structure NewestFirst (ρ : Type) (createdAt : ρ → Timestamp) where
  sort : List ρ → List ρ
  perm : ∀ rows, (sort rows).Perm rows
  sorted : ∀ rows, (sort rows).Pairwise fun r r' => createdAt r' ≤ createdAt r

def NewestFirst.stable {ρ : Type} (createdAt : ρ → Timestamp) : NewestFirst ρ createdAt where
  sort := List.insertionSort fun r r' => createdAt r' ≤ createdAt r
  perm := List.perm_insertionSort _
  sorted :=
    have : Std.Total fun r r' => createdAt r' ≤ createdAt r := ⟨fun _ _ => Int.le_total _ _⟩
    have : IsTrans ρ fun r r' => createdAt r' ≤ createdAt r := ⟨fun _ _ _ h h' => Int.le_trans h' h⟩
    List.pairwise_insertionSort _

namespace MessageQueries

def getMembership (groupId userId : UUID) (d : Db) : Except DbError Membership :=
  match d.memberships.get? (groupId, userId) with
  | some m => .ok m
  | none =>
    .error (.notFound .membership ("Group:" ++ groupId.str ++ " User:" ++ userId.str))

/-- The primary key is tested before the foreign keys, of which the sender's comes first. -/
def sendDirectMessage (m : DirectMessage) (d : Db) : Except DbError (DirectMessage × Db) :=
  if (d.directMessages.get? m.messageId).isSome then
    .error (.constraintViolation "direct_messages" .pkDirectMessages)
  else if (d.users.get? m.senderId).isNone then
    .error (.constraintViolation "direct_messages" .fkDmSenderId)
  else if (d.users.get? m.recipientId).isNone then
    .error (.constraintViolation "direct_messages" .fkDmRecipientId)
  else .ok (m, { d with directMessages := d.directMessages.insertNew m })

def sendGroupMessage (m : GroupMessage) (d : Db) : Except DbError (GroupMessage × Db) :=
  if (d.groupMessages.get? m.messageId).isSome then
    .error (.constraintViolation "group_messages" .pkGroupMessages)
  else if (d.groups.get? m.groupId).isNone then
    .error (.constraintViolation "group_messages" .fkGroupMessagesGroupId)
  else if (d.users.get? m.senderId).isNone then
    .error (.constraintViolation "group_messages" .fkGroupMessagesSenderId)
  else .ok (m, { d with groupMessages := d.groupMessages.insertNew m })

def directMessagesTo (order : NewestFirst DirectMessage (·.createdAt)) (sender recipient : UUID)
    (before : Timestamp) (limit : ℕ) (d : Db) : List DirectMessage :=
  (order.sort (d.directMessages.rows.filter fun m =>
    m.senderId = sender && m.recipientId = recipient && decide (m.createdAt < before))).take limit

def getDmConversationHistory (order : NewestFirst DirectMessage (·.createdAt)) (a b : UUID)
    (before : Timestamp) (limit : ℕ) (d : Db) : List DirectMessage :=
  (order.sort (directMessagesTo order a b before limit d ++
    directMessagesTo order b a before limit d)).take limit

def getGroupMessagesTimeline (order : NewestFirst GroupMessage (·.createdAt)) (groupId : UUID)
    (before : Timestamp) (limit : ℕ) (d : Db) : List GroupMessage :=
  (order.sort (d.groupMessages.rows.filter fun m =>
    m.groupId = groupId && decide (m.createdAt < before))).take limit

theorem sendDirectMessage_eq_error {m : DirectMessage} {d : Db} {e : DbError}
    (h : sendDirectMessage m d = .error e) :
    ∃ constraint, e = .constraintViolation "direct_messages" constraint ∧
      (constraint = .pkDirectMessages ∨ constraint = .fkDmSenderId ∨
        constraint = .fkDmRecipientId ∧ d.users.get? m.recipientId = none) := by
  unfold sendDirectMessage at h
  split at h
  · exact ⟨_, (Except.error.inj h).symm, .inl rfl⟩
  · split at h
    · exact ⟨_, (Except.error.inj h).symm, .inr (.inl rfl)⟩
    · split at h
      · next hnone =>
        exact ⟨_, (Except.error.inj h).symm, .inr (.inr ⟨rfl, Option.isNone_iff_eq_none.mp hnone⟩)⟩
      · cases h

theorem sendDirectMessage_eq_ok {m m' : DirectMessage} {d d' : Db}
    (h : sendDirectMessage m d = .ok (m', d')) :
    m' = m ∧ d.directMessages.get? m.messageId = none ∧
      d' = { d with directMessages := d.directMessages.insertNew m } := by
  unfold sendDirectMessage at h
  split at h
  · cases h
  · next hfresh =>
    split at h
    · cases h
    · split at h
      · cases h
      · obtain ⟨rfl, rfl⟩ := Prod.mk.inj (Except.ok.inj h)
        exact ⟨rfl, Option.not_isSome_iff_eq_none.mp hfresh, rfl⟩

theorem sendGroupMessage_eq_ok {m m' : GroupMessage} {d d' : Db}
    (h : sendGroupMessage m d = .ok (m', d')) :
    m' = m ∧ d.groupMessages.get? m.messageId = none ∧
      d' = { d with groupMessages := d.groupMessages.insertNew m } := by
  unfold sendGroupMessage at h
  split at h
  · cases h
  · next hfresh =>
    split at h
    · cases h
    · split at h
      · cases h
      · obtain ⟨rfl, rfl⟩ := Prod.mk.inj (Except.ok.inj h)
        exact ⟨rfl, Option.not_isSome_iff_eq_none.mp hfresh, rfl⟩

end MessageQueries

structure DirectMessageEvent where
  messageId : UUID
  senderId : UUID
  recipientId : UUID
  content : String
  createdAt : Timestamp
  deriving DecidableEq

def DirectMessageEvent.fromModel (dm : DirectMessage) : DirectMessageEvent where
  messageId := dm.messageId
  senderId := dm.senderId
  recipientId := dm.recipientId
  content := dm.content
  createdAt := dm.createdAt

structure GroupMessageEvent where
  messageId : UUID
  groupId : UUID
  senderId : UUID
  content : String
  createdAt : Timestamp
  deriving DecidableEq

def GroupMessageEvent.fromModel (msg : GroupMessage) : GroupMessageEvent where
  messageId := msg.messageId
  groupId := msg.groupId
  senderId := msg.senderId
  content := msg.content
  createdAt := msg.createdAt

inductive MessagePush where
  | toUser (userId : UUID) (event : DirectMessageEvent)
  | toGroup (groupId : UUID) (event : GroupMessageEvent) (senderId : UUID)
  deriving DecidableEq

/-- What a call draws from outside: the clock, a fresh id, and what its queries leave open. -/
structure MessagingEnv where
  now : Timestamp
  messageId : UUID
  limitOne : RowChoice Friendship
  conversation : NewestFirst DirectMessage (·.createdAt)
  timeline : NewestFirst GroupMessage (·.createdAt)

inductive MessagingAwait where
  | acquire
  | begin
  | commit
  | getFriendshipStatus
  | sendDirectMessage
  | getDmConversationHistory
  | getMembership
  | sendGroupMessage
  | getGroupMessagesTimeline
  deriving DecidableEq

structure MessagingState where
  db : Db
  spawned : List MessagePush := []

abbrev MessagingTx := Tx MessagingAwait Error Db
abbrev MessagingOp := Op MessagingAwait Error MessagingState

namespace MessagingService

def fetch {α : Type} (p : MessagingAwait) (q : Db → Except DbError α) : MessagingTx α := fun f d =>
  match f p with
  | some e => .error e
  | none =>
    match q d with
    | .ok a => .ok (a, d)
    | .error e => .error (.db e)

def insert {α : Type} (p : MessagingAwait) (q : Db → Except DbError (α × Db)) : MessagingTx α :=
  fun f d =>
    match f p with
    | some e => .error e
    | none =>
      match q d with
      | .ok r => .ok r
      | .error e => .error (.db e)

section

variable {α : Type} {p : MessagingAwait} {q : Db → Except DbError α} {f : Faults MessagingAwait Error}
  {d : Db} {a : α} {e : DbError}

theorem fetch_of_ok (hf : f p = none) (hq : q d = .ok a) : fetch p q f d = .ok (a, d) := by
  simp only [fetch, hf, hq]

theorem fetch_eq_ok {d' : Db} (h : fetch p q f d = .ok (a, d')) : q d = .ok a ∧ d' = d := by
  unfold fetch at h
  split at h
  · cases h
  · split at h
    · next hq =>
      obtain ⟨rfl, rfl⟩ := Prod.mk.inj (Except.ok.inj h)
      exact ⟨hq, rfl⟩
    · cases h

theorem fetch_of_error (hf : f p = none) (hq : q d = .error e) : fetch p q f d = .error (.db e) := by
  simp only [fetch, hf, hq]

end

theorem insert_eq_ok {α : Type} {p : MessagingAwait} {q : Db → Except DbError (α × Db)}
    {f : Faults MessagingAwait Error} {d : Db} {r : α × Db} (h : insert p q f d = .ok r) :
    q d = .ok r := by
  unfold insert at h
  split at h
  · cases h
  · split at h
    · next hq => exact hq.trans (congrArg Except.ok (Except.ok.inj h))
    · cases h

theorem insert_eq_error {α : Type} {p : MessagingAwait} {q : Db → Except DbError (α × Db)}
    {f : Faults MessagingAwait Error} {d : Db} {e : Error} (hf : f p = none)
    (h : insert p q f d = .error e) : ∃ e', q d = .error e' ∧ e = .db e' := by
  simp only [insert, hf] at h
  split at h
  · cases h
  · next e' hq => exact ⟨e', hq, (Except.error.inj h).symm⟩

def transaction {α : Type} (body : MessagingTx α) : MessagingOp α :=
  Op.transaction MessagingState.db (fun d w => { w with db := d }) .begin .commit body

theorem transaction_cases {α : Type} (body : MessagingTx α) (f : Faults MessagingAwait Error)
    (w : MessagingState) :
    (∃ a d, f .begin = none ∧ body f w.db = .ok (a, d) ∧ f .commit = none ∧
        transaction body f w = (.ok a, { w with db := d })) ∨
      ∃ e, transaction body f w = (.error e, w) ∧
        (f .begin = some e ∨ body f w.db = .error e ∨ f .commit = some e) :=
  Op.transaction_cases f w

def connection {α : Type} (body : MessagingTx α) : MessagingOp α := fun f w =>
  match (do Tx.await .acquire; body : MessagingTx α) f w.db with
  | .ok (a, _) => (.ok a, w)
  | .error e => (.error e, w)

section

variable {α : Type} {body : MessagingTx α} {f : Faults MessagingAwait Error} {w : MessagingState}
  {d : Db} {a : α} {e : Error}

theorem connection_of_ok (hf : f .acquire = none) (hbody : body f w.db = .ok (a, d)) :
    connection body f w = (.ok a, w) := by
  have hacquire : Tx.await .acquire f w.db = .ok ((), w.db) := Tx.await_eq_ok.mpr ⟨hf, rfl⟩
  simp only [connection, Tx.bind_of_ok hacquire, hbody]

theorem connection_of_error (hf : f .acquire = none) (hbody : body f w.db = .error e) :
    connection body f w = (.error e, w) := by
  have hacquire : Tx.await .acquire f w.db = .ok ((), w.db) := Tx.await_eq_ok.mpr ⟨hf, rfl⟩
  simp only [connection, Tx.bind_of_ok hacquire, hbody]

end

def spawn (push : MessagePush) : MessagingOp Unit :=
  Op.modify fun w => { w with spawned := w.spawned ++ [push] }

def decorated {α : Type} (overrides : Entity → Option Handler) (kwargs : Kwargs)
    (m : MessagingOp α) : MessagingOp α :=
  Op.handle (handleDbConstraintError (fun _ => none) kwargs) <|
    Op.handle (handleDbNotFoundError overrides (fun _ => none) kwargs) m

section

variable {α : Type} {overrides : Entity → Option Handler} {kwargs : Kwargs} {m : MessagingOp α}
  {f : Faults MessagingAwait Error} {w w' : MessagingState} {a : α} {e e' : Error}

theorem decorated_of_ok (hm : m f w = (.ok a, w')) :
    decorated overrides kwargs m f w = (.ok a, w') :=
  Op.handle_of_ok (Op.handle_of_ok hm)

theorem decorated_fst_congr {w₁ w₂ : MessagingState} (h : (m f w₁).1 = (m f w₂).1) :
    (decorated overrides kwargs m f w₁).1 = (decorated overrides kwargs m f w₂).1 :=
  Op.handle_fst_congr (Op.handle_fst_congr h)

theorem decorated_of_error (hm : m f w = (.error e, w'))
    (he : handleDbNotFoundError overrides (fun _ => none) kwargs e = (.error e' : Except Error α)) :
    decorated overrides kwargs m f w = (handleDbConstraintError (fun _ => none) kwargs e', w') := by
  have hinner : Op.handle (handleDbNotFoundError overrides (fun _ => none) kwargs) m f w =
      (.error e', w') := (Op.handle_of_error hm).trans (by rw [he])
  exact Op.handle_of_error hinner

end

def directMessageEntities : Entity → Option Handler
  | .friendship => some fun kw => .directMessageNotAllowed (kw.getD "recipient_id")
  | _ => none

def groupMessageEntities : Entity → Option Handler
  | .membership => some fun kw => .groupMessageNotAllowed (kw.getD "group_id")
  | _ => none

variable (env : MessagingEnv)

def requireFriendship (userId recipientId : UUID) : MessagingTx Unit := do
  let friendship ← fetch .getFriendshipStatus
    (FriendshipQueries.getFriendshipStatus env.limitOne userId recipientId)
  if !friendship.accepted then Tx.throw (.service (.directMessageNotAllowed recipientId.str))
  else return

def sendDirectMessageTx (senderId recipientId : UUID) (content : String) :
    MessagingTx DirectMessage := do
  requireFriendship env senderId recipientId
  insert .sendDirectMessage (MessageQueries.sendDirectMessage
    { messageId := env.messageId, senderId, recipientId, content, createdAt := env.now })

def sendDirectMessage (senderId recipientId : UUID) (content : String) : MessagingOp DirectMessage :=
  decorated directMessageEntities
    [("sender_id", senderId.str), ("recipient_id", recipientId.str), ("content", content)] do
      let dm ← transaction (sendDirectMessageTx env senderId recipientId content)
      spawn (.toUser recipientId (.fromModel dm))
      return dm

/-- Of the keyword arguments only the ids are ever read by a handler. -/
def getDmHistory (actorId recipientId : UUID) (before : Option Timestamp) (limit : ℕ) :
    MessagingOp (List DirectMessage) :=
  decorated directMessageEntities [("actor_id", actorId.str), ("recipient_id", recipientId.str)] <|
    connection do
      requireFriendship env actorId recipientId
      fetch .getDmConversationHistory fun d =>
        .ok (MessageQueries.getDmConversationHistory env.conversation actorId recipientId
          (before.getD env.now) limit d)

def sendGroupMessageTx (senderId groupId : UUID) (content : String) : MessagingTx GroupMessage := do
  let _ ← fetch .getMembership (MessageQueries.getMembership groupId senderId)
  insert .sendGroupMessage (MessageQueries.sendGroupMessage
    { messageId := env.messageId, groupId, senderId, content, createdAt := env.now })

def sendGroupMessage (senderId groupId : UUID) (content : String) : MessagingOp GroupMessage :=
  decorated groupMessageEntities
    [("sender_id", senderId.str), ("group_id", groupId.str), ("content", content)] do
      let msg ← transaction (sendGroupMessageTx env senderId groupId content)
      spawn (.toGroup groupId (.fromModel msg) senderId)
      return msg

def getGroupHistory (actorId groupId : UUID) (before : Option Timestamp) (limit : ℕ) :
    MessagingOp (List GroupMessage) :=
  decorated groupMessageEntities [("actor_id", actorId.str), ("group_id", groupId.str)] <|
    connection do
      let _ ← fetch .getMembership (MessageQueries.getMembership groupId actorId)
      fetch .getGroupMessagesTimeline fun d =>
        .ok (MessageQueries.getGroupMessagesTimeline env.timeline groupId (before.getD env.now) limit d)

end MessagingService
end Messenger
