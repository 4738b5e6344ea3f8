import Messenger.Lib.IsoTime
import Messenger.Lib.Json
import Messenger.Services.Auth
import Messenger.Services.Group
import Messenger.Services.Messaging

/-! The events as dictionaries of JSON values, and what is read back from them. -/

namespace Messenger

/-- `UUID(text)`. Left out are the forms with braces and with the prefix of a URN, and the underscores,
signs and blanks that `int(hex, 16)` takes too. -/
def UUID.ofStr? (s : String) : Option UUID :=
  let hex := s.toList.filter (· ≠ '-')
  if hex.length = 32 then (Digits.read 16 hex).map fun n => ⟨.ofNat 128 n⟩ else none

theorem toList_hexText (digits n : ℕ) : (hexText digits n).toList = Digits.digits 16 digits n :=
  String.toList_ofList

theorem filter_digits (width n : ℕ) :
    (Digits.digits 16 width n).filter (· ≠ '-') = Digits.digits 16 width n := by
  refine List.filter_eq_self.mpr fun c hc => ?_
  have hdigit := Digits.isSome_value?_of_mem_digits (by decide) (by decide) hc
  have hne : c ≠ '-' := by
    rintro rfl
    cases hdigit
  exact decide_eq_true hne

theorem UUID.filter_str (u : UUID) :
    u.str.toList.filter (· ≠ '-') = Digits.digits 16 32 u.bits.toNat := by
  have hwhole : Digits.digits 16 32 u.bits.toNat =
      Digits.digits 16 8 (u.bits.toNat / 2 ^ 96) ++ (Digits.digits 16 4 (u.bits.toNat / 2 ^ 80) ++
        (Digits.digits 16 4 (u.bits.toNat / 2 ^ 64) ++ (Digits.digits 16 4 (u.bits.toNat / 2 ^ 48) ++
          Digits.digits 16 12 u.bits.toNat))) := by
    rw [show (32 : ℕ) = 8 + (4 + (4 + (4 + 12))) from rfl, Digits.digits_add, Digits.digits_add,
      Digits.digits_add, Digits.digits_add]
    rfl
  have hhyphen : ("-".toList.filter fun c : Char => decide (c ≠ '-')) = [] := by decide
  simp only [UUID.str, String.toList_append, List.filter_append, toList_hexText, filter_digits,
    hhyphen, List.nil_append, List.append_assoc, hwhole]

@[simp] theorem UUID.ofStr?_str (u : UUID) : UUID.ofStr? u.str = some u := by
  have hread : Digits.read 16 (Digits.digits 16 32 u.bits.toNat) = some (u.bits.toNat % 16 ^ 32) :=
    Digits.read_digits (by decide) (by decide)
  have hbits : u.bits.toNat % 16 ^ 32 = u.bits.toNat := Nat.mod_eq_of_lt u.bits.isLt
  unfold UUID.ofStr?
  simp only [UUID.filter_str, Digits.length_digits, if_true, hread, hbits, Option.map_some,
    BitVec.ofNat_toNat, BitVec.setWidth_eq]

theorem UUID.str_injective : Function.Injective UUID.str := by
  intro u v h
  have hread := congrArg UUID.ofStr? h
  rw [UUID.ofStr?_str, UUID.ofStr?_str] at hread
  exact Option.some.inj hread

theorem UUID.str_ne_empty (u : UUID) : u.str ≠ "" := by
  intro hempty
  have hread := u.ofStr?_str
  rw [hempty] at hread
  cases hread

theorem TokenHash.read_str (h : TokenHash) : Digits.read 16 h.str.toList = some h.digest.toNat := by
  have hdigest : h.digest.toNat % 16 ^ 64 = h.digest.toNat := Nat.mod_eq_of_lt h.digest.isLt
  rw [TokenHash.str, toList_hexText, Digits.read_digits (by decide) (by decide), hdigest]

theorem TokenHash.str_injective : Function.Injective TokenHash.str := by
  intro h h' hstr
  have hread := h'.read_str
  rw [← hstr, h.read_str] at hread
  have hdigest : h.digest = h'.digest := BitVec.eq_of_toNat_eq (Option.some.inj hread)
  exact congrArg TokenHash.mk hdigest

theorem TokenHash.str_ne_empty (h : TokenHash) : h.str ≠ "" := by
  intro hempty
  have hlength : h.str.toList.length = 64 := by
    rw [TokenHash.str, toList_hexText, Digits.length_digits]
  rw [hempty] at hlength
  cases hlength

inductive EventType where
  | directMessage
  | groupMessage
  | groupMembership
  | groupDeleted
  | userInvalidated
  | tokenRevoked
  deriving DecidableEq

def EventType.value : EventType → String
  | directMessage => "direct_message"
  | groupMessage => "group_message"
  | groupMembership => "group_membership"
  | groupDeleted => "group_deleted"
  | userInvalidated => "user_invalidated"
  | tokenRevoked => "token_revoked"

namespace MembershipAction

def value : MembershipAction → String
  | join => "JOIN"
  | leave => "LEAVE"

/-- `MembershipAction(text)`. -/
def ofStr? (s : String) : Option MembershipAction :=
  if s = join.value then some join else if s = leave.value then some leave else none

@[simp] theorem ofStr?_value (a : MembershipAction) : ofStr? a.value = some a := by
  cases a <;> rfl

end MembershipAction

/-- An attribute of an event, as far as `to_dict` tells the types apart. -/
inductive FieldValue where
  | uuid (u : UUID)
  | datetime (t : Timestamp)
  | strEnum (value : String)
  | other (v : Json)

def FieldValue.json : FieldValue → Json
  | uuid u => .str u.str
  | datetime t => .str (IsoTime.isoformat t)
  | strEnum value => .str value
  | other v => v

inductive RedisEvent where
  | directMessage (e : DirectMessageEvent)
  | groupMessage (e : GroupMessageEvent)
  | groupMembership (action : MembershipAction) (userId groupId : UUID)
  | groupDeleted (groupId : UUID)
  | userInvalidated (userId : UUID)
  | tokenRevoked (tokenHash : String)
  deriving DecidableEq

namespace RedisEvent

def event : RedisEvent → EventType
  | directMessage _ => .directMessage
  | groupMessage _ => .groupMessage
  | groupMembership .. => .groupMembership
  | groupDeleted _ => .groupDeleted
  | userInvalidated _ => .userInvalidated
  | tokenRevoked _ => .tokenRevoked

/-- `fields(self)` with the attributes: the field of the base class comes first. -/
def fields (e : RedisEvent) : List (String × FieldValue) :=
  ("event", .strEnum e.event.value) :: match e with
    | directMessage e =>
      [("message_id", .uuid e.messageId), ("sender_id", .uuid e.senderId),
        ("recipient_id", .uuid e.recipientId), ("content", .other (.str e.content)),
        ("created_at", .datetime e.createdAt)]
    | groupMessage e =>
      [("message_id", .uuid e.messageId), ("group_id", .uuid e.groupId),
        ("sender_id", .uuid e.senderId), ("content", .other (.str e.content)),
        ("created_at", .datetime e.createdAt)]
    | groupMembership action userId groupId =>
      [("action", .strEnum action.value), ("user_id", .uuid userId), ("group_id", .uuid groupId)]
    | groupDeleted groupId => [("group_id", .uuid groupId)]
    | userInvalidated userId => [("user_id", .uuid userId)]
    | tokenRevoked tokenHash => [("token_hash", .other (.str tokenHash))]

def toDict (e : RedisEvent) : Json := .obj (e.fields.map fun f => (f.1, f.2.json))

end RedisEvent

def BusEvent.redis : BusEvent → RedisEvent
  | groupMembership userId groupId action => .groupMembership action userId groupId
  | groupDeleted groupId => .groupDeleted groupId

def SystemEvent.redis : SystemEvent → RedisEvent
  | userInvalidated userId => .userInvalidated userId
  | tokenRevoked tokenHash => .tokenRevoked tokenHash.str

theorem RedisEvent.isObj_toDict (e : RedisEvent) : e.toDict.isObj = true := rfl

theorem RedisEvent.strAt_event (e : RedisEvent) : e.toDict.strAt "event" = some e.event.value := by
  cases e <;> rfl

/-! ### What a receiver reads -/

namespace RedisEvent

def uuidAt (d : Json) (key : String) : Option UUID := (d.strAt key).bind UUID.ofStr?

def timeAt (d : Json) (key : String) : Option Timestamp := (d.strAt key).bind IsoTime.fromisoformat

def ofDict? (d : Json) : Option RedisEvent := do
  let event ← d.strAt "event"
  if event = EventType.directMessage.value then
    return directMessage
      { messageId := ← uuidAt d "message_id", senderId := ← uuidAt d "sender_id"
        recipientId := ← uuidAt d "recipient_id", content := ← d.strAt "content"
        createdAt := ← timeAt d "created_at" }
  else if event = EventType.groupMessage.value then
    return groupMessage
      { messageId := ← uuidAt d "message_id", groupId := ← uuidAt d "group_id"
        senderId := ← uuidAt d "sender_id", content := ← d.strAt "content"
        createdAt := ← timeAt d "created_at" }
  else if event = EventType.groupMembership.value then
    return groupMembership (← (← d.strAt "action") |> MembershipAction.ofStr?)
      (← uuidAt d "user_id") (← uuidAt d "group_id")
  else if event = EventType.groupDeleted.value then
    return groupDeleted (← uuidAt d "group_id")
  else if event = EventType.userInvalidated.value then
    return userInvalidated (← uuidAt d "user_id")
  else if event = EventType.tokenRevoked.value then
    return tokenRevoked (← d.strAt "token_hash")
  else none

def Dated : RedisEvent → Prop
  | directMessage e => IsoTime.InRange e.createdAt
  | groupMessage e => IsoTime.InRange e.createdAt
  | _ => True

instance (e : RedisEvent) : Decidable e.Dated := by
  unfold Dated
  split <;> infer_instance

theorem ofDict?_toDict {e : RedisEvent} (h : e.Dated) : ofDict? e.toDict = some e := by
  unfold ofDict? uuidAt timeAt Json.strAt Json.get? toDict fields event
  cases e with
  | directMessage e | groupMessage e =>
    have htime : IsoTime.fromisoformat (IsoTime.isoformat e.createdAt) = some e.createdAt :=
      IsoTime.fromisoformat_isoformat h
    simp [FieldValue.json, EventType.value, htime]
  | groupMembership | groupDeleted | userInvalidated | tokenRevoked =>
    simp [FieldValue.json, EventType.value]

end RedisEvent
end Messenger
