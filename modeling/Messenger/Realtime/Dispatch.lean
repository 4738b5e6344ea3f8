import Mathlib.Data.Finset.Union
import Messenger.Lib.FanOut
import Messenger.Realtime.Endpoint
import Messenger.Realtime.Manager
import Messenger.Redis.Events

/-! The payloads of the channel: what the pushes publish, which handler a worker picks for a payload,
and the sends of that handler, which run at the same time. -/

namespace Messenger
open Transition

/-! ### Pushes -/

inductive MessageEvent where
  | direct (e : DirectMessageEvent)
  | group (e : GroupMessageEvent)
  deriving DecidableEq

def MessageEvent.redis : MessageEvent → RedisEvent
  | direct e => .directMessage e
  | group e => .groupMessage e

/-- Whom a message is pushed to: by `push_to_user`, or by `push_to_group`. -/
inductive Address where
  | user (userId : UUID)
  | group (groupId : UUID) (senderId : Option UUID)
  deriving DecidableEq

/-- `push_group_membership_change` and `push_group_deleted`, `push_to_user` and `push_to_group`. -/
inductive Push where
  | bus (e : BusEvent)
  | message (address : Address) (e : MessageEvent)
  deriving DecidableEq

namespace Push

def event : Push → RedisEvent
  | bus e => e.redis
  | message _ e => e.redis

/-- What is given to `publish_ws_push`. -/
def payload : Push → Json
  | bus e => .obj [("data", e.redis.toDict)]
  | message (.user userId) e => .obj [("user_id", .str userId.str), ("data", e.redis.toDict)]
  | message (.group groupId senderId) e =>
    .obj [("group_id", .str groupId.str), ("sender_id", senderId.elim .null fun id => .str id.str),
      ("data", e.redis.toDict)]

end Push

/-! ### Handlers -/

inductive Malformed where
  | attributeError
  | typeError
  | keyError (key : String)
  | valueError
  deriving DecidableEq

inductive HandlerCall where
  | membershipChange (userId groupId : UUID) (action : MembershipAction) (data : Json)
  | groupDeleted (groupId : UUID) (data : Json)
  | directMessage (userId : UUID) (data : Json)
  | groupMessage (groupId : UUID) (senderId : Option UUID) (data : Json)

namespace HandlerCall

/-- `UUID(value)`. -/
def toUuid : Json → Except Malformed UUID
  | .str s => (UUID.ofStr? s).elim (.error .valueError) .ok
  | .null => .error .typeError
  | _ => .error .attributeError

/-- `UUID(d[key])`. -/
def uuidAt (d : Json) (key : String) : Except Malformed UUID :=
  (d.get? key).elim (.error (.keyError key)) toUuid

/-- `MembershipAction(d[key])`. -/
def actionAt (d : Json) (key : String) : Except Malformed MembershipAction :=
  match d.get? key with
  | none => .error (.keyError key)
  | some (.str s) => (MembershipAction.ofStr? s).elim (.error .valueError) .ok
  | some _ => .error .valueError

/-- The branches of `_dispatch_local_message`, each with the conversions at the start of its handler. -/
def select (payload : Json) : Except Malformed (Option HandlerCall) :=
  let data := (payload.get? "data").getD (.obj [])
  if !payload.isObj || !data.isObj then .error .attributeError
  else if data.strAt "event" = some EventType.groupMembership.value then do
    return some (.membershipChange (← uuidAt data "user_id") (← uuidAt data "group_id")
      (← actionAt data "action") data)
  else if data.strAt "event" = some EventType.groupDeleted.value then do
    return some (.groupDeleted (← uuidAt data "group_id") data)
  else if payload.truthyAt "user_id" then do
    return some (.directMessage (← uuidAt payload "user_id") data)
  else if payload.truthyAt "group_id" then do
    let groupId ← uuidAt payload "group_id"
    let senderId ← if payload.truthyAt "sender_id" then some <$> uuidAt payload "sender_id"
      else pure none
    return some (.groupMessage groupId senderId data)
  else .ok none

end HandlerCall

def Push.handler : Push → HandlerCall
  | bus (.groupMembership userId groupId action) =>
    .membershipChange userId groupId action (RedisEvent.groupMembership action userId groupId).toDict
  | bus (.groupDeleted groupId) => .groupDeleted groupId (RedisEvent.groupDeleted groupId).toDict
  | message (.user userId) e => .directMessage userId e.redis.toDict
  | message (.group groupId senderId) e => .groupMessage groupId senderId e.redis.toDict

namespace HandlerCall

theorem toUuid_str (u : UUID) : toUuid (.str u.str) = .ok u := by
  simp only [toUuid, UUID.ofStr?_str, Option.elim_some]

theorem uuidAt_of_get? {d : Json} {key : String} {u : UUID} (h : d.get? key = some (.str u.str)) :
    uuidAt d key = .ok u := by
  simp only [uuidAt, h, Option.elim_some, toUuid_str]

theorem truthyAt_of_get? {d : Json} {key : String} {u : UUID} (h : d.get? key = some (.str u.str)) :
    d.truthyAt key = true := by
  simp only [Json.truthyAt, h, ne_eq, u.str_ne_empty, not_false_eq_true, decide_true]

theorem select_bus (e : BusEvent) : select (Push.bus e).payload = .ok (some (Push.bus e).handler) := by
  have hdata : (Push.bus e).payload.get? "data" = some e.redis.toDict := rfl
  have hobj : (Push.bus e).payload.isObj = true := rfl
  simp only [select, hdata, hobj, Option.getD_some, RedisEvent.isObj_toDict, RedisEvent.strAt_event,
    Bool.not_true, Bool.or_false, Bool.false_eq_true, if_false]
  cases e with
  | groupMembership userId groupId action =>
    have huser : (RedisEvent.groupMembership action userId groupId).toDict.get? "user_id" =
        some (.str userId.str) := rfl
    have hgroup : (RedisEvent.groupMembership action userId groupId).toDict.get? "group_id" =
        some (.str groupId.str) := rfl
    have haction : (RedisEvent.groupMembership action userId groupId).toDict.get? "action" =
        some (.str action.value) := rfl
    simp only [BusEvent.redis, RedisEvent.event, if_true, uuidAt_of_get? huser,
      uuidAt_of_get? hgroup, actionAt, haction, MembershipAction.ofStr?_value, Option.elim_some]
    rfl
  | groupDeleted groupId =>
    have hgroup : (RedisEvent.groupDeleted groupId).toDict.get? "group_id" =
        some (.str groupId.str) := rfl
    have hother : ¬ some EventType.groupDeleted.value = some EventType.groupMembership.value := by
      decide
    simp only [BusEvent.redis, RedisEvent.event, hother, if_true, if_false, uuidAt_of_get? hgroup]
    rfl

theorem select_message (address : Address) (e : MessageEvent) :
    select (Push.message address e).payload = .ok (some (Push.message address e).handler) := by
  have hdata : (Push.message address e).payload.get? "data" = some e.redis.toDict := by
    cases address <;> rfl
  have hobj : (Push.message address e).payload.isObj = true := by
    cases address <;> rfl
  have hevent : e.redis.event = .directMessage ∨ e.redis.event = .groupMessage := by
    cases e with
    | direct e => exact .inl rfl
    | group e => exact .inr rfl
  have hmembership : ¬ some e.redis.event.value = some EventType.groupMembership.value := by
    rcases hevent with h | h <;> (rw [h]; decide)
  have hdeleted : ¬ some e.redis.event.value = some EventType.groupDeleted.value := by
    rcases hevent with h | h <;> (rw [h]; decide)
  simp only [select, hdata, hobj, Option.getD_some, RedisEvent.isObj_toDict, RedisEvent.strAt_event,
    hmembership, hdeleted, Bool.not_true, Bool.or_false, Bool.false_eq_true, if_false]
  cases address with
  | user userId =>
    have huser : (Push.message (.user userId) e).payload.get? "user_id" = some (.str userId.str) := rfl
    simp only [truthyAt_of_get? huser, uuidAt_of_get? huser, if_true]
    rfl
  | group groupId senderId =>
    have huser : (Push.message (.group groupId senderId) e).payload.truthyAt "user_id" = false := rfl
    have hgroup : (Push.message (.group groupId senderId) e).payload.get? "group_id" =
        some (.str groupId.str) := rfl
    simp only [huser, truthyAt_of_get? hgroup, uuidAt_of_get? hgroup, Bool.false_eq_true, if_false,
      if_true]
    cases senderId with
    | none =>
      have hsender : (Push.message (.group groupId none) e).payload.truthyAt "sender_id" = false := rfl
      simp only [hsender, Bool.false_eq_true, if_false]
      rfl
    | some senderId =>
      have hsender : (Push.message (.group groupId (some senderId)) e).payload.get? "sender_id" =
          some (.str senderId.str) := rfl
      simp only [truthyAt_of_get? hsender, uuidAt_of_get? hsender, if_true]
      rfl

theorem select_payload (p : Push) : select p.payload = .ok (some p.handler) := by
  cases p with
  | bus e => exact select_bus e
  | message address e => exact select_message address e

end HandlerCall

/-! ### The sends of a handler -/

inductive SendOutcome where
  | sent
  | failed
  | timedOut
  deriving DecidableEq

/-- `async with asyncio.timeout(1.0): await ws.send_json(payload_data)`. -/
def SendOutcome.raises : SendOutcome → Except Raised Unit
  | sent => .ok ()
  -- `TimeoutError` is an exception like any other
  | failed | timedOut => .error .exception

/-- `_safe_send`: whatever is an `Exception` is logged. -/
def safeSend (outcome : SendOutcome) : Except Raised Unit :=
  match outcome.raises with
  | .error .cancelled => .error .cancelled
  | .error _ | .ok _ => .ok ()

/-- A handler that awaits its frames. `ending` is what `_handle_group_deleted` does afterwards. -/
structure Dispatching (σ : Type) where
  registry : Registry σ
  frame : Json
  fan : FanOut UUID σ Raised
  ending : Option (UUID × Finset UUID) := none

inductive DispatchAct (σ : Type) where
  /-- `_send_frame_to_user_sockets` begins for the user. -/
  | user (userId : UUID)
  /-- `send_json` is called on the socket. -/
  | send (ws : σ)
  | sent (ws : σ) (outcome : SendOutcome)
  | finish

variable {σ : Type} [DecidableEq σ]

def HandlerCall.start (r : Registry σ) : HandlerCall → Dispatching σ
  | membershipChange userId groupId .join data =>
    { registry := r.edit (.join userId groupId), frame := data, fan := { branches := {userId} } }
  | membershipChange userId groupId .leave data =>
    { registry := r.edit (.leave userId groupId), frame := data, fan := { branches := {userId} } }
  | groupDeleted groupId data =>
    { registry := r, frame := data, fan := { branches := (r.groupConnections.at? groupId).val },
      ending := some (groupId, r.groupConnections.at? groupId) }
  | directMessage userId data => { registry := r, frame := data, fan := { branches := {userId} } }
  | groupMessage groupId senderId data =>
    { registry := r, frame := data, fan := { branches := (r.localMembers groupId senderId).val } }

/-- `_dispatch_local_message` up to its first await. -/
def dispatchLocalMessage (r : Registry σ) (payload : Json) : Except Malformed (Option (Dispatching σ)) :=
  (HandlerCall.select payload).map fun handler => handler.map (·.start r)

namespace Dispatching

/-- `list(self._local_connections.get(user_id, set()))`. -/
def sockets (d : Dispatching σ) (userId : UUID) : Multiset σ :=
  (d.registry.localConnections.at? userId).val

def fanAct : DispatchAct σ → Option (FanOutAct UUID σ Raised)
  | .user userId => some (.expand userId)
  | .send ws => some (.begin ws)
  | .sent ws outcome => some (.finish ws (safeSend outcome))
  | .finish => none

def step (d : Dispatching σ) (a : DispatchAct σ) : Option (Dispatching σ) :=
  match fanAct a with
  | some a => (d.fan.step d.sockets a).map fun fan => { d with fan }
  | none =>
    match d.ending with
    | some (group, members) =>
      if d.fan.Done ∧ d.fan.raised = none then
        some { d with registry := d.registry.edit (.deleteGroup group members), ending := none }
      else none
    | none => none

def attempts (d : Dispatching σ) : Multiset σ := d.fan.begun

def Returned (d : Dispatching σ) : Prop := d.fan.Done ∧ d.ending = none

theorem safeSend_eq_ok (outcome : SendOutcome) : safeSend outcome = .ok () := by
  cases outcome <;> rfl

variable {d d' : Dispatching σ} {a : DispatchAct σ}

theorem step_eq_some (hending : d.ending = none) (h : d.step a = some d') :
    ∃ b fan, FanOut.Succeeds b ∧ d.fan.step d.sockets b = some fan ∧ d' = { d with fan } := by
  unfold step at h
  cases hact : fanAct a with
  | none =>
    simp only [hact, hending] at h
    cases h
  | some b =>
    simp only [hact, Option.map_eq_some_iff] at h
    obtain ⟨fan, hfan, rfl⟩ := h
    refine ⟨b, fan, ?_, hfan, rfl⟩
    cases a with
    | sent ws outcome =>
      cases hact
      rw [safeSend_eq_ok]
      trivial
    | user | send =>
      cases hact
      trivial
    | finish => cases hact

structure Sends (r : Registry σ) (frame : Json) (total : Multiset σ) (steps : ℕ) (n : ℕ)
    (d : Dispatching σ) : Prop where
  registry : d.registry = r
  frame : d.frame = frame
  ending : d.ending = none
  raised : d.fan.raised = none
  total : d.fan.total d.sockets = total
  left : n + d.fan.left d.sockets = steps

theorem Sends.step {r : Registry σ} {frame : Json} {total : Multiset σ} {steps n : ℕ}
    (h : Sends r frame total steps n d) (hs : d.step a = some d') :
    Sends r frame total steps (n + 1) d' := by
  obtain ⟨b, fan, hb, hfan, rfl⟩ := step_eq_some h.ending hs
  have hleft : n + 1 + fan.left d.sockets = steps := by
    have hbefore := h.left
    have hone := FanOut.left_step hfan
    omega
  exact ⟨h.registry, h.frame, h.ending, (FanOut.raised_step hfan hb).trans h.raised,
    (FanOut.total_step hfan).trans h.total, hleft⟩

theorem Sends.run {r : Registry σ} {frame : Json} {total : Multiset σ} {steps n : ℕ}
    {acts : List (DispatchAct σ)} (h : Sends r frame total steps n d)
    (hrun : run Dispatching.step d acts = some d') :
    Sends r frame total steps (n + acts.length) d' := by
  induction acts generalizing d n with
  | nil =>
    obtain rfl := Option.some.inj hrun
    exact h
  | cons a acts ih =>
    obtain ⟨m, hs, hrest⟩ := run_cons_eq_some.mp hrun
    have hnext := ih (h.step hs) hrest
    rwa [List.length_cons, ← Nat.add_assoc, Nat.add_right_comm]

theorem exists_step (hending : d.ending = none) (h : ¬ d.Returned) : ∃ a, (d.step a).isSome := by
  have hfan : ¬ d.fan.Done := fun hdone => h ⟨hdone, hending⟩
  have henabled : ∃ b, (d.fan.step d.sockets b).isSome := FanOut.exists_step hfan
  obtain ⟨b, hb⟩ := henabled
  cases b with
  | expand userId =>
    refine ⟨.user userId, ?_⟩
    simp only [step, fanAct, Option.isSome_map, hb]
  | begin ws =>
    refine ⟨.send ws, ?_⟩
    simp only [step, fanAct, Option.isSome_map, hb]
  | finish ws r =>
    refine ⟨.sent ws .sent, ?_⟩
    simp only [FanOut.step] at hb
    simp only [step, fanAct, Option.isSome_map, FanOut.step]
    split
    · rfl
    · next hnot =>
      rw [if_neg hnot] at hb
      cases hb

end Dispatching

/-! ### The edits of a handler -/

/-- A change of a membership edits the tables as the manager does. -/
theorem registry_start_membershipChange (m : Manager σ) (userId groupId : UUID)
    (action : MembershipAction) :
    ((Push.bus (.groupMembership userId groupId action)).handler.start m.registry).registry =
      (m.dispatch (.groupMembership userId groupId action)).registry := by
  cases action <;> rfl

/-- The deletion of a group edits them once the frames are sent, for the members it began with, which is
what the manager does when they are `sent`. -/
theorem registry_of_groupDeleted {r : Registry σ} {groupId : UUID} {data : Json}
    {acts : List (DispatchAct σ)} {d : Dispatching σ}
    (hrun : run Dispatching.step ((HandlerCall.groupDeleted groupId data).start r) acts = some d) :
    d.ending = some (groupId, r.groupConnections.at? groupId) ∧ d.registry = r ∨
      d.ending = none ∧ d.registry = r.edit (.deleteGroup groupId (r.groupConnections.at? groupId)) := by
  refine run_induction (I := fun d : Dispatching σ =>
    d.ending = some (groupId, r.groupConnections.at? groupId) ∧ d.registry = r ∨
      d.ending = none ∧ d.registry = r.edit (.deleteGroup groupId (r.groupConnections.at? groupId)))
    (fun d a d' h hs => ?_) hrun (.inl ⟨rfl, rfl⟩)
  unfold Dispatching.step at hs
  split at hs
  · obtain ⟨fan, -, rfl⟩ := Option.map_eq_some_iff.mp hs
    exact h
  · rcases h with ⟨hending, hregistry⟩ | ⟨hending, -⟩
    · simp only [hending] at hs
      split at hs
      · cases hs
        exact .inr ⟨rfl, by rw [hregistry]⟩
      · cases hs
    · simp only [hending] at hs
      cases hs

/-! ### What a dispatch does -/

theorem dispatchLocalMessage_payload (r : Registry σ) (p : Push) :
    dispatchLocalMessage r p.payload = .ok (some (p.handler.start r)) := by
  rw [dispatchLocalMessage, HandlerCall.select_payload]
  rfl

/-- A push is published as a text, and the worker that receives it picks its handler, with the ids and
the action of the push; the frame of the handler has all fields of the event. -/
theorem push_round_trip (r : Registry σ) (p : Push) (h : p.event.Dated) :
    ∃ payload, Json.loads (Json.dumps p.payload) = some payload ∧
      HandlerCall.select payload = .ok (some p.handler) ∧
      dispatchLocalMessage r payload = .ok (some (p.handler.start r)) ∧
      RedisEvent.ofDict? (p.handler.start r).frame = some p.event := by
  have hframe : (p.handler.start r).frame = p.event.toDict := by
    cases p with
    | bus e =>
      cases e with
      | groupMembership userId groupId action => cases action <;> rfl
      | groupDeleted groupId => rfl
    | message address e => cases address <;> rfl
  refine ⟨_, Json.loads_dumps _, HandlerCall.select_payload p, dispatchLocalMessage_payload r p, ?_⟩
  rw [hframe]
  exact RedisEvent.ofDict?_toDict h

theorem push_round_trip_astral :
    ∃ payload,
      Json.loads (Json.dumps (Push.message (.group ⟨4⟩ none)
        (.group ⟨⟨7⟩, ⟨4⟩, ⟨1⟩, "𝄞 \"\n", 1709164800123456⟩)).payload) = some payload ∧
      HandlerCall.select payload = .ok (some (Push.message (.group ⟨4⟩ none)
        (.group ⟨⟨7⟩, ⟨4⟩, ⟨1⟩, "𝄞 \"\n", 1709164800123456⟩)).handler) := by
  obtain ⟨payload, hloads, hselect, -⟩ := push_round_trip ({} : Registry ℕ)
    (.message (.group ⟨4⟩ none) (.group ⟨⟨7⟩, ⟨4⟩, ⟨1⟩, "𝄞 \"\n", 1709164800123456⟩)) (by decide)
  exact ⟨payload, hloads, hselect⟩

namespace Registry

def targets (r : Registry σ) : Address → Finset σ
  | .user userId => r.localConnections.at? userId
  | .group groupId senderId => (r.localMembers groupId senderId).biUnion r.localConnections.at?

/-- No socket belongs to two users. -/
def OneOwner (r : Registry σ) : Prop :=
  ∀ u u' ws, ws ∈ r.localConnections.at? u → ws ∈ r.localConnections.at? u' → u = u'

end Registry

namespace Dispatching

variable {r : Registry σ} {address : Address} {e : MessageEvent}

theorem total_start (howner : r.OneOwner) :
    ((Push.message address e).handler.start r).fan.total
      ((Push.message address e).handler.start r).sockets = (r.targets address).val := by
  cases address with
  | user userId =>
    show ({userId} : Multiset UUID).bind _ + 0 + 0 = _
    rw [Multiset.singleton_bind, add_zero, add_zero]
    rfl
  | group groupId senderId =>
    show (r.localMembers groupId senderId).val.bind (fun u => (r.localConnections.at? u).val) + 0 + 0 = _
    have hnodup : ((r.localMembers groupId senderId).val.bind fun u =>
        (r.localConnections.at? u).val).Nodup := by
      refine Multiset.nodup_bind.mpr ⟨fun u _ => (r.localConnections.at? u).nodup, ?_⟩
      refine (r.localMembers groupId senderId).nodup.pairwise fun u _ u' _ hne => ?_
      exact Multiset.disjoint_left.mpr fun hws hws' => hne (howner u u' _ hws hws')
    have hunion : (r.targets (.group groupId senderId)).val = _ := Finset.biUnion_val ..
    rw [add_zero, add_zero, hunion, hnodup.dedup]

theorem sends_start (howner : r.OneOwner) :
    ∃ steps, Sends r e.redis.toDict (r.targets address).val steps 0
      ((Push.message address e).handler.start r) := by
  refine ⟨_, ?_, ?_, ?_, ?_, total_start howner, Nat.zero_add _⟩ <;> cases address <;> rfl

end Dispatching

open Dispatching in
/-- Whatever the sends come to, and in whatever order they go on, a message is sent once to each socket
that it is for and to no other, nothing is raised, and the tables stay as they are. -/
theorem dispatch_reaches_targets (r : Registry σ) (howner : r.OneOwner) (address : Address)
    (e : MessageEvent) :
    ∃ d₀ bound, dispatchLocalMessage r (Push.message address e).payload = .ok (some d₀) ∧
      ∀ acts d, run Dispatching.step d₀ acts = some d →
        d.registry = r ∧ d.frame = e.redis.toDict ∧ d.fan.raised = none ∧
        (∀ ws, d.attempts.count ws ≤ if ws ∈ r.targets address then 1 else 0) ∧
        (d.Returned → ∀ ws, d.attempts.count ws = if ws ∈ r.targets address then 1 else 0) ∧
        (¬ d.Returned → ∃ a, (d.step a).isSome) ∧ acts.length ≤ bound := by
  have hsends : ∃ steps, Sends r e.redis.toDict (r.targets address).val steps 0
      ((Push.message address e).handler.start r) := sends_start howner
  obtain ⟨steps, hstart⟩ := hsends
  refine ⟨_, steps, dispatchLocalMessage_payload r _, fun acts d hrun => ?_⟩
  have hsends := hstart.run hrun
  have hcount (ws : σ) : (r.targets address).val.count ws = if ws ∈ r.targets address then 1 else 0 :=
    Multiset.count_eq_of_nodup (r.targets address).nodup
  have hbegun : d.attempts ≤ (r.targets address).val := hsends.total ▸ FanOut.begun_le_total
  refine ⟨hsends.registry, hsends.frame, hsends.raised, fun ws => ?_, fun hdone ws => ?_,
    exists_step hsends.ending, ?_⟩
  · exact (Multiset.count_le_of_le ws hbegun).trans_eq (hcount ws)
  · have hall : d.attempts = (r.targets address).val :=
      (FanOut.begun_of_done hdone.1).trans hsends.total
    rw [hall, hcount]
  · have hleft := hsends.left
    omega

namespace Sample

def chatting : Registry ℕ :=
  (((({} : Registry ℕ).connect ⟨1⟩ 10).connect ⟨2⟩ 20).mergeGroups ⟨1⟩ 10 {⟨4⟩}).mergeGroups ⟨2⟩ 20 {⟨4⟩}

theorem oneOwner_chatting : chatting.OneOwner := by
  have hmem {u : UUID} {ws : ℕ} (h : ws ∈ chatting.localConnections.at? u) :
      u = ⟨1⟩ ∧ ws = 10 ∨ u = ⟨2⟩ ∧ ws = 20 := by
    simp only [chatting, Registry.localConnections_mergeGroups, Registry.mem_connect] at h
    exact h.imp_left fun h => h.resolve_left (Finset.notMem_empty _)
  intro u u' ws h h'
  rcases hmem h with ⟨rfl, rfl⟩ | ⟨rfl, rfl⟩
  · exact ((hmem h').resolve_right fun h => absurd h.2 (by decide)).1.symm
  · exact ((hmem h').resolve_left fun h => absurd h.2 (by decide)).1.symm

end Sample

/-- The only send, to the other member, takes too long. -/
theorem dispatch_reaches_targets_timeout :
    ∃ d₀ d, dispatchLocalMessage Sample.chatting (Push.message (.group ⟨4⟩ (some ⟨2⟩))
        (.group ⟨⟨7⟩, ⟨4⟩, ⟨2⟩, "hi", 0⟩)).payload = .ok (some d₀) ∧
      run Dispatching.step d₀ [.user ⟨1⟩, .send 10, .sent 10 .timedOut] = some d ∧
      d.attempts.count 10 = 1 ∧ d.attempts.count 20 = 0 ∧ d.fan.raised = none := by
  obtain ⟨d₀, bound, hd₀, hruns⟩ := dispatch_reaches_targets Sample.chatting Sample.oneOwner_chatting
    (.group ⟨4⟩ (some ⟨2⟩)) (.group ⟨⟨7⟩, ⟨4⟩, ⟨2⟩, "hi", 0⟩)
  obtain rfl := Option.some.inj (Except.ok.inj ((dispatchLocalMessage_payload _ _).symm.trans hd₀))
  obtain ⟨d, hd, hreturned⟩ : ∃ d ∈ run Dispatching.step
      ((Push.message (.group ⟨4⟩ (some ⟨2⟩)) (.group ⟨⟨7⟩, ⟨4⟩, ⟨2⟩, "hi", 0⟩)).handler.start
        Sample.chatting) [.user ⟨1⟩, .send 10, .sent 10 .timedOut],
      d.fan.Done ∧ d.ending = none := by decide
  obtain ⟨-, -, hraised, -, hexact, -⟩ := hruns _ d hd
  exact ⟨_, d, hd₀, hd, hexact hreturned 10, hexact hreturned 20, hraised⟩

end Messenger
