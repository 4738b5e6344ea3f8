import Messenger.Lib.Feed
import Messenger.Lib.Lanes
import Messenger.Lib.Transition
import Messenger.Realtime.Edits
import Messenger.Services.Messaging

/-! The way of a direct message from its call to the sockets of the recipient. A call that returns has
spawned a task that publishes; the listener of each worker spawns a task for each message that it
receives; and that task starts a send for each socket. The scheduler picks among the tasks as it likes. -/

namespace Messenger
open Transition Lanes

/-- The arguments of `push_to_user`. -/
structure UserPush where
  userId : UUID
  event : DirectMessageEvent
  deriving DecidableEq

def MessagePush.user? : MessagePush → Option UserPush
  | toUser userId event => some { userId, event }
  | toGroup .. => none

namespace UserPush

def lane (p : UserPush) : UUID × UUID := (p.event.senderId, p.userId)

end UserPush

/-- `called` holds what the calls have spawned, in the order of the calls. The lists hold the tasks of
each kind in the order in which they were spawned. -/
structure Delivery (ω σ : Type) where
  db : Db
  registry : ω → Registry σ
  called : List UserPush := []
  publishing : List UserPush := []
  bus : Feed ω UserPush := .empty
  dispatching : ω → List UserPush := fun _ => []
  sending : ω → σ → List UserPush := fun _ _ => []
  sent : ω → σ → List UserPush := fun _ _ => []

inductive DeliveryAct (ω σ : Type) where
  /-- `send_direct_message` returns. -/
  | call (env : MessagingEnv) (senderId recipientId : UUID) (content : String)
    (f : Transactional.Faults MessagingAwait Error)
  /-- Other calls change the database, and other tasks the tables of a worker. -/
  | commit (d : Db)
  | edit (w : ω) (e : Edit σ)
  | publish (i : ℕ)
  | publishFails (i : ℕ)
  | receive (w : ω)
  | miss (w : ω)
  | dispatch (w : ω) (i : ℕ)
  | send (w : ω) (ws : σ) (i : ℕ)
  | sendFails (w : ω) (ws : σ) (i : ℕ)

namespace Delivery

variable {ω σ : Type} [DecidableEq ω] [DecidableEq σ]

def init (d : Db) (registry : ω → Registry σ) : Delivery ω σ := { db := d, registry }

def step (s : Delivery ω σ) : DeliveryAct ω σ → Option (Delivery ω σ)
  | .call env senderId recipientId content f =>
    match MessagingService.sendDirectMessage env senderId recipientId content f { db := s.db } with
    | (.ok _, w) =>
      let pushes := w.spawned.filterMap MessagePush.user?
      some { s with
        db := w.db, called := s.called ++ pushes, publishing := s.publishing ++ pushes }
    | (.error _, _) => none
  | .commit d => some { s with db := d }
  | .edit w e =>
    some { s with registry := Function.update s.registry w ((s.registry w).edit e) }
  | .publish i => (pick s.publishing i).map fun r =>
    { s with publishing := r.2, bus := s.bus.publish r.1 }
  | .publishFails i => (pick s.publishing i).map fun r => { s with publishing := r.2 }
  | .receive w => (s.bus.read w).map fun r =>
    { s with
      bus := r.2
      dispatching := Function.update s.dispatching w (s.dispatching w ++ [r.1]) }
  | .miss w => (s.bus.lose w).map fun bus => { s with bus }
  | .dispatch w i => (pick (s.dispatching w) i).map fun r =>
    let sockets := (s.registry w).localConnections.at? r.1.userId
    { s with
      dispatching := Function.update s.dispatching w r.2
      sending := Function.update s.sending w fun ws =>
        if ws ∈ sockets then s.sending w ws ++ [r.1] else s.sending w ws }
  | .send w ws i => (pick (s.sending w ws) i).map fun r =>
    { s with
      sending := Function.update s.sending w (Function.update (s.sending w) ws r.2)
      sent := Function.update s.sent w (Function.update (s.sent w) ws (s.sent w ws ++ [r.1])) }
  | .sendFails w ws i => (pick (s.sending w ws) i).map fun r =>
    { s with sending := Function.update s.sending w (Function.update (s.sending w) ws r.2) }

/-- No task overtakes an older one of its kind for the same sender and recipient. -/
def InTurn (s : Delivery ω σ) : DeliveryAct ω σ → Prop
  | .publish i => Lanes.InTurn UserPush.lane s.publishing i
  | .dispatch w i => Lanes.InTurn UserPush.lane (s.dispatching w) i
  | .send w ws i => Lanes.InTurn UserPush.lane (s.sending w ws) i
  | _ => True

instance (s : Delivery ω σ) : ∀ a, Decidable (s.InTurn a)
  | .publish _ | .dispatch .. | .send .. => inferInstanceAs (Decidable (Lanes.InTurn ..))
  | .call .. | .commit _ | .edit .. | .publishFails _ | .receive _ | .miss _ | .sendFails .. =>
    instDecidableTrue

def InOrder (s : Delivery ω σ) : Prop :=
  ∀ w ws sender recipient, (lane UserPush.lane (sender, recipient) (s.sent w ws)).Sublist
    (lane UserPush.lane (sender, recipient) s.called)

def pipeline (s : Delivery ω σ) (w : ω) (ws : σ) (k : UUID × UUID) : List UserPush :=
  lane UserPush.lane k (s.sent w ws ++ (s.sending w ws ++ (s.dispatching w ++
    (s.bus.ahead w ++ s.publishing))))

/-- The step may lose a message to the socket: a task fails, the listener misses a message, or the
socket is not one of the recipient's. -/
def Loses (s : Delivery ω σ) (w : ω) (ws : σ) (recipient : UUID) : DeliveryAct ω σ → Prop
  | .publishFails _ | .miss _ | .sendFails .. => True
  | .dispatch w' _ => w' = w ∧ ws ∉ (s.registry w).localConnections.at? recipient
  | _ => False

variable {s s' : Delivery ω σ} {a : DeliveryAct ω σ} {w : ω} {ws : σ} {k : UUID × UUID}

theorem pipeline_dispatch {w' : ω} {i : ℕ} (hG : s.InTurn (.dispatch w' i))
    (hs : s.step (.dispatch w' i) = some s') :
    s'.pipeline w ws k = s.pipeline w ws k ∨
      s.Loses w ws k.2 (.dispatch w' i) ∧ (s'.pipeline w ws k).Sublist (s.pipeline w ws k) := by
  obtain ⟨r, hr, rfl⟩ := Option.map_eq_some_iff.mp hs
  by_cases hw : w = w'
  · subst hw
    by_cases hws : ws ∈ (s.registry w).localConnections.at? r.1.userId
    · refine .inl ?_
      simp only [pipeline, Function.update_self, if_pos hws, lane_append, lane_pick hr hG,
        List.append_assoc]
    · by_cases hk : r.1.lane = k
      · -- the socket is not among those that the message is sent to
        refine .inr ⟨⟨rfl, hk ▸ hws⟩, lane_sublist ?_⟩
        simpa [if_neg hws] using pick_sublist hr
      · -- a message of another lane
        have hnone : lane UserPush.lane k [r.1] = [] := by simp [lane, hk]
        refine .inl ?_
        simp only [pipeline, Function.update_self, if_neg hws, lane_append, lane_pick hr hG, hnone,
          List.nil_append]
  · refine .inl ?_
    simp only [pipeline, Function.update_of_ne hw]

theorem pipeline_send {w' : ω} {ws' : σ} {i : ℕ} (hG : s.InTurn (.send w' ws' i))
    (hs : s.step (.send w' ws' i) = some s') : s'.pipeline w ws k = s.pipeline w ws k := by
  obtain ⟨r, hr, rfl⟩ := Option.map_eq_some_iff.mp hs
  by_cases hw : w = w'
  · subst hw
    by_cases hws : ws = ws'
    · subst hws
      simp only [pipeline, Function.update_self, lane_append, lane_pick hr hG, List.append_assoc]
    · simp only [pipeline, Function.update_self, Function.update_of_ne hws]
  · simp only [pipeline, Function.update_of_ne hw]

theorem pipeline_sendFails {w' : ω} {ws' : σ} {i : ℕ} (hs : s.step (.sendFails w' ws' i) = some s') :
    (s'.pipeline w ws k).Sublist (s.pipeline w ws k) := by
  obtain ⟨r, hr, rfl⟩ := Option.map_eq_some_iff.mp hs
  refine lane_sublist ?_
  by_cases hw : w = w'
  · subst hw
    by_cases hws : ws = ws'
    · subst hws
      simpa using pick_sublist hr
    · simp [Function.update_of_ne hws]
  · simp [Function.update_of_ne hw]

theorem pipeline_receive {w' : ω} (hs : s.step (.receive w') = some s') :
    s'.pipeline w ws k = s.pipeline w ws k := by
  obtain ⟨r, hr, rfl⟩ := Option.map_eq_some_iff.mp hs
  obtain ⟨hnext, hother⟩ := Feed.ahead_read hr
  by_cases hw : w = w'
  · -- the oldest message of the bus becomes the newest of those to be dispatched
    subst hw
    simp only [pipeline, Function.update_self, hnext, List.append_assoc, List.cons_append,
      List.nil_append]
  · simp only [pipeline, Function.update_of_ne hw, hother w hw]

theorem pipeline_miss {w' : ω} (hs : s.step (.miss w') = some s') :
    (s'.pipeline w ws k).Sublist (s.pipeline w ws k) := by
  obtain ⟨bus, hl, rfl⟩ := Option.map_eq_some_iff.mp hs
  obtain ⟨e, hnext, hother⟩ := Feed.ahead_lose hl
  refine lane_sublist ?_
  by_cases hw : w = w'
  · subst hw
    simp [hnext]
  · simp [hother w hw]

omit [DecidableEq ω] [DecidableEq σ] in
theorem pipeline_of_called_eq (hcalled : s'.called = s.called)
    (h : s'.pipeline w ws k = s.pipeline w ws k ∨
      s.Loses w ws k.2 a ∧ (s'.pipeline w ws k).Sublist (s.pipeline w ws k)) :
    ∃ new, s'.called = s.called ++ new ∧
      (s'.pipeline w ws k = s.pipeline w ws k ++ lane UserPush.lane k new ∨
        s.Loses w ws k.2 a ∧
          (s'.pipeline w ws k).Sublist (s.pipeline w ws k ++ lane UserPush.lane k new)) := by
  refine ⟨[], hcalled.trans (List.append_nil _).symm, ?_⟩
  rwa [lane_nil, List.append_nil]

theorem called_step (hs : s.step a = some s')
    (hcall : ∀ env senderId recipientId content f, a ≠ .call env senderId recipientId content f) :
    s'.called = s.called := by
  cases a with
  | call env senderId recipientId content f =>
    exact absurd rfl (hcall env senderId recipientId content f)
  | commit d =>
    obtain rfl := Option.some.inj hs
    rfl
  | edit w' e =>
    obtain rfl := Option.some.inj hs
    rfl
  | _ =>
    obtain ⟨r, -, rfl⟩ := Option.map_eq_some_iff.mp hs
    rfl

/-- A step adds to the end of the pipeline what it adds to the calls, and changes nothing else in it
unless it loses something. -/
theorem pipeline_step (hG : s.InTurn a) (hs : s.step a = some s') :
    ∃ new, s'.called = s.called ++ new ∧
      (s'.pipeline w ws k = s.pipeline w ws k ++ lane UserPush.lane k new ∨
        s.Loses w ws k.2 a ∧
          (s'.pipeline w ws k).Sublist (s.pipeline w ws k ++ lane UserPush.lane k new)) := by
  cases a with
  | call env senderId recipientId content f =>
    simp only [step] at hs
    split at hs
    · obtain rfl := Option.some.inj hs
      exact ⟨_, rfl, .inl (by simp only [pipeline, lane_append, List.append_assoc])⟩
    · cases hs
  | commit d =>
    obtain rfl := Option.some.inj hs
    exact pipeline_of_called_eq rfl (.inl rfl)
  | edit w' e =>
    obtain rfl := Option.some.inj hs
    exact pipeline_of_called_eq rfl (.inl rfl)
  | publish i =>
    refine pipeline_of_called_eq (called_step hs (by simp)) (.inl ?_)
    obtain ⟨r, hr, rfl⟩ := Option.map_eq_some_iff.mp hs
    simp only [pipeline, Feed.ahead_publish, lane_append, lane_pick hr hG, List.append_assoc]
  | publishFails i =>
    refine pipeline_of_called_eq (called_step hs (by simp)) (.inr ⟨trivial, ?_⟩)
    obtain ⟨r, hr, rfl⟩ := Option.map_eq_some_iff.mp hs
    refine lane_sublist ?_
    simpa using pick_sublist hr
  | receive w' => exact pipeline_of_called_eq (called_step hs (by simp)) (.inl (pipeline_receive hs))
  | miss w' =>
    exact pipeline_of_called_eq (called_step hs (by simp)) (.inr ⟨trivial, pipeline_miss hs⟩)
  | dispatch w' i => exact pipeline_of_called_eq (called_step hs (by simp)) (pipeline_dispatch hG hs)
  | send w' ws' i => exact pipeline_of_called_eq (called_step hs (by simp)) (.inl (pipeline_send hG hs))
  | sendFails w' ws' i =>
    exact pipeline_of_called_eq (called_step hs (by simp)) (.inr ⟨trivial, pipeline_sendFails hs⟩)

theorem pipeline_sublist_step (hI : ∀ w ws k, (s.pipeline w ws k).Sublist
      (lane UserPush.lane k s.called)) (hG : s.InTurn a) (hs : s.step a = some s') (w : ω) (ws : σ)
    (k : UUID × UUID) : (s'.pipeline w ws k).Sublist (lane UserPush.lane k s'.called) := by
  obtain ⟨new, hcalled, hpipeline⟩ := pipeline_step (w := w) (k := k) hG hs
  rw [hcalled, lane_append]
  have hold := (hI w ws k).append_right (lane UserPush.lane k new)
  rcases hpipeline with heq | ⟨-, hsub⟩
  · exact heq ▸ hold
  · exact hsub.trans hold

/-! ### A socket that stays open -/

def Spares (w : ω) (ws : σ) (recipient : UUID) : DeliveryAct ω σ → Prop
  | .publishFails _ | .miss _ | .sendFails .. => False
  | .edit w' e => w' = w → e ≠ .disconnect recipient ws
  | _ => True

def Complete (w : ω) (ws : σ) (k : UUID × UUID) (s : Delivery ω σ) : Prop :=
  ws ∈ (s.registry w).localConnections.at? k.2 ∧ s.pipeline w ws k = lane UserPush.lane k s.called

theorem registry_step (hs : s.step a = some s') :
    s'.registry = s.registry ∨ ∃ w e, a = .edit w e ∧
      s'.registry = Function.update s.registry w ((s.registry w).edit e) := by
  cases a with
  | call env senderId recipientId content f =>
    simp only [step] at hs
    split at hs
    · obtain rfl := Option.some.inj hs
      exact .inl rfl
    · cases hs
  | commit d =>
    obtain rfl := Option.some.inj hs
    exact .inl rfl
  | edit w e =>
    obtain rfl := Option.some.inj hs
    exact .inr ⟨w, e, rfl, rfl⟩
  | publish | publishFails | receive | miss | dispatch | send | sendFails =>
    obtain ⟨_, -, rfl⟩ := Option.map_eq_some_iff.mp hs
    exact .inl rfl

theorem Complete.step (h : Complete w ws k s) (hG : s.InTurn a) (ha : Spares w ws k.2 a)
    (hs : s.step a = some s') : Complete w ws k s' := by
  obtain ⟨hopen, hcomplete⟩ := h
  constructor
  · rcases registry_step hs with heq | ⟨w', e, rfl, heq⟩
    · rwa [heq]
    · rw [heq]
      by_cases hw : w = w'
      · subst hw
        rw [Function.update_self]
        exact Registry.mem_edit hopen (ha rfl)
      · rwa [Function.update_of_ne hw]
  · obtain ⟨new, hcalled, hpipeline⟩ := pipeline_step (w := w) (k := k) hG hs
    rw [hcalled, lane_append, ← hcomplete]
    rcases hpipeline with heq | ⟨hloses, -⟩
    · exact heq
    · cases a with
      | publishFails | miss | sendFails => exact ha.elim
      | dispatch =>
        obtain ⟨rfl, hclosed⟩ := hloses
        exact absurd hopen hclosed
      | _ => exact hloses.elim

def Idle (s : Delivery ω σ) (w : ω) (ws : σ) : Prop :=
  s.publishing = [] ∧ s.bus.ahead w = [] ∧ s.dispatching w = [] ∧ s.sending w ws = []

instance (s : Delivery ω σ) (w : ω) (ws : σ) : Decidable (s.Idle w ws) := by
  unfold Idle
  infer_instance

/-- In a run in which no task overtakes an older one of its kind for the same sender and recipient, the
messages come in the order of the calls, and all of them where a socket stays open and nothing fails. -/
theorem direct_messages_in_order (d : Db) (registry : ω → Registry σ) (acts : List (DeliveryAct ω σ))
    (s : Delivery ω σ) (hG : Guarded step InTurn (init d registry) acts)
    (hs : run step (init d registry) acts = some s) :
    s.InOrder ∧ ∀ w ws sender recipient, ws ∈ (registry w).localConnections.at? recipient →
      (∀ a ∈ acts, Spares w ws recipient a) → s.Idle w ws →
        lane UserPush.lane (sender, recipient) (s.sent w ws) =
          lane UserPush.lane (sender, recipient) s.called := by
  constructor
  · -- what was sent is the front of the pipeline
    have hsub := Guarded.induction (I := fun s : Delivery ω σ => ∀ w ws k,
      (s.pipeline w ws k).Sublist (lane UserPush.lane k s.called))
      (fun _ _ _ hI hG hs => pipeline_sublist_step hI hG hs) hG hs fun _ _ _ => List.Sublist.refl _
    exact fun w ws sender recipient =>
      (lane_sublist (List.sublist_append_left ..)).trans (hsub w ws (sender, recipient))
  · -- the pipeline holds no more than what was sent, and lacks nothing
    intro w ws sender recipient hopen hspares hidle
    have hboth := hG.and (guarded_of_forall_mem fun a ha _ => hspares a ha)
    have hcomplete := Guarded.induction (I := Complete w ws (sender, recipient))
      (fun _ _ _ hI hG hs => hI.step hG.1 hG.2 hs) hboth hs ⟨hopen, rfl⟩
    rw [← hcomplete.2]
    obtain ⟨hpublishing, hahead, hdispatching, hsending⟩ := hidle
    simp only [pipeline, hpublishing, hahead, hdispatching, hsending, List.append_nil]

end Delivery

namespace Sample

def friendship : Friendship := ⟨⟨1⟩, ⟨2⟩, true, 0, 0⟩

def friends : Db where
  users := ⟨[⟨⟨1⟩, "ada", "secret", false, 0⟩, ⟨⟨2⟩, "ben", "secret", false, 0⟩], by decide⟩
  friendships := ⟨[friendship], by decide⟩

def directMessage (id : ℕ) : DeliveryAct Unit ℕ :=
  .call ⟨0, ⟨id⟩, .prefer friendship, .stable _, .stable _⟩ ⟨1⟩ ⟨2⟩ "hello" fun _ => none

def twoMessages (first second : ℕ) : List (DeliveryAct Unit ℕ) :=
  [directMessage 3, directMessage 4, .publish first, .publish second, .receive (), .receive (),
    .dispatch () 0, .dispatch () 0, .send () 0 0, .send () 0 0]

def oneSocket : Unit → Registry ℕ := fun _ => ({} : Registry ℕ).connect ⟨2⟩ 0

end Sample
open Sample Delivery

theorem direct_messages_in_order_two :
    ∃ s : Delivery Unit ℕ, run step (init friends oneSocket) (twoMessages 0 0) = some s ∧ s.InOrder ∧
      lane UserPush.lane (⟨1⟩, ⟨2⟩) (s.sent () 0) = lane UserPush.lane (⟨1⟩, ⟨2⟩) s.called := by
  obtain ⟨s, hs⟩ := Option.isSome_iff_exists.mp
    (show (run step (init friends oneSocket) (twoMessages 0 0)).isSome by decide)
  have hidle : ∀ s' ∈ run step (init friends oneSocket) (twoMessages 0 0), s'.Idle () 0 := by decide
  obtain ⟨horder, hcomplete⟩ := direct_messages_in_order friends oneSocket _ s (by decide) hs
  refine ⟨s, hs, horder, hcomplete () 0 ⟨1⟩ ⟨2⟩ (by decide) ?_ (hidle s hs)⟩
  simp [twoMessages, directMessage, Spares]

/-- The second message is published before the first one. -/
theorem not_inOrder_overtaken :
    ∃ s : Delivery Unit ℕ, run step (init friends oneSocket) (twoMessages 1 0) = some s ∧ ¬ s.InOrder := by
  obtain ⟨s, hs, hnot⟩ :
      ∃ s ∈ run step (init friends oneSocket) (twoMessages 1 0),
        ¬ (lane UserPush.lane (⟨1⟩, ⟨2⟩) (s.sent () 0)).Sublist
          (lane UserPush.lane (⟨1⟩, ⟨2⟩) s.called) := by decide
  exact ⟨s, hs, fun horder => hnot (horder () 0 ⟨1⟩ ⟨2⟩)⟩

end Messenger
