import Messenger.Lib.Json
import Messenger.Lib.Transition
import Messenger.Redis.Listening

/-! `listen_and_dispatch_message` on a connection that stays up: what the body of its loop raises, how far
that goes, and the tasks that hand the payloads to the handler. -/

namespace Messenger
open Coroutine Transition

/-- What `json.loads` raises. Only the first kind means that the text is no JSON. -/
inductive LoadsError where
  | jsonDecodeError
  /-- A `ValueError`: an integer has more digits than `int` converts. -/
  | valueError
  /-- The arrays and objects are nested too deeply. -/
  | recursionError
  deriving DecidableEq

inductive ListenerError where
  | unicodeDecodeError
  | loads (e : LoadsError)
  | cancelled
  deriving DecidableEq

/-- What `pubsub.listen()` yields. -/
inductive PubSubMessage where
  | subscribe (count : ℕ)
  | message (data : RedisText)

def PubSubMessage.data? : PubSubMessage → Option RedisText
  | subscribe _ => none
  | message data => some data

/-- The await at which the listener stands. In the `finally` block it has an exception to raise again. -/
inductive PubSubPhase where
  | subscribing
  | listening
  | unsubscribing (raised : ListenerError)
  | closing (raised : ListenerError)
  | sleeping
  | closingClient
  | ended
  deriving DecidableEq

/-- `arrived` holds what has come on the channel since the first subscription, `taken` what the loop has
taken of it, `waiting` the payloads of the tasks that have not begun, and `handed` those for which the
handler has been called. -/
structure PubSub (δ : Type) where
  phase : PubSubPhase := .listening
  closeClientOnExit : Bool
  buffer : List PubSubMessage := [.subscribe 1]
  arrived : List RedisText := []
  taken : List RedisText := []
  waiting : List δ := []
  handed : List δ := []
  results : List (Except Interruption Unit) := []

inductive PubSubAct where
  /-- The server publishes to the channel. -/
  | arrive (data : RedisText)
  /-- What the listener awaits comes. -/
  | resume
  | cancel
  /-- The oldest of the tasks that wait begins; so ends its handler. -/
  | dispatch (outcome : Except Interruption Unit)

namespace PubSub

variable {δ : Type}

/-- `spawn_task(_safe_dispatch(message_handler, payload, channel))`. -/
def spawnTask (payload : δ) : Coroutine ListenerError (List δ) Unit :=
  update fun waiting => waiting ++ [payload]

/-- The `try` block around a message. -/
def dispatchData (loads : String → Except LoadsError δ) (rawData : RedisText) :
    Coroutine ListenerError (List δ) Unit :=
  match rawData.decode with
  | none => raise .unicodeDecodeError
  | some data =>
    match loads data with
    | .error e => raise (.loads e)
    | .ok payload => spawnTask payload

/-- The body of the loop, which catches a `JSONDecodeError` and nothing else. -/
def receive (loads : String → Except LoadsError δ) :
    PubSubMessage → Coroutine ListenerError (List δ) Unit
  | .subscribe _ => return
  | .message rawData => tryExcept (dispatchData loads rawData) fun e =>
    if e = .loads .jsonDecodeError then return else raise e

/-- `_safe_dispatch`: whatever is an `Exception` is logged. The state holds the calls of the handler. -/
def safeDispatch (payload : δ) (outcome : Except Interruption Unit) :
    Coroutine Interruption (List δ) Unit :=
  tryExcept
    (do
      update fun handed => handed ++ [payload]
      match outcome with
      | .ok _ => return
      | .error e => raise e)
    fun e => if e = .cancelled then raise e else return

/-- The `finally` block around the outer loop. -/
def exit (s : PubSub δ) : PubSubPhase := if s.closeClientOnExit then .closingClient else .ended

/-- The handlers around the subscription, once it has been given up. -/
def handle (s : PubSub δ) (raised : ListenerError) : PubSubPhase :=
  if raised = .cancelled then s.exit else .sleeping

def cancelled (s : PubSub δ) : PubSubPhase → PubSubPhase
  | .listening => .unsubscribing .cancelled
  | .subscribing | .unsubscribing _ | .closing _ => s.handle .cancelled
  -- raised while an exception is handled, or in the last `finally` block
  | .sleeping => s.exit
  | .closingClient | .ended => .ended

/-- Only a client that is subscribed receives what comes on the channel. -/
def deliver (s : PubSub δ) (data : RedisText) : List PubSubMessage :=
  match s.phase with
  | .listening | .unsubscribing _ => s.buffer ++ [.message data]
  | _ => s.buffer

def step (loads : String → Except LoadsError δ) (s : PubSub δ) : PubSubAct → Option (PubSub δ)
  | .arrive data => some { s with arrived := s.arrived ++ [data], buffer := s.deliver data }
  | .resume =>
    match s.phase with
    | .subscribing => some { s with phase := .listening, buffer := [.subscribe 1] }
    | .listening =>
      match s.buffer with
      | [] => none
      | m :: buffer =>
        match receive loads m s.waiting with
        | (r, waiting) => some { s with
            phase := match r with | .ok _ => .listening | .error e => .unsubscribing e
            buffer, taken := s.taken ++ m.data?.toList, waiting }
    | .unsubscribing e => some { s with phase := .closing e }
    | .closing e => some { s with phase := s.handle e, buffer := [] }
    | .sleeping => some { s with phase := .subscribing }
    | .closingClient => some { s with phase := .ended }
    | .ended => none
  | .cancel => some { s with phase := s.cancelled s.phase }
  | .dispatch outcome =>
    match s.waiting with
    | [] => none
    | payload :: waiting =>
      match safeDispatch payload outcome s.handed with
      | (r, handed) => some { s with waiting, handed, results := s.results ++ [r] }

def init (closeClientOnExit : Bool) : PubSub δ := { closeClientOnExit }

/-! ### What a message comes to -/

def payload (loads : String → Except LoadsError δ) (data : RedisText) : Option δ :=
  data.decode.bind fun text => (loads text).toOption

/-- The data is a JSON text, whether or not `json.loads` can hold what it stands for. -/
def ValidJson (loads : String → Except LoadsError δ) (data : RedisText) : Prop :=
  ∃ text, data.decode = some text ∧ loads text ≠ .error .jsonDecodeError

/-- The data is a text, and `json.loads` raises nothing on it but a `JSONDecodeError`. -/
def Digestible (loads : String → Except LoadsError δ) (data : RedisText) : Prop :=
  ∃ text, data.decode = some text ∧ ∀ e, loads text = .error e → e = .jsonDecodeError

def Kept : PubSubPhase → Prop
  | .listening | .unsubscribing .cancelled | .closing .cancelled | .closingClient | .ended => True
  | _ => False

/-- Every payload has a task; the handler is called once for each, in the order in which they came, and
what it raises stays in its task. -/
structure Sound (loads : String → Except LoadsError δ) (s : PubSub δ) : Prop where
  inOrder : s.taken.filterMap (payload loads) = s.handed ++ s.waiting
  logged : ∀ r ∈ s.results, r ≠ .error .exception

structure Intact (loads : String → Except LoadsError δ) (s : PubSub δ) : Prop extends Sound loads s where
  kept : Kept s.phase
  inTurn : s.taken <+: s.arrived
  complete : s.phase = .listening → s.arrived = s.taken ++ s.buffer.filterMap PubSubMessage.data?
  valid : ∀ data ∈ s.taken, ValidJson loads data → (payload loads data).isSome

def TakesDigestible (loads : String → Except LoadsError δ) (s : PubSub δ) : PubSubAct → Prop
  | .resume => s.phase = .listening →
    ∀ data ∈ s.buffer.head?.bind PubSubMessage.data?, Digestible loads data
  | _ => True

instance (loads : String → Except LoadsError δ) : DecidablePred (Digestible loads) := fun data =>
  match hdecode : data.decode with
  | none => isFalse fun ⟨_, htext, _⟩ => nomatch hdecode.symm.trans htext
  | some text =>
    match hloads : loads text with
    | .ok _ => isTrue ⟨text, hdecode, fun _ he => nomatch hloads.symm.trans he⟩
    | .error e =>
      if h : e = .jsonDecodeError then
        isTrue ⟨text, hdecode, fun _ he => (Except.error.inj (he.symm.trans hloads)).trans h⟩
      else
        isFalse fun ⟨_, htext, hjson⟩ =>
          h (hjson e (Option.some.inj (hdecode.symm.trans htext) ▸ hloads))

instance (loads : String → Except LoadsError δ) (s : PubSub δ) :
    DecidablePred (TakesDigestible loads s)
  | .resume => inferInstanceAs (Decidable (_ → _))
  | .arrive _ | .cancel | .dispatch _ => instDecidableTrue

variable {loads : String → Except LoadsError δ} {s s' : PubSub δ} {a : PubSubAct} {data : RedisText}
  {waiting : List δ}

theorem Digestible.isSome_payload (h : Digestible loads data) (hvalid : ValidJson loads data) :
    (payload loads data).isSome := by
  obtain ⟨text, htext, hjson⟩ := hvalid
  obtain ⟨text', htext', hloads⟩ := h
  obtain rfl := Option.some.inj (htext.symm.trans htext')
  rw [payload, htext, Option.bind_some]
  cases hresult : loads text with
  | ok payload => rfl
  | error e => exact absurd (hloads e hresult ▸ hresult) hjson

theorem payload_of_not_digestible (h : ¬ Digestible loads data) : payload loads data = none := by
  cases htext : data.decode with
  | none => rw [payload, htext, Option.bind_none]
  | some text =>
    rw [payload, htext, Option.bind_some]
    cases hresult : loads text with
    | error e => rfl
    | ok payload =>
      refine absurd ⟨text, htext, fun e he => ?_⟩ h
      cases hresult.symm.trans he

theorem receive_of_digestible (h : Digestible loads data) :
    receive loads (.message data) waiting = (.ok (), waiting ++ (payload loads data).toList) := by
  obtain ⟨text, htext, hloads⟩ := h
  have hpayload : payload loads data = (loads text).toOption := by
    rw [payload, htext, Option.bind_some]
  cases hresult : loads text with
  | ok payload =>
    have hblock : dispatchData loads data waiting = (.ok (), waiting ++ [payload]) := by
      simp only [dispatchData, htext, hresult]
      rfl
    rw [hpayload, hresult]
    exact tryExcept_of_ok hblock
  | error e =>
    obtain rfl := hloads e hresult
    have hblock : dispatchData loads data waiting = (.error (.loads .jsonDecodeError), waiting) := by
      simp only [dispatchData, htext, hresult]
      rfl
    rw [hpayload, hresult, Except.toOption, Option.toList_none, List.append_nil]
    exact tryExcept_of_error hblock

theorem receive_of_not_digestible (waiting : List δ) (h : ¬ Digestible loads data) :
    ∃ e, e ≠ .cancelled ∧ receive loads (.message data) waiting = (.error e, waiting) := by
  cases htext : data.decode with
  | none =>
    have hblock : dispatchData loads data waiting = (.error .unicodeDecodeError, waiting) := by
      simp only [dispatchData, htext]
      rfl
    exact ⟨.unicodeDecodeError, nofun, tryExcept_of_error hblock⟩
  | some text =>
    obtain ⟨e, he, hother⟩ : ∃ e, loads text = .error e ∧ e ≠ .jsonDecodeError := by
      by_contra hnone
      refine h ⟨text, htext, fun e he => ?_⟩
      by_contra hother
      exact hnone ⟨e, he, hother⟩
    have hblock : dispatchData loads data waiting = (.error (.loads e), waiting) := by
      simp only [dispatchData, htext, he]
      rfl
    have hraised : ¬ ListenerError.loads e = .loads .jsonDecodeError := fun heq =>
      hother (ListenerError.loads.inj heq)
    refine ⟨.loads e, nofun, (tryExcept_of_error hblock).trans ?_⟩
    rw [if_neg hraised]
    rfl

/-! ### What a step does -/

inductive Move (loads : String → Except LoadsError δ) (s : PubSub δ) : PubSubAct → PubSub δ → Prop
  | arrive (data : RedisText) :
    Move loads s (.arrive data) { s with arrived := s.arrived ++ [data], buffer := s.deliver data }
  | confirm {count : ℕ} {buffer : List PubSubMessage} (hphase : s.phase = .listening)
    (hbuffer : s.buffer = .subscribe count :: buffer) : Move loads s .resume { s with buffer }
  | take {data : RedisText} {buffer : List PubSubMessage} (hphase : s.phase = .listening)
    (hbuffer : s.buffer = .message data :: buffer) (hdigestible : Digestible loads data) :
    Move loads s .resume { s with
      buffer, taken := s.taken ++ [data], waiting := s.waiting ++ (payload loads data).toList }
  | drop {data : RedisText} {buffer : List PubSubMessage} {e : ListenerError}
    (hphase : s.phase = .listening) (hbuffer : s.buffer = .message data :: buffer)
    (hdigestible : ¬ Digestible loads data) (he : e ≠ .cancelled) :
    Move loads s .resume { s with phase := .unsubscribing e, buffer, taken := s.taken ++ [data] }
  | goOn {phase : PubSubPhase} {buffer : List PubSubMessage} (hphase : s.phase ≠ .listening)
    (hkept : Kept phase ∧ phase ≠ .listening ↔ Kept s.phase) :
    Move loads s .resume { s with phase, buffer }
  | cancel : Move loads s .cancel { s with phase := s.cancelled s.phase }
  | dispatch {payload : δ} {waiting : List δ} (outcome : Except Interruption Unit)
    (r : Except Interruption Unit) (hwaiting : s.waiting = payload :: waiting)
    (hr : r ≠ .error .exception) :
    Move loads s (.dispatch outcome) { s with
      waiting, handed := s.handed ++ [payload], results := s.results ++ [r] }

theorem safeDispatch_cases (payload : δ) (outcome : Except Interruption Unit) (handed : List δ) :
    ∃ r, r ≠ .error .exception ∧ safeDispatch payload outcome handed = (r, handed ++ [payload]) := by
  cases outcome with
  | ok _ => exact ⟨.ok (), nofun, rfl⟩
  | error e =>
    cases e with
    | exception => exact ⟨.ok (), nofun, rfl⟩
    | cancelled => exact ⟨.error .cancelled, nofun, rfl⟩

theorem kept_exit (s : PubSub δ) : Kept s.exit ∧ s.exit ≠ .listening := by
  unfold exit
  split
  · exact ⟨trivial, nofun⟩
  · exact ⟨trivial, nofun⟩

section Listening

variable {buffer : List PubSubMessage}

theorem step_confirm {count : ℕ} (hphase : s.phase = .listening)
    (hbuffer : s.buffer = .subscribe count :: buffer) :
    step loads s .resume = some { s with buffer } := by
  have hstep : step loads s .resume = some { s with
      phase := .listening, buffer, taken := s.taken ++ [], waiting := s.waiting } := by
    simp only [step, hphase, hbuffer]
    rfl
  rw [hstep, List.append_nil, ← hphase]

theorem step_take (hphase : s.phase = .listening) (hbuffer : s.buffer = .message data :: buffer)
    (h : Digestible loads data) :
    step loads s .resume = some { s with
      buffer, taken := s.taken ++ [data], waiting := s.waiting ++ (payload loads data).toList } := by
  have hstep : step loads s .resume = some { s with
      phase := .listening
      buffer
      taken := s.taken ++ [data]
      waiting := s.waiting ++ (payload loads data).toList } := by
    simp only [step, hphase, hbuffer, receive_of_digestible h]
    rfl
  rw [hstep, ← hphase]

theorem step_drop (hphase : s.phase = .listening) (hbuffer : s.buffer = .message data :: buffer)
    (h : ¬ Digestible loads data) :
    ∃ e, e ≠ .cancelled ∧ step loads s .resume = some { s with
      phase := .unsubscribing e, buffer, taken := s.taken ++ [data] } := by
  obtain ⟨e, he, hreceive⟩ := receive_of_not_digestible s.waiting h
  refine ⟨e, he, ?_⟩
  simp only [step, hphase, hbuffer, hreceive]
  rfl

theorem step_dispatch (loads : String → Except LoadsError δ) {payload : δ}
    (hwaiting : s.waiting = payload :: waiting) (outcome : Except Interruption Unit) :
    ∃ r, r ≠ .error .exception ∧ step loads s (.dispatch outcome) = some { s with
      waiting, handed := s.handed ++ [payload], results := s.results ++ [r] } := by
  obtain ⟨r, hr, hdispatch⟩ := safeDispatch_cases payload outcome s.handed
  refine ⟨r, hr, ?_⟩
  simp only [step, hwaiting, hdispatch]

end Listening

theorem move_of_step (h : step loads s a = some s') : Move loads s a s' := by
  cases a with
  | arrive data =>
    obtain rfl := Option.some.inj h
    exact .arrive data
  | cancel =>
    obtain rfl := Option.some.inj h
    exact .cancel
  | dispatch outcome =>
    cases hwaiting : s.waiting with
    | nil =>
      simp only [step, hwaiting] at h
      cases h
    | cons payload waiting =>
      obtain ⟨r, hr, hstep⟩ := step_dispatch loads hwaiting outcome
      obtain rfl := Option.some.inj (hstep.symm.trans h)
      exact .dispatch outcome r hwaiting hr
  | resume =>
    cases hphase : s.phase with
    | listening =>
      cases hbuffer : s.buffer with
      | nil =>
        simp only [step, hphase, hbuffer] at h
        cases h
      | cons m buffer =>
        cases m with
        | subscribe count =>
          obtain rfl := Option.some.inj ((step_confirm hphase hbuffer).symm.trans h)
          exact .confirm hphase hbuffer
        | message data =>
          by_cases hdigestible : Digestible loads data
          · obtain rfl := Option.some.inj ((step_take hphase hbuffer hdigestible).symm.trans h)
            exact .take hphase hbuffer hdigestible
          · obtain ⟨e, he, hstep⟩ := step_drop hphase hbuffer hdigestible
            obtain rfl := Option.some.inj (hstep.symm.trans h)
            exact .drop hphase hbuffer hdigestible he
    | closing e =>
      simp only [step, hphase] at h
      obtain rfl := Option.some.inj h
      refine .goOn (by simp [hphase]) ?_
      rw [hphase]
      cases e with
      | cancelled => exact iff_of_true (kept_exit s) trivial
      | unicodeDecodeError | loads => exact iff_of_false (fun hkept => hkept.1.elim) id
    | ended =>
      simp only [step, hphase] at h
      cases h
    | unsubscribing e =>
      simp only [step, hphase] at h
      obtain rfl := Option.some.inj h
      refine .goOn (by simp [hphase]) ?_
      rw [hphase]
      cases e <;> simp [Kept]
    | subscribing | sleeping | closingClient =>
      simp only [step, hphase] at h
      obtain rfl := Option.some.inj h
      refine .goOn (by simp [hphase]) ?_
      simp [hphase, Kept]

theorem kept_cancelled (s : PubSub δ) :
    Kept (s.cancelled s.phase) ∧ s.cancelled s.phase ≠ .listening := by
  cases hphase : s.phase with
  | listening => exact ⟨trivial, nofun⟩
  | subscribing | unsubscribing e | closing e => exact kept_exit s
  | sleeping => exact kept_exit s
  | closingClient | ended => exact ⟨trivial, nofun⟩

/-! ### Runs -/

theorem Sound.move (h : Sound loads s) (hm : Move loads s a s') : Sound loads s' := by
  cases hm with
  | arrive | confirm | goOn | cancel => exact ⟨h.inOrder, h.logged⟩
  | @take data buffer hphase hbuffer hdigestible =>
    refine ⟨?_, h.logged⟩
    show (s.taken ++ [data]).filterMap (payload loads) = _
    rw [List.filterMap_append, h.inOrder, List.append_assoc]
    cases hpayload : payload loads data <;> simp [hpayload]
  | @drop data buffer e hphase hbuffer hdigestible he =>
    refine ⟨?_, h.logged⟩
    show (s.taken ++ [data]).filterMap (payload loads) = _
    rw [List.filterMap_append, h.inOrder]
    simp [payload_of_not_digestible hdigestible]
  | dispatch outcome r hwaiting hr =>
    refine ⟨?_, fun r' hr' => ?_⟩
    · show s.taken.filterMap (payload loads) = _
      rw [h.inOrder, hwaiting, List.append_assoc]
      rfl
    · rcases List.mem_append.mp hr' with hold | hnew
      · exact h.logged r' hold
      · exact List.mem_singleton.mp hnew ▸ hr

theorem intact_iff (h : Intact loads s) (hm : Move loads s a s') :
    Intact loads s' ↔ TakesDigestible loads s a := by
  have hsound : Sound loads s' := h.toSound.move hm
  cases hm with
  | arrive data =>
    refine iff_of_true ⟨hsound, h.kept, h.inTurn.trans (List.prefix_append ..), fun hphase => ?_,
      h.valid⟩ trivial
    have hphase : s.phase = .listening := hphase
    show s.arrived ++ [data] = s.taken ++ (s.deliver data).filterMap PubSubMessage.data?
    rw [h.complete hphase, deliver, hphase, List.filterMap_append, List.append_assoc]
    rfl
  | confirm hphase hbuffer =>
    refine iff_of_true ⟨hsound, h.kept, h.inTurn, fun _ => ?_, h.valid⟩ fun _ data hdata => ?_
    · have hcomplete := h.complete hphase
      rw [hbuffer] at hcomplete
      exact hcomplete
    · rw [hbuffer] at hdata
      cases hdata
  | @take data buffer hphase hbuffer hdigestible =>
    have hcomplete : s.arrived = s.taken ++ [data] ++ buffer.filterMap PubSubMessage.data? := by
      rw [h.complete hphase, hbuffer, List.append_assoc]
      rfl
    refine iff_of_true ⟨hsound, h.kept, ⟨_, hcomplete.symm⟩, fun _ => hcomplete, ?_⟩ ?_
    · intro data' hdata' hvalid
      rcases List.mem_append.mp hdata' with hold | hnew
      · exact h.valid data' hold hvalid
      · obtain rfl := List.mem_singleton.mp hnew
        exact hdigestible.isSome_payload hvalid
    · intro _ data' hdata'
      rw [hbuffer] at hdata'
      exact Option.some.inj hdata' ▸ hdigestible
  | @drop data buffer e hphase hbuffer hdigestible he =>
    have htaken : data ∈ s.buffer.head?.bind PubSubMessage.data? := by
      rw [hbuffer]
      rfl
    refine iff_of_false (fun hintact => ?_) fun htakes => hdigestible (htakes hphase data htaken)
    -- the subscription is given up, and not because of a cancellation
    have hkept : Kept (.unsubscribing e) := hintact.kept
    cases e with
    | cancelled => exact he rfl
    | unicodeDecodeError | loads => exact hkept.elim
  | goOn hphase hkept =>
    have hnext := hkept.mpr h.kept
    exact iff_of_true ⟨hsound, hnext.1, h.inTurn, fun hlistening => absurd hlistening hnext.2, h.valid⟩
      fun hlistening => absurd hlistening hphase
  | cancel =>
    have hnext := kept_cancelled s
    exact iff_of_true ⟨hsound, hnext.1, h.inTurn, fun hlistening => absurd hlistening hnext.2, h.valid⟩
      trivial
  | dispatch => exact iff_of_true ⟨hsound, h.kept, h.inTurn, h.complete, h.valid⟩ trivial

theorem intact_init (closeClientOnExit : Bool) : Intact loads (init closeClientOnExit) where
  inOrder := rfl
  logged _ hr := by cases hr
  kept := trivial
  inTurn := List.nil_prefix
  complete _ := rfl
  valid _ hdata := by cases hdata

/-! ### What is left to do -/

def Own : PubSubAct → Prop
  | .resume | .dispatch (.ok _) => True
  | _ => False

def left (s : PubSub δ) : ℕ := 2 * s.buffer.length + s.waiting.length

theorem exists_own (hphase : s.phase = .listening) (hleft : s.left ≠ 0)
    (hdigestible : ∀ data, .message data ∈ s.buffer → Digestible loads data) :
    ∃ a s', Own a ∧ step loads s a = some s' ∧ s'.phase = .listening ∧ s'.arrived = s.arrived ∧
      s'.left < s.left ∧ s'.buffer ⊆ s.buffer := by
  cases hwaiting : s.waiting with
  | cons payload waiting =>
    obtain ⟨r, -, hstep⟩ := step_dispatch loads hwaiting (.ok ())
    refine ⟨.dispatch (.ok ()), _, trivial, hstep, hphase, rfl, ?_, List.Subset.refl _⟩
    simp [left, hwaiting]
  | nil =>
    cases hbuffer : s.buffer with
    | nil => exact absurd (by simp [left, hwaiting, hbuffer]) hleft
    | cons m buffer =>
      cases m with
      | subscribe count =>
        refine ⟨.resume, _, trivial, step_confirm hphase hbuffer, hphase, rfl, ?_,
          List.subset_cons_self ..⟩
        simp [left, hwaiting, hbuffer]
      | message data =>
        have hdata : Digestible loads data := hdigestible data (hbuffer ▸ List.mem_cons_self ..)
        refine ⟨.resume, _, trivial, step_take hphase hbuffer hdata, hphase, rfl, ?_,
          List.subset_cons_self ..⟩
        have hone : (payload loads data).toList.length ≤ 1 := Option.length_toList_le
        simp only [left, hwaiting, hbuffer, List.nil_append, List.length_cons, List.length_nil]
        omega

theorem exists_handed (h : Intact loads s) (hphase : s.phase = .listening)
    (hdigestible : ∀ data, .message data ∈ s.buffer → Digestible loads data) :
    ∃ as s', run (step loads) s as = some s' ∧ (∀ a ∈ as, Own a) ∧ s'.arrived = s.arrived ∧
      s'.handed = s.arrived.filterMap (payload loads) := by
  induction hn : s.left using Nat.strong_induction_on generalizing s with
  | h n ih =>
    by_cases hleft : s.left = 0
    · obtain ⟨hbuffer, hwaiting⟩ : s.buffer = [] ∧ s.waiting = [] := by
        simpa [left] using hleft
      refine ⟨[], s, rfl, nofun, rfl, ?_⟩
      rw [h.complete hphase, hbuffer, List.filterMap_nil, List.append_nil, h.inOrder, hwaiting,
        List.append_nil]
    · obtain ⟨a, s₁, ha, hs, hphase₁, harrived, hless, hbuffer⟩ := exists_own hphase hleft hdigestible
      have htakes : TakesDigestible loads s a := by
        cases a with
        | resume =>
          intro _ data hdata
          obtain ⟨m, hm, hmessage⟩ := Option.bind_eq_some_iff.mp hdata
          obtain rfl : m = .message data := by
            cases m with
            | subscribe count => cases hmessage
            | message data' => rw [Option.some.inj hmessage]
          exact hdigestible data (List.mem_of_mem_head? hm)
        | arrive | cancel | dispatch => trivial
      have hintact : Intact loads s₁ := (intact_iff h (move_of_step hs)).mpr htakes
      obtain ⟨as, s', hrun, hown, hsame, hhanded⟩ := ih s₁.left (hn ▸ hless) hintact hphase₁
        (fun data hdata => hdigestible data (hbuffer hdata)) rfl
      refine ⟨a :: as, s', run_cons_eq_some.mpr ⟨s₁, hs, hrun⟩, ?_, hsame.trans harrived,
        harrived ▸ hhanded⟩
      exact List.forall_mem_cons.mpr ⟨ha, hown⟩

/-- In every run on a connection that stays up, no message costs another one if and only if the loop takes
none but texts on which `json.loads` raises at most a `JSONDecodeError`. -/
theorem good_messages_handed_iff (loads : String → Except LoadsError δ) (closeClientOnExit : Bool)
    (acts : List PubSubAct) (s : PubSub δ)
    (hrun : run (step loads) (init closeClientOnExit) acts = some s) :
    (Guarded (step loads) (TakesDigestible loads) (init closeClientOnExit) acts ↔
      ∀ pre, pre <+: acts → ∀ m, run (step loads) (init closeClientOnExit) pre = some m →
        m.Intact loads) ∧
    (s.Intact loads → s.phase = .listening →
      (∀ data, .message data ∈ s.buffer → Digestible loads data) →
      ∃ as s', run (step loads) s as = some s' ∧ (∀ a ∈ as, Own a) ∧ s'.arrived = s.arrived ∧
        s'.handed = s.arrived.filterMap (payload loads)) := by
  refine ⟨?_, exists_handed⟩
  exact guarded_iff_along_prefixes (J := fun _ => True) (fun _ _ _ _ _ => trivial)
    (fun _ _ _ _ h hs => intact_iff h (move_of_step hs)) trivial (intact_init closeClientOnExit) hrun

end PubSub

namespace Sample

def loads (text : String) : Except LoadsError Json := (Json.loads text).elim (.error .jsonDecodeError) .ok

def malformedFirst : List PubSubAct :=
  [.arrive (.str "[]"), .resume, .resume, .arrive (.bytes "\x7boops".toUTF8),
    .arrive (.bytes "\x7b\"user_id\": \"5\"\x7d".toUTF8), .dispatch (.error .exception), .resume, .resume,
    .dispatch (.ok ())]

/-- What comes while the listener sleeps after a message that is no UTF-8 is lost. -/
def undecodableFirst : List PubSubAct :=
  [.resume, .arrive (.bytes ⟨#[0xff]⟩), .resume, .resume, .resume, .arrive (.str "\x7b\x7d"), .resume,
    .resume, .resume]

end Sample

theorem good_messages_handed_malformed :
    ∃ s : PubSub Json, run (PubSub.step Sample.loads) (.init true) Sample.malformedFirst = some s ∧
      s.Intact Sample.loads ∧ s.handed.length = 2 := by
  obtain ⟨s, hs, hhanded⟩ :
      ∃ s ∈ run (PubSub.step Sample.loads) (.init true) Sample.malformedFirst, s.handed.length = 2 := by
    decide +kernel
  have hdigestible : Guarded (PubSub.step Sample.loads) (PubSub.TakesDigestible Sample.loads)
      (.init true) Sample.malformedFirst := by decide +kernel
  have hintact := (PubSub.good_messages_handed_iff Sample.loads true Sample.malformedFirst s hs).1.mp
  exact ⟨s, hs, hintact hdigestible _ List.prefix_rfl s hs, hhanded⟩

/-- The second message is good, and the listener is listening again, with nothing left to do. -/
theorem not_good_messages_handed_undecodable :
    ∃ s : PubSub Json, run (PubSub.step Sample.loads) (.init true) Sample.undecodableFirst = some s ∧
      s.phase = .listening ∧ s.left = 0 ∧ s.handed.length = 0 ∧
      (∃ data ∈ s.arrived, (PubSub.payload Sample.loads data).isSome) ∧ ¬ s.Intact Sample.loads := by
  obtain ⟨s, hs, hphase, hleft, hhanded, data, hdata, hgood⟩ :
      ∃ s ∈ run (PubSub.step Sample.loads) (.init true) Sample.undecodableFirst,
        s.phase = .listening ∧ s.left = 0 ∧ s.handed.length = 0 ∧
        ∃ data ∈ s.arrived, (PubSub.payload Sample.loads data).isSome := by decide +kernel
  refine ⟨s, hs, hphase, hleft, hhanded, ⟨data, hdata, hgood⟩, fun hintact => ?_⟩
  obtain ⟨hbuffer, hwaiting⟩ : s.buffer = [] ∧ s.waiting = [] := by simpa [PubSub.left] using hleft
  have hall : s.arrived.filterMap (PubSub.payload Sample.loads) = [] := by
    rw [hintact.complete hphase, hbuffer, List.filterMap_nil, List.append_nil, hintact.inOrder, hwaiting,
      List.append_nil, List.eq_nil_of_length_eq_zero hhanded]
  have hnone := List.filterMap_eq_nil_iff.mp hall data hdata
  rw [hnone] at hgood
  cases hgood

end Messenger
