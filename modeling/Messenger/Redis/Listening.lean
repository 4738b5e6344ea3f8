import Mathlib
import Messenger.Lib.Coroutine

/-! `listen_to_stream` with what may happen at each of its awaits: the server returns entries in batches
of any size, calls and handlers raise, and the task is cancelled. -/

namespace Messenger
open Coroutine

/-- A text that the client has decoded, or has left as bytes. -/
inductive RedisText where
  | str (s : String)
  | bytes (b : ByteArray)
  deriving DecidableEq

namespace RedisText

/-- `bool(raw)`. -/
def Truthy : RedisText → Prop
  | str s => s ≠ ""
  | bytes b => b ≠ .empty

instance : DecidablePred Truthy
  | str s => inferInstanceAs (Decidable (s ≠ ""))
  | bytes b => inferInstanceAs (Decidable (b ≠ .empty))

/-- `raw.decode() if isinstance(raw, bytes) else raw`. -/
def decode : RedisText → Option String
  | str s => some s
  | bytes b => String.fromUTF8? b

end RedisText

structure StreamMessage (ι : Type) where
  id : ι
  data : List (RedisText × RedisText)
  deriving DecidableEq

/-- `message_data.get("payload") or message_data.get(b"payload")`, if it is not empty. -/
def StreamMessage.rawPayload {ι : Type} (m : StreamMessage ι) : Option RedisText :=
  ((m.data.lookup (.str "payload")).filter (·.Truthy)).or
    ((m.data.lookup (.bytes "payload".toUTF8)).filter (·.Truthy))

/-- What is read from the payload: nothing where it is missing, malformed or no JSON. -/
def StreamMessage.event {ι δ : Type} (loads : String → Option δ) (m : StreamMessage ι) : Option δ :=
  m.rawPayload.bind fun raw => raw.decode.bind loads

structure EntryStream (ι : Type) [LinearOrder ι] where
  entries : List (StreamMessage ι)
  increasing : entries.Pairwise fun m m' => m.id < m'.id

theorem EntryStream.nodup {ι : Type} [LinearOrder ι] (stream : EntryStream ι) : stream.entries.Nodup :=
  stream.increasing.imp fun hlt heq => (heq ▸ hlt).ne rfl

/-- What an await of the listener raises, as far as its handlers tell it apart. -/
inductive Interruption where
  | exception
  /-- `CancelledError`, which is no `Exception`. -/
  | cancelled
  deriving DecidableEq

/-- How a call of `XREAD` ends. For a reply: how many entries the stream has when the server gets the
call, which is what `$` stands for, and how many entries are returned. -/
inductive XreadOutcome where
  | reply (start count : ℕ)
  | raises (e : Interruption)

structure ListenerTurn (ι : Type) where
  xread : XreadOutcome
  handler : ι → Except Interruption Unit
  sleep : Except Interruption Unit

/-- No await of the turn is cancelled; whatever else it raises may happen. -/
structure ListenerTurn.Uncancelled {ι : Type} (t : ListenerTurn ι) : Prop where
  xread : t.xread ≠ .raises .cancelled
  handler : ∀ id, t.handler id ≠ .error .cancelled
  sleep : t.sleep = .ok ()

/-- `processed` holds the entries that the body of the inner loop has been run on. -/
structure Listening (ι δ : Type) where
  lastId : Option ι := none
  processed : List (StreamMessage ι) := []
  handled : List δ := []

namespace Listening

variable {ι δ α : Type} [LinearOrder ι]

def after (stream : EntryStream ι) (start : ℕ) : Option ι → List (StreamMessage ι)
  | none => stream.entries.drop start
  | some id => stream.entries.filter (id < ·.id)

/-- A reply without entries is no list. -/
def xread (stream : EntryStream ι) (cursor : Option ι) :
    XreadOutcome → Except Interruption (Option (List (String × List (StreamMessage ι))))
  | .reply start count =>
    match (after stream start cursor).take count with
    | [] => .ok none
    | messages => .ok (some [("system_events_stream", messages)])
  | .raises e => .error e

def received (stream : EntryStream ι) (cursor : Option ι) : XreadOutcome → List (StreamMessage ι)
  | .reply start count => (after stream start cursor).take count
  | .raises _ => []

def await (outcome : Except Interruption α) : Coroutine Interruption (Listening ι δ) α :=
  match outcome with
  | .ok a => return a
  | .error e => raise e

/-- The `try` block around one entry. -/
def handlePayload (loads : String → Option δ) (handler : ι → Except Interruption Unit)
    (m : StreamMessage ι) : Coroutine Interruption (Listening ι δ) Unit :=
  match m.rawPayload with
  | none => return
  | some raw =>
    match raw.decode with
    | none => raise .exception
    | some text =>
      match loads text with
      | none => raise .exception
      | some event => do
        update fun s => { s with handled := s.handled ++ [event] }
        await (handler m.id)

/-- The body of the inner loop: an `Exception` is logged, and the cursor moves on in any case. -/
def processMessage (loads : String → Option δ) (handler : ι → Except Interruption Unit)
    (m : StreamMessage ι) : Coroutine Interruption (Listening ι δ) Unit := do
  update fun s => { s with processed := s.processed ++ [m] }
  tryExcept (handlePayload loads handler m) fun e => if e = .cancelled then raise e else return
  update fun s => { s with lastId := some m.id }

def turn (loads : String → Option δ) (stream : EntryStream ι) (t : ListenerTurn ι) :
    Coroutine Interruption (Listening ι δ) Bool :=
  tryExcept
    (do
      let cursor ← read (·.lastId)
      match ← await (xread stream cursor t.xread) with
      | none => return true
      | some streams =>
        streams.forM fun stream => stream.2.forM (processMessage loads t.handler)
        return true)
    fun
      | .cancelled => return false
      | .exception => do
        await t.sleep
        return true

def listenToStream (loads : String → Option δ) (stream : EntryStream ι) :
    List (ListenerTurn ι) → Coroutine Interruption (Listening ι δ) Unit
  | [] => return
  | t :: ts => do
    if ← turn loads stream t then listenToStream loads stream ts

/-! ### Where the cursor is -/

/-- What has been processed is a piece of the stream, and every event in it has been handled. -/
structure Segment (loads : String → Option δ) (stream : EntryStream ι) (s : Listening ι δ) : Prop where
  processed : s.processed <:+: stream.entries
  handled : s.handled = s.processed.filterMap (·.event loads)

/-- Between two entries: these, the next ones of the stream, are still to be processed in this turn. -/
structure Before (loads : String → Option δ) (stream : EntryStream ι)
    (messages : List (StreamMessage ι)) (s : Listening ι δ) : Prop where
  processed : s.processed ++ messages <:+: stream.entries
  handled : s.handled = s.processed.filterMap (·.event loads)
  cursor : s.lastId = s.processed.getLast?.map (·.id)

variable {loads : String → Option δ} {stream : EntryStream ι} {s : Listening ι δ}
  {messages : List (StreamMessage ι)} {m : StreamMessage ι} {t : ListenerTurn ι}

theorem Before.segment (h : Before loads stream messages s) : Segment loads stream s where
  processed := (List.prefix_append _ _).isInfix.trans h.processed
  handled := h.handled

theorem filter_entries {before rest : List (StreamMessage ι)} {last : StreamMessage ι}
    (h : before ++ last :: rest = stream.entries) :
    stream.entries.filter (last.id < ·.id) = rest := by
  have hsorted := stream.increasing
  rw [← h, List.pairwise_append, List.pairwise_cons] at hsorted
  obtain ⟨-, ⟨hrest, -⟩, hbefore⟩ := hsorted
  have hfirst : before.filter (last.id < ·.id) = [] := by
    refine List.filter_eq_nil_iff.mpr fun m hm => ?_
    have hlt : m.id < last.id := hbefore m hm last (List.mem_cons_self ..)
    simpa using hlt.le
  have hlater : rest.filter (last.id < ·.id) = rest :=
    List.filter_eq_self.mpr fun m hm => decide_eq_true (hrest m hm)
  rw [← h, List.filter_append, hfirst, List.nil_append, List.filter_cons_of_neg (by simp), hlater]

theorem Before.reply (h : Before loads stream [] s) (start count : ℕ) :
    Before loads stream ((after stream start s.lastId).take count) s := by
  refine ⟨?_, h.handled, h.cursor⟩
  have hpiece := h.processed
  rw [List.append_nil] at hpiece
  rcases List.eq_nil_or_concat' s.processed with hnone | ⟨init, last, hlast⟩
  · have hcursor : s.lastId = none := by
      rw [h.cursor, hnone]
      rfl
    rw [hcursor, hnone, List.nil_append]
    exact (List.take_prefix _ _).isInfix.trans (List.drop_suffix _ _).isInfix
  · have hcursor : s.lastId = some last.id := by
      rw [h.cursor, hlast, List.getLast?_concat]
      rfl
    rw [hlast] at hpiece
    obtain ⟨before, rest, hsplit⟩ := hpiece
    have hwhole : (before ++ init) ++ last :: rest = stream.entries := by
      simpa only [List.append_assoc, List.cons_append, List.nil_append] using hsplit
    have hafter : after stream start s.lastId = rest := by
      rw [hcursor]
      exact filter_entries hwhole
    refine ⟨before, rest.drop count, ?_⟩
    rw [hafter, hlast, ← hsplit]
    simp only [List.append_assoc, List.take_append_drop]

/-! ### The loop -/

omit [LinearOrder ι] in
/-- Whatever the entry holds, its event has been handled when the `try` block ends, in either way. -/
theorem handlePayload_snd (handler : ι → Except Interruption Unit) (m : StreamMessage ι)
    (s : Listening ι δ) :
    (handlePayload loads handler m s).2 = { s with handled := s.handled ++ (m.event loads).toList } := by
  have hnothing : s = { s with handled := s.handled ++ [] } := by rw [List.append_nil]
  unfold handlePayload StreamMessage.event
  cases m.rawPayload with
  | none => exact hnothing
  | some raw =>
    simp only [Option.bind_some]
    cases raw.decode with
    | none => exact hnothing
    | some text =>
      simp only [Option.bind_some]
      cases loads text with
      | none => exact hnothing
      | some event =>
        show (await (handler m.id) _).2 = _
        cases handler m.id with
        | ok _ => rfl
        | error e => rfl

omit [LinearOrder ι] in
theorem handler_of_cancelled {handler : ι → Except Interruption Unit}
    (h : (handlePayload loads handler m s).1 = .error .cancelled) : handler m.id = .error .cancelled := by
  unfold handlePayload at h
  cases hraw : m.rawPayload with
  | none =>
    rw [hraw] at h
    cases h
  | some raw =>
    cases htext : raw.decode with
    | none =>
      simp only [hraw, htext] at h
      cases h
    | some text =>
      cases hevent : loads text with
      | none =>
        simp only [hraw, htext, hevent] at h
        cases h
      | some event =>
        simp only [hraw, htext, hevent] at h
        change (await (handler m.id) _).1 = _ at h
        cases hm : handler m.id with
        | ok _ =>
          rw [hm] at h
          cases h
        | error e =>
          rw [hm] at h
          exact congrArg Except.error (Except.error.inj h)

variable (loads) in
omit [LinearOrder ι] in
theorem processMessage_cases (handler : ι → Except Interruption Unit) (m : StreamMessage ι)
    (s : Listening ι δ) :
    processMessage loads handler m s =
        (.ok (), ⟨some m.id, s.processed ++ [m], s.handled ++ (m.event loads).toList⟩) ∨
      handler m.id = .error .cancelled ∧ processMessage loads handler m s =
        (.error .cancelled, ⟨s.lastId, s.processed ++ [m], s.handled ++ (m.event loads).toList⟩) := by
  have hafter : (handlePayload loads handler m { s with processed := s.processed ++ [m] }).2 = _ :=
    handlePayload_snd handler m _
  obtain ⟨r, s', hpayload⟩ : ∃ r s', handlePayload loads handler m
      { s with processed := s.processed ++ [m] } = (r, s') := ⟨_, _, rfl⟩
  rw [hpayload] at hafter
  obtain rfl : s' = _ := hafter
  cases r with
  | ok _ =>
    refine .inl ?_
    have htry := tryExcept_of_ok (h := fun e => if e = .cancelled then raise e else return) hpayload
    exact bind_of_ok htry
  | error e =>
    cases e with
    | exception =>
      refine .inl ?_
      have htry := tryExcept_of_error (h := fun e => if e = .cancelled then raise e else return) hpayload
      exact bind_of_ok htry
    | cancelled =>
      refine .inr ⟨handler_of_cancelled (congrArg Prod.fst hpayload), ?_⟩
      have htry := tryExcept_of_error (h := fun e => if e = .cancelled then raise e else return) hpayload
      have hraised := bind_of_error (k := fun _ : Unit =>
        (update fun s => { s with lastId := some m.id } : Coroutine Interruption (Listening ι δ) Unit)) htry
      exact hraised

theorem spec_processMessage (handler : ι → Except Interruption Unit) (m : StreamMessage ι)
    (messages : List (StreamMessage ι)) :
    Spec (Before loads stream (m :: messages)) (processMessage loads handler m)
      (fun _ => Before loads stream messages)
      (fun e s => e = .cancelled ∧ Segment loads stream s) := by
  intro s hs
  have hsplit : s.processed ++ m :: messages = s.processed ++ [m] ++ messages := by
    rw [List.append_assoc]
    rfl
  have hpiece : s.processed ++ [m] ++ messages <:+: stream.entries := hsplit ▸ hs.processed
  have hhandled : s.handled ++ (m.event loads).toList =
      (s.processed ++ [m]).filterMap (·.event loads) := by
    rw [List.filterMap_append, ← hs.handled]
    cases hevent : m.event loads <;> simp [hevent]
  rcases processMessage_cases loads handler m s with h | ⟨-, h⟩
  · rw [h]
    refine ⟨hpiece, hhandled, ?_⟩
    show some m.id = _
    rw [List.getLast?_concat, Option.map_some]
  · rw [h]
    exact ⟨rfl, (List.prefix_append _ _).isInfix.trans hpiece, hhandled⟩

omit [LinearOrder ι] in
theorem spec_await {P : Listening ι δ → Prop} (outcome : Except Interruption α) :
    Spec P (await outcome) (fun a s => outcome = .ok a ∧ P s) (fun e s => outcome = .error e ∧ P s) := by
  intro s hs
  cases outcome with
  | ok a => exact ⟨rfl, hs⟩
  | error e => exact ⟨rfl, hs⟩

theorem xread_eq_some {cursor : Option ι} {outcome : XreadOutcome}
    {streams : List (String × List (StreamMessage ι))}
    (h : xread stream cursor outcome = .ok (some streams)) :
    ∃ start count, streams = [("system_events_stream", (after stream start cursor).take count)] := by
  cases outcome with
  | raises e => cases h
  | reply start count =>
    simp only [xread] at h
    split at h
    · cases h
    · next hmessages =>
      cases h
      exact ⟨start, count, rfl⟩

theorem spec_reply (handler : ι → Except Interruption Unit) {cursor : Option ι} {outcome : XreadOutcome}
    {streams : List (String × List (StreamMessage ι))}
    (h : xread stream cursor outcome = .ok (some streams)) :
    Spec (fun s => cursor = s.lastId ∧ Before loads stream [] s)
      (streams.forM fun stream => stream.2.forM (processMessage loads handler))
      (fun _ => Before loads stream [])
      (fun e s => e = .cancelled ∧ Segment loads stream s) := by
  obtain ⟨start, count, rfl⟩ := xread_eq_some h
  have hmessages (messages : List (StreamMessage ι)) := spec_forM_left
    (I := fun messages => Before loads stream messages) (spec_processMessage handler) messages
  rintro s ⟨rfl, hs⟩
  exact spec_bind (hmessages _) (fun _ => spec_pure (Q := fun _ => Before loads stream [])) s
    (hs.reply start count)

theorem spec_turn (t : ListenerTurn ι) :
    Spec (Before loads stream []) (turn loads stream t)
      (fun (again : Bool) s => if again then Before loads stream [] s else Segment loads stream s)
      (fun _ => Segment loads stream) := by
  refine spec_tryExcept
    (X := fun e s => Segment loads stream s ∧ (e ≠ .cancelled → Before loads stream [] s)) ?_ fun e => ?_
  · refine spec_bind (R := fun cursor s => cursor = s.lastId ∧ Before loads stream [] s)
      (fun s hs => ⟨rfl, hs⟩) fun cursor => ?_
    refine spec_bind (R := fun reply s => xread stream cursor t.xread = .ok reply ∧
      cursor = s.lastId ∧ Before loads stream [] s) ?_ fun reply => ?_
    · refine (spec_await (xread stream cursor t.xread)).mono (fun _ h => h) (fun _ _ h => h) ?_
      rintro e s ⟨-, -, hs⟩
      exact ⟨hs.segment, fun _ => hs⟩
    · rintro s ⟨hreply, hs⟩
      cases reply with
      | none => exact hs.2
      | some streams =>
        have hloops : Spec (fun s => cursor = s.lastId ∧ Before loads stream [] s)
            (streams.forM fun stream => stream.2.forM (processMessage loads t.handler))
            (fun _ => Before loads stream [])
            fun e s => Segment loads stream s ∧ (e ≠ .cancelled → Before loads stream [] s) :=
          (spec_reply t.handler hreply).mono (fun _ h => h) (fun _ _ h => h)
            fun e s h => ⟨h.2, fun hne => absurd h.1 hne⟩
        refine spec_bind (R := fun _ => Before loads stream []) hloops (fun _ s hs => ?_) s hs
        exact hs
  · cases e with
    | cancelled => exact fun s hs => hs.1
    | exception =>
      refine spec_bind (R := fun _ => Before loads stream []) ?_ fun _ s hs => hs
      have hsleep := spec_await (P := Before loads stream []) t.sleep
      exact hsleep.mono (fun s hs => hs.2 nofun) (fun _ _ h => h.2) fun _ _ h => h.2.segment

theorem spec_listenToStream (turns : List (ListenerTurn ι)) :
    Spec (Before loads stream []) (listenToStream loads stream turns)
      (fun _ => Segment loads stream) (fun _ => Segment loads stream) := by
  induction turns with
  | nil => exact fun s hs => hs.segment
  | cons t turns ih =>
    refine spec_bind (spec_turn t) fun again => ?_
    cases again with
    | true => exact ih
    | false => exact fun s hs => hs

/-! ### What a turn gets done -/

variable (loads) in
omit [LinearOrder ι] in
/-- The whole of a reply is processed, bad entries and all, unless the task is cancelled. -/
theorem forM_processMessage {handler : ι → Except Interruption Unit}
    (hhandler : ∀ id, handler id ≠ .error .cancelled) (messages : List (StreamMessage ι))
    (s : Listening ι δ) :
    ∃ s', messages.forM (processMessage loads handler) s = (.ok (), s') ∧
      s'.processed = s.processed ++ messages := by
  induction messages generalizing s with
  | nil => exact ⟨s, rfl, (List.append_nil _).symm⟩
  | cons m messages ih =>
    rcases processMessage_cases loads handler m s with hm | ⟨hcancelled, -⟩
    · obtain ⟨s', hrest, hprocessed⟩ :=
        ih ⟨some m.id, s.processed ++ [m], s.handled ++ (m.event loads).toList⟩
      refine ⟨s', ?_, ?_⟩
      · rw [forM_cons_of_ok hm, hrest]
      · rw [hprocessed, List.append_assoc]
        rfl
    · exact absurd hcancelled (hhandler m.id)

variable (loads stream) in
theorem turn_of_uncancelled (ht : t.Uncancelled) (s : Listening ι δ) :
    ∃ s', turn loads stream t s = (.ok true, s') ∧
      s'.processed = s.processed ++ received stream s.lastId t.xread := by
  cases hxread : t.xread with
  | reply start count =>
    have hreceived : received stream s.lastId (.reply start count) =
        (after stream start s.lastId).take count := rfl
    cases hmessages : (after stream start s.lastId).take count with
    | nil =>
      have hreply : xread stream s.lastId t.xread = .ok none := by
        rw [hxread]
        simp only [xread, hmessages]
      refine ⟨s, tryExcept_of_ok ?_, by rw [hreceived, hmessages, List.append_nil]⟩
      rw [read_bind, hreply]
      rfl
    | cons m messages =>
      have hreply : xread stream s.lastId t.xread =
          .ok (some [("system_events_stream", m :: messages)]) := by
        rw [hxread]
        simp only [xread, hmessages]
      obtain ⟨s', hloop, hprocessed⟩ := forM_processMessage loads ht.handler (m :: messages) s
      refine ⟨s', tryExcept_of_ok ?_, by rw [hprocessed, hreceived, hmessages]⟩
      rw [read_bind, hreply]
      have hloops : [("system_events_stream", m :: messages)].forM (fun stream =>
          stream.2.forM (processMessage loads t.handler)) s = (.ok (), s') :=
        forM_cons_of_ok hloop []
      exact bind_of_ok hloops
  | raises e =>
    cases e with
    | cancelled => exact absurd hxread ht.xread
    | exception =>
      -- the connection is lost, and the listener tries again after its sleep
      have hreply : xread stream s.lastId t.xread = .error .exception := by
        rw [hxread]
        rfl
      have hsleep : (do await t.sleep; return true : Coroutine Interruption (Listening ι δ) Bool) s =
          (.ok true, s) := by
        rw [ht.sleep]
        rfl
      refine ⟨s, ?_, (List.append_nil _).symm⟩
      rw [turn, tryExcept, read_bind, hreply]
      exact hsleep

theorem listenToStream_append {turns : List (ListenerTurn ι)} (h : ∀ t ∈ turns, t.Uncancelled)
    (rest : List (ListenerTurn ι)) (s : Listening ι δ) :
    listenToStream loads stream (turns ++ rest) s =
      listenToStream loads stream rest (listenToStream loads stream turns s).2 := by
  induction turns generalizing s with
  | nil => rfl
  | cons t turns ih =>
    obtain ⟨s', hturn, -⟩ := turn_of_uncancelled loads stream (h t (List.mem_cons_self ..)) s
    have hstep (ts : List (ListenerTurn ι)) :
        listenToStream loads stream (t :: ts) s = listenToStream loads stream ts s' := bind_of_ok hturn
    rw [List.cons_append, hstep, hstep, ih fun t' ht' => h t' (List.mem_cons_of_mem _ ht')]

theorem before_of_uncancelled {turns : List (ListenerTurn ι)} (h : ∀ t ∈ turns, t.Uncancelled)
    {s : Listening ι δ} (hs : Before loads stream [] s) :
    Before loads stream [] (listenToStream loads stream turns s).2 := by
  induction turns generalizing s with
  | nil => exact hs
  | cons t turns ih =>
    obtain ⟨s', hturn, -⟩ := turn_of_uncancelled loads stream (h t (List.mem_cons_self ..)) s
    have hstep : listenToStream loads stream (t :: turns) s = listenToStream loads stream turns s' :=
      bind_of_ok hturn
    have hends := spec_turn t s hs
    rw [hturn] at hends
    rw [hstep]
    exact ih (fun t' ht' => h t' (List.mem_cons_of_mem _ ht')) hends

/-- Whatever the stream holds and whatever happens at the awaits, the entries that have been processed are
a piece of the stream, each of them once, and the handler has been called with their events in their
order. Only a cancellation stops the listener: until then the cursor is on the last of these entries, the
loop goes on from there, and its next turn processes the whole of what it receives, whatever is wrong with
the entries. -/
theorem entries_processed_in_order (loads : String → Option δ) (stream : EntryStream ι)
    (turns : List (ListenerTurn ι)) :
    let s := (listenToStream loads stream turns {}).2
    s.processed <:+: stream.entries ∧ s.processed.Nodup ∧
      s.handled = s.processed.filterMap (·.event loads) ∧
      ((∀ t ∈ turns, t.Uncancelled) →
        s.lastId = s.processed.getLast?.map (·.id) ∧
        (∀ rest, listenToStream loads stream (turns ++ rest) {} = listenToStream loads stream rest s) ∧
        ∀ t, t.Uncancelled → (listenToStream loads stream (turns ++ [t]) {}).2.processed =
          s.processed ++ received stream s.lastId t.xread) := by
  have hstart : Before loads stream [] ({} : Listening ι δ) :=
    ⟨List.nil_infix, rfl, rfl⟩
  have hends := spec_listenToStream turns {} hstart
  have hsegment : Segment loads stream (listenToStream loads stream turns {}).2 := by
    generalize listenToStream loads stream turns {} = result at hends ⊢
    obtain ⟨_ | _, s⟩ := result
    · exact hends
    · exact hends
  refine ⟨hsegment.processed, stream.nodup.sublist hsegment.processed.sublist, hsegment.handled,
    fun h => ⟨(before_of_uncancelled h hstart).cursor, fun rest => listenToStream_append h rest {},
      fun t ht => ?_⟩⟩
  obtain ⟨s', hturn, hprocessed⟩ := turn_of_uncancelled loads stream ht
    (listenToStream loads stream turns {}).2
  have hlast : listenToStream loads stream [t] (listenToStream loads stream turns {}).2 = (.ok (), s') :=
    (bind_of_ok hturn).trans rfl
  rw [listenToStream_append h, hlast]
  exact hprocessed

end Listening

namespace Sample

/-- An entry without a payload, one whose payload is no JSON, one on which the handler raises, and a good
one. -/
def badEntries : EntryStream ℕ :=
  ⟨[⟨1, []⟩, ⟨2, [(.str "payload", .str "\x7b")]⟩, ⟨3, [(.str "payload", .str "first")]⟩,
    ⟨4, [(.str "payload", .str "second")]⟩], by decide⟩

def loadsWord (text : String) : Option String := if text = "\x7b" then none else some text

def badTurns : List (ListenerTurn ℕ) :=
  [⟨.reply 0 3, fun _ => .error .exception, .ok ()⟩, ⟨.raises .exception, fun _ => .ok (), .ok ()⟩]

def goodTurn : ListenerTurn ℕ := ⟨.reply 0 7, fun _ => .ok (), .ok ()⟩

theorem uncancelled_badTurns : ∀ t ∈ badTurns, t.Uncancelled := by
  intro t ht
  rcases List.mem_pair.mp ht with rfl | rfl
  · exact ⟨nofun, nofun, rfl⟩
  · exact ⟨nofun, nofun, rfl⟩

end Sample

theorem Listening.entries_processed_in_order_bad_entries :
    let s := (Listening.listenToStream Sample.loadsWord Sample.badEntries
      (Sample.badTurns ++ [Sample.goodTurn]) {}).2
    s.processed = Sample.badEntries.entries ∧ s.handled = ["first", "second"] := by
  have hprocessed : (Listening.listenToStream Sample.loadsWord Sample.badEntries
      (Sample.badTurns ++ [Sample.goodTurn]) {}).2.processed = Sample.badEntries.entries :=
    ((Listening.entries_processed_in_order Sample.loadsWord Sample.badEntries Sample.badTurns).2.2.2
      Sample.uncancelled_badTurns).2.2 Sample.goodTurn ⟨nofun, nofun, rfl⟩
  refine ⟨hprocessed, ?_⟩
  rw [(Listening.entries_processed_in_order Sample.loadsWord Sample.badEntries
    (Sample.badTurns ++ [Sample.goodTurn])).2.2.1, hprocessed]
  decide

end Messenger
