import Messenger.Lib.Coroutine
import Messenger.Realtime.Edits

/-! `websocket_endpoint`, from the handshake to the end of its `finally` block. Any await may raise,
and during it the other tasks of the worker edit the routing tables. -/

namespace Messenger

/-- What an await raises, as far as the handlers of the endpoint tell it apart. -/
inductive Raised where
  | webSocketDisconnect
  | exception
  /-- `CancelledError`, which is no `Exception`. -/
  | cancelled
  deriving DecidableEq

/-- No other task of the worker connects or disconnects the socket of a session. -/
abbrev ForeignEdit {σ : Type} (ws : σ) := { e : Edit σ // e.socket ≠ some ws }

structure Awaited {σ : Type} (ws : σ) (α : Type) where
  meanwhile : List (ForeignEdit ws) := []
  outcome : Except Raised α

/-- The awaits of one call. The texts that arrive are ignored, and the loop that awaits them ends
when `receive` raises. -/
structure Awaits {σ : Type} (ws : σ) where
  accept : Awaited ws Unit
  addActiveUser : Awaited ws Unit
  listUserGroups : Awaited ws (Finset UUID)
  texts : List (List (ForeignEdit ws))
  receive : List (ForeignEdit ws) × Raised
  lock : Awaited ws Unit
  removeActiveUser : Awaited ws Unit

structure Session (σ : Type) where
  registry : Registry σ
  isRegistered : Bool := false

namespace Session
open Coroutine

variable {σ : Type} [DecidableEq σ] {ws : σ} {α : Type}

def edit (s : Session σ) (e : Edit σ) : Session σ := { s with registry := s.registry.edit e }

def during (s : Session σ) (es : List (ForeignEdit ws)) : Session σ :=
  es.foldl (fun s e => s.edit e) s

def await (a : Awaited ws α) : Coroutine Raised (Session σ) α := do
  update (·.during a.meanwhile)
  match a.outcome with
  | .ok v => return v
  | .error e => raise e

/-- `except Exception`: the exception is logged, and a cancellation goes on. -/
def exceptException (v : α) (m : Coroutine Raised (Session σ) α) : Coroutine Raised (Session σ) α :=
  tryExcept m fun e => if e = .cancelled then raise e else return v

def registerConnection (user : UUID) (c : Awaits ws) : Coroutine Raised (Session σ) Unit := do
  update (·.edit (.connect user ws))
  await c.addActiveUser
  let groups ← exceptException ∅ (await c.listUserGroups)
  update (·.edit (.mergeGroups user ws groups))

def unregisterConnection (user : UUID) (c : Awaits ws) : Coroutine Raised (Session σ) Unit := do
  await c.lock
  let last ← read fun s => decide (s.registry.IsLast user ws)
  update (·.edit (.disconnect user ws))
  if last then await c.removeActiveUser

def receiveLoop (c : Awaits ws) : Coroutine Raised (Session σ) Unit := do
  c.texts.forM fun es => update (·.during es)
  update (·.during c.receive.1)
  raise c.receive.2

def websocketEndpoint (user : UUID) (c : Awaits ws) : Coroutine Raised (Session σ) Unit := do
  await c.accept
  tryFinally
    (exceptException () do
      registerConnection user c
      update ({ · with isRegistered := true })
      receiveLoop c)
    (do
      if ← read (·.isRegistered) then exceptException () (unregisterConnection user c))

/-- The socket is in no set, and a user who had no other one on the worker is known nowhere. -/
def LeavesNoTrace (r : Registry σ) (user : UUID) (ws : σ) : Prop :=
  (∀ u, ws ∉ r.localConnections.at? u) ∧
    ((∀ ws' ∈ r.localConnections.at? user, ws' = ws) →
      r.userGroups user = none ∧ ∀ g, user ∉ r.groupConnections.at? g)

def Registers (c : Awaits ws) : Prop :=
  c.addActiveUser.outcome = .ok () ∧ c.listUserGroups.outcome ≠ .error .cancelled

/-- The handshake fails, or the endpoint gets through the registration and takes the lock. -/
def CleansUp (c : Awaits ws) : Prop :=
  c.accept.outcome ≠ .ok () ∨ Registers c ∧ c.lock.outcome = .ok ()

def Gone (ws : σ) (registered : Bool) (s : Session σ) : Prop :=
  s.registry.Sound ∧ (∀ u, ws ∉ s.registry.localConnections.at? u) ∧ s.isRegistered = registered

def Held (user : UUID) (ws : σ) (registered : Bool) (s : Session σ) : Prop :=
  s.registry.Sound ∧ (∀ u, ws ∈ s.registry.localConnections.at? u ↔ u = user) ∧
    s.isRegistered = registered

variable {user : UUID} {c : Awaits ws} {s : Session σ} {registered : Bool}

omit [DecidableEq σ] in
theorem Gone.leavesNoTrace (h : Gone ws registered s) : LeavesNoTrace s.registry user ws := by
  refine ⟨h.2.1, fun hlast => h.1.unknown ?_⟩
  rw [Finset.eq_empty_iff_forall_notMem]
  intro ws' hws'
  obtain rfl := hlast ws' hws'
  exact h.2.1 user hws'

omit [DecidableEq σ] in
theorem Held.not_leavesNoTrace (h : Held user ws registered s) :
    ¬ LeavesNoTrace s.registry user ws :=
  fun hnone => hnone.1 user ((h.2.1 user).mpr rfl)

/-! ### The other tasks -/

theorem during_induction {I : Session σ → Prop} (hI : ∀ s (e : ForeignEdit ws), I s → I (s.edit e))
    (es : List (ForeignEdit ws)) (hs : I s) : I (s.during es) := by
  induction es generalizing s with
  | nil => exact hs
  | cons e es ih => exact ih (hI s e hs)

theorem Gone.edit (s : Session σ) (e : ForeignEdit ws) (h : Gone ws registered s) :
    Gone ws registered (s.edit e) :=
  ⟨h.1.edit e, fun u hws => h.2.1 u ((Registry.mem_edit_iff e.2).mp hws), h.2.2⟩

theorem Held.edit (s : Session σ) (e : ForeignEdit ws) (h : Held user ws registered s) :
    Held user ws registered (s.edit e) :=
  ⟨h.1.edit e, fun u => (Registry.mem_edit_iff e.2).trans (h.2.1 u), h.2.2⟩

theorem spec_await {I : Session σ → Prop} (hI : ∀ s (e : ForeignEdit ws), I s → I (s.edit e))
    (a : Awaited ws α) :
    Spec I (await a) (fun v s => a.outcome = .ok v ∧ I s) (fun e s => a.outcome = .error e ∧ I s) := by
  refine spec_bind (R := fun _ => I) (fun s hs => during_induction hI _ hs) fun _ => ?_
  cases hout : a.outcome with
  | ok v => exact fun s hs => ⟨rfl, hs⟩
  | error e => exact fun s hs => ⟨rfl, hs⟩

omit [DecidableEq σ] in
theorem spec_exceptException {P : Session σ → Prop} {v : α} {Q : α → Session σ → Prop}
    {E X : Raised → Session σ → Prop} {m : Coroutine Raised (Session σ) α} (hm : Spec P m Q X)
    (hcancelled : ∀ s, X .cancelled s → E .cancelled s)
    (hcaught : ∀ e s, e ≠ .cancelled → X e s → Q v s) : Spec P (exceptException v m) Q E := by
  refine spec_tryExcept hm fun e => ?_
  split
  · next he =>
    subst he
    exact fun s hs => hcancelled s hs
  · next he => exact fun s hs => hcaught e s he hs

/-! ### The endpoint -/

theorem spec_registerConnection (user : UUID) (c : Awaits ws) (registered : Bool) :
    Spec (Gone ws registered) (registerConnection user c)
      (fun _ s => Held user ws registered s ∧ Registers c)
      (fun _ s => Held user ws registered s ∧ ¬ Registers c) := by
  refine spec_bind (R := fun _ => Held user ws registered) ?_ fun _ => ?_
  · intro s hs
    refine ⟨hs.1.connect, fun u => ?_, hs.2.2⟩
    have hmem : ws ∈ (s.registry.connect user ws).localConnections.at? u ↔ _ := Registry.mem_connect
    exact hmem.trans (by simp [hs.2.1 u])
  have hcount := spec_await (I := Held user ws registered) Held.edit c.addActiveUser
  refine spec_bind (hcount.mono (fun _ h => h) (fun _ _ h => h) ?_) fun _ => ?_
  · rintro e s ⟨hraised, hs⟩
    refine ⟨hs, fun hreg => ?_⟩
    cases hraised.symm.trans hreg.1
  have hload := spec_await (I := Held user ws registered) Held.edit c.listUserGroups
  refine spec_bind (R := fun _ s => Held user ws registered s ∧ Registers c) ?_ fun groups => ?_
  · -- an error of the query is caught and leaves no groups, a cancellation ends the registration
    refine fun s hs => spec_exceptException (hload.mono (fun _ h => h) ?_ (fun _ _ h => h)) ?_ ?_ s hs.2
    · rintro groups s ⟨hloaded, hs'⟩
      refine ⟨hs', hs.1, fun hraised => ?_⟩
      cases hloaded.symm.trans hraised
    · rintro s ⟨hraised, hs'⟩
      exact ⟨hs', fun hreg => hreg.2 hraised⟩
    · rintro e s he ⟨hraised, hs'⟩
      refine ⟨hs', hs.1, fun hcancelled => ?_⟩
      cases hraised.symm.trans hcancelled
      exact he rfl
  · -- the merge keeps the sockets
    rintro s ⟨hs, hreg⟩
    refine ⟨⟨hs.1.mergeGroups, fun u => ?_, hs.2.2⟩, hreg⟩
    show ws ∈ (s.registry.mergeGroups user ws groups).localConnections.at? u ↔ u = user
    rw [Registry.localConnections_mergeGroups]
    exact hs.2.1 u

theorem spec_unregisterConnection (user : UUID) (c : Awaits ws) (registered : Bool) :
    Spec (Held user ws registered) (unregisterConnection user c)
      (fun _ s => Gone ws registered s ∧ c.lock.outcome = .ok ())
      (fun _ s => Gone ws registered s ∧ c.lock.outcome = .ok () ∨
        Held user ws registered s ∧ c.lock.outcome ≠ .ok ()) := by
  have hlock := spec_await (I := Held user ws registered) Held.edit c.lock
  refine spec_bind (hlock.mono (fun _ h => h) (fun _ _ h => h) ?_) fun _ => ?_
  · rintro e s ⟨hraised, hs⟩
    refine .inr ⟨hs, fun hok => ?_⟩
    cases hraised.symm.trans hok
  refine spec_bind (R := fun _ s => c.lock.outcome = .ok () ∧ Held user ws registered s)
    (fun s hs => hs) fun last => ?_
  refine spec_bind (R := fun _ s => Gone ws registered s ∧ c.lock.outcome = .ok ()) ?_ fun _ => ?_
  · rintro s ⟨hok, hs⟩
    refine ⟨⟨hs.1.disconnect, fun u hws => ?_, hs.2.2⟩, hok⟩
    obtain ⟨hold, hne⟩ := Registry.mem_disconnect.mp hws
    exact hne ⟨(hs.2.1 u).mp hold, rfl⟩
  · -- the socket is gone by now, whatever becomes of the command
    split
    · have hremove := spec_await (I := Gone ws registered) Gone.edit c.removeActiveUser
      exact fun s hs => hremove.mono (fun _ h => h) (fun _ _ h => ⟨h.2, hs.2⟩)
        (fun _ _ h => .inl ⟨h.2, hs.2⟩) s hs.1
    · exact fun s hs => hs

theorem spec_receiveLoop {I : Session σ → Prop}
    (hI : ∀ s (e : ForeignEdit ws), I s → I (s.edit e)) :
    Spec I (receiveLoop c) (fun _ _ => False) (fun _ => I) := by
  refine spec_bind (R := fun _ => I) ?_ fun _ => ?_
  · refine spec_forM (fun es => ?_) c.texts
    exact fun s hs => during_induction hI es hs
  · refine spec_bind (R := fun _ => I) (fun s hs => during_induction hI _ hs) fun _ => ?_
    exact fun _ hs => hs

def Tried (user : UUID) (ws : σ) (c : Awaits ws) (s : Session σ) : Prop :=
  Held user ws true s ∧ Registers c ∨ Held user ws false s ∧ ¬ Registers c

theorem spec_try :
    Spec (Gone ws false)
      (exceptException () do
        registerConnection user c
        update ({ · with isRegistered := true })
        receiveLoop c)
      (fun _ => Tried user ws c) (fun _ => Tried user ws c) := by
  refine spec_exceptException (X := fun _ => Tried user ws c) ?_ (fun _ h => h) (fun _ _ _ h => h)
  have hregister := spec_registerConnection user c false
  refine spec_bind (hregister.mono (fun _ h => h) (fun _ _ h => h) fun _ _ h => .inr h) fun _ => ?_
  refine spec_bind (R := fun _ s => Held user ws true s ∧ Registers c) ?_ fun _ => ?_
  · rintro s ⟨hs, hreg⟩
    exact ⟨⟨hs.1, hs.2.1, rfl⟩, hreg⟩
  · rintro s ⟨hs, hreg⟩
    exact (spec_receiveLoop Held.edit).mono (fun _ h => h) (fun _ _ h => h.elim)
      (fun _ _ h => .inl ⟨h, hreg⟩) s hs

theorem spec_finally (haccept : c.accept.outcome = .ok ()) :
    Spec (Tried user ws c)
      (do if ← read (·.isRegistered) then exceptException () (unregisterConnection user c))
      (fun _ s => LeavesNoTrace s.registry user ws ↔ CleansUp c)
      (fun _ s => LeavesNoTrace s.registry user ws ↔ CleansUp c) := by
  refine spec_bind (R := fun b s => b = s.isRegistered ∧ Tried user ws c s)
    (fun s hs => ⟨rfl, hs⟩) fun b => ?_
  rintro s ⟨hb, hs | hs⟩
  · -- the registration has ended: the flag is set, and the lock decides
    obtain rfl : b = true := hb.trans hs.1.2.2
    have hends : ∀ s', Gone ws true s' ∧ c.lock.outcome = .ok () ∨
        Held user ws true s' ∧ c.lock.outcome ≠ .ok () →
        (LeavesNoTrace s'.registry user ws ↔ CleansUp c) := by
      rintro s' (⟨hgone, hok⟩ | ⟨hheld, hraised⟩)
      · exact iff_of_true hgone.leavesNoTrace (.inr ⟨hs.2, hok⟩)
      · refine iff_of_false hheld.not_leavesNoTrace ?_
        rintro (hnot | ⟨-, hok⟩)
        · exact hnot haccept
        · exact hraised hok
    have hunregister := spec_unregisterConnection user c true
    refine spec_exceptException (hunregister.mono (fun _ h => h) (fun _ s' h => ?_)
      fun _ s' h => ?_) (fun _ h => h) (fun _ _ _ h => h) s hs.1
    · exact hends s' (.inl h)
    · exact hends s' h
  · -- the registration was cut short, and nothing is cleaned up
    obtain rfl : b = false := hb.trans hs.1.2.2
    refine iff_of_false hs.1.not_leavesNoTrace ?_
    rintro (hnot | ⟨hreg, -⟩)
    · exact hnot haccept
    · exact hs.2 hreg

theorem spec_websocketEndpoint (user : UUID) (c : Awaits ws) :
    Spec (Gone ws false) (websocketEndpoint user c)
      (fun _ s => LeavesNoTrace s.registry user ws ↔ CleansUp c)
      (fun _ s => LeavesNoTrace s.registry user ws ↔ CleansUp c) := by
  have haccept := spec_await (I := Gone ws false) Gone.edit c.accept
  refine spec_bind (haccept.mono (fun _ h => h) (fun _ _ h => h) ?_) fun _ => ?_
  · rintro e s ⟨hraised, hs⟩
    refine iff_of_true hs.leavesNoTrace (.inl ?_)
    rw [hraised]
    exact nofun
  · rintro s ⟨hok, hs⟩
    exact spec_tryFinally spec_try (fun _ => spec_finally hok) (fun _ => spec_finally hok) s hs

/-- The endpoint leaves no trace of the session exactly if neither its registration nor the wait for
the lock is cut short, or it has failed to accept. -/
theorem leavesNoTrace_iff (r : Registry σ) (user : UUID) (ws : σ) (c : Awaits ws) (hr : r.Sound)
    (hnew : ∀ u, ws ∉ r.localConnections.at? u) :
    LeavesNoTrace (websocketEndpoint user c { registry := r }).2.registry user ws ↔ CleansUp c := by
  have hends := spec_websocketEndpoint user c { registry := r } ⟨hr, hnew, rfl⟩
  generalize websocketEndpoint user c { registry := r } = result at hends ⊢
  obtain ⟨_ | _, s⟩ := result <;> exact hends

/-- A session of one text that the client ends, where the increment in Redis has this outcome. -/
def singleText (counted : Except Raised Unit) : Awaits (0 : ℕ) where
  accept := { outcome := .ok () }
  addActiveUser := { outcome := counted }
  listUserGroups := { outcome := .ok {⟨2⟩} }
  texts := [[]]
  receive := ([], .webSocketDisconnect)
  lock := { outcome := .ok () }
  removeActiveUser := { outcome := .error .exception }

theorem leavesNoTrace_singleText :
    LeavesNoTrace (websocketEndpoint ⟨1⟩ (singleText (.ok ())) { registry := {} }).2.registry ⟨1⟩ 0 :=
  (leavesNoTrace_iff {} ⟨1⟩ 0 (singleText (.ok ())) .empty fun _ => Finset.notMem_empty 0).mpr
    (.inr ⟨⟨rfl, nofun⟩, rfl⟩)

/-- Redis is down when the socket is counted: the registration raises after it has added the socket,
and nothing removes it. -/
theorem not_leavesNoTrace_redisDown :
    ¬ LeavesNoTrace (websocketEndpoint ⟨1⟩ (singleText (.error .exception))
      { registry := {} }).2.registry ⟨1⟩ 0 := by
  intro hnone
  have hopen : 0 ∈ (websocketEndpoint ⟨1⟩ (singleText (.error .exception))
      { registry := {} }).2.registry.localConnections.at? ⟨1⟩ := by decide
  exact hnone.1 ⟨1⟩ hopen

end Session
end Messenger
