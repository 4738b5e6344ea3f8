import Mathlib.Data.List.Basic
import Messenger.Lib.Transition

/-! `listen_to_stream`: the loop around `XREAD`, its cursor and its reconnects. An entry is named by
its place in the stream, and the stream is trimmed only behind the cursor. `$` is resolved when the
server gets the call, so what is appended between two calls that both use it is never returned. -/

namespace Messenger
open Transition

structure StreamEntry where
  payload : Option String

/-- What `json.loads` makes of the field `payload`, if it is there and not empty. -/
def StreamEntry.event {δ : Type} (loads : String → Option δ) (e : StreamEntry) : Option δ :=
  (e.payload.filter (· ≠ "")).bind loads

/-- `blocked n` is an `XREAD` that waits for entries after the first `n`, and `processing i j` the loop
over a reply that reaches up to `j`, at entry `i`. -/
inductive ListenerPhase where
  | ready
  | blocked (n : ℕ)
  | processing (i j : ℕ)
  | sleeping
  deriving DecidableEq

/-- `cursor` is `last_id`, with `none` for `$`. `started` is the length of the stream when the first
`XREAD` was issued, and `handled` what the message handler was called with. -/
structure Listener (δ : Type) where
  stream : List StreamEntry := []
  cursor : Option ℕ := none
  phase : ListenerPhase := .ready
  started : Option ℕ := none
  handled : List δ := []

/-- `append` is another client's `XADD`; the rest is the listener and its connection. -/
inductive ListenerAct where
  | append (e : StreamEntry)
  | read
  | reply
  | timeout
  | drop
  | handle
  | next
  | wake

namespace Listener

variable {δ : Type} (loads : String → Option δ)

def append (s : Listener δ) (e : StreamEntry) : Listener δ :=
  { s with stream := s.stream ++ [e] }

def step (s : Listener δ) : ListenerAct → Option (Listener δ)
  | .append e => some (s.append e)
  | .read =>
    if s.phase = .ready then
      some { s with
        phase := .blocked (s.cursor.getD s.stream.length)
        started := s.started.or (some s.stream.length) }
    else none
  | .reply =>
    match s.phase with
    | .blocked n =>
      if n < s.stream.length then some { s with phase := .processing n s.stream.length } else none
    | _ => none
  | .timeout =>
    match s.phase with
    | .blocked n => if n < s.stream.length then none else some { s with phase := .ready }
    | _ => none
  | .drop =>
    match s.phase with
    | .ready | .blocked _ => some { s with phase := .sleeping }
    | _ => none
  | .handle =>
    match s.phase with
    | .processing i j =>
      if i < j then
        (s.stream[i]?).map fun e => { s with
          cursor := some (i + 1)
          phase := .processing (i + 1) j
          handled := s.handled ++ (e.event loads).toList }
      else none
    | _ => none
  | .next =>
    match s.phase with
    | .processing i j => if i < j then none else some { s with phase := .ready }
    | _ => none
  | .wake => if s.phase = .sleeping then some { s with phase := .ready } else none

def frontier (s : Listener δ) : ℕ :=
  match s.phase with
  | .blocked n => n
  | .processing i _ => i
  | .ready | .sleeping => s.cursor.getD s.stream.length

def events (es : List StreamEntry) : List δ := es.filterMap (StreamEntry.event loads)

/-- The events appended since the first `XREAD` are, in order, those that the handler was called with
and those that are still to come. -/
def NothingMissed (s : Listener δ) : Prop :=
  ∀ n ∈ s.started, s.handled ++ events loads (s.stream.drop s.frontier) = events loads (s.stream.drop n)

/-- The listener has begun, has only the symbolic cursor, and no `XREAD` is waiting. -/
def Deaf (s : Listener δ) : Prop :=
  s.started.isSome ∧ s.cursor = none ∧ (s.phase = .ready ∨ s.phase = .sleeping)

/-- Nothing is appended while the listener is deaf, and no connection drops over which a first entry
was about to be returned. -/
def Attended (s : Listener δ) : ListenerAct → Prop
  | .append e => s.Deaf → e.event loads = none
  | .drop => s.cursor = none → events loads (s.stream.drop s.frontier) = []
  | _ => True

def Placed (s : Listener δ) : Prop :=
  match s.phase with
  | .ready | .sleeping => ∀ m ∈ s.cursor, m ≤ s.stream.length
  | .blocked n => n ≤ s.stream.length ∧ ∀ m ∈ s.cursor, m = n
  | .processing i j => i ≤ j ∧ j ≤ s.stream.length ∧ (s.cursor = some i ∨ s.cursor = none ∧ i < j)

structure Sound (s : Listener δ) : Prop where
  placed : s.Placed
  started : ∀ n ∈ s.started, n ≤ s.stream.length
  unstarted : s.started = none →
    s.cursor = none ∧ s.handled = [] ∧ (s.phase = .ready ∨ s.phase = .sleeping)

/-! ### What a step can do -/

inductive Move (s : Listener δ) : ListenerAct → Listener δ → Prop where
  | append {e} : Move s (.append e) (s.append e)
  | read (hp : s.phase = .ready) : Move s .read { s with
      phase := .blocked (s.cursor.getD s.stream.length)
      started := s.started.or (some s.stream.length) }
  | reply {n} (hp : s.phase = .blocked n) (hn : n < s.stream.length) :
    Move s .reply { s with phase := .processing n s.stream.length }
  | timeout {n} (hp : s.phase = .blocked n) (hn : s.stream.length ≤ n) :
    Move s .timeout { s with phase := .ready }
  | drop (hp : s.phase = .ready ∨ ∃ n, s.phase = .blocked n) :
    Move s .drop { s with phase := .sleeping }
  | handle {i j e} (hp : s.phase = .processing i j) (hi : i < j) (he : s.stream[i]? = some e) :
    Move s .handle { s with
      cursor := some (i + 1)
      phase := .processing (i + 1) j
      handled := s.handled ++ (e.event loads).toList }
  | next {i j} (hp : s.phase = .processing i j) (hi : j ≤ i) : Move s .next { s with phase := .ready }
  | wake (hp : s.phase = .sleeping) : Move s .wake { s with phase := .ready }

variable {loads} {s s' t : Listener δ} {a : ListenerAct}

theorem move_of_step (hs : step loads s a = some s') : Move loads s a s' := by
  cases a with
  | append e =>
    obtain rfl := Option.some.inj hs
    exact .append
  | read =>
    simp only [step, Option.ite_none_right_eq_some, Option.some.injEq] at hs
    obtain ⟨hp, rfl⟩ := hs
    exact .read hp
  | reply =>
    simp only [step] at hs
    split at hs
    · next n hp =>
      simp only [Option.ite_none_right_eq_some, Option.some.injEq] at hs
      obtain ⟨hn, rfl⟩ := hs
      exact .reply hp hn
    · cases hs
  | timeout =>
    simp only [step] at hs
    split at hs
    · next n hp =>
      simp only [Option.ite_none_left_eq_some, Option.some.injEq] at hs
      obtain ⟨hn, rfl⟩ := hs
      exact .timeout hp (Nat.le_of_not_lt hn)
    · cases hs
  | drop =>
    simp only [step] at hs
    split at hs
    · next hp =>
      obtain rfl := Option.some.inj hs
      exact .drop (.inl hp)
    · next n hp =>
      obtain rfl := Option.some.inj hs
      exact .drop (.inr ⟨n, hp⟩)
    · cases hs
  | handle =>
    simp only [step] at hs
    split at hs
    · next i j hp =>
      simp only [Option.ite_none_right_eq_some, Option.map_eq_some_iff] at hs
      obtain ⟨hi, e, he, rfl⟩ := hs
      exact .handle hp hi he
    · cases hs
  | next =>
    simp only [step] at hs
    split at hs
    · next i j hp =>
      simp only [Option.ite_none_left_eq_some, Option.some.injEq] at hs
      obtain ⟨hi, rfl⟩ := hs
      exact .next hp (Nat.le_of_not_lt hi)
    · cases hs
  | wake =>
    simp only [step, Option.ite_none_right_eq_some, Option.some.injEq] at hs
    obtain ⟨hp, rfl⟩ := hs
    exact .wake hp

/-! ### What a run keeps -/

@[simp] theorem events_append {es es' : List StreamEntry} :
    events loads (es ++ es') = events loads es ++ events loads es' := List.filterMap_append

theorem events_singleton {e : StreamEntry} : events loads [e] = (e.event loads).toList := by
  cases he : e.event loads <;> simp [events, he]

theorem sound_init {es : List StreamEntry} : Sound ({ stream := es } : Listener δ) where
  placed m hm := by cases hm
  started n hn := by cases hn
  unstarted _ := ⟨rfl, rfl, .inl rfl⟩

theorem Placed.idle (h : s.Placed) (hp : s.phase = .ready ∨ s.phase = .sleeping) :
    ∀ m ∈ s.cursor, m ≤ s.stream.length := by
  rcases hp with hp | hp
  · simpa only [Placed, hp] using h
  · simpa only [Placed, hp] using h

theorem Placed.blocked {n : ℕ} (h : s.Placed) (hp : s.phase = .blocked n) :
    n ≤ s.stream.length ∧ ∀ m ∈ s.cursor, m = n := by
  simpa only [Placed, hp] using h

theorem Placed.processing {i j : ℕ} (h : s.Placed) (hp : s.phase = .processing i j) :
    i ≤ j ∧ j ≤ s.stream.length ∧ (s.cursor = some i ∨ s.cursor = none ∧ i < j) := by
  simpa only [Placed, hp] using h

theorem frontier_idle (hp : s.phase = .ready ∨ s.phase = .sleeping) :
    s.frontier = s.cursor.getD s.stream.length := by
  rcases hp with hp | hp <;> simp only [frontier, hp]

theorem frontier_blocked {n : ℕ} (hp : s.phase = .blocked n) : s.frontier = n := by
  simp only [frontier, hp]

theorem frontier_processing {i j : ℕ} (hp : s.phase = .processing i j) : s.frontier = i := by
  simp only [frontier, hp]

theorem Placed.frontier_le (h : s.Placed) : s.frontier ≤ s.stream.length := by
  cases hp : s.phase with
  | blocked n => exact frontier_blocked hp ▸ (h.blocked hp).1
  | processing i j =>
    obtain ⟨hij, hj, -⟩ := h.processing hp
    exact frontier_processing hp ▸ Nat.le_trans hij hj
  | ready | sleeping =>
    rw [frontier_idle (by simp [hp])]
    cases hc : s.cursor with
    | none => exact Nat.le_refl _
    | some m => exact h.idle (by simp [hp]) m hc

theorem Placed.move (h : s.Placed) (hm : Move loads s a s') : s'.Placed := by
  cases hm with
  | @append e =>
    have hle : s.stream.length ≤ (s.append e).stream.length := by simp [append]
    cases hp : s.phase with
    | blocked n =>
      obtain ⟨hn, hc⟩ := h.blocked hp
      simpa only [Placed, append, hp] using And.intro (Nat.le_trans hn hle) hc
    | processing i j =>
      obtain ⟨hij, hj, hc⟩ := h.processing hp
      simpa only [Placed, append, hp] using And.intro hij (And.intro (Nat.le_trans hj hle) hc)
    | ready | sleeping =>
      have hc := h.idle (by simp [hp])
      simpa only [Placed, append, hp] using fun m hm => Nat.le_trans (hc m hm) hle
  | read hp =>
    have hle := h.frontier_le
    rw [frontier_idle (.inl hp)] at hle
    refine ⟨hle, fun m hm => ?_⟩
    rw [show s.cursor = some m from hm, Option.getD_some]
  | reply hp hn =>
    obtain ⟨-, hc⟩ := h.blocked hp
    refine ⟨Nat.le_of_lt hn, Nat.le_refl _, ?_⟩
    cases hcursor : s.cursor with
    | none => exact .inr ⟨rfl, hn⟩
    | some m => exact .inl (congrArg some (hc m hcursor))
  | timeout hp =>
    obtain ⟨hn, hc⟩ := h.blocked hp
    exact fun m hm => (hc m hm).symm ▸ hn
  | drop hp =>
    rcases hp with hp | ⟨n, hp⟩
    · exact h.idle (.inl hp)
    · obtain ⟨hn, hc⟩ := h.blocked hp
      exact fun m hm => (hc m hm).symm ▸ hn
  | handle hp hi he =>
    obtain ⟨-, hj, -⟩ := h.processing hp
    exact ⟨hi, hj, .inl rfl⟩
  | next hp hi =>
    obtain ⟨hij, hj, hc⟩ := h.processing hp
    intro m hm
    rcases hc with hc | ⟨hc, -⟩
    · obtain rfl := Option.some.inj (hc.symm.trans hm)
      exact Nat.le_trans hij hj
    · cases hc.symm.trans hm
  | wake hp => exact h.idle (.inr hp)

theorem Sound.move (hs : Sound s) (hm : Move loads s a s') : Sound s' where
  placed := hs.placed.move hm
  started n hn := by
    cases hm with
    | append =>
      rw [append, List.length_append]
      exact Nat.le_add_right_of_le (hs.started n hn)
    | read =>
      cases hstarted : s.started with
      | none =>
        have hn : s.stream.length = n := by simpa [hstarted] using hn
        exact Nat.le_of_eq hn.symm
      | some m => exact hs.started n (by simpa [hstarted] using hn)
    | _ => exact hs.started n hn
  unstarted hnone := by
    cases hm with
    | append => exact hs.unstarted hnone
    | read => simp at hnone
    | drop =>
      obtain ⟨hc, hh, -⟩ := hs.unstarted hnone
      exact ⟨hc, hh, .inr rfl⟩
    | wake =>
      obtain ⟨hc, hh, -⟩ := hs.unstarted hnone
      exact ⟨hc, hh, .inl rfl⟩
    | reply hp | timeout hp | handle hp | next hp =>
      have hidle := (hs.unstarted hnone).2.2
      rw [hp] at hidle
      simp at hidle

theorem frontier_append {e : StreamEntry} (hs : s.started.isSome) (hdeaf : ¬ s.Deaf) :
    (s.append e).frontier = s.frontier := by
  cases hp : s.phase with
  | blocked n =>
    rw [frontier_blocked hp]
    exact frontier_blocked hp
  | processing i j =>
    rw [frontier_processing hp]
    exact frontier_processing hp
  | ready | sleeping =>
    have hidle : s.phase = .ready ∨ s.phase = .sleeping := by simp [hp]
    cases hc : s.cursor with
    | none => exact absurd ⟨hs, hc, hidle⟩ hdeaf
    | some m =>
      have hafter : (s.append e).frontier = (some m).getD (s.append e).stream.length :=
        hc ▸ frontier_idle (s := s.append e) hidle
      rw [hafter, frontier_idle hidle, hc, Option.getD_some, Option.getD_some]

theorem nothingMissed_append {e : StreamEntry} (hs : Sound s) (hk : NothingMissed loads s) :
    NothingMissed loads (s.append e) ↔ Attended loads s (.append e) := by
  have hdrop {n : ℕ} (hn : n ≤ s.stream.length) : events loads ((s.append e).stream.drop n) =
      events loads (s.stream.drop n) ++ (e.event loads).toList := by
    rw [append, List.drop_append_of_le_length hn, events_append, events_singleton]
  by_cases hdeaf : s.Deaf
  · obtain ⟨n, hn⟩ := Option.isSome_iff_exists.mp hdeaf.1
    have hnone {u : Listener δ} (hc : u.cursor = none) (hp : u.phase = .ready ∨ u.phase = .sleeping) :
        events loads (u.stream.drop u.frontier) = [] := by
      rw [frontier_idle hp, hc, Option.getD_none, List.drop_length]
      rfl
    have hbefore : s.handled = events loads (s.stream.drop n) := by
      rw [← hk n hn, hnone hdeaf.2.1 hdeaf.2.2, List.append_nil]
    have hafter : events loads ((s.append e).stream.drop (s.append e).frontier) = [] :=
      hnone hdeaf.2.1 hdeaf.2.2
    -- the cursor is `$` before and after: the frontier moves over the entry
    constructor
    · intro hmissed _
      have hall : s.handled ++ _ = _ := hmissed n hn
      rw [hafter, hdrop (hs.started n hn), hbefore] at hall
      simpa using hall
    · intro hattended m hm
      obtain rfl := Option.some.inj (hn.symm.trans hm)
      show s.handled ++ _ = _
      rw [hafter, hdrop (hs.started n hn), hbefore, hattended hdeaf]
      rfl
  · refine iff_of_true (fun n hn => ?_) fun h => absurd h hdeaf
    have hsome : s.started.isSome := Option.isSome_iff_exists.mpr ⟨n, hn⟩
    show s.handled ++ _ = _
    rw [frontier_append hsome hdeaf, hdrop hs.placed.frontier_le, hdrop (hs.started n hn),
      ← List.append_assoc, hk n hn]

theorem nothingMissed_drop {n : ℕ} (hs : Sound s) (hk : NothingMissed loads s)
    (hp : s.phase = .blocked n) :
    NothingMissed loads { s with phase := .sleeping } ↔ Attended loads s .drop := by
  have hstarted : s.started.isSome := by
    by_contra hnone
    have hidle := (hs.unstarted (by simpa using hnone)).2.2
    rw [hp] at hidle
    simp at hidle
  obtain ⟨n₀, hn₀⟩ := Option.isSome_iff_exists.mp hstarted
  have hbefore := hk n₀ hn₀
  have hafter {o : Option ℕ} (hc : s.cursor = o) :
      frontier { s with phase := .sleeping } = o.getD s.stream.length :=
    (frontier_idle (.inr rfl)).trans (congrArg (Option.getD · _) hc)
  rcases Option.eq_none_or_eq_some s.cursor with hc | ⟨m, hc⟩
  · constructor
    · intro hmissed _
      have hall : s.handled ++ _ = _ := hmissed n₀ hn₀
      rw [hafter hc, Option.getD_none, List.drop_length, ← hbefore] at hall
      simpa [events] using hall
    · intro hattended m hm
      obtain rfl := Option.some.inj (hn₀.symm.trans hm)
      show s.handled ++ _ = _
      rw [hafter hc, Option.getD_none, List.drop_length, ← hbefore, hattended hc]
      rfl
  · -- a concrete cursor is where the `XREAD` reads from
    obtain rfl := (hs.placed.blocked hp).2 m hc
    refine iff_of_true (fun n hn => ?_) fun hnone => by cases hc.symm.trans hnone
    show s.handled ++ _ = _
    rw [hafter hc, Option.getD_some, ← frontier_blocked hp]
    exact hk n hn

theorem nothingMissed_iff (hs : Sound s) (hk : NothingMissed loads s) (hm : Move loads s a s') :
    NothingMissed loads s' ↔ Attended loads s a := by
  -- a step that moves neither the frontier nor the end of the stream
  have hsame (hstream : s'.stream = s.stream) (hstarted : s'.started = s.started)
      (hhandled : s'.handled = s.handled) (hfrontier : s'.frontier = s.frontier) :
      NothingMissed loads s' := by
    unfold NothingMissed
    rw [hstream, hstarted, hhandled, hfrontier]
    exact hk
  cases hm with
  | append => exact nothingMissed_append hs hk
  | read hp =>
    have hfrontier : s.cursor.getD s.stream.length = s.frontier := (frontier_idle (.inl hp)).symm
    rcases Option.eq_none_or_eq_some s.started with hstarted | ⟨n, hstarted⟩
    · obtain ⟨hc, hh, -⟩ := hs.unstarted hstarted
      refine iff_of_true (fun n hn => ?_) trivial
      obtain rfl : s.stream.length = n := by simpa [hstarted] using hn
      rw [frontier_blocked rfl, hc, hh]
      rfl
    · exact iff_of_true (hsame rfl (by simp [hstarted]) rfl hfrontier) trivial
  | reply hp hn =>
    have hfrontier := (frontier_blocked hp).symm
    exact iff_of_true (hsame rfl rfl rfl ((frontier_processing rfl).trans hfrontier)) trivial
  | timeout hp hn =>
    refine iff_of_true (hsame rfl rfl rfl ?_) trivial
    have hfrontier := frontier_blocked hp
    rw [frontier_idle (.inl rfl)]
    rcases Option.eq_none_or_eq_some s.cursor with hc | ⟨m, hc⟩
    · rw [hc, Option.getD_none]
      exact Nat.le_antisymm (hfrontier ▸ hn) hs.placed.frontier_le
    · rw [hc, Option.getD_some, hfrontier]
      exact (hs.placed.blocked hp).2 m hc
  | drop hp =>
    rcases hp with hp | ⟨n, hp⟩
    · have hfrontier := (frontier_idle (s := s) (.inl hp)).symm
      refine iff_of_true (hsame rfl rfl rfl ((frontier_idle (.inr rfl)).trans hfrontier)) fun hc => ?_
      rw [← hfrontier, hc, Option.getD_none, List.drop_length]
      rfl
    · exact nothingMissed_drop hs hk hp
  | @handle i j e hp hi he =>
    refine iff_of_true (fun n hn => ?_) trivial
    have hdrop : s.stream.drop i = e :: s.stream.drop (i + 1) := by
      obtain ⟨hlt, hget⟩ := List.getElem?_eq_some_iff.mp he
      rw [List.drop_eq_getElem_cons hlt, hget]
    have hall := hk n hn
    rw [frontier_processing hp, hdrop, ← List.singleton_append, events_append,
      events_singleton] at hall
    rw [frontier_processing rfl, List.append_assoc]
    exact hall
  | next hp hi =>
    obtain ⟨hij, -, hc⟩ := hs.placed.processing hp
    refine iff_of_true (hsame rfl rfl rfl ?_) trivial
    rw [frontier_idle (.inl rfl), frontier_processing hp]
    rcases hc with hc | ⟨-, hlt⟩
    · rw [hc, Option.getD_some]
    · exact absurd hlt (Nat.not_lt_of_le hi)
  | wake hp =>
    have hfrontier := (frontier_idle (s := s) (.inr hp)).symm
    exact iff_of_true (hsame rfl rfl rfl ((frontier_idle (.inl rfl)).trans hfrontier)) trivial

/-! ### The listener left alone -/

def own (s : Listener δ) : ListenerAct :=
  match s.phase with
  | .ready => .read
  | .blocked n => if n < s.stream.length then .reply else .timeout
  | .processing i j => if i < j then .handle else .next
  | .sleeping => .wake

def undisturbed (loads : String → Option δ) : ℕ → Listener δ → Option (Listener δ)
  | 0, s => some s
  | k + 1, s => (step loads s s.own).bind (undisturbed loads k)

/-- Left alone, the listener hands every event appended since its first `XREAD` to the handler. -/
def CatchesUp (loads : String → Option δ) (s : Listener δ) : Prop :=
  ∃ k t, undisturbed loads k s = some t ∧ t.stream = s.stream ∧
    ∀ n ∈ s.started, t.handled = events loads (s.stream.drop n)

def remaining (s : Listener δ) : ℕ :=
  4 * (s.stream.length - s.frontier) +
    match s.phase with
    | .processing i j => if i < j then 0 else 3
    | .sleeping => 3
    | .ready => 2
    | .blocked _ => 1

theorem own_step (hs : Sound s) (hlt : s.frontier < s.stream.length) :
    ∃ s', step loads s s.own = some s' ∧ s'.stream = s.stream ∧ s'.started = s.started ∧
      s'.remaining < s.remaining := by
  cases hp : s.phase with
  | ready =>
    have hfrontier := frontier_idle (.inl hp)
    -- before its first call the listener has nothing to catch up with
    have hstarted : s.started.or (some s.stream.length) = s.started := by
      rcases Option.eq_none_or_eq_some s.started with hnone | ⟨n, hn⟩
      · rw [hfrontier, (hs.unstarted hnone).1, Option.getD_none] at hlt
        exact absurd hlt (Nat.lt_irrefl _)
      · rw [hn, Option.or_some, Option.getD_some]
    refine ⟨{ s with
      phase := .blocked (s.cursor.getD s.stream.length)
      started := s.started.or (some s.stream.length) }, ?_, rfl, hstarted, ?_⟩
    · simp only [own, hp, step, if_true]
    · rw [remaining, remaining, frontier_blocked rfl, hfrontier, hp]
      exact Nat.add_lt_add_left Nat.one_lt_two _
  | blocked n =>
    rw [frontier_blocked hp] at hlt
    refine ⟨{ s with phase := .processing n s.stream.length }, ?_, rfl, rfl, ?_⟩
    · simp only [own, hp, step, if_pos hlt]
    · rw [remaining, remaining, frontier_processing rfl, frontier_blocked hp, hp]
      simp only [if_pos hlt]
      exact Nat.add_lt_add_left (by decide) _
  | processing i j =>
    obtain ⟨hij, hj, hc⟩ := hs.placed.processing hp
    have hfrontier := frontier_processing hp
    rw [hfrontier] at hlt
    by_cases hi : i < j
    · refine ⟨{ s with
        cursor := some (i + 1)
        phase := .processing (i + 1) j
        handled := s.handled ++ ((s.stream[i]).event loads).toList }, ?_, rfl, rfl, ?_⟩
      · simp only [own, hp, step, if_pos hi, List.getElem?_eq_getElem hlt, Option.map_some]
      · rw [remaining, remaining, frontier_processing rfl, hfrontier, hp]
        simp only [if_pos hi]
        split <;> omega
    · refine ⟨{ s with phase := .ready }, ?_, rfl, rfl, ?_⟩
      · simp only [own, hp, step, if_neg hi]
      · have hcursor : s.cursor = some i := hc.resolve_right fun h => hi h.2
        rw [remaining, remaining, frontier_idle (.inl rfl), hcursor, hfrontier, hp]
        simp only [if_neg hi]
        exact Nat.add_lt_add_left (by decide) _
  | sleeping =>
    have hfrontier := frontier_idle (.inr hp)
    refine ⟨{ s with phase := .ready }, ?_, rfl, rfl, ?_⟩
    · simp only [own, hp, step, if_true]
    · rw [remaining, remaining, frontier_idle (.inl rfl), hfrontier, hp]
      exact Nat.add_lt_add_left (Nat.lt_succ_self 2) _

theorem attended_own : Attended loads s s.own := by
  unfold own
  split
  · trivial
  · split <;> trivial
  · split <;> trivial
  · trivial

theorem catchesUp (hs : Sound s) (hk : NothingMissed loads s) : CatchesUp loads s := by
  induction hn : s.remaining using Nat.strongRecOn generalizing s with
  | _ n ih =>
    rcases Nat.lt_or_ge s.frontier s.stream.length with hlt | hge
    · obtain ⟨s', hstep, hstream, hstarted, hless⟩ := own_step hs hlt
      have hm := move_of_step hstep
      have hk' : NothingMissed loads s' := (nothingMissed_iff hs hk hm).mpr attended_own
      obtain ⟨k, t, ht, hstream', hall⟩ := ih _ (hn ▸ hless) (hs.move hm) hk' rfl
      refine ⟨k + 1, t, ?_, hstream'.trans hstream, ?_⟩
      · simp only [undisturbed, hstep, Option.bind_some, ht]
      · rwa [hstream, hstarted] at hall
    · -- there is nothing left to come
      refine ⟨0, s, rfl, rfl, fun n hn => ?_⟩
      have hend : s.stream.drop s.frontier = [] := List.drop_eq_nil_of_le hge
      have hall := hk n hn
      rw [hend] at hall
      exact (List.append_nil _).symm.trans hall

/-- The listener never misses an event and catches up when left alone, in every state of a run,
exactly if the run is attended: while the cursor is still `$`, nothing is appended between two calls,
and no connection drops that was about to return something. -/
theorem no_event_missed_iff (loads : String → Option δ) (es : List StreamEntry)
    (acts : List ListenerAct) (s : Listener δ) (hs : run (step loads) { stream := es } acts = some s) :
    Guarded (step loads) (Attended loads) { stream := es } acts ↔
      ∀ pre, pre <+: acts → ∀ m, run (step loads) { stream := es } pre = some m →
        NothingMissed loads m ∧ CatchesUp loads m := by
  have hiff := guarded_iff_along_prefixes (J := Sound) (I := NothingMissed loads)
    (fun _ _ _ hj hstep => hj.move (move_of_step hstep))
    (fun _ _ _ hj hk hstep => nothingMissed_iff hj hk (move_of_step hstep)) sound_init
    (fun n hn => by cases hn) hs
  rw [hiff]
  constructor
  · intro hall pre hpre m hm
    have hsound : Sound m := run_induction (fun _ _ _ hj hstep => hj.move (move_of_step hstep)) hm sound_init
    exact ⟨hall pre hpre m hm, catchesUp hsound (hall pre hpre m hm)⟩
  · exact fun hall pre hpre m hm => (hall pre hpre m hm).1

end Listener

namespace Sample

def note (text : String) : StreamEntry := ⟨some text⟩

def timedOut : List ListenerAct :=
  [.read, .timeout, .append (note "x"), .read, .append (note "y"), .reply, .handle, .next]

/-- The first entry arrives during the call; the connection drops twice later on. -/
def dropped : List ListenerAct :=
  [.read, .append (note "x"), .reply, .handle, .next, .read, .drop, .append (note "y"), .wake, .drop,
    .append (note "z"), .wake, .read]

instance (s : Listener String) : ∀ a, Decidable (s.Attended some a)
  | .append e =>
    have : Decidable s.Deaf := inferInstanceAs (Decidable (_ ∧ _ ∧ (_ ∨ _)))
    inferInstanceAs (Decidable (s.Deaf → e.event some = none))
  | .drop => inferInstanceAs (Decidable (s.cursor = none → _ = []))
  | .read | .reply | .timeout | .handle | .next | .wake => instDecidableTrue

end Sample

theorem no_event_missed_dropped :
    ∃ s : Listener String, run (Listener.step some) {} Sample.dropped = some s ∧
      Listener.CatchesUp some s ∧ s.stream = [Sample.note "x", Sample.note "y", Sample.note "z"] ∧
      s.handled = ["x"] := by
  obtain ⟨s, hs, hstream, hhandled⟩ :
      ∃ s ∈ run (Listener.step some) {} Sample.dropped,
        s.stream.map (·.payload) = [some "x", some "y", some "z"] ∧ s.handled = ["x"] := by decide
  have hkept := (Listener.no_event_missed_iff some [] Sample.dropped s hs).mp (by decide)
  refine ⟨s, hs, (hkept _ (List.prefix_refl _) s hs).2, ?_, hhandled⟩
  have hinj : Function.Injective StreamEntry.payload := fun ⟨_⟩ ⟨_⟩ h => congrArg _ h
  exact hinj.list_map hstream

/-- The first entry comes between the timeout of one `XREAD` and the issue of the next. -/
theorem not_no_event_missed :
    ∃ s : Listener String, run (Listener.step some) {} Sample.timedOut = some s ∧
      s.started = some 0 ∧ Listener.events some s.stream = ["x", "y"] ∧ s.handled = ["y"] ∧
      s.frontier = s.stream.length ∧ ¬ Listener.NothingMissed some s := by
  obtain ⟨s, hs, hstarted, hevents, hhandled, hfrontier⟩ :
      ∃ s ∈ run (Listener.step some) {} Sample.timedOut, s.started = some 0 ∧
        Listener.events some s.stream = ["x", "y"] ∧ s.handled = ["y"] ∧ s.frontier = s.stream.length := by
    decide
  refine ⟨s, hs, hstarted, hevents, hhandled, hfrontier, fun hmissed => ?_⟩
  have hall := hmissed 0 hstarted
  rw [hfrontier, List.drop_length, List.drop_zero, hevents, hhandled] at hall
  exact absurd hall (by decide)

end Messenger
