import Messenger.App.Tasks
import Messenger.Services.Broadcasts

/-! The shutdown of a worker: the teardown of `lifespan`, beside the tasks that push what has been
committed. -/

namespace Messenger
open Transition

inductive PushTask where
  | message (push : MessagePush)
  | group (task : GroupTask)
  deriving DecidableEq

/-- Where a task of the set may stand: at a call of Redis, or in a handler of the listener. -/
inductive BackgroundAwait where
  | redis (a : TaskAwait)
  | handler
  deriving DecidableEq

def PushTask.awaits : PushTask → List BackgroundAwait
  | message _ | group (.pushGroupMembershipChange ..) => [.redis .publishWsPush]
  | group (.handleGroupDeletionSideEffects ..) =>
    [.redis .invalidateDeletedGroupCache, .redis .publishWsPush]

def PushTask.broadcast : PushTask → Broadcast
  | message push => .push push
  | group task => .bus task.event

inductive ListenerTask where
  | running
  | cancelling
  | returned
  /-- The task has let its `CancelledError` through. -/
  | cancelled
  deriving DecidableEq

/-- What follows the `yield` of a lifespan. -/
inductive Teardown (κ : Type) where
  /-- `pubsub_task.cancel()` and `stream_task.cancel()`. -/
  | cancelListeners
  /-- `await asyncio.gather(pubsub_task, stream_task)`. -/
  | gatherListeners
  | drainBackgroundTasks
  /-- `asyncio.wait` in `drain_background_tasks`, with the set as it was when the call was made. -/
  | wait (ts : Finset κ)
  | disconnectRedis
  | disconnectDatabase
  deriving DecidableEq

def lifespanTeardown {κ : Type} : List (Teardown κ) :=
  [.cancelListeners, .gatherListeners, .disconnectRedis, .disconnectDatabase]

/-- `push` says what a task pushes, if it is not one of the listener. `owed` holds the push tasks that have
been spawned before the shutdown, `waited` those that were given up after the drain timeout. -/
structure Worker (κ : Type) where
  tasks : Tasks κ BackgroundAwait := {}
  push : κ → Option PushTask := fun _ => none
  owed : Finset κ := ∅
  pubsub : ListenerTask := .running
  stream : ListenerTask := .running
  teardown : Option (List (Teardown κ)) := none
  redisClosed : Bool := false
  waited : Finset κ := ∅
  published : List Broadcast := []

inductive WorkerAct (κ : Type) where
  /-- An operation that has committed spawns its task. -/
  | spawnPush (t : κ) (p : PushTask)
  /-- The listener has received a message. -/
  | spawnDispatch (t : κ)
  | resume (t : κ)
  | finish (t : κ) (result : Except Interruption Unit)
  | handleCompletion (t : κ)
  | shutdown
  /-- `listen_and_dispatch_message` raises its `CancelledError` again. -/
  | endPubsub
  /-- `listen_to_stream` breaks out of its loop. -/
  | endStream
  /-- The `CancelledError` meets `listen_to_stream` in its sleep, where nothing catches it. -/
  | cancelStream
  /-- The lifespan goes on. -/
  | advance
  | timeout

namespace Worker

variable {κ : Type} [DecidableEq κ]

def publishedBy (s : Worker κ) (t : κ) : BackgroundAwait → List Broadcast
  | .redis .publishWsPush => s.published ++ ((s.push t).map PushTask.broadcast).toList
  | _ => s.published

/-- `gather` raises as soon as one of the listeners has let its `CancelledError` through, and goes on
waiting for the other one where one has returned. -/
def gathered (s : Worker κ) : Bool :=
  s.pubsub = .cancelled || s.stream = .cancelled || s.pubsub = .returned && s.stream = .returned

def tearDown (s : Worker κ) (rest : List (Teardown κ)) : Teardown κ → Option (Worker κ)
  | .cancelListeners =>
    some { s with pubsub := .cancelling, stream := .cancelling, teardown := some rest }
  | .gatherListeners => if s.gathered then some { s with teardown := some rest } else none
  | .drainBackgroundTasks =>
    if s.tasks.background = ∅ then some { s with teardown := some rest }
    else some { s with teardown := some (.wait s.tasks.background :: rest) }
  | .wait ts => if s.tasks.unfinished ts = ∅ then some { s with teardown := some rest } else none
  | .disconnectRedis => some { s with redisClosed := true, teardown := some rest }
  | .disconnectDatabase => some { s with teardown := some rest }

def step (teardown : List (Teardown κ)) (s : Worker κ) : WorkerAct κ → Option (Worker κ)
  | .spawnPush t p => (s.tasks.spawnTask t p.awaits).map fun tasks =>
    { s with
      tasks
      push := Function.update s.push t (some p)
      owed := if s.teardown.isNone then insert t s.owed else s.owed }
  | .spawnDispatch t =>
    if s.pubsub = .cancelled then none
    else (s.tasks.spawnTask t [.handler]).map fun tasks =>
      { s with tasks, push := Function.update s.push t none }
  | .resume t => (s.tasks.resume t).map fun (a, tasks) =>
    { s with tasks, published := s.publishedBy t a }
  | .finish t result => (s.tasks.finish t result).map fun tasks => { s with tasks }
  | .handleCompletion t => (s.tasks.handleCompletion t).map fun tasks => { s with tasks }
  | .shutdown => if s.teardown.isNone then some { s with teardown := some teardown } else none
  | .endPubsub => if s.pubsub = .cancelling then some { s with pubsub := .cancelled } else none
  | .endStream => if s.stream = .cancelling then some { s with stream := .returned } else none
  | .cancelStream => if s.stream = .cancelling then some { s with stream := .cancelled } else none
  | .advance =>
    match s.teardown with
    | some (c :: rest) => s.tearDown rest c
    | _ => none
  | .timeout =>
    match s.teardown with
    | some (.wait ts :: rest) =>
      let pending := s.tasks.unfinished ts
      some { s with
        tasks := s.tasks.cancel pending, waited := s.waited ∪ pending, teardown := some rest }
    | _ => none

/-- Redis is closed only when all push tasks from before the shutdown have ended or been waited for until
the drain timeout. -/
def Flushed (s : Worker κ) : Prop :=
  s.redisClosed = true → ∀ t ∈ s.owed, s.tasks.isDone t = true ∨ t ∈ s.waited

/-- Where the step begins the shutdown, every push task has ended by then. -/
def PushesDone (s : Worker κ) : WorkerAct κ → Prop
  | .shutdown => ∀ t ∈ s.owed, s.tasks.isDone t = true
  | _ => True

instance (s : Worker κ) : DecidablePred s.PushesDone
  | .shutdown => inferInstanceAs (Decidable (∀ t ∈ s.owed, s.tasks.isDone t = true))
  | .spawnPush .. | .spawnDispatch _ | .resume _ | .finish .. | .handleCompletion _ | .endPubsub
  | .endStream | .cancelStream | .advance | .timeout => instDecidableTrue

variable {s s' : Worker κ} {a : WorkerAct κ} {program : List (Teardown κ)} {t : κ}

/-! ### What a step does -/

/-- What a part of the teardown may change. -/
structure TornDown (s : Worker κ) (rest : List (Teardown κ)) (c : Teardown κ) (s' : Worker κ) : Prop where
  tasks : s'.tasks = s.tasks
  push : s'.push = s.push
  owed : s'.owed = s.owed
  waited : s'.waited = s.waited
  published : s'.published = s.published
  closed : s'.redisClosed = (s.redisClosed || decide (c = .disconnectRedis))
  teardown : s'.teardown = some rest ∨
    c = .drainBackgroundTasks ∧ s'.teardown = some (.wait s.tasks.background :: rest)
  drained : c = .drainBackgroundTasks → s'.teardown = some rest → s.tasks.background = ∅
  waitedFor : ∀ ts, c = .wait ts → s.tasks.unfinished ts = ∅

theorem tornDown_of_tearDown {rest : List (Teardown κ)} {c : Teardown κ}
    (h : s.tearDown rest c = some s') : TornDown s rest c s' := by
  cases c with
  | cancelListeners | disconnectDatabase =>
    obtain rfl := Option.some.inj h
    exact ⟨rfl, rfl, rfl, rfl, rfl, by simp, .inl rfl, nofun, nofun⟩
  | disconnectRedis =>
    obtain rfl := Option.some.inj h
    exact ⟨rfl, rfl, rfl, rfl, rfl, by simp, .inl rfl, nofun, nofun⟩
  | gatherListeners =>
    simp only [tearDown] at h
    split at h
    · obtain rfl := Option.some.inj h
      exact ⟨rfl, rfl, rfl, rfl, rfl, by simp, .inl rfl, nofun, nofun⟩
    · cases h
  | drainBackgroundTasks =>
    simp only [tearDown] at h
    split at h
    · next hempty =>
      obtain rfl := Option.some.inj h
      exact ⟨rfl, rfl, rfl, rfl, rfl, by simp, .inl rfl, fun _ _ => hempty, nofun⟩
    · obtain rfl := Option.some.inj h
      refine ⟨rfl, rfl, rfl, rfl, rfl, by simp, .inr ⟨rfl, rfl⟩, fun _ hrest => ?_, nofun⟩
      exact absurd (congrArg List.length (Option.some.inj hrest)) (by simp)
  | wait ts =>
    simp only [tearDown] at h
    split at h
    · next hempty =>
      obtain rfl := Option.some.inj h
      exact ⟨rfl, rfl, rfl, rfl, rfl, by simp, .inl rfl, nofun, fun _ heq =>
        Teardown.wait.inj heq ▸ hempty⟩
    · cases h

inductive Move (program : List (Teardown κ)) (s : Worker κ) : WorkerAct κ → Worker κ → Prop
  | spawnPush {t : κ} {p : PushTask} {tasks : Tasks κ BackgroundAwait}
    (h : s.tasks.spawnTask t p.awaits = some tasks) :
    Move program s (.spawnPush t p) { s with
      tasks
      push := Function.update s.push t (some p)
      owed := if s.teardown.isNone then insert t s.owed else s.owed }
  | spawnDispatch {t : κ} {tasks : Tasks κ BackgroundAwait}
    (h : s.tasks.spawnTask t [.handler] = some tasks) :
    Move program s (.spawnDispatch t) { s with tasks, push := Function.update s.push t none }
  | resume {t : κ} {a : BackgroundAwait} {tasks : Tasks κ BackgroundAwait}
    (h : s.tasks.resume t = some (a, tasks)) :
    Move program s (.resume t) { s with tasks, published := s.publishedBy t a }
  | finish {t : κ} {result : Except Interruption Unit} {tasks : Tasks κ BackgroundAwait}
    (h : s.tasks.finish t result = some tasks) : Move program s (.finish t result) { s with tasks }
  | handleCompletion {t : κ} {tasks : Tasks κ BackgroundAwait}
    (h : s.tasks.handleCompletion t = some tasks) :
    Move program s (.handleCompletion t) { s with tasks }
  | shutdown (h : s.teardown = none) : Move program s .shutdown { s with teardown := some program }
  | endPubsub : Move program s .endPubsub { s with pubsub := .cancelled }
  | endStream : Move program s .endStream { s with stream := .returned }
  | cancelStream : Move program s .cancelStream { s with stream := .cancelled }
  | advance {c : Teardown κ} {rest : List (Teardown κ)} {s' : Worker κ}
    (h : s.teardown = some (c :: rest)) (hdown : TornDown s rest c s') : Move program s .advance s'
  | timeout {ts : Finset κ} {rest : List (Teardown κ)} (h : s.teardown = some (.wait ts :: rest)) :
    Move program s .timeout { s with
      tasks := s.tasks.cancel (s.tasks.unfinished ts)
      waited := s.waited ∪ s.tasks.unfinished ts
      teardown := some rest }

theorem move_of_step (h : step program s a = some s') : Move program s a s' := by
  cases a with
  | spawnPush t p =>
    obtain ⟨tasks, htasks, rfl⟩ := Option.map_eq_some_iff.mp h
    exact .spawnPush htasks
  | spawnDispatch t =>
    simp only [step] at h
    split at h
    · cases h
    · obtain ⟨tasks, htasks, rfl⟩ := Option.map_eq_some_iff.mp h
      exact .spawnDispatch htasks
  | resume t =>
    obtain ⟨⟨a, tasks⟩, htasks, rfl⟩ := Option.map_eq_some_iff.mp h
    exact .resume htasks
  | finish t result =>
    obtain ⟨tasks, htasks, rfl⟩ := Option.map_eq_some_iff.mp h
    exact .finish htasks
  | handleCompletion t =>
    obtain ⟨tasks, htasks, rfl⟩ := Option.map_eq_some_iff.mp h
    exact .handleCompletion htasks
  | shutdown =>
    simp only [step] at h
    split at h
    · next hnone =>
      obtain rfl := Option.some.inj h
      exact .shutdown (Option.isNone_iff_eq_none.mp hnone)
    · cases h
  | endPubsub =>
    simp only [step] at h
    split at h
    · obtain rfl := Option.some.inj h
      exact .endPubsub
    · cases h
  | endStream =>
    simp only [step] at h
    split at h
    · obtain rfl := Option.some.inj h
      exact .endStream
    · cases h
  | cancelStream =>
    simp only [step] at h
    split at h
    · obtain rfl := Option.some.inj h
      exact .cancelStream
    · cases h
  | advance =>
    simp only [step] at h
    split at h
    · next c rest hteardown => exact .advance hteardown (tornDown_of_tearDown h)
    · cases h
  | timeout =>
    simp only [step] at h
    split at h
    · next ts rest hteardown =>
      obtain rfl := Option.some.inj h
      exact .timeout hteardown
    · cases h

theorem Move.tasks (hm : Move program s a s') :
    s.tasks.Later s'.tasks ∧ (s.tasks.Held → s'.tasks.Held) := by
  cases hm with
  | spawnPush h | spawnDispatch h =>
    refine ⟨?_, fun hheld => hheld.spawnTask h⟩
    obtain ⟨hnone, rfl⟩ := Tasks.spawnTask_eq_some h
    exact ⟨(Tasks.later_set (Tasks.isDone_of_none hnone)).spawned,
      (Tasks.later_set (Tasks.isDone_of_none hnone)).done⟩
  | resume h =>
    obtain ⟨awaits, hstate, rfl⟩ := Tasks.resume_eq_some h
    have hundone := Tasks.isDone_of_pending hstate
    exact ⟨Tasks.later_set hundone, fun hheld => hheld.set (hheld _ (by rw [hstate]; rfl) hundone)⟩
  | finish h =>
    obtain ⟨awaits, hstate, -, rfl⟩ := Tasks.finish_eq_some h
    have hundone := Tasks.isDone_of_pending hstate
    exact ⟨Tasks.later_set hundone, fun hheld => hheld.set (hheld _ (by rw [hstate]; rfl) hundone)⟩
  | handleCompletion h =>
    refine ⟨?_, fun hheld => hheld.handleCompletion h⟩
    obtain ⟨-, rfl⟩ := Tasks.handleCompletion_eq_some h
    exact ⟨fun _ h => h, fun _ _ h _ => h⟩
  | shutdown | endPubsub | endStream | cancelStream => exact ⟨.refl _, id⟩
  | advance h hdown => exact hdown.tasks ▸ ⟨.refl _, id⟩
  | timeout h => exact ⟨⟨fun _ h => h, fun _ _ h _ => h⟩, id⟩

/-! ### What the tasks publish -/

def Accounted (s : Worker κ) : Prop := ∀ t p, s.push t = some p →
  p.broadcast ∈ s.published ∨
    (∃ awaits, s.tasks.state t = some (.pending awaits) ∧ .redis .publishWsPush ∈ awaits) ∨
    ∃ e, s.tasks.state t = some (.done (.error e))

theorem publishWsPush_mem_awaits (p : PushTask) : .redis .publishWsPush ∈ p.awaits := by
  cases p with
  | message push => exact List.mem_singleton_self _
  | group task => cases task <;> simp [PushTask.awaits]

omit [DecidableEq κ] in
theorem published_subset (s : Worker κ) (t : κ) (a : BackgroundAwait) :
    s.published ⊆ s.publishedBy t a := by
  unfold publishedBy
  split
  · exact List.subset_append_left ..
  · exact List.Subset.refl _

theorem Accounted.spawn (h : s.Accounted) {q : Option PushTask} {awaits : List BackgroundAwait}
    (hawaits : ∀ p, q = some p → .redis .publishWsPush ∈ awaits)
    (htasks : s'.tasks.state = (s.tasks.set t (.pending awaits)).state)
    (hpush : s'.push = Function.update s.push t q) (hpublished : s'.published = s.published) :
    s'.Accounted := by
  intro u p hu
  rw [htasks, hpublished]
  rcases eq_or_ne u t with rfl | hne
  · rw [hpush, Function.update_self] at hu
    exact .inr (.inl ⟨awaits, Tasks.set_state_self, hawaits p hu⟩)
  · rw [hpush, Function.update_of_ne hne] at hu
    rw [Tasks.set_state_of_ne hne]
    exact h u p hu

theorem Accounted.resume (h : s.Accounted) {a : BackgroundAwait} {awaits : List BackgroundAwait}
    (hstate : s.tasks.state t = some (.pending (a :: awaits))) :
    Accounted { s with tasks := s.tasks.set t (.pending awaits), published := s.publishedBy t a } := by
  intro u p hu
  have hpush : s.push u = some p := hu
  rcases h u p hpush with hpublished | hrest
  · exact .inl (published_subset s t a hpublished)
  · rcases eq_or_ne u t with rfl | hne
    · rcases hrest with ⟨awaits', hstate', hmem⟩ | ⟨e, hstate'⟩
      · obtain rfl := TaskState.pending.inj (Option.some.inj (hstate'.symm.trans hstate))
        rcases List.mem_cons.mp hmem with rfl | hmem
        · -- the task comes back from its publication
          refine .inl ?_
          simp only [publishedBy, hpush, Option.map_some, Option.toList_some]
          exact List.mem_concat_self
        · exact .inr (.inl ⟨awaits, Tasks.set_state_self, hmem⟩)
      · cases hstate'.symm.trans hstate
    · refine .inr ?_
      rw [Tasks.set_state_of_ne hne]
      exact hrest

theorem Accounted.finish (h : s.Accounted) {result : Except Interruption Unit}
    {awaits : List BackgroundAwait} (hstate : s.tasks.state t = some (.pending awaits))
    (hreturned : result = .ok () → awaits = []) :
    Accounted { s with tasks := s.tasks.set t (.done result) } := by
  intro u p hu
  rcases h u p hu with hpublished | hrest
  · exact .inl hpublished
  · rcases eq_or_ne u t with rfl | hne
    · rcases hrest with ⟨awaits', hstate', hmem⟩ | ⟨e, hstate'⟩
      · obtain rfl := TaskState.pending.inj (Option.some.inj (hstate'.symm.trans hstate))
        cases result with
        | ok _ =>
          rw [hreturned rfl] at hmem
          cases hmem
        | error e => exact .inr (.inr ⟨e, Tasks.set_state_self⟩)
      · cases hstate'.symm.trans hstate
    · refine .inr ?_
      rw [Tasks.set_state_of_ne hne]
      exact hrest

theorem Accounted.move (h : s.Accounted) (hm : Move program s a s') : s'.Accounted := by
  cases hm with
  | @spawnPush t q tasks hspawn =>
    obtain ⟨-, rfl⟩ := Tasks.spawnTask_eq_some hspawn
    exact h.spawn (fun p hp => Option.some.inj hp ▸ publishWsPush_mem_awaits q) rfl rfl rfl
  | spawnDispatch hspawn =>
    obtain ⟨-, rfl⟩ := Tasks.spawnTask_eq_some hspawn
    exact h.spawn (fun p hp => by cases hp) rfl rfl rfl
  | resume hresume =>
    obtain ⟨awaits, hstate, rfl⟩ := Tasks.resume_eq_some hresume
    exact h.resume hstate
  | finish hfinish =>
    obtain ⟨awaits, hstate, hreturned, rfl⟩ := Tasks.finish_eq_some hfinish
    exact h.finish hstate hreturned
  | handleCompletion hcompletion =>
    obtain ⟨-, rfl⟩ := Tasks.handleCompletion_eq_some hcompletion
    exact h
  | shutdown | endPubsub | endStream | cancelStream | timeout => exact h
  | advance hteardown hdown =>
    intro u p hu
    rw [hdown.push] at hu
    rw [hdown.published, hdown.tasks]
    exact h u p hu

omit [DecidableEq κ] in
theorem Accounted.of_isDone (h : s.Accounted) {p : PushTask} (hp : s.push t = some p)
    (hdone : s.tasks.isDone t = true) :
    p.broadcast ∈ s.published ∨ ∃ e, s.tasks.state t = some (.done (.error e)) := by
  rcases h t p hp with hpublished | ⟨awaits, hstate, -⟩ | hraised
  · exact .inl hpublished
  · rw [Tasks.isDone_of_pending hstate] at hdone
    cases hdone
  · exact .inr hraised

/-! ### Runs -/

structure Tracked (s : Worker κ) : Prop where
  held : s.tasks.Held
  spawned : ∀ t ∈ s.owed, (s.tasks.state t).isSome
  serving : s.teardown = none → s.redisClosed = false

omit [DecidableEq κ] in
theorem Tracked.init : Tracked ({} : Worker κ) where
  held _ hstate := by cases hstate
  spawned _ ht := by cases ht
  serving _ := rfl

theorem Tracked.move (h : s.Tracked) (hm : Move program s a s') : s'.Tracked := by
  refine ⟨hm.tasks.2 h.held, fun t ht => ?_, fun hserving => ?_⟩
  · have hlater := hm.tasks.1
    cases hm with
    | @spawnPush t' p tasks hspawn =>
      have ht : t ∈ if s.teardown.isNone then insert t' s.owed else s.owed := ht
      split at ht
      · rcases Finset.mem_insert.mp ht with rfl | hold
        · obtain ⟨-, rfl⟩ := Tasks.spawnTask_eq_some hspawn
          exact Option.isSome_of_eq_some Tasks.set_state_self
        · exact hlater.spawned t (h.spawned t hold)
      · exact hlater.spawned t (h.spawned t ht)
    | advance hteardown hdown => exact hlater.spawned t (h.spawned t (hdown.owed ▸ ht))
    | _ => exact hlater.spawned t (h.spawned t ht)
  · cases hm with
    | advance hteardown hdown =>
      rcases hdown.teardown with hrest | ⟨-, hrest⟩
      · cases hserving.symm.trans hrest
      · cases hserving.symm.trans hrest
    | shutdown | timeout => cases hserving
    | _ => exact h.serving hserving

omit [DecidableEq κ] in
theorem Tracked.isDone_iff (h : s.Tracked) (ht : t ∈ s.owed) :
    t ∉ s.tasks.unfinished s.tasks.background ↔ s.tasks.isDone t = true :=
  h.held.mem_unfinished (h.spawned t ht)

structure Undrained (s : Worker κ) : Prop where
  waited : s.waited = ∅
  teardown : ∀ todo, s.teardown = some todo → todo <:+ lifespanTeardown

theorem Undrained.move (h : s.Undrained) (hm : Move lifespanTeardown s a s') : s'.Undrained := by
  cases hm with
  | shutdown =>
    refine ⟨h.waited, fun todo htodo => ?_⟩
    exact Option.some.inj htodo ▸ List.suffix_rfl
  | @advance c rest s' hteardown hdown =>
    have hsuffix := h.teardown _ hteardown
    refine ⟨hdown.waited.trans h.waited, fun todo htodo => ?_⟩
    rcases hdown.teardown with hrest | ⟨rfl, -⟩
    · obtain rfl := Option.some.inj (hrest.symm.trans htodo)
      exact (List.suffix_cons ..).trans hsuffix
    · have hmem := hsuffix.subset (List.mem_cons_self ..)
      simp [lifespanTeardown] at hmem
  | timeout hteardown =>
    have hmem := (h.teardown _ hteardown).subset (List.mem_cons_self ..)
    simp [lifespanTeardown] at hmem
  | _ => exact ⟨h.waited, h.teardown⟩

def Settled (s : Worker κ) : Prop := s.teardown ≠ none → ∀ t ∈ s.owed, s.tasks.isDone t = true

omit [DecidableEq κ] in
theorem Settled.flushed (h : s.Settled) (ht : s.Tracked) : s.Flushed := by
  intro hclosed t howed
  refine .inl (h (fun hserving => ?_) t howed)
  cases hclosed.symm.trans (ht.serving hserving)

theorem Settled.move (h : s.Settled) (hdone : s.PushesDone a) (hm : Move program s a s') :
    s'.Settled := by
  have hlater := hm.tasks.1
  cases hm with
  | shutdown => exact fun _ => hdone
  | @spawnPush t p tasks hspawn =>
    intro hteardown u howed
    have hteardown : s.teardown ≠ none := hteardown
    have howed : u ∈ if s.teardown.isNone then insert t s.owed else s.owed := howed
    rw [if_neg fun hnone => hteardown (Option.isNone_iff_eq_none.mp hnone)] at howed
    exact hlater.isDone (h hteardown u howed)
  | advance hstarted hdown =>
    intro _ u howed
    have hstarted : s.teardown ≠ none := by rw [hstarted]; nofun
    exact hlater.isDone (h hstarted u (hdown.owed ▸ howed))
  | timeout hstarted =>
    intro _ u howed
    have hstarted : s.teardown ≠ none := by rw [hstarted]; nofun
    exact hlater.isDone (h hstarted u howed)
  | spawnDispatch | resume | finish | handleCompletion | endPubsub | endStream | cancelStream =>
    exact fun hteardown u howed => hlater.isDone (h hteardown u howed)

theorem run_closing (hserving : s.teardown = none) :
    ∃ s', run (step lifespanTeardown) s [.shutdown, .advance, .endPubsub, .advance, .advance] = some s' ∧
      s'.redisClosed = true ∧ s'.tasks = s.tasks ∧ s'.owed = s.owed ∧ s'.waited = s.waited := by
  have hrun : run (step lifespanTeardown) s [.shutdown, .advance, .endPubsub, .advance, .advance] =
      some { s with
        pubsub := .cancelled
        stream := .cancelling
        redisClosed := true
        teardown := some [.disconnectDatabase] } := by
    simp [run, step, tearDown, gathered, lifespanTeardown, hserving]
  exact ⟨_, hrun, rfl, rfl, rfl, rfl⟩

/-- A shutdown loses no push task, however it goes on, exactly if none is left when it begins. -/
theorem flushed_iff (ht : s.Tracked) (hu : s.Undrained) (hserving : s.teardown = none) :
    (∀ t ∈ s.owed, s.tasks.isDone t = true) ↔
      ∀ as s', run (step lifespanTeardown) s (.shutdown :: as) = some s' → s'.Flushed := by
  constructor
  · intro hdone as s' hrun
    obtain ⟨s₁, hshutdown, hrest⟩ := run_cons_eq_some.mp hrun
    have hm : Move lifespanTeardown s .shutdown s₁ := move_of_step hshutdown
    have hbegins : s.PushesDone .shutdown := hdone
    have hsettled : s₁.Settled :=
      Settled.move (fun hteardown => absurd hserving hteardown) hbegins hm
    -- the tasks that the shutdown owes have all ended, whatever is spawned and done from now on
    have hends : s'.Tracked ∧ s'.Settled ∧ s'.teardown ≠ none := by
      refine run_induction (I := fun m => m.Tracked ∧ m.Settled ∧ m.teardown ≠ none)
        (fun m b m' h hs => ?_) hrest ⟨ht.move hm, hsettled, ?_⟩
      · have hmove := move_of_step hs
        refine ⟨h.1.move hmove, h.2.1.move ?_ hmove, ?_⟩
        · cases hmove with
          | shutdown hnone => exact absurd hnone h.2.2
          | _ => trivial
        · cases hmove with
          | advance hteardown hdown =>
            rcases hdown.teardown with hafter | ⟨-, hwait⟩
            · rw [hafter]
              nofun
            · rw [hwait]
              nofun
          | shutdown | timeout => nofun
          | _ => exact h.2.2
      · cases hm
        nofun
    exact hends.2.1.flushed hends.1
  · intro hflushed t howed
    obtain ⟨s', hrun, hclosed, htasks, hsame, hwaited⟩ := run_closing hserving
    rcases hflushed _ s' hrun hclosed t (hsame ▸ howed) with hdone | hmem
    · exact htasks ▸ hdone
    · rw [hwaited, hu.waited] at hmem
      exact absurd hmem (Finset.notMem_empty t)

/-- In every run of the lifespan no push task from before the shutdown is left behind if all of them have
ended when it begins. If one has not, the shutdown may close Redis before that one ends. A push task that
is done has published, or has raised. -/
theorem shutdown_flushes_iff (acts : List (WorkerAct κ)) (s : Worker κ)
    (hrun : run (step lifespanTeardown) {} acts = some s) :
    (Guarded (step lifespanTeardown) PushesDone {} acts →
      ∀ pre, pre <+: acts → ∀ m, run (step lifespanTeardown) {} pre = some m → m.Flushed) ∧
    (s.teardown = none → ((∀ t ∈ s.owed, s.tasks.isDone t = true) ↔
      ∀ as s', run (step lifespanTeardown) s (.shutdown :: as) = some s' → s'.Flushed)) ∧
    ∀ t p, s.push t = some p → s.tasks.isDone t = true →
      p.broadcast ∈ s.published ∨ ∃ e, s.tasks.state t = some (.done (.error e)) := by
  refine ⟨fun hguarded pre hpre m hm => ?_, fun hserving => ?_, fun t p hp hdone => ?_⟩
  · obtain ⟨post, rfl⟩ := hpre
    have hends : m.Tracked ∧ m.Settled :=
      Guarded.induction (I := fun s => s.Tracked ∧ s.Settled)
        (fun s a s' h hG hs => ⟨h.1.move (move_of_step hs), h.2.move hG (move_of_step hs)⟩)
        hguarded.append.1 hm ⟨.init, fun hteardown => absurd rfl hteardown⟩
    exact hends.2.flushed hends.1
  · have hstate : s.Tracked ∧ s.Undrained :=
      run_induction (I := fun s => s.Tracked ∧ s.Undrained)
        (fun _ _ _ h hs => ⟨h.1.move (move_of_step hs), h.2.move (move_of_step hs)⟩) hrun
        ⟨.init, rfl, nofun⟩
    exact flushed_iff hstate.1 hstate.2 hserving
  · have haccounted : s.Accounted :=
      run_induction (fun _ _ _ h hs => h.move (move_of_step hs)) hrun nofun
    exact haccounted.of_isDone hp hdone

/-! ### A teardown that drains -/

/-- How far a teardown has come that drains before it closes Redis. -/
inductive Draining (s : Worker κ) : Prop
  | serving (h : s.teardown = none) (hopen : s.redisClosed = false)
  | before {before after : List (Teardown κ)}
    (h : s.teardown = some (before ++ .drainBackgroundTasks :: after))
    (hbefore : .disconnectRedis ∉ before) (hopen : s.redisClosed = false)
  | waiting {ts : Finset κ} {after : List (Teardown κ)} (h : s.teardown = some (.wait ts :: after))
    (hopen : s.redisClosed = false)
    (hts : ∀ t ∈ s.owed, s.tasks.isDone t = true ∨ t ∈ s.waited ∨ t ∈ ts)
  | drained (h : s.teardown ≠ none)
    (hdrained : ∀ t ∈ s.owed, s.tasks.isDone t = true ∨ t ∈ s.waited)

omit [DecidableEq κ] in
theorem Draining.flushed (h : s.Draining) : s.Flushed := by
  intro hclosed
  cases h with
  | drained h hdrained => exact hdrained
  | serving h hopen | before h hbefore hopen | waiting h hopen hts =>
    cases hclosed.symm.trans hopen

omit [DecidableEq κ] in
theorem Draining.of_later (h : s.Draining) (hlater : s.tasks.Later s'.tasks)
    (hteardown : s'.teardown = s.teardown) (hclosed : s'.redisClosed = s.redisClosed)
    (howed : s.teardown ≠ none → s'.owed = s.owed) (hwaited : s'.waited = s.waited) : s'.Draining := by
  cases h with
  | serving h hopen => exact .serving (hteardown.trans h) (hclosed.trans hopen)
  | before h hbefore hopen => exact .before (hteardown.trans h) hbefore (hclosed.trans hopen)
  | @waiting ts after h hopen hts =>
    have hsame : s'.owed = s.owed := howed (by rw [h]; nofun)
    refine .waiting (hteardown.trans h) (hclosed.trans hopen) fun t ht => ?_
    rw [hwaited]
    exact (hts t (hsame ▸ ht)).imp_left hlater.isDone
  | drained h hdrained =>
    refine .drained (hteardown ▸ h) fun t ht => ?_
    rw [hwaited]
    exact (hdrained t (howed h ▸ ht)).imp_left hlater.isDone

theorem Draining.drain {rest : List (Teardown κ)} (ht : s.Tracked) (hopen : s'.redisClosed = false)
    (hdown : TornDown s rest .drainBackgroundTasks s') : s'.Draining := by
  rcases hdown.teardown with hafter | ⟨-, hwait⟩
  · refine .drained (by rw [hafter]; nofun) fun t htowed => .inl ?_
    rw [hdown.tasks]
    refine (ht.isDone_iff (hdown.owed ▸ htowed)).mp ?_
    rw [hdown.drained rfl hafter]
    exact fun hmem => absurd (Finset.mem_filter.mp hmem).1 (Finset.notMem_empty t)
  · refine .waiting hwait hopen fun t htowed => ?_
    have htowed : t ∈ s.owed := hdown.owed ▸ htowed
    rw [hdown.tasks]
    cases hdone : s.tasks.isDone t with
    | true => exact .inl rfl
    | false => exact .inr (.inr (ht.held t (ht.spawned t htowed) hdone))

theorem Draining.waitedFor {ts : Finset κ} {rest : List (Teardown κ)}
    (hts : ∀ t ∈ s.owed, s.tasks.isDone t = true ∨ t ∈ s.waited ∨ t ∈ ts)
    (hdown : TornDown s rest (.wait ts) s') : s'.Draining := by
  have hempty : s.tasks.unfinished ts = ∅ := hdown.waitedFor ts rfl
  rcases hdown.teardown with hafter | ⟨hwait, -⟩
  · refine .drained (by rw [hafter]; nofun) fun t htowed => ?_
    rw [hdown.tasks, hdown.waited]
    rcases hts t (hdown.owed ▸ htowed) with hdone | hwaited | hmem
    · exact .inl hdone
    · exact .inr hwaited
    · left
      by_contra hundone
      have hleft : t ∈ s.tasks.unfinished ts :=
        Finset.mem_filter.mpr ⟨hmem, Bool.eq_false_iff.mpr hundone⟩
      rw [hempty] at hleft
      exact absurd hleft (Finset.notMem_empty t)
  · cases hwait

theorem Draining.advance {c : Teardown κ} {rest : List (Teardown κ)} (h : s.Draining) (ht : s.Tracked)
    (hteardown : s.teardown = some (c :: rest)) (hdown : TornDown s rest c s') : s'.Draining := by
  cases h with
  | serving h => cases h.symm.trans hteardown
  | @before before after h hbefore hopen =>
    have hsplit : before ++ .drainBackgroundTasks :: after = c :: rest :=
      Option.some.inj (h.symm.trans hteardown)
    have hstill (hne : c ≠ .disconnectRedis) : s'.redisClosed = false := by
      rw [hdown.closed, hopen]
      simp [hne]
    rcases List.append_eq_cons_iff.mp hsplit with ⟨-, hdrain⟩ | ⟨before', rfl, hrest⟩
    · obtain ⟨rfl, rfl⟩ := List.cons.inj hdrain
      exact .drain ht (hstill nofun) hdown
    · have hne : c ≠ .disconnectRedis := fun heq => hbefore (heq ▸ List.mem_cons_self ..)
      have hlater : .disconnectRedis ∉ before' := fun hmem => hbefore (List.mem_cons_of_mem c hmem)
      rcases hdown.teardown with hafter | ⟨-, hwait⟩
      · exact .before (hafter.trans (congrArg some hrest)) hlater (hstill hne)
      · have hwaiting : s'.teardown =
            some ((.wait s.tasks.background :: before') ++ .drainBackgroundTasks :: after) := by
          rw [hwait, hrest, List.cons_append]
        exact .before hwaiting (by simpa using hlater) (hstill hne)
  | @waiting ts after h hopen hts =>
    obtain ⟨rfl, rfl⟩ := List.cons.inj (Option.some.inj (h.symm.trans hteardown))
    exact .waitedFor hts hdown
  | drained h hdrained =>
    refine .drained ?_ fun t htowed => ?_
    · rcases hdown.teardown with hafter | ⟨-, hwait⟩
      · rw [hafter]
        nofun
      · rw [hwait]
        nofun
    · rw [hdown.tasks, hdown.waited]
      exact hdrained t (hdown.owed ▸ htowed)

theorem Draining.timeout {ts : Finset κ} {rest : List (Teardown κ)} (h : s.Draining)
    (hteardown : s.teardown = some (.wait ts :: rest)) :
    Draining { s with
      tasks := s.tasks.cancel (s.tasks.unfinished ts)
      waited := s.waited ∪ s.tasks.unfinished ts
      teardown := some rest } := by
  cases h with
  | serving h => cases h.symm.trans hteardown
  | @before before after h hbefore hopen =>
    have hsplit : before ++ .drainBackgroundTasks :: after = .wait ts :: rest :=
      Option.some.inj (h.symm.trans hteardown)
    rcases List.append_eq_cons_iff.mp hsplit with ⟨-, hdrain⟩ | ⟨before', rfl, hrest⟩
    · cases hdrain
    · exact .before (congrArg some hrest) (fun hmem => hbefore (List.mem_cons_of_mem _ hmem)) hopen
  | @waiting ts' after h hopen hts =>
    obtain ⟨hsame, -⟩ := List.cons.inj (Option.some.inj (h.symm.trans hteardown))
    obtain rfl := Teardown.wait.inj hsame
    refine .drained nofun fun t htowed => ?_
    show s.tasks.isDone t = true ∨ t ∈ s.waited ∪ s.tasks.unfinished ts'
    rw [Finset.mem_union]
    rcases hts t htowed with hdone | hwaited | hmem
    · exact .inl hdone
    · exact .inr (.inl hwaited)
    · cases hdone : s.tasks.isDone t with
      | true => exact .inl rfl
      | false => exact .inr (.inr (Finset.mem_filter.mpr ⟨hmem, hdone⟩))
  | drained h hdrained =>
    exact .drained nofun fun t htowed => (hdrained t htowed).imp_right (Finset.mem_union_left _)

/-- A teardown that drains before it closes Redis would leave no push task behind. -/
theorem flushed_of_drains {before after : List (Teardown κ)} (hbefore : .disconnectRedis ∉ before)
    {acts : List (WorkerAct κ)}
    (hrun : run (step (before ++ .drainBackgroundTasks :: after)) {} acts = some s) : s.Flushed := by
  have hdraining : s.Tracked ∧ s.Draining := by
    refine run_induction (I := fun s => s.Tracked ∧ s.Draining) (fun s a s' h hs => ?_) hrun
      ⟨.init, .serving rfl rfl⟩
    have hm := move_of_step hs
    refine ⟨h.1.move hm, ?_⟩
    have hlater := hm.tasks.1
    cases hm with
    | advance hteardown hdown => exact h.2.advance h.1 hteardown hdown
    | timeout hteardown => exact h.2.timeout hteardown
    | shutdown hserving => exact .before rfl hbefore (h.1.serving hserving)
    | spawnPush hspawn =>
      refine h.2.of_later hlater rfl rfl (fun hteardown => ?_) rfl
      exact if_neg fun hnone => hteardown (Option.isNone_iff_eq_none.mp hnone)
    | spawnDispatch | resume | finish | handleCompletion | endPubsub | endStream | cancelStream =>
      exact h.2.of_later hlater rfl rfl (fun _ => rfl) rfl
  exact hdraining.2.flushed

end Worker

namespace Sample

def joinPush : PushTask := .group (.pushGroupMembershipChange ⟨2⟩ ⟨4⟩ .join)

/-- The push is published before the shutdown, which the stream's listener ends from its sleep. -/
def publishedFirst : List (WorkerAct ℕ) :=
  [.spawnPush 0 joinPush, .resume 0, .finish 0 (.ok ()), .shutdown, .advance, .cancelStream, .advance,
    .advance]

end Sample

theorem shutdown_flushes_published :
    ∃ s : Worker ℕ, run (Worker.step lifespanTeardown) {} Sample.publishedFirst = some s ∧
      s.redisClosed = true ∧ s.owed = {0} ∧ s.Flushed ∧ Sample.joinPush.broadcast ∈ s.published := by
  obtain ⟨s, hs, hclosed, howed, hpublished⟩ :
      ∃ s ∈ run (Worker.step lifespanTeardown) {} Sample.publishedFirst,
        s.redisClosed = true ∧ s.owed = {0} ∧ Sample.joinPush.broadcast ∈ s.published := by decide
  have hdone : Guarded (Worker.step lifespanTeardown) Worker.PushesDone ({} : Worker ℕ)
      Sample.publishedFirst := by decide
  have hflushed := (Worker.shutdown_flushes_iff _ s hs).1 hdone _ List.prefix_rfl s hs
  exact ⟨s, hs, hclosed, howed, hflushed, hpublished⟩

/-- The task has been spawned and has not come back from its `PUBLISH` when Redis is closed. -/
theorem not_shutdown_flushes_pending :
    ∃ s : Worker ℕ, run (Worker.step lifespanTeardown) {}
        [.spawnPush 0 Sample.joinPush, .shutdown, .advance, .endPubsub, .advance, .advance] = some s ∧
      ¬ s.Flushed := by
  obtain ⟨s, hs, hclosed, howed, hundone, hwaited⟩ : ∃ s ∈ run (Worker.step lifespanTeardown) {}
      [.spawnPush 0 Sample.joinPush, .shutdown, .advance, .endPubsub, .advance, .advance],
      s.redisClosed = true ∧ 0 ∈ s.owed ∧ s.tasks.isDone 0 = false ∧ 0 ∉ s.waited := by decide
  refine ⟨s, hs, fun hflushed => ?_⟩
  rcases hflushed hclosed 0 howed with hdone | hmem
  · cases hundone.symm.trans hdone
  · exact hwaited hmem

end Messenger
