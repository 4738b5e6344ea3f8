import Messenger.Realtime.Edits
import Messenger.Realtime.Hub

/-! One `WebSocketManager` by itself. Its coroutines suspend where the source awaits and are resumed
in any order; queries answer with any groups, events tell of any memberships, and an await may raise. -/

namespace Messenger
open Transition

inductive ManagerTask (σ : Type) where
  /-- `register_connection` awaits `add_active_user`. -/
  | counting (user : UUID) (ws : σ)
  /-- `register_connection` awaits `list_user_groups`. -/
  | loading (user : UUID) (ws : σ)
  /-- `unregister_connection` awaits the lock of the user. -/
  | locking (user : UUID) (ws : σ)
  /-- `unregister_connection` holds the lock and awaits `remove_active_user`. -/
  | removing (user : UUID)
  /-- `_handle_group_deleted` awaits the frames to these members. -/
  | deleting (group : UUID) (members : Finset UUID)
  deriving DecidableEq

structure Manager (σ : Type) where
  registry : Registry σ := {}
  locked : UUID → Bool := fun _ => false
  tasks : Multiset (ManagerTask σ) := 0

inductive ManagerAct (σ : Type) where
  | register (user : UUID) (ws : σ)
  | counted (user : UUID) (ws : σ)
  /-- The groups that were loaded: none if the query timed out or failed. -/
  | loaded (user : UUID) (ws : σ) (groups : Finset UUID)
  | unregister (user : UUID) (ws : σ)
  | locks (user : UUID) (ws : σ)
  | removed (user : UUID)
  | handle (e : BusEvent)
  | sent (group : UUID) (members : Finset UUID)
  /-- The await of the task raises, and the coroutine ends there. -/
  | raises (t : ManagerTask σ)

namespace Manager

variable {σ : Type} [DecidableEq σ]

def setLock (m : Manager σ) (user : UUID) (b : Bool) : Manager σ :=
  { m with locked := Function.update m.locked user b }

def spawn (m : Manager σ) (t : ManagerTask σ) : Manager σ := { m with tasks := t ::ₘ m.tasks }

def resume (m : Manager σ) (t : ManagerTask σ) (next : Manager σ) : Option (Manager σ) :=
  if t ∈ m.tasks then some { next with tasks := next.tasks.erase t } else none

/-- `unregister_connection` from the lock to the Redis command. -/
def evict (m : Manager σ) (user : UUID) (ws : σ) : Manager σ :=
  let m' := { m with registry := m.registry.edit (.disconnect user ws) }
  if m.registry.IsLast user ws then (m'.setLock user true).spawn (.removing user) else m'

/-- `_dispatch_local_message`, up to the frames that it sends. -/
def dispatch (m : Manager σ) : BusEvent → Manager σ
  | .groupMembership user group .join =>
    { m with registry := m.registry.edit (.join user group) }
  | .groupMembership user group .leave =>
    { m with registry := m.registry.edit (.leave user group) }
  | .groupDeleted group =>
    let members := m.registry.groupConnections.at? group
    if members = ∅ then { m with registry := m.registry.edit (.deleteGroup group ∅) }
    else m.spawn (.deleting group members)

/-- `async with` releases the lock that the coroutine holds. -/
def unwind (m : Manager σ) : ManagerTask σ → Manager σ
  | .removing user => m.setLock user false
  | _ => m

def step (m : Manager σ) : ManagerAct σ → Option (Manager σ)
  | .register u ws =>
    some ({ m with registry := m.registry.edit (.connect u ws) }.spawn (.counting u ws))
  | .counted u ws => m.resume (.counting u ws) (m.spawn (.loading u ws))
  | .loaded u ws gs =>
    m.resume (.loading u ws) { m with registry := m.registry.edit (.mergeGroups u ws gs) }
  | .unregister u ws => some (m.spawn (.locking u ws))
  | .locks u ws => if m.locked u then none else m.resume (.locking u ws) (m.evict u ws)
  | .removed u => m.resume (.removing u) (m.setLock u false)
  | .handle e => some (m.dispatch e)
  | .sent g ms =>
    m.resume (.deleting g ms) { m with registry := m.registry.edit (.deleteGroup g ms) }
  | .raises t => m.resume t (m.unwind t)

def edit? (m : Manager σ) : ManagerAct σ → Option (Edit σ)
  | .register u ws => some (.connect u ws)
  | .loaded u ws gs => some (.mergeGroups u ws gs)
  | .locks u ws => some (.disconnect u ws)
  | .handle (.groupMembership u g .join) => some (.join u g)
  | .handle (.groupMembership u g .leave) => some (.leave u g)
  | .handle (.groupDeleted g) =>
    if m.registry.groupConnections.at? g = ∅ then some (.deleteGroup g ∅) else none
  | .sent g ms => some (.deleteGroup g ms)
  | .counted .. | .unregister .. | .removed _ | .raises _ => none

variable {m m' next : Manager σ} {a : ManagerAct σ} {t : ManagerTask σ} {u g : UUID} {ws : σ}

theorem resume_registry (h : m.resume t next = some m') : m'.registry = next.registry := by
  unfold resume at h
  split at h
  · rw [← Option.some.inj h]
  · cases h

omit [DecidableEq σ] in
theorem unwind_registry : (m.unwind t).registry = m.registry := by
  cases t <;> rfl

theorem evict_registry : (m.evict u ws).registry = m.registry.edit (.disconnect u ws) := by
  unfold evict
  split <;> rfl

theorem step_registry (h : m.step a = some m') :
    m'.registry = (m.edit? a).elim m.registry m.registry.edit := by
  cases a with
  | register u ws => rw [← Option.some.inj h]; rfl
  | counted u ws =>
    have hsame := resume_registry h
    exact hsame
  | loaded u ws gs => exact resume_registry h
  | unregister u ws => rw [← Option.some.inj h]; rfl
  | locks u ws =>
    simp only [step] at h
    split at h
    · cases h
    · exact (resume_registry h).trans evict_registry
  | removed u =>
    have hsame := resume_registry h
    exact hsame
  | handle e =>
    rw [← Option.some.inj h]
    cases e with
    | groupMembership u g action => cases action <;> rfl
    | groupDeleted g =>
      simp only [dispatch, edit?]
      split <;> rfl
  | sent g ms => exact resume_registry h
  | raises t => exact (resume_registry h).trans unwind_registry

theorem sound_step (hI : m.registry.Sound) (h : m.step a = some m') : m'.registry.Sound := by
  rw [step_registry h]
  cases m.edit? a with
  | none => exact hI
  | some e => exact hI.edit e

theorem registered_of_open {acts : List (ManagerAct σ)} (hrun : run step {} acts = some m)
    (hws : ws ∈ m.registry.localConnections.at? u) :
    ∃ pre post, acts = pre ++ .register u ws :: post ∧ .locks u ws ∉ post := by
  induction acts using List.reverseRecOn generalizing m with
  | nil =>
    obtain rfl := Option.some.inj hrun
    exact absurd hws (Finset.notMem_empty ws)
  | append_singleton acts a ih =>
    obtain ⟨m₀, hbefore, hlast⟩ := run_append_eq_some.mp hrun
    have hstep : m₀.step a = some m := run_singleton.symm.trans hlast
    -- an action that does not unregister the socket leaves its registration the last word
    have hkept : ws ∈ m₀.registry.localConnections.at? u → a ≠ .locks u ws →
        ∃ pre post, acts ++ [a] = pre ++ .register u ws :: post ∧ .locks u ws ∉ post := by
      intro hold hne
      obtain ⟨pre, post, rfl, hpost⟩ := ih hbefore hold
      refine ⟨pre, post ++ [a], by simp, ?_⟩
      simp only [List.mem_append, List.mem_singleton, not_or]
      exact ⟨hpost, hne.symm⟩
    rw [step_registry hstep] at hws
    cases hedit : m₀.edit? a with
    | none =>
      rw [hedit] at hws
      refine hkept hws ?_
      rintro rfl
      cases hedit
    | some e =>
      rw [hedit] at hws
      rcases Registry.mem_of_mem_edit hws with rfl | ⟨hold, hne⟩
      · -- only a registration connects a socket
        have hregister : a = .register u ws := by
          unfold edit? at hedit
          split at hedit <;> try cases hedit
          · rfl
          · split at hedit <;> cases hedit
        exact ⟨acts, [], by rw [hregister], List.not_mem_nil⟩
      · refine hkept hold ?_
        rintro rfl
        exact hne (Option.some.inj hedit).symm

/-- The tables are sound in every reachable state, and empty once every socket that a registration
has added was unregistered later on. -/
theorem routing_sound (acts : List (ManagerAct σ)) (m : Manager σ)
    (hrun : run step {} acts = some m) :
    m.registry.Sound ∧
      ((∀ pre u ws post, acts = pre ++ .register u ws :: post → .locks u ws ∈ post) →
        m.registry = {}) := by
  have hsound : m.registry.Sound :=
    run_induction (I := fun m : Manager σ => m.registry.Sound) (fun _ _ _ hI hs => sound_step hI hs)
      hrun Registry.Sound.empty
  refine ⟨hsound, fun hunregistered => hsound.eq_empty fun u => ?_⟩
  by_contra hne
  obtain ⟨ws, hws⟩ := Finset.nonempty_iff_ne_empty.mpr hne
  obtain ⟨pre, post, hacts, hpost⟩ := registered_of_open hrun hws
  exact hpost (hunregistered pre u ws post hacts)

/-- The socket closes while the groups of its user are being loaded. -/
theorem routing_sound_closed_while_loading :
    ∃ m : Manager ℕ, run step {} [.register ⟨1⟩ 0, .counted ⟨1⟩ 0, .unregister ⟨1⟩ 0, .locks ⟨1⟩ 0,
        .loaded ⟨1⟩ 0 {⟨2⟩}, .removed ⟨1⟩] = some m ∧ m.registry.Sound ∧ m.registry = {} := by
  obtain ⟨m, hm⟩ := Option.isSome_iff_exists.mp (show (run step ({} : Manager ℕ)
    [.register ⟨1⟩ 0, .counted ⟨1⟩ 0, .unregister ⟨1⟩ 0, .locks ⟨1⟩ 0, .loaded ⟨1⟩ 0 {⟨2⟩},
      .removed ⟨1⟩]).isSome by decide)
  obtain ⟨hsound, hempty⟩ := routing_sound _ m hm
  refine ⟨m, hm, hsound, hempty fun pre u ws post hacts => ?_⟩
  rcases pre with _ | ⟨a, pre⟩
  · obtain ⟨⟨rfl, rfl⟩, rfl⟩ := by simpa using hacts
    simp
  · have hlater : .register u ws ∈ pre ++ .register u ws :: post := by simp
    have htail : _ = pre ++ .register u ws :: post := (List.cons.inj hacts).2
    rw [← htail] at hlater
    simp at hlater

end Manager

/-! ### The workers of the cluster -/

namespace Hub

variable {ω σ : Type} [DecidableEq ω] [DecidableEq σ] {s : Hub ω σ} {a : HubAct ω σ} {w : ω}

theorem Rewrites.edit {r : Registry σ} (h : s.Rewrites a w r) :
    ∃ e, r = (s.registry w).edit e := by
  cases h with
  | @connect _ u ws => exact ⟨.connect u ws, rfl⟩
  | @merge _ u ws groups => exact ⟨.mergeGroups u ws (groups.getD ∅), rfl⟩
  | @disconnect _ u ws => exact ⟨.disconnect u ws, rfl⟩
  | @join _ u g => exact ⟨.join u g, rfl⟩
  | @leave _ u g => exact ⟨.leave u g, rfl⟩
  | @deleted _ g => exact ⟨.deleteGroup g ∅, rfl⟩
  | @finish _ g ms => exact ⟨.deleteGroup g ms, rfl⟩

theorem sound_of_reachable {d : Db} (h : Reachable step (init d) s) : (s.registry w).Sound := by
  refine h.induction (I := fun s : Hub ω σ => (s.registry w).Sound) ?_ Registry.Sound.empty
  intro s a s' hI hs
  rcases (move_of_step hs).registry w with heq | hrewrites
  · exact heq ▸ hI
  · obtain ⟨e, he⟩ := hrewrites.edit
    rw [he]
    exact hI.edit e

end Hub
end Messenger
