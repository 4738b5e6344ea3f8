import Mathlib.Data.Multiset.AddSub
import Messenger.Lib.Feed
import Messenger.Lib.Transition
import Messenger.Realtime.Registry
import Messenger.Redis.Queries

/-! Workers with their routing tables, the memberships in the database, and the bus between them.
A call or handler in progress is a task that says what it does when its await is over. An operation
on a group spawns its push when it commits; pushes reach the bus in any order, and each worker takes
the bus in its order. -/

namespace Messenger
open Transition

inductive Task (ω σ : Type) where
  /-- `register_connection` awaits `add_active_user`. -/
  | counting (w : ω) (user : UUID) (ws : σ)
  /-- `register_connection` awaits `list_user_groups`. -/
  | loading (w : ω) (user : UUID) (ws : σ)
  /-- It has the ids of the groups, or none because the query failed. -/
  | merging (w : ω) (user : UUID) (ws : σ) (groups : Option (Finset UUID))
  /-- `unregister_connection` awaits the lock of the user. -/
  | locking (w : ω) (user : UUID) (ws : σ)
  /-- `unregister_connection` holds the lock and awaits `remove_active_user`. -/
  | removing (w : ω) (user : UUID)
  /-- `_handle_group_deleted` awaits the frames to these members. -/
  | deleting (w : ω) (group : UUID) (members : Finset UUID)
  deriving DecidableEq

def Task.registration {ω σ : Type} : Task ω σ → Option (ω × UUID × σ)
  | .counting w u ws | .loading w u ws | .merging w u ws _ => some (w, u, ws)
  | .locking .. | .removing .. | .deleting .. => none

/-- `seen` holds the sockets that have ever been connected, and `hydrated` the registrations that
ended with the groups merged. -/
structure Hub (ω σ : Type) where
  db : Db
  outbox : Multiset BusEvent := 0
  bus : Feed ω BusEvent := .empty
  registry : ω → Registry σ := fun _ => {}
  locked : ω → UUID → Bool := fun _ _ => false
  counts : ActiveUserCounts := .empty
  tasks : Multiset (Task ω σ) := 0
  seen : Finset σ := ∅
  hydrated : Finset (ω × UUID × σ) := ∅

inductive HubAct (ω σ : Type) where
  | connect (w : ω) (user : UUID) (ws : σ)
  | count (w : ω) (user : UUID) (ws : σ)
  | countFails (w : ω) (user : UUID) (ws : σ)
  | load (w : ω) (user : UUID) (ws : σ)
  | loadFails (w : ω) (user : UUID) (ws : σ)
  | merge (w : ω) (user : UUID) (ws : σ) (groups : Option (Finset UUID))
  | disconnect (w : ω) (user : UUID) (ws : σ)
  | enter (w : ω) (user : UUID) (ws : σ)
  | remove (w : ω) (user : UUID)
  | removeFails (w : ω) (user : UUID)
  | request (op : GroupOperation)
  | publish (e : BusEvent)
  | drop (e : BusEvent)
  | deliver (w : ω)
  | miss (w : ω)
  | finish (w : ω) (group : UUID) (members : Finset UUID)

namespace Hub

variable {ω σ : Type} [DecidableEq ω] [DecidableEq σ]

def init (d : Db) : Hub ω σ := { db := d }

def setRegistry (s : Hub ω σ) (w : ω) (r : Registry σ) : Hub ω σ :=
  { s with registry := Function.update s.registry w r }

def setLock (s : Hub ω σ) (w : ω) (user : UUID) (b : Bool) : Hub ω σ :=
  { s with locked := Function.update s.locked w (Function.update (s.locked w) user b) }

def spawn (s : Hub ω σ) (t : Task ω σ) : Hub ω σ := { s with tasks := t ::ₘ s.tasks }

def done (s : Hub ω σ) (t : Task ω σ) : Hub ω σ := { s with tasks := s.tasks.erase t }

/-- `_dispatch_local_message`. The deletion of a group waits for the frames to its members. -/
def dispatch (s : Hub ω σ) (w : ω) : BusEvent → Hub ω σ
  | .groupMembership user group .join => s.setRegistry w ((s.registry w).join user group)
  | .groupMembership user group .leave => s.setRegistry w ((s.registry w).leave user group)
  | .groupDeleted group =>
    let members := (s.registry w).groupConnections.at? group
    if members = ∅ then s.setRegistry w ((s.registry w).deleteGroup group ∅)
    else s.spawn (.deleting w group members)

/-- The end of `register_connection`. -/
def merged (s : Hub ω σ) (w : ω) (user : UUID) (ws : σ) (groups : Option (Finset UUID)) : Hub ω σ :=
  { s.setRegistry w ((s.registry w).mergeGroups user ws (groups.getD ∅)) with
    hydrated := if groups.isSome ∧ ws ∈ (s.registry w).localConnections.at? user
      then insert (w, user, ws) s.hydrated else s.hydrated }

/-- The part of `unregister_connection` inside the lock, up to the Redis command. -/
def entered (s : Hub ω σ) (w : ω) (user : UUID) (ws : σ) : Hub ω σ :=
  let s' := s.setRegistry w ((s.registry w).disconnect user ws)
  if (s.registry w).IsLast user ws then (s'.setLock w user true).spawn (.removing w user) else s'

def resume (s : Hub ω σ) (t : Task ω σ) (next : Hub ω σ) : Option (Hub ω σ) :=
  if t ∈ s.tasks then some (next.done t) else none

def step (s : Hub ω σ) : HubAct ω σ → Option (Hub ω σ)
  | .connect w u ws =>
    if ws ∈ s.seen then none
    else some { (s.setRegistry w ((s.registry w).connect u ws)).spawn (.counting w u ws) with
      seen := insert ws s.seen }
  | .count w u ws => s.resume (.counting w u ws)
    { s.spawn (.loading w u ws) with counts := addActiveUser s.counts u }
  | .countFails w u ws => s.resume (.counting w u ws) s
  | .load w u ws => s.resume (.loading w u ws) (s.spawn (.merging w u ws (some (s.db.groupIds u))))
  | .loadFails w u ws => s.resume (.loading w u ws) (s.spawn (.merging w u ws none))
  | .merge w u ws groups => s.resume (.merging w u ws groups) (s.merged w u ws groups)
  | .disconnect w u ws => some (s.spawn (.locking w u ws))
  | .enter w u ws => if s.locked w u then none else s.resume (.locking w u ws) (s.entered w u ws)
  | .remove w u => s.resume (.removing w u)
    { s.setLock w u false with counts := removeActiveUser s.counts u }
  | .removeFails w u => s.resume (.removing w u) (s.setLock w u false)
  | .request op =>
    match op.call s.db with
    | .ok d => some { s with db := d, outbox := op.event ::ₘ s.outbox }
    | .error _ => none
  | .publish e =>
    if e ∈ s.outbox then some { s with outbox := s.outbox.erase e, bus := s.bus.publish e } else none
  | .drop e => if e ∈ s.outbox then some { s with outbox := s.outbox.erase e } else none
  | .deliver w => (s.bus.read w).map fun (e, bus) => { s with bus }.dispatch w e
  | .miss w => (s.bus.lose w).map fun bus => { s with bus }
  | .finish w g ms => s.resume (.deleting w g ms)
    (s.setRegistry w ((s.registry w).deleteGroup g ms))

/-! ### What a step can do -/

inductive Move (s : Hub ω σ) : HubAct ω σ → Hub ω σ → Prop where
  | connect {w u ws} (hnew : ws ∉ s.seen) : Move s (.connect w u ws)
    { (s.setRegistry w ((s.registry w).connect u ws)).spawn (.counting w u ws) with
      seen := insert ws s.seen }
  | count {w u ws} (ht : .counting w u ws ∈ s.tasks) : Move s (.count w u ws)
    ({ s.spawn (.loading w u ws) with counts := addActiveUser s.counts u }.done (.counting w u ws))
  | countFails {w u ws} (ht : .counting w u ws ∈ s.tasks) :
    Move s (.countFails w u ws) (s.done (.counting w u ws))
  | load {w u ws} (ht : .loading w u ws ∈ s.tasks) : Move s (.load w u ws)
    ((s.spawn (.merging w u ws (some (s.db.groupIds u)))).done (.loading w u ws))
  | loadFails {w u ws} (ht : .loading w u ws ∈ s.tasks) : Move s (.loadFails w u ws)
    ((s.spawn (.merging w u ws none)).done (.loading w u ws))
  | merge {w u ws groups} (ht : .merging w u ws groups ∈ s.tasks) : Move s (.merge w u ws groups)
    ((s.merged w u ws groups).done (.merging w u ws groups))
  | disconnect {w u ws} : Move s (.disconnect w u ws) (s.spawn (.locking w u ws))
  | enterLast {w u ws} (hfree : s.locked w u = false) (ht : .locking w u ws ∈ s.tasks)
    (hlast : (s.registry w).IsLast u ws) : Move s (.enter w u ws)
    ((((s.setRegistry w ((s.registry w).disconnect u ws)).setLock w u true).spawn
      (.removing w u)).done (.locking w u ws))
  | enter {w u ws} (hfree : s.locked w u = false) (ht : .locking w u ws ∈ s.tasks)
    (hmore : ¬ (s.registry w).IsLast u ws) : Move s (.enter w u ws)
    ((s.setRegistry w ((s.registry w).disconnect u ws)).done (.locking w u ws))
  | remove {w u} (ht : .removing w u ∈ s.tasks) : Move s (.remove w u)
    ({ s.setLock w u false with counts := removeActiveUser s.counts u }.done (.removing w u))
  | removeFails {w u} (ht : .removing w u ∈ s.tasks) : Move s (.removeFails w u)
    ((s.setLock w u false).done (.removing w u))
  | request {op d} (hop : op.tx s.db = .ok d) : Move s (.request op)
    { s with db := d, outbox := op.event ::ₘ s.outbox }
  | publish {e} (he : e ∈ s.outbox) : Move s (.publish e)
    { s with outbox := s.outbox.erase e, bus := s.bus.publish e }
  | drop {e} (he : e ∈ s.outbox) : Move s (.drop e) { s with outbox := s.outbox.erase e }
  | join {w u g bus} (hr : s.bus.read w = some (.groupMembership u g .join, bus)) :
    Move s (.deliver w) ({ s with bus }.setRegistry w ((s.registry w).join u g))
  | leave {w u g bus} (hr : s.bus.read w = some (.groupMembership u g .leave, bus)) :
    Move s (.deliver w) ({ s with bus }.setRegistry w ((s.registry w).leave u g))
  | deleted {w g bus} (hr : s.bus.read w = some (.groupDeleted g, bus))
    (hempty : (s.registry w).groupConnections.at? g = ∅) :
    Move s (.deliver w) ({ s with bus }.setRegistry w ((s.registry w).deleteGroup g ∅))
  | deleting {w g bus} (hr : s.bus.read w = some (.groupDeleted g, bus))
    (hsome : (s.registry w).groupConnections.at? g ≠ ∅) : Move s (.deliver w)
    ({ s with bus }.spawn (.deleting w g ((s.registry w).groupConnections.at? g)))
  | miss {w bus} (hl : s.bus.lose w = some bus) : Move s (.miss w) { s with bus }
  | finish {w g ms} (ht : .deleting w g ms ∈ s.tasks) : Move s (.finish w g ms)
    ((s.setRegistry w ((s.registry w).deleteGroup g ms)).done (.deleting w g ms))

def resumed : HubAct ω σ → Option (Task ω σ)
  | .count w u ws | .countFails w u ws => some (.counting w u ws)
  | .load w u ws | .loadFails w u ws => some (.loading w u ws)
  | .merge w u ws groups => some (.merging w u ws groups)
  | .enter w u ws => some (.locking w u ws)
  | .remove w u | .removeFails w u => some (.removing w u)
  | .finish w g ms => some (.deleting w g ms)
  | _ => none

inductive Spawned (s : Hub ω σ) : HubAct ω σ → Task ω σ → Prop where
  | counting {w u ws} : Spawned s (.connect w u ws) (.counting w u ws)
  | loading {w u ws} (ht : .counting w u ws ∈ s.tasks) : Spawned s (.count w u ws) (.loading w u ws)
  | merging {w u ws} (ht : .loading w u ws ∈ s.tasks) :
    Spawned s (.load w u ws) (.merging w u ws (some (s.db.groupIds u)))
  | unloaded {w u ws} (ht : .loading w u ws ∈ s.tasks) :
    Spawned s (.loadFails w u ws) (.merging w u ws none)
  | locking {w u ws} : Spawned s (.disconnect w u ws) (.locking w u ws)
  | removing {w u ws} (hlast : (s.registry w).IsLast u ws) :
    Spawned s (.enter w u ws) (.removing w u)
  | deleting {w g ms} (hunread : .groupDeleted g ∈ s.bus.unread w) :
    Spawned s (.deliver w) (.deleting w g ms)

inductive Rewrites (s : Hub ω σ) : HubAct ω σ → ω → Registry σ → Prop where
  | connect {w u ws} (hnew : ws ∉ s.seen) :
    Rewrites s (.connect w u ws) w ((s.registry w).connect u ws)
  | merge {w u ws groups} (ht : .merging w u ws groups ∈ s.tasks) :
    Rewrites s (.merge w u ws groups) w ((s.registry w).mergeGroups u ws (groups.getD ∅))
  | disconnect {w u ws} (ht : .locking w u ws ∈ s.tasks) :
    Rewrites s (.enter w u ws) w ((s.registry w).disconnect u ws)
  | join {w u g bus} (hr : s.bus.read w = some (.groupMembership u g .join, bus)) :
    Rewrites s (.deliver w) w ((s.registry w).join u g)
  | leave {w u g bus} (hr : s.bus.read w = some (.groupMembership u g .leave, bus)) :
    Rewrites s (.deliver w) w ((s.registry w).leave u g)
  | deleted {w g bus} (hr : s.bus.read w = some (.groupDeleted g, bus)) :
    Rewrites s (.deliver w) w ((s.registry w).deleteGroup g ∅)
  | finish {w g ms} (ht : .deleting w g ms ∈ s.tasks) :
    Rewrites s (.finish w g ms) w ((s.registry w).deleteGroup g ms)

variable {s s' : Hub ω σ} {a : HubAct ω σ} {w w' : ω} {u g : UUID} {ws : σ} {t t' : Task ω σ}
  {e : BusEvent} {groups : Option (Finset UUID)}

theorem resume_eq_some {next : Hub ω σ} (h : s.resume t next = some s') :
    t ∈ s.tasks ∧ s' = next.done t := by
  unfold resume at h
  split at h
  · next ht => exact ⟨ht, (Option.some.inj h).symm⟩
  · cases h

omit [DecidableEq σ] in
theorem registry_setRegistry {r : Registry σ} : (s.setRegistry w r).registry w = r :=
  Function.update_self ..

omit [DecidableEq σ] in
theorem registry_setRegistry_of_ne {r : Registry σ} (h : w' ≠ w) :
    (s.setRegistry w r).registry w' = s.registry w' := Function.update_of_ne h ..

theorem move_of_step (hs : step s a = some s') : Move s a s' := by
  cases a with
  | connect w u ws =>
    simp only [step] at hs
    split at hs
    · cases hs
    · next hnew =>
      obtain rfl := Option.some.inj hs
      exact .connect hnew
  | count w u ws =>
    obtain ⟨ht, rfl⟩ := resume_eq_some hs
    exact .count ht
  | countFails w u ws =>
    obtain ⟨ht, rfl⟩ := resume_eq_some hs
    exact .countFails ht
  | load w u ws =>
    obtain ⟨ht, rfl⟩ := resume_eq_some hs
    exact .load ht
  | loadFails w u ws =>
    obtain ⟨ht, rfl⟩ := resume_eq_some hs
    exact .loadFails ht
  | merge w u ws groups =>
    obtain ⟨ht, rfl⟩ := resume_eq_some hs
    exact .merge ht
  | disconnect w u ws =>
    obtain rfl := Option.some.inj hs
    exact .disconnect
  | enter w u ws =>
    simp only [step] at hs
    split at hs
    · cases hs
    · next hfree =>
      obtain ⟨ht, rfl⟩ := resume_eq_some hs
      simp only [entered]
      split
      · next hlast => exact .enterLast (by simpa using hfree) ht hlast
      · next hmore => exact .enter (by simpa using hfree) ht hmore
  | remove w u =>
    obtain ⟨ht, rfl⟩ := resume_eq_some hs
    exact .remove ht
  | removeFails w u =>
    obtain ⟨ht, rfl⟩ := resume_eq_some hs
    exact .removeFails ht
  | request op =>
    simp only [step] at hs
    split at hs
    · next d hop =>
      obtain rfl := Option.some.inj hs
      exact .request (GroupOperation.call_eq_ok.mp hop)
    · cases hs
  | publish e =>
    simp only [step] at hs
    split at hs
    · next he =>
      obtain rfl := Option.some.inj hs
      exact .publish he
    · cases hs
  | drop e =>
    simp only [step] at hs
    split at hs
    · next he =>
      obtain rfl := Option.some.inj hs
      exact .drop he
    · cases hs
  | deliver w =>
    obtain ⟨⟨e, bus⟩, hr, rfl⟩ := Option.map_eq_some_iff.mp hs
    cases e with
    | groupMembership u g action =>
      cases action with
      | join => exact .join hr
      | leave => exact .leave hr
    | groupDeleted g =>
      simp only [dispatch]
      split
      · next hempty => exact .deleted hr hempty
      · next hsome => exact .deleting hr hsome
  | miss w =>
    obtain ⟨bus, hl, rfl⟩ := Option.map_eq_some_iff.mp hs
    exact .miss hl
  | finish w g ms =>
    obtain ⟨ht, rfl⟩ := resume_eq_some hs
    exact .finish ht

theorem Move.db (hm : Move s a s') :
    s'.db = s.db ∨ ∃ op, a = .request op ∧ op.tx s.db = .ok s'.db ∧ op.event ∈ s'.outbox := by
  cases hm with
  | request hop => exact .inr ⟨_, rfl, hop, Multiset.mem_cons_self ..⟩
  | _ => exact .inl rfl

/-! ### Tasks -/

theorem Move.spawned (hm : Move s a s') (h : t ∈ s'.tasks) : t ∈ s.tasks ∨ Spawned s a t := by
  have hcons : ∀ {t'}, Spawned s a t' → t ∈ t' ::ₘ s.tasks → t ∈ s.tasks ∨ Spawned s a t := by
    intro t' hspawned hmem
    rcases Multiset.mem_cons.mp hmem with rfl | hold
    · exact .inr hspawned
    · exact .inl hold
  cases hm with
  | connect => exact hcons .counting h
  | count ht => exact hcons (.loading ht) (Multiset.mem_of_mem_erase h)
  | load ht => exact hcons (.merging ht) (Multiset.mem_of_mem_erase h)
  | loadFails ht => exact hcons (.unloaded ht) (Multiset.mem_of_mem_erase h)
  | disconnect => exact hcons .locking h
  | enterLast _ _ hlast => exact hcons (.removing hlast) (Multiset.mem_of_mem_erase h)
  | deleting hr => exact hcons (.deleting (Feed.mem_unread_read hr)) h
  | request | publish | drop | join | leave | deleted | miss => exact .inl h
  | countFails | merge | enter | remove | removeFails | finish =>
    exact .inl (Multiset.mem_of_mem_erase h)

theorem Move.task_kept (hm : Move s a s') (h : t ∈ s.tasks) :
    t ∈ s'.tasks ∨ resumed a = some t := by
  have hdone : ∀ {t' : Task ω σ} {tasks : Multiset (Task ω σ)}, t ∈ tasks →
      t ∈ tasks.erase t' ∨ some t' = some t := fun {t' _} h => by
    by_cases heq : t = t'
    · exact .inr (congrArg some heq.symm)
    · exact .inl ((Multiset.mem_erase_of_ne heq).mpr h)
  cases hm with
  | connect | disconnect | deleting => exact .inl (Multiset.mem_cons_of_mem h)
  | count | load | loadFails | enterLast => exact hdone (Multiset.mem_cons_of_mem h)
  | countFails | merge | enter | remove | removeFails | finish => exact hdone h
  | request | publish | drop | join | leave | deleted | miss => exact .inl h

/-! ### Events -/

def Pending (s : Hub ω σ) (w : ω) (e : BusEvent) : Prop := e ∈ s.outbox ∨ e ∈ s.bus.unread w

instance : Decidable (s.Pending w e) := by
  unfold Pending
  infer_instance

theorem Move.pending (hm : Move s a s') (h : s.Pending w e) :
    s'.Pending w e ∨ a = .drop e ∨ ∃ bus, a = .deliver w ∧ s.bus.read w = some (e, bus) := by
  have herase : ∀ {e'}, e ≠ e' → e ∈ s.outbox → e ∈ s.outbox.erase e' := fun hne h =>
    (Multiset.mem_erase_of_ne hne).mpr h
  have hread : ∀ {w' e' bus}, s.bus.read w' = some (e', bus) →
      (e ∈ s.outbox ∨ e ∈ bus.unread w) ∨ w = w' ∧ e = e' := fun hr =>
    h.elim (fun hout => .inl (.inl hout)) fun hin => (Feed.mem_unread_of_read hr hin).imp_left .inr
  cases hm with
  | request => exact .inl (h.imp_left Multiset.mem_cons_of_mem)
  | @publish e' he =>
    rcases h with hout | hin
    · by_cases heq : e = e'
      · -- what leaves the outbox is on the bus
        exact .inl (.inr (Feed.mem_unread_publish.mpr (.inr heq)))
      · exact .inl (.inl (herase heq hout))
    · exact .inl (.inr (Feed.mem_unread_publish.mpr (.inl hin)))
  | @drop e' he =>
    by_cases heq : e = e'
    · exact .inr (.inl (heq ▸ rfl))
    · exact .inl (h.imp_left (herase heq))
  | join hr | leave hr | deleted hr | deleting hr =>
    rcases hread hr with hkept | ⟨rfl, rfl⟩
    · exact .inl hkept
    · exact .inr (.inr ⟨_, rfl, hr⟩)
  | miss hl => exact .inl (h.imp_right fun hin => (Feed.unread_lose hl).symm ▸ hin)
  | _ => exact .inl h

theorem Move.pending_before (hm : Move s a s') (h : s'.Pending w e) :
    s.Pending w e ∨ ∃ op, a = .request op ∧ e = op.event := by
  cases hm with
  | request =>
    rcases h with hout | hin
    · exact (Multiset.mem_cons.mp hout).symm.imp .inl fun heq => ⟨_, rfl, heq⟩
    · exact .inl (.inr hin)
  | publish he =>
    rcases h with hout | hin
    · exact .inl (.inl (Multiset.mem_of_mem_erase hout))
    · rcases Feed.mem_unread_publish.mp hin with hin | rfl
      · exact .inl (.inr hin)
      · exact .inl (.inl he)
  | drop => exact .inl (h.imp_left Multiset.mem_of_mem_erase)
  | join hr | leave hr | deleted hr | deleting hr =>
    exact .inl (h.imp_right (Feed.mem_unread_before_read hr))
  | miss hl => exact .inl (h.imp_right fun hin => Feed.unread_lose hl ▸ hin)
  | _ => exact .inl h

/-! ### Routing tables -/

theorem Move.registry (hm : Move s a s') (w : ω) :
    s'.registry w = s.registry w ∨ Rewrites s a w (s'.registry w) := by
  have hupdate : ∀ {w' r}, Rewrites s a w' r → (s.setRegistry w' r).registry w = s.registry w ∨
      Rewrites s a w ((s.setRegistry w' r).registry w) := fun {w' r} hr => by
    by_cases hw : w = w'
    · subst hw
      rw [registry_setRegistry]
      exact .inr hr
    · exact .inl (registry_setRegistry_of_ne hw)
  cases hm with
  | connect hnew => exact hupdate (.connect hnew)
  | merge ht => exact hupdate (.merge ht)
  | enterLast _ ht | enter _ ht => exact hupdate (.disconnect ht)
  | join hr => exact hupdate (.join hr)
  | leave hr => exact hupdate (.leave hr)
  | deleted hr => exact hupdate (.deleted hr)
  | finish ht => exact hupdate (.finish ht)
  | _ => exact .inl rfl

/-! ### Sockets -/

theorem Move.opened (hm : Move s a s') (h : ws ∈ (s'.registry w).localConnections.at? u) :
    ws ∈ (s.registry w).localConnections.at? u ∨ a = .connect w u ws ∧ ws ∉ s.seen := by
  rcases hm.registry w with heq | hrewrites
  · exact .inl (heq ▸ h)
  · generalize s'.registry w = r at hrewrites h
    cases hrewrites with
    | connect hnew =>
      rcases Registry.mem_connect.mp h with hold | ⟨rfl, rfl⟩
      · exact .inl hold
      · exact .inr ⟨rfl, hnew⟩
    | merge =>
      rw [Registry.localConnections_mergeGroups] at h
      exact .inl h
    | disconnect => exact .inl (Registry.mem_disconnect.mp h).1
    | join =>
      rw [Registry.localConnections_join] at h
      exact .inl h
    | leave | deleted | finish => exact .inl h

theorem Move.seen (hm : Move s a s') (h : ws ∈ s.seen) : ws ∈ s'.seen := by
  cases hm with
  | connect => exact Finset.mem_insert_of_mem h
  | _ => exact h

theorem Move.hydrated (hm : Move s a s') (h : (w, u, ws) ∈ s'.hydrated) :
    (w, u, ws) ∈ s.hydrated ∨ ∃ gs, a = .merge w u ws (some gs) ∧
      .merging w u ws (some gs) ∈ s.tasks ∧ ws ∈ (s.registry w).localConnections.at? u := by
  cases hm with
  | @merge w' u' ws' groups ht =>
    simp only [done, merged] at h
    split at h
    · next hopen =>
      rcases Finset.mem_insert.mp h with heq | hold
      · obtain ⟨rfl, rfl, rfl⟩ : w = w' ∧ u = u' ∧ ws = ws' := by simpa using heq
        obtain ⟨gs, rfl⟩ := Option.isSome_iff_exists.mp hopen.1
        exact .inr ⟨gs, rfl, ht, hopen.2⟩
      · exact .inl hold
    · exact .inl h
  | _ => exact .inl h

structure Known (s : Hub ω σ) : Prop where
  opened : ∀ {w u ws}, ws ∈ (s.registry w).localConnections.at? u → ws ∈ s.seen
  registering : ∀ {t w u ws}, t ∈ s.tasks → t.registration = some (w, u, ws) → ws ∈ s.seen
  hydrated : ∀ {w u ws}, (w, u, ws) ∈ s.hydrated → ws ∈ s.seen

omit [DecidableEq ω] [DecidableEq σ] in
theorem Known.init {d : Db} : (Hub.init d : Hub ω σ).Known where
  opened h := absurd h (Finset.notMem_empty _)
  registering h := absurd h (Multiset.notMem_zero _)
  hydrated h := absurd h (Finset.notMem_empty _)

theorem Known.move (hk : s.Known) (hm : Move s a s') : s'.Known where
  opened h := by
    rcases hm.opened h with hold | ⟨rfl, -⟩
    · exact hm.seen (hk.opened hold)
    · cases hm
      exact Finset.mem_insert_self ..
  registering h hreg := by
    rcases hm.spawned h with hold | hspawned
    · exact hm.seen (hk.registering hold hreg)
    · cases hspawned with
      | counting =>
        cases hreg
        cases hm
        exact Finset.mem_insert_self ..
      | loading ht | merging ht | unloaded ht => exact hm.seen (hk.registering ht hreg)
      | locking | removing | deleting => cases hreg
  hydrated h := by
    rcases hm.hydrated h with hold | ⟨gs, -, -, hopen⟩
    · exact hm.seen (hk.hydrated hold)
    · exact hm.seen (hk.opened hopen)

end Hub
end Messenger
