import Mathlib.Data.Fintype.Basic
import Messenger.Realtime.Hub

/-! Whether a worker still sends a group's messages to a user who is no longer in the group. It does
when it learns of a membership after the event that ends it: from a group list that was read before
the removal and is merged after the event, or from a `JOIN` that the bus carries behind the `LEAVE`. -/

namespace Messenger
open Transition

def Task.Concerns {ω σ : Type} (w : ω) (user group : UUID) : Task ω σ → Prop
  | .counting w' u _ | .loading w' u _ | .merging w' u _ _ => w' = w ∧ u = user
  | .deleting w' g _ => w' = w ∧ g = group
  | .locking .. | .removing .. => False

def Task.Deletes {ω σ : Type} (w : ω) (group : UUID) : Task ω σ → Prop
  | .deleting w' g _ => w' = w ∧ g = group
  | _ => False

def BusEvent.group : BusEvent → UUID
  | .groupMembership _ g _ => g
  | .groupDeleted g => g

def BusEvent.Ends (u g : UUID) (e : BusEvent) : Prop :=
  e = .groupMembership u g .leave ∨ e = .groupDeleted g

theorem BusEvent.Ends.group {u g : UUID} {e : BusEvent} (h : e.Ends u g) : e.group = g := by
  rcases h with rfl | rfl <;> rfl

namespace Hub

variable {ω σ : Type} [DecidableEq ω] [DecidableEq σ]

instance {w : ω} {u g : UUID} {t : Task ω σ} : Decidable (t.Concerns w u g) := by
  unfold Task.Concerns
  split <;> infer_instance

instance {w : ω} {g : UUID} {t : Task ω σ} : Decidable (t.Deletes w g) := by
  unfold Task.Deletes
  split <;> infer_instance

def RemovalPending (s : Hub ω σ) (w : ω) (u g : UUID) : Prop :=
  s.Pending w (.groupMembership u g .leave) ∨ s.Pending w (.groupDeleted g) ∨
    ∃ t ∈ s.tasks, t.Deletes w g

/-- The worker may listen for the user: they are in the group, or the worker is still to learn that
they are not. -/
def Warranted (s : Hub ω σ) (w : ω) (u g : UUID) : Prop :=
  s.db.Member g u ∨ s.RemovalPending w u g

instance (s : Hub ω σ) (w : ω) (u g : UUID) : Decidable (s.Warranted w u g) := by
  have : Decidable (∃ t ∈ s.tasks, t.Deletes w g) := Multiset.decidableExistsMultiset
  unfold Warranted RemovalPending
  infer_instance

/-- Everything published about the user and the group has been handled by the worker, and no
registration of the user is in progress there. -/
def Settled (s : Hub ω σ) (w : ω) (u g : UUID) : Prop :=
  (¬ s.Pending w (.groupMembership u g .join) ∧ ¬ s.Pending w (.groupMembership u g .leave) ∧
    ¬ s.Pending w (.groupDeleted g)) ∧ ∀ t ∈ s.tasks, ¬ t.Concerns w u g

def RemovedUnrouted (s : Hub ω σ) : Prop :=
  ∀ w u g, ¬ s.db.Member g u → s.Settled w u g →
    ¬ (s.registry w).Listens u g ∧ ∀ sender, u ∉ (s.registry w).localMembers g sender

/-- The worker takes up a membership, from a group list or from a `JOIN`, only while it is warranted,
and no removal is lost before it is published. -/
def Grounded (s : Hub ω σ) : HubAct ω σ → Prop
  | .merge w u ws groups =>
    ws ∈ (s.registry w).localConnections.at? u → ∀ g ∈ groups.getD ∅, s.Warranted w u g
  | .deliver w =>
    match s.bus.read w with
    | some (.groupMembership u g .join, _) =>
      ((s.registry w).localConnections u).isSome → s.Warranted w u g
    | _ => True
  | .drop e =>
    ∀ w, ∀ u ∈ (s.registry w).groupConnections.at? e.group,
      { s with outbox := s.outbox.erase e }.Warranted w u e.group
  | _ => True

instance [Fintype ω] (s : Hub ω σ) : ∀ a : HubAct ω σ, Decidable (s.Grounded a)
  | .merge .. => by unfold Grounded; infer_instance
  | .deliver w => by
    show Decidable (match s.bus.read w with
      | some (.groupMembership u g .join, _) =>
        ((s.registry w).localConnections u).isSome → s.Warranted w u g
      | _ => True)
    match s.bus.read w with
    | some (.groupMembership _ _ .join, _) => dsimp only; infer_instance
    | some (.groupMembership _ _ .leave, _) | some (.groupDeleted _, _) | none =>
      exact instDecidableTrue
  | .drop _ => by unfold Grounded; infer_instance
  | .connect .. | .count .. | .countFails .. | .load .. | .loadFails .. | .disconnect .. | .enter ..
  | .remove .. | .removeFails .. | .request _ | .publish _ | .miss _ | .finish .. =>
    instDecidableTrue

def RoutesWarranted (s : Hub ω σ) : Prop :=
  ∀ w u g, (s.registry w).Listens u g → s.Warranted w u g

variable {s s' : Hub ω σ} {a : HubAct ω σ} {w : ω} {u g : UUID} {bus : Feed ω BusEvent}
  {e : BusEvent}

theorem Move.of_leave (hm : Move s (.deliver w) s')
    (hr : s.bus.read w = some (.groupMembership u g .leave, bus)) :
    ¬ (s'.registry w).Listens u g := by
  have hleft : ¬ ((s.registry w).leave u g).Listens u g := fun h =>
    (Registry.listens_leave.mp h).2 ⟨rfl, rfl⟩
  cases hm with
  | leave hr' =>
    cases hr.symm.trans hr'
    rwa [registry_setRegistry]
  | join hr' | deleted hr' | deleting hr' => cases hr.symm.trans hr'

theorem Move.of_deleted (hm : Move s (.deliver w) s')
    (hr : s.bus.read w = some (.groupDeleted g, bus)) :
    ¬ (s'.registry w).Listens u g ∨ ∃ t ∈ s'.tasks, t.Deletes w g := by
  cases hm with
  | deleted hr' =>
    cases hr.symm.trans hr'
    rw [registry_setRegistry]
    exact .inl fun h => (Registry.listens_deleteGroup.mp h).2 rfl
  | deleting hr' =>
    cases hr.symm.trans hr'
    exact .inr ⟨_, Multiset.mem_cons_self .., rfl, rfl⟩
  | join hr' | leave hr' => cases hr.symm.trans hr'

theorem Move.of_finish {ms : Finset UUID} (hm : Move s (.finish w g ms) s') :
    ¬ (s'.registry w).Listens u g := by
  cases hm with
  | finish =>
    have hregistry : (s.setRegistry w ((s.registry w).deleteGroup g ms)).registry w =
        (s.registry w).deleteGroup g ms := registry_setRegistry
    intro h
    exact (Registry.listens_deleteGroup.mp (hregistry ▸ h)).2 rfl

def Ending (s : Hub ω σ) (w : ω) (g : UUID) (e : BusEvent) : Prop :=
  s.Pending w e ∨ e = .groupDeleted g ∧ ∃ t ∈ s.tasks, t.Deletes w g

theorem Ending.move (h : s.Ending w g e) (he : e.Ends u g) (hm : Move s a s') :
    s'.Ending w g e ∨ ¬ (s'.registry w).Listens u g ∨ a = .drop e := by
  rcases h with hpending | ⟨rfl, t, ht, hdeletes⟩
  · rcases hm.pending hpending with hkept | hdrop | ⟨bus, rfl, hr⟩
    · exact .inl (.inl hkept)
    · exact .inr (.inr hdrop)
    · rcases he with rfl | rfl
      · exact .inr (.inl (hm.of_leave hr))
      · rcases hm.of_deleted hr with hnot | htask
        · exact .inr (.inl hnot)
        · exact .inl (.inr ⟨rfl, htask⟩)
  · rcases hm.task_kept ht with hkept | hresumed
    · exact .inl (.inr ⟨rfl, t, hkept, hdeletes⟩)
    · -- only the task itself ends it, by deleting the group
      cases a <;> cases hresumed <;> try exact hdeletes.elim
      obtain ⟨rfl, rfl⟩ := hdeletes
      exact .inr (.inl hm.of_finish)

omit [DecidableEq ω] [DecidableEq σ] in
theorem removalPending_iff :
    s.RemovalPending w u g ↔ ∃ e : BusEvent, e.Ends u g ∧ s.Ending w g e := by
  constructor
  · rintro (hleave | hdeleted | htask)
    · exact ⟨_, .inl rfl, .inl hleave⟩
    · exact ⟨_, .inr rfl, .inl hdeleted⟩
    · exact ⟨_, .inr rfl, .inr ⟨rfl, htask⟩⟩
  · rintro ⟨e, rfl | rfl, hpending | ⟨-, htask⟩⟩
    · exact .inl hpending
    · exact .inr (.inr htask)
    · exact .inr (.inl hpending)
    · exact .inr (.inr htask)

theorem RemovalPending.move (h : s.RemovalPending w u g) (hm : Move s a s') :
    s'.RemovalPending w u g ∨ ¬ (s'.registry w).Listens u g ∨ ∃ e, a = .drop e ∧ e.group = g := by
  obtain ⟨e, he, hending⟩ := removalPending_iff.mp h
  rcases hending.move he hm with hkept | hnot | rfl
  · exact .inl (removalPending_iff.mpr ⟨e, he, hkept⟩)
  · exact .inr (.inl hnot)
  · exact .inr (.inr ⟨e, rfl, he.group⟩)

theorem RoutesWarranted.before (hI : s.RoutesWarranted) (hG : s.Grounded a) (hm : Move s a s')
    (h : (s'.registry w).Listens u g) : s.Warranted w u g := by
  rcases hm.registry w with heq | hrewrites
  · exact hI w u g (heq ▸ h)
  · generalize s'.registry w = r at hrewrites h
    cases hrewrites with
    | connect => exact hI w u g h
    | merge =>
      rcases Registry.listens_mergeGroups.mp h with hold | ⟨hws, rfl, hg⟩
      · exact hI w u g hold
      · exact hG hws g hg
    | disconnect => exact hI w u g (Registry.listens_of_disconnect h)
    | join hr =>
      rcases Registry.listens_join.mp h with hold | ⟨hsome, rfl, rfl⟩
      · exact hI w u g hold
      · simp only [Grounded, hr] at hG
        exact hG hsome
    | leave => exact hI w u g (Registry.listens_leave.mp h).1
    | deleted | finish => exact hI w u g (Registry.listens_deleteGroup.mp h).1

theorem Warranted.move (h : s.Warranted w u g) (hG : s.Grounded a) (hm : Move s a s')
    (hlistens : (s'.registry w).Listens u g) : s'.Warranted w u g := by
  rcases h with hmember | hpending
  · rcases hm.db with heq | ⟨op, rfl, hop, hevent⟩
    · exact .inl (heq ▸ hmember)
    · by_cases hremoves : op.Removes u g
      · -- the operation that ends the membership spawns the event that tells so
        refine .inr ?_
        cases op with
        | createGroup | addMember => exact hremoves.elim
        | removeMember =>
          obtain ⟨rfl, rfl⟩ := hremoves
          exact .inl (.inl hevent)
        | deleteGroup =>
          obtain rfl : _ = g := hremoves
          exact .inr (.inl (.inl hevent))
      · exact .inl ((GroupOperation.member_iff hop).mpr (.inl ⟨hmember, hremoves⟩))
  · rcases hpending.move hm with hkept | hnot | ⟨e, rfl, rfl⟩
    · exact .inr hkept
    · exact absurd hlistens hnot
    · cases hm with
      | drop => exact hG w u hlistens

theorem RoutesWarranted.step (hI : s.RoutesWarranted) (hG : s.Grounded a)
    (hs : s.step a = some s') : s'.RoutesWarranted := by
  intro w u g hlistens
  have hm := move_of_step hs
  have hbefore : s.Warranted w u g := hI.before hG hm hlistens
  exact hbefore.move hG hm hlistens

omit [DecidableEq ω] [DecidableEq σ] in
theorem RoutesWarranted.init {d : Db} : (Hub.init d : Hub ω σ).RoutesWarranted := by
  intro w u g hlistens
  exact absurd hlistens (Finset.notMem_empty u)

omit [DecidableEq ω] [DecidableEq σ] in
theorem RoutesWarranted.removedUnrouted (hI : s.RoutesWarranted) : s.RemovedUnrouted := by
  intro w u g hnot hsettled
  have hunlistened : ¬ (s.registry w).Listens u g := by
    intro hlistens
    obtain ⟨⟨-, hleave, hdeleted⟩, htasks⟩ := hsettled
    rcases hI w u g hlistens with hmember | hpending | hpending | ⟨t, ht, hdeletes⟩
    · exact hnot hmember
    · exact hleave hpending
    · exact hdeleted hpending
    · cases t with
      | deleting => exact htasks _ ht hdeletes
      | _ => exact hdeletes
  exact ⟨hunlistened, fun sender h => hunlistened (Registry.listens_of_mem_localMembers h)⟩

/-- In a run in which memberships are taken up only while they are warranted, a user who has been
removed from a group is not routed once everything about it has been handled. -/
theorem removed_member_unrouted (d : Db) (acts : List (HubAct ω σ)) (s : Hub ω σ)
    (hG : Guarded step Grounded (init d) acts) (hs : run step (init d) acts = some s) :
    s.RemovedUnrouted :=
  (Guarded.induction (I := RoutesWarranted) (fun _ _ _ hI hG hs => hI.step hG hs) hG hs
    RoutesWarranted.init).removedUnrouted

end Hub

namespace Sample

def ada : UUID := ⟨1⟩

def ben : UUID := ⟨2⟩

def chess : UUID := ⟨3⟩

def club : Db where
  users := ⟨[⟨ada, "ada", "secret", false, 0⟩, ⟨ben, "ben", "secret", false, 0⟩], by decide⟩
  groups := ⟨[⟨chess, "chess", ada, 0⟩], by decide⟩
  memberships := ⟨[⟨chess, ada, 0⟩, ⟨chess, ben, 0⟩], by decide⟩

def connecting : List (HubAct Unit ℕ) := [.connect () ben 0, .count () ben 0, .load () ben 0]

def merging : List (HubAct Unit ℕ) := [.merge () ben 0 (some {chess})]

def removal : List (HubAct Unit ℕ) :=
  [.request (.removeMember ada chess ben), .publish (.groupMembership ben chess .leave), .deliver ()]

end Sample

open Sample in
theorem removed_member_unrouted_connected :
    ∃ s : Hub Unit ℕ, run Hub.step (Hub.init club) (connecting ++ merging ++ removal) = some s ∧
      ¬ s.db.Member chess ben ∧ s.tasks = 0 ∧ ¬ (s.registry ()).Listens ben chess := by
  obtain ⟨s, hs, hnot, hidle, hout, hread⟩ :
      ∃ s ∈ run Hub.step (Hub.init club) (connecting ++ merging ++ removal),
        ¬ s.db.Member chess ben ∧ s.tasks = 0 ∧ s.outbox = 0 ∧ s.bus.unread () = [] := by decide
  have hnone : ∀ e, ¬ s.Pending () e := fun e => by simp [Hub.Pending, hout, hread]
  have hunrouted : s.RemovedUnrouted := Hub.removed_member_unrouted club _ s (by decide) hs
  refine ⟨s, hs, hnot, hidle, (hunrouted () ben chess hnot ⟨⟨hnone _, hnone _, hnone _⟩, ?_⟩).1⟩
  simp [hidle]

open Sample in
/-- The worker reads the groups of the user, handles the removal, and merges what it has read. -/
theorem not_removedUnrouted_staleGroups :
    ∃ s : Hub Unit ℕ, run Hub.step (Hub.init club) (connecting ++ removal ++ merging) = some s ∧
      ¬ s.RemovedUnrouted := by
  obtain ⟨s, hs, hnot, hidle, hout, hread, hlistens⟩ :
      ∃ s ∈ run Hub.step (Hub.init club) (connecting ++ removal ++ merging),
        ¬ s.db.Member chess ben ∧ s.tasks = 0 ∧ s.outbox = 0 ∧ s.bus.unread () = [] ∧
        (s.registry ()).Listens ben chess := by decide
  have hnone : ∀ e, ¬ s.Pending () e := fun e => by simp [Hub.Pending, hout, hread]
  refine ⟨s, hs, fun hunrouted => ?_⟩
  exact (hunrouted () ben chess hnot ⟨⟨hnone _, hnone _, hnone _⟩, by simp [hidle]⟩).1 hlistens

end Messenger
