import Messenger.Realtime.Removal

/-! A member whose connection has been registered is routed. A registration opens the socket before
it reads the groups, and the `JOIN` is published after the commit: the worker learns of the addition
from the list, from the event, or from both. -/

namespace Messenger
open Transition

namespace Hub

variable {ω σ : Type} [DecidableEq ω] [DecidableEq σ]

structure Undeleted (s : Hub ω σ) (g : UUID) : Prop where
  pending : ∀ w, ¬ s.Pending w (.groupDeleted g)
  deleting : ∀ t ∈ s.tasks, ∀ w, ¬ t.Deletes w g

structure Joined (s : Hub ω σ) (w : ω) (u g : UUID) : Prop extends s.Undeleted g where
  member : s.db.Member g u
  group : (s.db.groups.get? g).isSome
  left : ¬ s.Pending w (.groupMembership u g .leave)

/-- Once the worker has handled the `JOIN`, the user is routed as soon as a registration is complete.
A list without the group that is still to be merged belongs to a socket that was open when the event
came, so that the event has routed the user already. -/
def Routed (s : Hub ω σ) (w : ω) (u g : UUID) : Prop :=
  ∀ ws ∈ (s.registry w).localConnections.at? u,
    ((w, u, ws) ∈ s.hydrated ∨ ∃ gs, .merging w u ws (some gs) ∈ s.tasks ∧ g ∉ gs) →
      (s.registry w).Routes u g

variable {s s' : Hub ω σ} {a : HubAct ω σ} {w : ω} {u g : UUID} {ws : σ} {bus : Feed ω BusEvent}

omit [DecidableEq ω] [DecidableEq σ] in
theorem Undeleted.init {d : Db} : (Hub.init d : Hub ω σ).Undeleted g where
  pending _ h := h.elim (Multiset.notMem_zero _) List.not_mem_nil
  deleting _ h := absurd h (Multiset.notMem_zero _)

theorem Undeleted.move (h : s.Undeleted g) (hm : Move s a s')
    (ha : ∀ actor, a ≠ .request (.deleteGroup actor g)) : s'.Undeleted g where
  pending w hpending := by
    rcases hm.pending_before hpending with hold | ⟨op, rfl, hevent⟩
    · exact h.pending w hold
    · cases op with
      | deleteGroup actor group =>
        cases hevent
        exact ha actor rfl
      | _ => cases hevent
  deleting t ht w hdeletes := by
    rcases hm.spawned ht with hold | hspawned
    · exact h.deleting t hold w hdeletes
    · cases hspawned with
      | deleting hunread =>
        obtain ⟨-, rfl⟩ := hdeletes
        exact h.pending _ (.inr hunread)
      | _ => exact hdeletes

theorem Joined.of_adds {op : GroupOperation} (h : s.Undeleted g)
    (hleft : ¬ s.Pending w (.groupMembership u g .leave)) (hadds : op.Adds u g)
    (hm : Move s (.request op) s') : s'.Joined w u g where
  toUndeleted := h.move hm fun actor heq => by
    cases heq
    exact hadds
  member := by
    cases hm with
    | request hop => exact (GroupOperation.member_iff hop).mpr (.inr hadds)
  group := by
    cases hm with
    | request hop => exact GroupOperation.group_of_adds hop hadds
  left hpending := by
    rcases hm.pending_before hpending with hold | ⟨op', heq, hevent⟩
    · exact hleft hold
    · cases heq
      cases op with
      | createGroup | addMember => cases hevent
      | removeMember | deleteGroup => exact hadds

theorem Joined.move (h : s.Joined w u g) (hm : Move s a s')
    (ha : ∀ op, a = .request op → ¬ op.Removes u g) : s'.Joined w u g where
  toUndeleted := h.toUndeleted.move hm fun actor heq => ha _ heq rfl
  member := by
    rcases hm.db with heq | ⟨op, rfl, hop, -⟩
    · exact heq ▸ h.member
    · exact (GroupOperation.member_iff hop).mpr (.inl ⟨h.member, ha op rfl⟩)
  group := by
    rcases hm.db with heq | ⟨op, rfl, hop, -⟩
    · exact heq ▸ h.group
    · refine GroupOperation.group_kept hop h.group fun actor heq => ha op rfl ?_
      rw [heq]
      rfl
  left hpending := by
    rcases hm.pending_before hpending with hold | ⟨op, rfl, hevent⟩
    · exact h.left hold
    · cases op with
      | removeMember =>
        cases hevent
        exact ha _ rfl ⟨rfl, rfl⟩
      | _ => cases hevent

theorem Joined.routes (h : s.Joined w u g) (hm : Move s a s') (hroutes : (s.registry w).Routes u g)
    (hopen : ws ∈ (s'.registry w).localConnections.at? u) : (s'.registry w).Routes u g := by
  rcases hm.registry w with heq | hrewrites
  · exact heq.symm ▸ hroutes
  · generalize s'.registry w = r at hrewrites hopen ⊢
    cases hrewrites with
    | connect => exact hroutes
    | merge => exact hroutes.mergeGroups
    | disconnect => exact hroutes.disconnect hopen
    | join => exact hroutes.join
    | leave hr =>
      refine hroutes.leave ?_
      rintro ⟨rfl, rfl⟩
      exact h.left (.inr (Feed.mem_unread_read hr))
    | deleted hr =>
      refine hroutes.deleteGroup ?_
      rintro rfl
      exact h.pending w (.inr (Feed.mem_unread_read hr))
    | finish ht =>
      refine hroutes.deleteGroup ?_
      rintro rfl
      exact h.deleting _ ht w ⟨rfl, rfl⟩

theorem Move.of_join (hm : Move s (.deliver w) s')
    (hr : s.bus.read w = some (.groupMembership u g .join, bus)) :
    s'.registry w = (s.registry w).join u g := by
  cases hm with
  | join hr' =>
    cases hr.symm.trans hr'
    exact registry_setRegistry
  | leave hr' | deleted hr' | deleting hr' => cases hr.symm.trans hr'

theorem Routed.of_join (hm : Move s (.deliver w) s')
    (hr : s.bus.read w = some (.groupMembership u g .join, bus)) : s'.Routed w u g := by
  intro ws hws _
  rw [hm.of_join hr, Registry.localConnections_join] at hws
  rw [hm.of_join hr]
  exact Registry.routes_join hws

theorem Routed.move (hI : s.Routed w u g) (hj : s.Joined w u g) (hk : s.Known) (hm : Move s a s') :
    s'.Routed w u g := by
  intro ws hws hready
  have hkept : (s.registry w).Routes u g → (s'.registry w).Routes u g := fun h => hj.routes hm h hws
  rcases hm.opened hws with hopen | ⟨rfl, hnew⟩
  · rcases hready with hhyd | ⟨gs, ht, hg⟩
    · rcases hm.hydrated hhyd with hold | ⟨gs, rfl, ht, -⟩
      · exact hkept (hI ws hopen (.inl hold))
      · by_cases hg : g ∈ gs
        · -- the list that is merged has the group
          cases hm with
          | merge =>
            have hregistry : (s.setRegistry w ((s.registry w).mergeGroups u ws gs)).registry w =
                (s.registry w).mergeGroups u ws gs := registry_setRegistry
            exact hregistry.symm ▸ Registry.routes_mergeGroups hopen hg
        · exact hkept (hI ws hopen (.inr ⟨gs, ht, hg⟩))
    · rcases hm.spawned ht with hold | hspawned
      · exact hkept (hI ws hopen (.inr ⟨gs, hold, hg⟩))
      · -- a list that is read now has the group
        cases hspawned with
        | merging => exact absurd (Db.mem_groupIds.mpr ⟨hj.group, hj.member⟩) hg
  · -- the registration of a socket that is opened now has yet to read the groups
    rcases hready with hhyd | ⟨gs, ht, -⟩
    · rcases hm.hydrated hhyd with hold | ⟨gs, heq, -⟩
      · exact absurd (hk.hydrated hold) hnew
      · cases heq
    · rcases hm.spawned ht with hold | hspawned
      · exact absurd (hk.registering hold rfl) hnew
      · cases hspawned

/-! ### Whole runs -/

variable {acts : List (HubAct ω σ)}

theorem Known.run (hk : s.Known) (hs : Transition.run step s acts = some s') : s'.Known :=
  run_induction (fun _ _ _ hk hs => hk.move (move_of_step hs)) hs hk

theorem Undeleted.run (h : s.Undeleted g) (hs : Transition.run step s acts = some s')
    (hacts : ∀ actor, .request (.deleteGroup actor g) ∉ acts) : s'.Undeleted g := by
  let Keeps : Hub ω σ → HubAct ω σ → Prop := fun _ a => ∀ actor, a ≠ .request (.deleteGroup actor g)
  have hkeeps : Guarded step Keeps s acts := guarded_of_forall_mem fun a ha _ actor heq =>
    hacts actor (heq ▸ ha)
  exact hkeeps.induction (I := (·.Undeleted g)) (fun _ _ _ h ha hs => h.move (move_of_step hs) ha) hs h

theorem Joined.run (hj : s.Joined w u g) (hk : s.Known)
    (hs : Transition.run step s acts = some s')
    (hacts : ∀ op, .request op ∈ acts → ¬ op.Removes u g) :
    s'.Joined w u g ∧ (s.Routed w u g → s'.Routed w u g) := by
  let Keeps : Hub ω σ → HubAct ω σ → Prop := fun _ a => ∀ op, a = .request op → ¬ op.Removes u g
  have hkeeps : Guarded step Keeps s acts := guarded_of_forall_mem fun a ha _ op heq =>
    hacts op (heq ▸ ha)
  have hI := hkeeps.induction
    (I := fun s₁ => s₁.Known ∧ s₁.Joined w u g ∧ (s.Routed w u g → s₁.Routed w u g))
    (fun s₁ a s₂ ⟨hk, hj, hI⟩ ha hs =>
      have hm := move_of_step hs
      ⟨hk.move hm, hj.move hm ha, fun h => (hI h).move hj hk hm⟩)
    hs ⟨hk, hj, id⟩
  exact hI.2

/-- An addition of the user to the group is not lost to connections that come and go: where the
worker has handled the `LEAVE` events of before and the `JOIN`, and the group is not deleted and the
user not removed again, every registration that has ended there with the groups has them routed. -/
theorem join_not_lost (d : Db) (before between after : List (HubAct ω σ)) (s₀ s₁ m m' t : Hub ω σ)
    (op : GroupOperation) (w : ω) (u g : UUID) (bus : Feed ω BusEvent) (ws : σ)
    (hbefore : run step (init d) before = some s₀)
    (hleft : ¬ s₀.Pending w (.groupMembership u g .leave))
    (hadds : op.Adds u g) (hop : step s₀ (.request op) = some s₁)
    (hbetween : run step s₁ between = some m)
    (hjoin : m.bus.read w = some (.groupMembership u g .join, bus))
    (hdeliver : step m (.deliver w) = some m') (hafter : run step m' after = some t)
    (hkept : ∀ op, .request op ∈ between ++ after → ¬ op.Removes u g)
    (hundeleted : ∀ actor, .request (.deleteGroup actor g) ∉ before)
    (hopen : ws ∈ (t.registry w).localConnections.at? u) (hhydrated : (w, u, ws) ∈ t.hydrated) :
    (t.registry w).Routes u g := by
  have hk₁ : s₁.Known := (Known.init.run hbefore).move (move_of_step hop)
  have hj₁ : s₁.Joined w u g :=
    .of_adds (Undeleted.init.run hbefore hundeleted) hleft hadds (move_of_step hop)
  -- the membership is still there when the event is handled
  have hjm : m.Joined w u g :=
    (hj₁.run hk₁ hbetween fun op h => hkept op (List.mem_append_left _ h)).1
  have hj' : m'.Joined w u g := hjm.move (move_of_step hdeliver) (fun _ heq => by cases heq)
  have hk' : m'.Known := (hk₁.run hbetween).move (move_of_step hdeliver)
  have hrouted : m'.Routed w u g := Routed.of_join (move_of_step hdeliver) hjoin
  have ht : t.Routed w u g :=
    (hj'.run hk' hafter fun op h => hkept op (List.mem_append_right _ h)).2 hrouted
  exact ht ws hopen (.inl hhydrated)

end Hub

namespace Sample

def founded : Db := { club with memberships := ⟨[⟨chess, ada, 0⟩], by decide⟩ }

def addition : GroupOperation := .addMember ada chess ben 1

def published : HubAct Unit ℕ := .publish (.groupMembership ben chess .join)

def mergingNone : HubAct Unit ℕ := .merge () ben 0 (some ∅)

end Sample

open Sample in
theorem join_not_lost_staleGroups :
    ∃ s₀ s₁ m m' t : Hub Unit ℕ, run Hub.step (Hub.init founded) connecting = some s₀ ∧
      Hub.step s₀ (.request addition) = some s₁ ∧ run Hub.step s₁ [published] = some m ∧
      Hub.step m (.deliver ()) = some m' ∧ run Hub.step m' [mergingNone] = some t ∧
      (t.registry ()).Routes ben chess := by
  have hrun : ((run Hub.step (Hub.init founded) connecting).bind fun s₀ =>
      (Hub.step s₀ (.request addition)).bind fun s₁ => (run Hub.step s₁ [published]).bind fun m =>
      (m.bus.read ()).bind fun r => (Hub.step m (.deliver ())).bind fun m' =>
      (run Hub.step m' [mergingNone]).bind fun t =>
      if ¬ s₀.Pending () (.groupMembership ben chess .leave) ∧
        r.1 = .groupMembership ben chess .join ∧ 0 ∈ (t.registry ()).localConnections.at? ben ∧
        ((), ben, 0) ∈ t.hydrated then some () else none) = some () := by decide
  simp only [Option.bind_eq_some_iff, ite_eq_left_iff, reduceCtorEq, imp_false, not_not] at hrun
  obtain ⟨s₀, h₀, s₁, h₁, m, hm, ⟨e, bus⟩, hr, m', hm', t, ht, hleft, rfl, hopen, hhyd⟩ := hrun
  refine ⟨s₀, s₁, m, m', t, h₀, h₁, hm, hm', ht, ?_⟩
  refine Hub.join_not_lost founded connecting [published] [mergingNone] s₀ s₁ m m' t addition () ben
    chess bus 0 h₀ hleft ⟨rfl, rfl⟩ h₁ hm hr hm' ht (fun op h => ?_) (fun actor h => ?_) hopen hhyd
  · simp [published, mergingNone] at h
  · simp [connecting] at h

end Messenger
