import Messenger.Realtime.Removal
import Messenger.Services.Deletion

/-! Whether an operation that takes rows out of `memberships` also takes the routes out of the workers'
tables. `remove_member` and `delete_group` spawn an event that each worker turns into edits. The
deletion of an account takes its rows by a cascade and spawns nothing. -/

namespace Messenger
open Transition

namespace Hub

variable {ω σ : Type} [DecidableEq ω] [DecidableEq σ]

/-- The steps of the workers, and the calls of `AuthService` and `UserService` that commit. -/
inductive AccountAct (ω σ : Type) where
  | hub (a : HubAct ω σ)
  | account (op : Operation)

def accountStep (s : Hub ω σ) : AccountAct ω σ → Option (Hub ω σ)
  | .hub a => s.step a
  | .account op => (op.commit s.db).map fun r => { s with db := r.1 }

inductive Call where
  | group (op : GroupOperation)
  | account (op : Operation)

namespace Call

def act : Call → AccountAct ω σ
  | group op => .hub (.request op)
  | account op => .account op

def event : Call → Option BusEvent
  | group op => some op.event
  | account _ => none

end Call

def Quiet (s : Hub ω σ) : Prop :=
  (∀ t ∈ s.tasks, t.registration = none) ∧ s.outbox = 0 ∧ ∀ w, s.bus.unread w = []

def Handled (s : Hub ω σ) (w : ω) (e : BusEvent) : Prop :=
  ¬ s.Pending w e ∧ ∀ g, e = .groupDeleted g → ∀ t ∈ s.tasks, ¬ t.Deletes w g

/-- The user does not come into the group again, and the event is not lost before it is published. -/
def AccountAct.Respects (u g : UUID) (e : Option BusEvent) : AccountAct ω σ → Prop
  | hub (.request op) => ¬ op.Adds u g
  | hub (.drop e') => e ≠ some e'
  | hub _ | account _ => True

/-- Whenever every worker has handled what the call has spawned, none sends a group's messages to a
user whose row the call has removed. -/
def RoutesRemoved (s : Hub ω σ) (c : Call) : Prop :=
  ∀ s₁, s.accountStep c.act = some s₁ → ∀ u g, s.db.Member g u → ¬ s₁.db.Member g u →
    ∀ acts s₂, run accountStep s₁ acts = some s₂ → (∀ a ∈ acts, a.Respects u g c.event) →
      (∀ e ∈ c.event, ∀ w, s₂.Handled w e) →
        ∀ w, ¬ (s₂.registry w).Listens u g ∧ ∀ sender, u ∉ (s₂.registry w).localMembers g sender

variable {s s' : Hub ω σ} {a : HubAct ω σ} {c : Call} {w : ω} {u g : UUID} {e : BusEvent}
  {d d' : Db}

/-! ### What a call removes -/

theorem member_deleteUser {id : UUID} (h : d.deleteUser id = .ok d') :
    d'.Member g u ↔ d.Member g u ∧ u ≠ id := by
  obtain ⟨-, -, rfl⟩ := Db.deleteUser_eq_ok h
  simp only [Db.Member, Table.get?_deleteWhere]
  cases hm : d.memberships.get? (g, u) with
  | none => simp
  | some m =>
    have hpk : m.pk = (g, u) := Table.key_of_get? hm
    have hid : m.userId = u := (Prod.mk.inj hpk).2
    simp [Option.filter, hid]

theorem member_commit {op : Operation} {es : List Effect} (h : op.commit d = some (d', es)) :
    (d'.Member g u → d.Member g u) ∧
      (d.Member g u → d'.Member g u ∨ op = .deleteAccount u) := by
  rcases Operation.commit_cases h with ⟨ws, rfl⟩ | ⟨id, rfl, hd⟩
  · have hsame : (Write.applyAll ws d).Member g u ↔ d.Member g u := by
      rw [Db.Member, Write.memberships_applyAll, Db.Member]
    exact ⟨hsame.mp, fun hm => .inl (hsame.mpr hm)⟩
  · refine ⟨fun hm => ((member_deleteUser hd).mp hm).1, fun hm => ?_⟩
    by_cases hu : u = id
    · exact .inr (congrArg Operation.deleteAccount hu.symm)
    · exact .inl ((member_deleteUser hd).mpr ⟨hm, hu⟩)

theorem ends_of_removed {op : GroupOperation} (h : op.tx d = .ok d') (hm : d.Member g u)
    (hnot : ¬ d'.Member g u) : op.event.Ends u g := by
  have hremoves : op.Removes u g := by
    by_contra hkept
    exact hnot ((GroupOperation.member_iff h).mpr (.inl ⟨hm, hkept⟩))
  cases op with
  | createGroup | addMember => exact hremoves.elim
  | removeMember actor group target =>
    obtain ⟨rfl, rfl⟩ := hremoves
    exact .inl rfl
  | deleteGroup actor group =>
    obtain rfl : group = g := hremoves
    exact .inr rfl

/-! ### The routes after the call -/

structure Leaving (s : Hub ω σ) (u g : UUID) (e : Option BusEvent) : Prop where
  member : ¬ s.db.Member g u
  join : ∀ w, ¬ s.Pending w (.groupMembership u g .join)
  merging : ∀ {w ws gs}, .merging w u ws (some gs) ∈ s.tasks → g ∉ gs
  ending : ∀ w, (s.registry w).Listens u g → ∃ e' ∈ e, e'.Ends u g ∧ s.Ending w g e'

theorem Leaving.move {e : Option BusEvent} (h : s.Leaving u g e)
    (ha : (AccountAct.hub a).Respects u g e) (hm : Move s a s') : s'.Leaving u g e where
  member hmember := by
    rcases hm.db with heq | ⟨op, rfl, hop, -⟩
    · exact h.member (heq ▸ hmember)
    · rcases (GroupOperation.member_iff hop).mp hmember with ⟨hold, -⟩ | hadds
      · exact h.member hold
      · exact ha hadds
  join w hpending := by
    rcases hm.pending_before hpending with hold | ⟨op, rfl, hevent⟩
    · exact h.join w hold
    · refine ha ?_
      cases op with
      | createGroup | addMember =>
        cases hevent
        exact ⟨rfl, rfl⟩
      | removeMember | deleteGroup => cases hevent
  merging {w ws gs} ht hg := by
    rcases hm.spawned ht with hold | hspawned
    · exact h.merging hold hg
    · cases hspawned with
      | merging => exact h.member (Db.mem_groupIds.mp hg).2
  ending w hlistens := by
    -- of the steps that make a worker listen, neither a join nor a merge has the group at hand
    have hbefore : (s.registry w).Listens u g := by
      rcases hm.registry w with heq | hrewrites
      · exact heq ▸ hlistens
      · generalize s'.registry w = r at hrewrites hlistens
        cases hrewrites with
        | connect => exact hlistens
        | @merge _ u' ws groups ht =>
          rcases Registry.listens_mergeGroups.mp hlistens with hold | ⟨-, rfl, hg⟩
          · exact hold
          · cases groups with
            | none => exact absurd hg (Finset.notMem_empty g)
            | some gs => exact absurd hg (h.merging ht)
        | disconnect => exact Registry.listens_of_disconnect hlistens
        | join hr =>
          rcases Registry.listens_join.mp hlistens with hold | ⟨-, rfl, rfl⟩
          · exact hold
          · exact absurd (.inr (Feed.mem_unread_read hr)) (h.join w)
        | leave => exact (Registry.listens_leave.mp hlistens).1
        | deleted | finish => exact (Registry.listens_deleteGroup.mp hlistens).1
    obtain ⟨e', he', hends, hending⟩ := h.ending w hbefore
    rcases hending.move hends hm with hkept | hnot | rfl
    · exact ⟨e', he', hends, hkept⟩
    · exact absurd hlistens hnot
    · exact absurd he' ha

theorem Leaving.step {e : Option BusEvent} {b : AccountAct ω σ} (h : s.Leaving u g e)
    (hb : b.Respects u g e) (hs : s.accountStep b = some s') : s'.Leaving u g e := by
  cases b with
  | hub a => exact h.move hb (move_of_step hs)
  | account op =>
    obtain ⟨⟨d', es⟩, hcommit, rfl⟩ := Option.map_eq_some_iff.mp hs
    exact ⟨fun hm => h.member ((member_commit hcommit).1 hm), h.join, h.merging, h.ending⟩

theorem Leaving.run {e : Option BusEvent} {acts : List (AccountAct ω σ)} (h : s.Leaving u g e)
    (hacts : ∀ b ∈ acts, b.Respects u g e) (hs : run accountStep s acts = some s') :
    s'.Leaving u g e := by
  have hguarded : Guarded accountStep (fun _ b => b.Respects u g e) s acts :=
    guarded_of_forall_mem fun b hb _ => hacts b hb
  exact Guarded.induction (I := fun s : Hub ω σ => s.Leaving u g e)
    (fun _ _ _ hI hb hs => Leaving.step hI hb hs) hguarded hs h

theorem Quiet.leaving {s₁ : Hub ω σ} (hquiet : s.Quiet) (hs : s.accountStep c.act = some s₁)
    (hmember : s.db.Member g u) (hnot : ¬ s₁.db.Member g u)
    (hroutes : c = .account (.deleteAccount u) → ∀ w, ¬ (s.registry w).Listens u g) :
    s₁.Leaving u g c.event := by
  obtain ⟨hidle, hout, hread⟩ := hquiet
  have hmerging : ∀ {w ws gs}, .merging w u ws (some gs) ∈ s.tasks → g ∉ gs := fun ht =>
    absurd (hidle _ ht) (Option.some_ne_none _)
  cases c with
  | group op =>
    have hrequest : s.step (.request op) = some s₁ := hs
    have hm := move_of_step hrequest
    cases hm with
    | request hop =>
      have hends : op.event.Ends u g := ends_of_removed hop hmember hnot
      refine ⟨hnot, fun w hjoin => ?_, hmerging, fun w _ => ⟨op.event, rfl, hends, ?_⟩⟩
      · -- the event of the call is the only one
        rcases hjoin with hjoin | hjoin
        · rw [hout] at hjoin
          have heq := Multiset.mem_singleton.mp hjoin
          rcases hends with hleave | hdeleted
          · cases heq.trans hleave
          · cases heq.trans hdeleted
        · rw [hread w] at hjoin
          cases hjoin
      · exact .inl (.inl (Multiset.mem_cons_self ..))
  | account op =>
    obtain ⟨⟨d', es⟩, hcommit, rfl⟩ := Option.map_eq_some_iff.mp hs
    have hdeleted : op = .deleteAccount u := by
      rcases (member_commit hcommit).2 hmember with hkept | hdeleted
      · exact absurd hkept hnot
      · exact hdeleted
    refine ⟨hnot, fun w hjoin => ?_, hmerging, fun w hlistens => ?_⟩
    · rcases hjoin with hjoin | hjoin
      · rw [hout] at hjoin
        cases hjoin
      · rw [hread w] at hjoin
        cases hjoin
    · exact absurd hlistens (hroutes (congrArg Call.account hdeleted) w)

/-- The deletion of an account tells no worker. -/
theorem RoutesRemoved.not_listens (hremoved : s.RoutesRemoved (.account (.deleteAccount u)))
    (huser : (s.db.users.get? u).isSome) (hgroups : ∀ group ∈ s.db.groups.rows, group.createdBy ≠ u)
    (hmember : s.db.Member g u) (w : ω) : ¬ (s.registry w).Listens u g := by
  obtain ⟨d', hd⟩ := Db.deleteUser_of_no_groups huser hgroups
  have hcommit : (Operation.deleteAccount u).commit s.db = some (d', []) :=
    Operation.commit_deleteAccount.mpr ⟨hd, rfl⟩
  have hs : s.accountStep (Call.account (.deleteAccount u)).act = some { s with db := d' } :=
    Option.map_eq_some_iff.mpr ⟨_, hcommit, rfl⟩
  have hnot : ¬ d'.Member g u := fun hm => ((member_deleteUser hd).mp hm).2 rfl
  -- the call spawns nothing, so all of it has been handled at once
  exact (hremoved _ hs u g hmember hnot [] _ rfl (fun _ h => absurd h List.not_mem_nil)
    (fun e h => absurd h (Option.not_mem_none e)) w).1

/-- The only routes that stay behind are those of an account that is deleted while a worker still
sends it the messages of one of its groups. -/
theorem routesRemoved_iff (s : Hub ω σ) (c : Call) (hquiet : s.Quiet) :
    s.RoutesRemoved c ↔ ∀ u, c = .account (.deleteAccount u) → (s.db.users.get? u).isSome →
      (∀ group ∈ s.db.groups.rows, group.createdBy ≠ u) →
      ∀ w g, s.db.Member g u → ¬ (s.registry w).Listens u g := by
  constructor
  · rintro hremoved u rfl huser hgroups w g hmember
    exact hremoved.not_listens huser hgroups hmember w
  · intro hroutes s₁ hs u g hmember hnot acts s₂ hrun hacts hhandled w
    have hstored : c = .account (.deleteAccount u) → (s.db.users.get? u).isSome ∧
        ∀ group ∈ s.db.groups.rows, group.createdBy ≠ u := by
      rintro rfl
      obtain ⟨⟨d', es⟩, hcommit, -⟩ := Option.map_eq_some_iff.mp hs
      obtain ⟨huser, hgroups, -⟩ := Db.deleteUser_eq_ok (Operation.commit_deleteAccount.mp hcommit).1
      exact ⟨huser, hgroups⟩
    have hleaving : s₁.Leaving u g c.event := hquiet.leaving hs hmember hnot fun hc w =>
      hroutes u hc (hstored hc).1 (hstored hc).2 w g hmember
    have hunrouted : ¬ (s₂.registry w).Listens u g := by
      intro hlistens
      obtain ⟨e, he, -, hending⟩ := (hleaving.run hacts hrun).ending w hlistens
      rcases hending with hpending | ⟨hdeleted, t, ht, hdeletes⟩
      · exact (hhandled e he w).1 hpending
      · exact (hhandled e he w).2 g hdeleted t ht hdeletes
    exact ⟨hunrouted, fun sender h => hunrouted (Registry.listens_of_mem_localMembers h)⟩

end Hub

open Sample

/-- A worker that has loaded the groups of a user, and nothing is in progress. -/
theorem Sample.quiet_connected :
    ∃ s : Hub Unit ℕ, run Hub.accountStep (Hub.init club) ((connecting ++ merging).map .hub) = some s ∧
      s.Quiet ∧ s.db.Member chess ben ∧ (s.registry ()).Listens ben chess ∧
      (s.db.users.get? ben).isSome ∧ ∀ group ∈ s.db.groups.rows, group.createdBy ≠ ben := by
  obtain ⟨s, hs, hidle, hout, hread, hrest⟩ :
      ∃ s ∈ run Hub.accountStep (Hub.init club) ((connecting ++ merging).map .hub), s.tasks = 0 ∧
        s.outbox = 0 ∧ s.bus.unread () = [] ∧ s.db.Member chess ben ∧
        (s.registry ()).Listens ben chess ∧ (s.db.users.get? ben).isSome ∧
        ∀ group ∈ s.db.groups.rows, group.createdBy ≠ ben := by decide
  exact ⟨s, hs, ⟨by simp [hidle], hout, fun _ => hread⟩, hrest⟩

theorem routesRemoved_removal :
    ∃ s : Hub Unit ℕ, run Hub.accountStep (Hub.init club) ((connecting ++ merging).map .hub) = some s ∧
      (s.registry ()).Listens ben chess ∧ s.RoutesRemoved (.group (.removeMember ada chess ben)) := by
  obtain ⟨s, hs, hquiet, -, hlistens, -⟩ := quiet_connected
  exact ⟨s, hs, hlistens, (Hub.routesRemoved_iff s _ hquiet).mpr nofun⟩

/-- A user with an open socket deletes the account: the row goes, and the route stays. -/
theorem not_routesRemoved_deletedAccount :
    ∃ s : Hub Unit ℕ, run Hub.accountStep (Hub.init club) ((connecting ++ merging).map .hub) = some s ∧
      s.Quiet ∧ ¬ s.RoutesRemoved (.account (.deleteAccount ben)) := by
  obtain ⟨s, hs, hquiet, hmember, hlistens, huser, hgroups⟩ := quiet_connected
  exact ⟨s, hs, hquiet, fun hremoved => hremoved.not_listens huser hgroups hmember () hlistens⟩

end Messenger
