import Messenger.Realtime.Manager

/-! Whether `_user_groups` is the inverse of `_group_connections`. Each edit is made to both at once,
but `_handle_group_deleted` edits the members that it listed before it sent the frames. -/

namespace Messenger
open Transition

namespace Registry

variable {σ : Type} [DecidableEq σ]

/-- Every group that a user is known to belong to routes to them. -/
def Inverse (r : Registry σ) : Prop :=
  ∀ u g, g ∈ r.userGroups.at? u → u ∈ r.groupConnections.at? g

def Unmentioned (r : Registry σ) (g : UUID) : Prop :=
  (∀ u, g ∉ r.userGroups.at? u) ∧ r.groupConnections g = none

/-- The members are all that the worker knows to belong to the group. -/
def Covers (r : Registry σ) (g : UUID) (ms : Finset UUID) : Prop :=
  ∀ u, g ∈ r.userGroups.at? u → u ∈ ms

variable {r : Registry σ} {u g g' : UUID} {ws : σ} {gs ms : Finset UUID}

/-! ### What keeps the tables inverse -/

theorem Inverse.mergeGroups (h : r.Inverse) : (r.mergeGroups u ws gs).Inverse := by
  unfold Registry.mergeGroups
  split
  · intro u' g' hg'
    have hcases : g' ∈ r.userGroups.at? u' ∨ u' = u ∧ g' ∈ gs := SetMap.mem_addAll.mp hg'
    refine SetMap.mem_addEach.mpr ?_
    rcases hcases with hold | ⟨hu, hnew⟩
    · exact .inl (h u' g' hold)
    · exact .inr ⟨hnew, hu⟩
  · exact h

theorem Inverse.disconnect (h : r.Inverse) : (r.disconnect u ws).Inverse := by
  unfold Registry.disconnect
  split
  · intro u' g' hg'
    have hkept : g' ∈ r.userGroups.at? u' ∧ u' ≠ u := SetMap.mem_pop.mp hg'
    have hroute : u' ∈ r.groupConnections.at? g' := h u' g' hkept.1
    exact SetMap.mem_discardEach.mpr ⟨hroute, fun hboth => hkept.2 hboth.2⟩
  · exact h

omit [DecidableEq σ] in
theorem Inverse.join (h : r.Inverse) : (r.join u g).Inverse := by
  unfold Registry.join
  split
  · intro u' g' hg'
    have hcases : g' ∈ r.userGroups.at? u' ∨ u' = u ∧ g' = g := SetMap.mem_add.mp hg'
    refine SetMap.mem_add.mpr ?_
    rcases hcases with hold | ⟨hu, hnew⟩
    · exact .inl (h u' g' hold)
    · exact .inr ⟨hnew, hu⟩
  · exact h

omit [DecidableEq σ] in
theorem Inverse.leave (h : r.Inverse) : (r.leave u g).Inverse := by
  intro u' g' hg'
  have hkept : g' ∈ r.userGroups.at? u' ∧ ¬ (u' = u ∧ g' = g) := SetMap.mem_discardIfPresent.mp hg'
  have hroute : u' ∈ r.groupConnections.at? g' := h u' g' hkept.1
  show (r.leave u g).Listens u' g'
  exact listens_leave.mpr ⟨hroute, hkept.2⟩

omit [DecidableEq σ] in
theorem mem_userGroups_deleteGroup :
    g' ∈ (r.deleteGroup g ms).userGroups.at? u ↔ g' ∈ r.userGroups.at? u ∧ ¬ (u ∈ ms ∧ g' = g) :=
  SetMap.mem_discardPresent

omit [DecidableEq σ] in
theorem Inverse.deleteGroup (h : r.Inverse) (hms : r.Covers g ms) : (r.deleteGroup g ms).Inverse := by
  intro u' g' hg'
  obtain ⟨hold, hkept⟩ := mem_userGroups_deleteGroup.mp hg'
  have hroute : u' ∈ r.groupConnections.at? g' := h u' g' hold
  -- a user whom the deletion leaves in this group would be none of the members
  have hne : g' ≠ g := by
    rintro rfl
    exact hkept ⟨hms u' hold, rfl⟩
  show (r.deleteGroup g ms).Listens u' g'
  exact listens_deleteGroup.mpr ⟨hroute, hne⟩

omit [DecidableEq σ] in
theorem Inverse.covers (h : r.Inverse) (hempty : r.groupConnections.at? g = ∅) : r.Covers g ∅ := by
  intro u hu
  have hroute : u ∈ r.groupConnections.at? g := h u g hu
  rwa [hempty] at hroute

/-! ### What keeps a group unmentioned -/

omit [DecidableEq σ] in
theorem unmentioned_deleteGroup : (r.deleteGroup g ms).Unmentioned g ↔ r.Covers g ms := by
  have hpopped : (r.deleteGroup g ms).groupConnections g = none :=
    SetMap.pop_apply.trans (if_pos rfl)
  constructor
  · intro h u hu
    by_contra hmissed
    exact h.1 u (mem_userGroups_deleteGroup.mpr ⟨hu, fun hboth => hmissed hboth.1⟩)
  · intro h
    refine ⟨fun u hu => ?_, hpopped⟩
    obtain ⟨hold, hkept⟩ := mem_userGroups_deleteGroup.mp hu
    exact hkept ⟨h u hold, rfl⟩

theorem Unmentioned.mergeGroups (h : r.Unmentioned g) (hg : g ∉ gs) :
    (r.mergeGroups u ws gs).Unmentioned g := by
  unfold Registry.mergeGroups
  split
  · refine ⟨fun u' hu' => ?_, (if_neg hg).trans h.2⟩
    have hcases : g ∈ r.userGroups.at? u' ∨ u' = u ∧ g ∈ gs := SetMap.mem_addAll.mp hu'
    exact hcases.elim (h.1 u') fun hnew => hg hnew.2
  · exact h

theorem Unmentioned.disconnect (h : r.Unmentioned g) : (r.disconnect u ws).Unmentioned g := by
  unfold Registry.disconnect
  split
  · refine ⟨fun u' hu' => h.1 u' (SetMap.mem_pop.mp hu').1, ?_⟩
    -- the user who leaves was not known to belong to the group
    exact (if_neg (h.1 u)).trans h.2
  · exact h

omit [DecidableEq σ] in
theorem Unmentioned.join (h : r.Unmentioned g) (hne : g ≠ g') : (r.join u g').Unmentioned g := by
  unfold Registry.join
  split
  · refine ⟨fun u' hu' => ?_, (SetMap.put_apply.trans (if_neg hne)).trans h.2⟩
    have hcases : g ∈ r.userGroups.at? u' ∨ u' = u ∧ g = g' := SetMap.mem_add.mp hu'
    exact hcases.elim (h.1 u') fun hnew => hne hnew.2
  · exact h

omit [DecidableEq σ] in
theorem Unmentioned.leave (h : r.Unmentioned g) : (r.leave u g').Unmentioned g := by
  refine ⟨fun u' hu' => h.1 u' (SetMap.mem_discardIfPresent.mp hu').1, ?_⟩
  show (r.groupConnections.discard g' u).popIfEmpty g' g = none
  by_cases hg : g = g'
  · -- `defaultdict` makes an entry for the group, which is popped at once
    subst hg
    have hnobody : r.groupConnections.at? g = ∅ := congrArg (Option.getD · ∅) h.2
    have hempty : (r.groupConnections.discard g u).at? g = ∅ := by
      rw [SetMap.at?_discard_self, hnobody, Finset.erase_empty]
    rw [SetMap.popIfEmpty, if_pos hempty, SetMap.pop_apply, if_pos rfl]
  · have hdiscard : r.groupConnections.discard g' u g = none :=
      (SetMap.put_apply.trans (if_neg hg)).trans h.2
    unfold SetMap.popIfEmpty
    split
    · rw [SetMap.pop_apply, if_neg hg, hdiscard]
    · exact hdiscard

omit [DecidableEq σ] in
theorem Unmentioned.deleteGroup (h : r.Unmentioned g) : (r.deleteGroup g' ms).Unmentioned g := by
  refine ⟨fun u' hu' => h.1 u' (mem_userGroups_deleteGroup.mp hu').1, ?_⟩
  show r.groupConnections.pop g' g = none
  rw [SetMap.pop_apply]
  split
  · rfl
  · exact h.2

end Registry

def Edit.Names {σ : Type} (g : UUID) : Edit σ → Prop
  | .mergeGroups _ _ groups => g ∈ groups
  | .join _ group => group = g
  | .connect .. | .disconnect .. | .leave .. | .deleteGroup .. => False

/-- A deletion takes the group from all that the worker knows to belong to it. -/
def Edit.Complete {σ : Type} (r : Registry σ) : Edit σ → Prop
  | .deleteGroup group members => r.Covers group members
  | .connect .. | .mergeGroups .. | .disconnect .. | .join .. | .leave .. => True

namespace Registry

variable {σ : Type} [DecidableEq σ] {r : Registry σ} {e : Edit σ} {g : UUID}

theorem Inverse.edit (h : r.Inverse) (he : e.Complete r) : (r.edit e).Inverse := by
  cases e with
  | connect => exact h
  | mergeGroups => exact h.mergeGroups
  | disconnect => exact h.disconnect
  | join => exact h.join
  | leave => exact h.leave
  | deleteGroup => exact h.deleteGroup he

theorem Unmentioned.edit (h : r.Unmentioned g) (he : ¬ e.Names g) : (r.edit e).Unmentioned g := by
  cases e with
  | connect => exact h
  | mergeGroups => exact h.mergeGroups he
  | disconnect => exact h.disconnect
  | join => exact h.join fun heq => he heq.symm
  | leave => exact h.leave
  | deleteGroup => exact h.deleteGroup

end Registry

def ManagerAct.Names {σ : Type} (g : UUID) : ManagerAct σ → Prop
  | .handle (.groupMembership _ group .join) => group = g
  | .loaded _ _ groups => g ∈ groups
  | _ => False

namespace Manager

variable {σ : Type} [DecidableEq σ]

def Idle (m : Manager σ) : Prop := m.tasks = 0

instance (m : Manager σ) : Decidable m.Idle := inferInstanceAs (Decidable (m.tasks = 0))

def EndsDeletion (m : Manager σ) (g : UUID) : ManagerAct σ → Prop
  | .handle (.groupDeleted group) => group = g ∧ m.registry.groupConnections.at? g = ∅
  | .sent group _ => group = g
  | _ => False

/-- Nobody has become known to belong to the group since the handler listed its members. -/
def ListsMembers (m : Manager σ) : ManagerAct σ → Prop
  | .sent group members => m.registry.Covers group members
  | _ => True

/-- A deletion of the group has been handled, and no JOIN and no hydration has named it since. -/
def DeletedSince (acts : List (ManagerAct σ)) (g : UUID) : Prop :=
  ∃ pre a post m, acts = pre ++ a :: post ∧ run step {} pre = some m ∧ m.EndsDeletion g a ∧
    ∀ b ∈ post, ¬ b.Names g

variable {m m' : Manager σ} {a : ManagerAct σ} {acts : List (ManagerAct σ)} {e : Edit σ} {g : UUID}

omit [DecidableEq σ] in
theorem names_of_edit (he : m.edit? a = some e) (hg : e.Names g) : a.Names g := by
  unfold edit? at he
  split at he
  all_goals try cases he
  all_goals try exact hg
  split at he <;> cases he
  exact hg

omit [DecidableEq σ] in
theorem edit_of_endsDeletion (h : m.EndsDeletion g a) :
    ∃ ms, m.edit? a = some (.deleteGroup g ms) ∧
      (m.registry.Inverse → m.ListsMembers a → m.registry.Covers g ms) := by
  unfold EndsDeletion at h
  split at h
  · obtain ⟨rfl, hnobody⟩ := h
    exact ⟨∅, if_pos hnobody, fun hI _ => hI.covers hnobody⟩
  · obtain rfl := h
    exact ⟨_, rfl, fun _ hlists => hlists⟩
  · exact h.elim

theorem inverse_step (hI : m.registry.Inverse) (hG : m.ListsMembers a) (h : m.step a = some m') :
    m'.registry.Inverse := by
  rw [step_registry h]
  cases hedit : m.edit? a with
  | none => exact hI
  | some e =>
    have hcomplete : e.Complete m.registry := by
      cases e with
      | deleteGroup group members =>
        have hends : m.EndsDeletion group a := by
          unfold edit? at hedit
          split at hedit
          all_goals try cases hedit
          all_goals try rfl
          split at hedit
          · cases hedit
            exact ⟨rfl, by assumption⟩
          · cases hedit
        obtain ⟨ms, hms, hcovers⟩ := edit_of_endsDeletion hends
        obtain ⟨-, rfl⟩ := Edit.deleteGroup.inj (Option.some.inj (hedit.symm.trans hms))
        exact hcovers hI hG
      | connect | mergeGroups | disconnect | join | leave => trivial
    exact hI.edit hcomplete

theorem unmentioned_step (hI : m.registry.Unmentioned g) (hG : ¬ a.Names g)
    (h : m.step a = some m') : m'.registry.Unmentioned g := by
  rw [step_registry h]
  cases hedit : m.edit? a with
  | none => exact hI
  | some e => exact hI.edit fun hnames => hG (names_of_edit hedit hnames)

theorem registry_of_endsDeletion (hends : m.EndsDeletion g a) (h : m.step a = some m') :
    ∃ ms, m'.registry = m.registry.deleteGroup g ms ∧
      (m.registry.Inverse → m.ListsMembers a → m.registry.Covers g ms) := by
  obtain ⟨ms, hedit, hcovers⟩ := edit_of_endsDeletion hends
  have hregistry := step_registry h
  rw [hedit] at hregistry
  exact ⟨ms, hregistry, hcovers⟩

theorem inverse_of_guarded (hG : Guarded step ListsMembers {} acts) (h : run step {} acts = some m) :
    m.registry.Inverse :=
  Guarded.induction (I := fun m : Manager σ => m.registry.Inverse)
    (fun _ _ _ hI hG hs => inverse_step hI hG hs) hG h fun _ _ hg => absurd hg (Finset.notMem_empty _)

theorem unmentioned_of_guarded (hG : Guarded step ListsMembers {} acts)
    (h : run step {} acts = some m) (hdeleted : DeletedSince acts g) : m.registry.Unmentioned g := by
  obtain ⟨pre, a, post, m₀, rfl, hpre, hends, hquiet⟩ := hdeleted
  obtain ⟨m₀', hpre', hrest⟩ := run_append_eq_some.mp h
  obtain rfl := run_det hpre hpre'
  obtain ⟨m₁, ha, hpost⟩ := run_cons_eq_some.mp hrest
  have hinverse : m₀.registry.Inverse := inverse_of_guarded hG.append.1 hpre
  have hlists : m₀.ListsMembers a := (hG.append.2 m₀ hpre).1
  have hforgotten : m₁.registry.Unmentioned g := by
    obtain ⟨ms, hregistry, hcovers⟩ := registry_of_endsDeletion hends ha
    rw [hregistry]
    exact Registry.unmentioned_deleteGroup.mpr (hcovers hinverse hlists)
  exact Guarded.induction (I := fun m : Manager σ => m.registry.Unmentioned g)
    (fun _ _ _ hI hG hs => unmentioned_step hI hG hs)
    (guarded_of_forall_mem (G := fun _ b => ¬ b.Names g) fun b hb _ => hquiet b hb) hpost hforgotten

/-- The tables stay inverse, and forget a deleted group, as long as each handler of a deletion has
listed all that are known to belong to the group when it edits the tables; and no longer. -/
theorem indexes_inverse (acts : List (ManagerAct σ)) (m : Manager σ)
    (hrun : run step {} acts = some m) :
    Guarded step ListsMembers {} acts ↔
      ∀ pre, pre <+: acts → ∀ n, run step {} pre = some n →
        (n.Idle → n.registry.Inverse) ∧ ∀ g, DeletedSince pre g → n.registry.Unmentioned g := by
  constructor
  · rintro hG pre ⟨post, rfl⟩ n hn
    have hpre : Guarded step ListsMembers {} pre := hG.append.1
    exact ⟨fun _ => inverse_of_guarded hpre hn, fun g hg => unmentioned_of_guarded hpre hn hg⟩
  · refine fun hall => guarded_iff_forall_split.mpr fun pre a post hsplit m₀ hpre => ?_
    cases a with
    | sent g ms =>
      subst hsplit
      obtain ⟨m₀', hpre', hrest⟩ := run_append_eq_some.mp hrun
      obtain rfl := run_det hpre hpre'
      obtain ⟨m₁, ha, -⟩ := run_cons_eq_some.mp hrest
      -- the group must be forgotten as soon as the handler ends
      have hprefix : pre ++ [.sent g ms] <+: pre ++ .sent g ms :: post := ⟨post, by simp⟩
      have hdeleted : DeletedSince (pre ++ [.sent g ms]) g :=
        ⟨pre, .sent g ms, [], m₀, rfl, hpre, rfl, nofun⟩
      have hend : run step {} (pre ++ [.sent g ms]) = some m₁ :=
        run_append_eq_some.mpr ⟨m₀, hpre, run_singleton.trans ha⟩
      have hforgotten : m₁.registry.Unmentioned g := (hall _ hprefix m₁ hend).2 g hdeleted
      have hregistry : m₁.registry = m₀.registry.deleteGroup g ms := step_registry ha
      rw [hregistry] at hforgotten
      exact Registry.unmentioned_deleteGroup.mp hforgotten
    | register | counted | loaded | unregister | locks | removed | handle | raises => trivial

def deleting : List (ManagerAct ℕ) :=
  [.register ⟨1⟩ 0, .counted ⟨1⟩ 0, .loaded ⟨1⟩ 0 {⟨2⟩}, .handle (.groupDeleted ⟨2⟩)]

/-- Nobody becomes a member while the frame is sent. -/
theorem indexes_inverse_deleted :
    ∃ m : Manager ℕ, run step {} (deleting ++ [.sent ⟨2⟩ {⟨1⟩}]) = some m ∧ m.Idle ∧
      m.registry.Inverse ∧ m.registry.Unmentioned ⟨2⟩ := by
  obtain ⟨m, hm, hend⟩ := (Option.any_eq_true ..).mp (show (run step ({} : Manager ℕ)
    (deleting ++ [.sent ⟨2⟩ {⟨1⟩}])).any (fun m => decide m.Idle) by decide)
  have hidle : m.Idle := of_decide_eq_true hend
  obtain ⟨m₀, hpre, -⟩ := run_append_eq_some.mp hm
  have hlists : Guarded step ListsMembers {} (deleting ++ [.sent ⟨2⟩ {⟨1⟩}]) := by
    refine ⟨trivial, fun m₁ h₁ => ⟨trivial, fun m₂ h₂ => ⟨trivial, fun m₃ h₃ =>
      ⟨trivial, fun m₄ h₄ => ⟨fun u hu => ?_, fun _ _ => trivial⟩⟩⟩⟩⟩
    have hbefore : run step {} deleting = some m₄ := by
      simp only [deleting, run, h₁, h₂, h₃, h₄, Option.bind_some]
    have hgroups : m₄.registry.userGroups = SetMap.empty.addAll ⟨1⟩ {⟨2⟩} := by
      refine Option.some.inj ?_
      show (some m₄).map (fun m => m.registry.userGroups) = _
      rw [← hbefore]
      rfl
    rw [hgroups, SetMap.mem_addAll, SetMap.at?_empty] at hu
    rcases hu with hnone | ⟨rfl, -⟩
    · exact absurd hnone (Finset.notMem_empty _)
    · exact Finset.mem_singleton_self _
  obtain ⟨hinverse, hforgotten⟩ :=
    (indexes_inverse _ m hm).mp hlists _ List.prefix_rfl m hm
  have hdeleted : DeletedSince (deleting ++ [.sent ⟨2⟩ {⟨1⟩}]) ⟨2⟩ := by
    refine ⟨deleting, .sent ⟨2⟩ {⟨1⟩}, [], m₀, rfl, hpre, rfl, fun b hb => ?_⟩
    cases hb
  exact ⟨m, hm, hidle, hinverse hidle, hforgotten ⟨2⟩ hdeleted⟩

/-- A second member's groups were loaded before the deletion, and are merged while the frames are
being sent to the first. -/
theorem indexes_not_inverse_merged_while_sending :
    ∃ m : Manager ℕ, run step {} [.register ⟨1⟩ 0, .counted ⟨1⟩ 0, .loaded ⟨1⟩ 0 {⟨2⟩},
        .register ⟨3⟩ 1, .counted ⟨3⟩ 1, .handle (.groupDeleted ⟨2⟩), .loaded ⟨3⟩ 1 {⟨2⟩},
        .sent ⟨2⟩ {⟨1⟩}] = some m ∧ m.Idle ∧ ¬ m.registry.Inverse := by
  obtain ⟨m, hm, hstate⟩ := (Option.any_eq_true ..).mp (show (run step ({} : Manager ℕ)
    [.register ⟨1⟩ 0, .counted ⟨1⟩ 0, .loaded ⟨1⟩ 0 {⟨2⟩}, .register ⟨3⟩ 1, .counted ⟨3⟩ 1,
      .handle (.groupDeleted ⟨2⟩), .loaded ⟨3⟩ 1 {⟨2⟩}, .sent ⟨2⟩ {⟨1⟩}]).any (fun m =>
        decide (m.Idle ∧ ⟨2⟩ ∈ m.registry.userGroups.at? ⟨3⟩ ∧
          ⟨3⟩ ∉ m.registry.groupConnections.at? ⟨2⟩)) by decide)
  obtain ⟨hidle, hknown, hunrouted⟩ := of_decide_eq_true hstate
  exact ⟨m, hm, hidle, fun hinverse => hunrouted (hinverse ⟨3⟩ ⟨2⟩ hknown)⟩

end Manager
end Messenger
