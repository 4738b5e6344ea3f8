import Messenger.Realtime.Registry

/-! The edits that the tasks of a worker make to its routing tables, each between two awaits, and
what holds of the tables whatever edits have been made. -/

namespace Messenger

inductive Edit (σ : Type) where
  | connect (user : UUID) (ws : σ)
  | mergeGroups (user : UUID) (ws : σ) (groups : Finset UUID)
  | disconnect (user : UUID) (ws : σ)
  | join (user group : UUID)
  | leave (user group : UUID)
  | deleteGroup (group : UUID) (members : Finset UUID)

def Edit.socket {σ : Type} : Edit σ → Option σ
  | connect _ ws | mergeGroups _ ws _ | disconnect _ ws => some ws
  | join .. | leave .. | deleteGroup .. => none

namespace Registry

variable {σ : Type} [DecidableEq σ]

def edit (r : Registry σ) : Edit σ → Registry σ
  | .connect user ws => r.connect user ws
  | .mergeGroups user ws groups => r.mergeGroups user ws groups
  | .disconnect user ws => r.disconnect user ws
  | .join user group => r.join user group
  | .leave user group => r.leave user group
  | .deleteGroup group members => r.deleteGroup group members

/-- Only a user with an open socket is routed, and is known to belong to the group; groups are known
of no other users; and no set of sockets or of members is empty. -/
structure Sound (r : Registry σ) : Prop where
  routed : ∀ {u g}, u ∈ r.groupConnections.at? g →
    g ∈ r.userGroups.at? u ∧ (r.localConnections.at? u).Nonempty
  known : ∀ {u}, (r.userGroups u).isSome → (r.localConnections u).isSome
  sockets : r.localConnections.Tidy
  members : r.groupConnections.Tidy

variable {r : Registry σ} {u g : UUID} {ws : σ} {gs ms : Finset UUID}

omit [DecidableEq σ] in
theorem Sound.empty : ({} : Registry σ).Sound where
  routed h := absurd h (Finset.notMem_empty _)
  known h := absurd h (by simp [SetMap.empty])
  sockets := SetMap.tidy_empty
  members := SetMap.tidy_empty

theorem Sound.connect (h : r.Sound) : (r.connect u ws).Sound where
  routed hu := by
    obtain ⟨hg, ws', hws⟩ := h.routed hu
    exact ⟨hg, ws', mem_connect.mpr (.inl hws)⟩
  known hu := SetMap.isSome_put.mpr (.inr (h.known hu))
  sockets := h.sockets.add
  members := h.members

theorem Sound.mergeGroups (h : r.Sound) : (r.mergeGroups u ws gs).Sound := by
  unfold Registry.mergeGroups
  split
  · next hopen =>
    refine ⟨fun {u' g} hu => ?_, fun {u'} hu => ?_, h.sockets, h.members.addEach⟩
    · rcases SetMap.mem_addEach.mp hu with hold | ⟨hg, rfl⟩
      · obtain ⟨hold, hsockets⟩ := h.routed hold
        exact ⟨SetMap.mem_addAll.mpr (.inl hold), hsockets⟩
      · exact ⟨SetMap.mem_addAll.mpr (.inr ⟨rfl, hg⟩), ws, hopen⟩
    · -- the user whose groups are merged has the socket `ws`
      rcases SetMap.isSome_put.mp hu with rfl | hold
      · exact SetMap.isSome_of_mem hopen
      · exact h.known hold
  · exact h

theorem Sound.disconnect (h : r.Sound) : (r.disconnect u ws).Sound := by
  unfold Registry.disconnect
  split
  · refine ⟨fun {u' g} hu => ?_, fun {u'} hu => ?_, ?_, h.members.discardEach⟩
    · obtain ⟨hold, hnot⟩ := SetMap.mem_discardEach.mp hu
      obtain ⟨hg, ws', hws⟩ := h.routed hold
      -- the user who leaves is discarded from every group that routes to them
      have hne : u' ≠ u := by
        rintro rfl
        exact hnot ⟨hg, rfl⟩
      refine ⟨SetMap.mem_pop.mpr ⟨hg, hne⟩, ws', SetMap.mem_pop.mpr ⟨?_, hne⟩⟩
      exact SetMap.mem_discardIfPresent.mpr ⟨hws, fun hboth => hne hboth.1⟩
    · obtain ⟨hold, hne⟩ := SetMap.isSome_pop.mp hu
      exact SetMap.isSome_pop.mpr ⟨SetMap.isSome_discardIfPresent.mpr (h.known hold), hne⟩
    · intro u'
      show (r.discardSocket u ws).pop u u' ≠ some ∅
      rw [SetMap.pop_apply]
      split
      · exact (Option.some_ne_none ∅).symm
      · next hne =>
        have hother : r.discardSocket u ws u' = r.localConnections u' := by
          unfold discardSocket SetMap.discardIfPresent
          split
          · rw [SetMap.discard, SetMap.put_apply, if_neg hne]
          · rfl
        rw [hother]
        exact h.sockets u'
  · next hmore =>
    have hsockets : (r.discardSocket u ws).Tidy := h.sockets.discardIfPresent hmore
    refine ⟨fun {u' g} hu => ?_, fun {u'} hu => ?_, hsockets, h.members⟩
    · obtain ⟨hg, ws', hws⟩ := h.routed hu
      refine ⟨hg, hsockets.nonempty ?_⟩
      exact SetMap.isSome_discardIfPresent.mpr (SetMap.isSome_of_mem hws)
    · exact SetMap.isSome_discardIfPresent.mpr (h.known hu)

omit [DecidableEq σ] in
theorem Sound.join (h : r.Sound) : (r.join u g).Sound := by
  unfold Registry.join
  split
  · next hopen =>
    refine ⟨fun {u' g'} hu => ?_, fun {u'} hu => ?_, h.sockets, h.members.add⟩
    · rcases SetMap.mem_add.mp hu with hold | ⟨rfl, rfl⟩
      · obtain ⟨hg, hsockets⟩ := h.routed hold
        exact ⟨SetMap.mem_add.mpr (.inl hg), hsockets⟩
      · exact ⟨SetMap.mem_add.mpr (.inr ⟨rfl, rfl⟩), h.sockets.nonempty hopen⟩
    · rcases SetMap.isSome_put.mp hu with rfl | hold
      · exact hopen
      · exact h.known hold
  · exact h

omit [DecidableEq σ] in
theorem Sound.leave (h : r.Sound) : (r.leave u g).Sound where
  routed hu := by
    obtain ⟨hold, hne⟩ := listens_leave.mp hu
    obtain ⟨hg, hsockets⟩ := h.routed hold
    exact ⟨SetMap.mem_discardIfPresent.mpr ⟨hg, hne⟩, hsockets⟩
  known hu := h.known (SetMap.isSome_discardIfPresent.mp hu)
  sockets := h.sockets
  members := h.members.discard_popIfEmpty

omit [DecidableEq σ] in
theorem Sound.deleteGroup (h : r.Sound) : (r.deleteGroup g ms).Sound where
  routed hu := by
    obtain ⟨hold, hne⟩ := listens_deleteGroup.mp hu
    obtain ⟨hg, hsockets⟩ := h.routed hold
    exact ⟨SetMap.mem_discardPresent.mpr ⟨hg, fun hboth => hne hboth.2⟩, hsockets⟩
  known hu := h.known (SetMap.isSome_discardPresent.mp hu)
  sockets := h.sockets
  members := h.members.pop

theorem Sound.edit (h : r.Sound) (e : Edit σ) : (r.edit e).Sound := by
  cases e with
  | connect => exact h.connect
  | mergeGroups => exact h.mergeGroups
  | disconnect => exact h.disconnect
  | join => exact h.join
  | leave => exact h.leave
  | deleteGroup => exact h.deleteGroup

omit [DecidableEq σ] in
theorem Sound.unknown (h : r.Sound) (hu : r.localConnections.at? u = ∅) :
    r.userGroups u = none ∧ ∀ g, u ∉ r.groupConnections.at? g := by
  have hnone : r.localConnections u = none := by
    by_contra hsome
    have hne := h.sockets.nonempty (Option.isSome_iff_ne_none.mpr hsome)
    rw [hu] at hne
    exact absurd hne Finset.not_nonempty_empty
  constructor
  · by_contra hsome
    have hkey := h.known (Option.isSome_iff_ne_none.mpr hsome)
    rw [hnone] at hkey
    cases hkey
  · intro g hg
    obtain ⟨-, hne⟩ := h.routed hg
    rw [hu] at hne
    exact absurd hne Finset.not_nonempty_empty

omit [DecidableEq σ] in
theorem Sound.eq_empty (h : r.Sound) (hnone : ∀ u, r.localConnections.at? u = ∅) : r = {} := by
  have hsockets : r.localConnections = .empty := by
    funext u
    by_contra hsome
    have hne := h.sockets.nonempty (Option.isSome_iff_ne_none.mpr hsome)
    rw [hnone u] at hne
    exact absurd hne Finset.not_nonempty_empty
  have hgroups : r.userGroups = .empty := by
    funext u
    exact (h.unknown (hnone u)).1
  have hmembers : r.groupConnections = .empty := by
    funext g
    by_contra hsome
    obtain ⟨u, hu⟩ := h.members.nonempty (Option.isSome_iff_ne_none.mpr hsome)
    exact (h.unknown (hnone u)).2 g hu
  cases r
  simp only at hsockets hgroups hmembers
  rw [hsockets, hgroups, hmembers]

/-! ### Sockets -/

theorem mem_of_mem_edit {e : Edit σ} (hws : ws ∈ (r.edit e).localConnections.at? u) :
    e = .connect u ws ∨ ws ∈ r.localConnections.at? u ∧ e ≠ .disconnect u ws := by
  cases e with
  | connect u' ws' =>
    rcases mem_connect.mp hws with hold | ⟨rfl, rfl⟩
    · exact .inr ⟨hold, nofun⟩
    · exact .inl rfl
  | mergeGroups u' ws' gs =>
    have hold : ws ∈ (r.mergeGroups u' ws' gs).localConnections.at? u := hws
    rw [localConnections_mergeGroups] at hold
    exact .inr ⟨hold, nofun⟩
  | disconnect u' ws' =>
    obtain ⟨hold, hne⟩ := mem_disconnect.mp hws
    refine .inr ⟨hold, ?_⟩
    rintro ⟨⟩
    exact hne ⟨rfl, rfl⟩
  | join u' g' =>
    have hold : ws ∈ (r.join u' g').localConnections.at? u := hws
    rw [localConnections_join] at hold
    exact .inr ⟨hold, nofun⟩
  | leave | deleteGroup => exact .inr ⟨hws, nofun⟩

theorem mem_edit {e : Edit σ} (hws : ws ∈ r.localConnections.at? u) (hne : e ≠ .disconnect u ws) :
    ws ∈ (r.edit e).localConnections.at? u := by
  cases e with
  | connect u' ws' => exact mem_connect.mpr (.inl hws)
  | disconnect u' ws' =>
    refine mem_disconnect.mpr ⟨hws, ?_⟩
    rintro ⟨rfl, rfl⟩
    exact hne rfl
  | mergeGroups u' ws' gs =>
    show ws ∈ (r.mergeGroups u' ws' gs).localConnections.at? u
    rwa [localConnections_mergeGroups]
  | join u' g' =>
    show ws ∈ (r.join u' g').localConnections.at? u
    rwa [localConnections_join]
  | leave | deleteGroup => exact hws

theorem mem_edit_iff {e : Edit σ} (hother : e.socket ≠ some ws) :
    ws ∈ (r.edit e).localConnections.at? u ↔ ws ∈ r.localConnections.at? u := by
  cases e with
  | connect u' ws' =>
    have hne : ws ≠ ws' := fun heq => hother (congrArg some heq.symm)
    exact mem_connect.trans (by simp [hne])
  | disconnect u' ws' =>
    have hne : ws ≠ ws' := fun heq => hother (congrArg some heq.symm)
    exact mem_disconnect.trans (by simp [hne])
  | mergeGroups u' ws' gs =>
    show ws ∈ (r.mergeGroups u' ws' gs).localConnections.at? u ↔ _
    rw [localConnections_mergeGroups]
  | join u' g' =>
    show ws ∈ (r.join u' g').localConnections.at? u ↔ _
    rw [localConnections_join]
  | leave | deleteGroup => exact Iff.rfl

end Registry
end Messenger
