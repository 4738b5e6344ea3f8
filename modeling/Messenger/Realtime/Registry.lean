import Mathlib.Data.Finset.Card
import Messenger.Lib.SetMap
import Messenger.Services.Group

/-! The routing tables of one worker, and what `WebSocketManager` does to them between two awaits. -/

namespace Messenger

structure Registry (σ : Type) where
  localConnections : SetMap UUID σ := .empty
  groupConnections : SetMap UUID UUID := .empty
  userGroups : SetMap UUID UUID := .empty

namespace Registry

variable {σ : Type} [DecidableEq σ]

/-- The start of `register_connection`. -/
def connect (r : Registry σ) (user : UUID) (ws : σ) : Registry σ :=
  { r with localConnections := r.localConnections.add user ws }

/-- The end of `register_connection`. -/
def mergeGroups (r : Registry σ) (user : UUID) (ws : σ) (groups : Finset UUID) : Registry σ :=
  if ws ∈ r.localConnections.at? user then
    { r with
      userGroups := r.userGroups.addAll user groups
      groupConnections := r.groupConnections.addEach groups user }
  else r

/-- `sockets.discard(ws)`, in `unregister_connection`. -/
def discardSocket (r : Registry σ) (user : UUID) (ws : σ) : SetMap UUID σ :=
  r.localConnections.discardIfPresent user ws

/-- `unregister_connection` found this socket to be the last one of the user, or none at all. -/
def IsLast (r : Registry σ) (user : UUID) (ws : σ) : Prop := (r.discardSocket user ws).at? user = ∅

instance (r : Registry σ) (user : UUID) (ws : σ) : Decidable (r.IsLast user ws) := by
  unfold IsLast
  infer_instance

/-- `unregister_connection` up to the Redis command. -/
def disconnect (r : Registry σ) (user : UUID) (ws : σ) : Registry σ :=
  let sockets := r.discardSocket user ws
  if r.IsLast user ws then
    { localConnections := sockets.pop user
      userGroups := r.userGroups.pop user
      groupConnections := r.groupConnections.discardEach (r.userGroups.at? user) user }
  else { r with localConnections := sockets }

/-- `_handle_membership_change` for `JOIN`. -/
def join (r : Registry σ) (user group : UUID) : Registry σ :=
  if (r.localConnections user).isSome then
    { r with
      groupConnections := r.groupConnections.add group user
      userGroups := r.userGroups.add user group }
  else r

/-- `_handle_membership_change` for `LEAVE`. -/
def leave (r : Registry σ) (user group : UUID) : Registry σ :=
  { r with
    groupConnections := (r.groupConnections.discard group user).popIfEmpty group
    userGroups := r.userGroups.discardIfPresent user group }

/-- `_handle_group_deleted` once the frames have been sent to `members`. -/
def deleteGroup (r : Registry σ) (group : UUID) (members : Finset UUID) : Registry σ :=
  { r with
    userGroups := r.userGroups.discardPresent members group
    groupConnections := r.groupConnections.pop group }

/-- The users that `_dispatch_group_message` sends a message of the group to. -/
def localMembers (r : Registry σ) (group : UUID) (sender : Option UUID) : Finset UUID :=
  (r.groupConnections.at? group).filter fun member => some member ≠ sender

def Listens (r : Registry σ) (user group : UUID) : Prop := user ∈ r.groupConnections.at? group

def Routes (r : Registry σ) (user group : UUID) : Prop :=
  user ∈ r.groupConnections.at? group ∧ group ∈ r.userGroups.at? user

instance (r : Registry σ) (user group : UUID) : Decidable (r.Listens user group) := by
  unfold Listens
  infer_instance

variable {r : Registry σ} {u u' g g' : UUID} {ws ws' : σ} {gs ms : Finset UUID}

omit [DecidableEq σ] in
theorem listens_of_mem_localMembers {sender : Option UUID} (h : u ∈ r.localMembers g sender) :
    r.Listens u g :=
  (Finset.mem_filter.mp h).1

/-! ### Who listens afterwards -/

@[simp] theorem listens_connect : (r.connect u' ws).Listens u g ↔ r.Listens u g := Iff.rfl

theorem listens_mergeGroups :
    (r.mergeGroups u' ws gs).Listens u g ↔
      r.Listens u g ∨ ws ∈ r.localConnections.at? u' ∧ u = u' ∧ g ∈ gs := by
  unfold mergeGroups Listens
  split
  · next hws =>
    simp only [SetMap.mem_addEach, hws, true_and]
    tauto
  · next hws => simp [hws]

theorem listens_of_disconnect (h : (r.disconnect u' ws).Listens u g) : r.Listens u g := by
  unfold disconnect at h
  split at h
  · exact (SetMap.mem_discardEach.mp h).1
  · exact h

omit [DecidableEq σ] in
theorem listens_join :
    (r.join u' g').Listens u g ↔
      r.Listens u g ∨ (r.localConnections u').isSome ∧ u = u' ∧ g = g' := by
  unfold join Listens
  split
  · next hsome =>
    simp only [SetMap.mem_add, hsome, true_and]
    tauto
  · next hnone => simp [hnone]

omit [DecidableEq σ] in
theorem listens_leave :
    (r.leave u' g').Listens u g ↔ r.Listens u g ∧ ¬ (u = u' ∧ g = g') := by
  simp only [leave, Listens, SetMap.mem_popIfEmpty, SetMap.mem_discard]
  tauto

omit [DecidableEq σ] in
theorem listens_deleteGroup : (r.deleteGroup g' ms).Listens u g ↔ r.Listens u g ∧ g ≠ g' := by
  simp only [deleteGroup, Listens, SetMap.mem_pop]

/-! ### What keeps a route -/

theorem Routes.mergeGroups (h : r.Routes u g) : (r.mergeGroups u' ws gs).Routes u g := by
  unfold Registry.mergeGroups
  split
  · exact ⟨SetMap.mem_addEach.mpr (.inl h.1), SetMap.mem_addAll.mpr (.inl h.2)⟩
  · exact h

theorem routes_mergeGroups (hws : ws ∈ r.localConnections.at? u) (hg : g ∈ gs) :
    (r.mergeGroups u ws gs).Routes u g := by
  unfold Registry.mergeGroups
  rw [if_pos hws]
  exact ⟨SetMap.mem_addEach.mpr (.inr ⟨hg, rfl⟩), SetMap.mem_addAll.mpr (.inr ⟨rfl, hg⟩)⟩

omit [DecidableEq σ] in
theorem Routes.join (h : r.Routes u g) : (r.join u' g').Routes u g := by
  unfold Registry.join
  split
  · exact ⟨SetMap.mem_add.mpr (.inl h.1), SetMap.mem_add.mpr (.inl h.2)⟩
  · exact h

omit [DecidableEq σ] in
theorem routes_join (hws : ws ∈ r.localConnections.at? u) : (r.join u g).Routes u g := by
  unfold Registry.join
  rw [if_pos (SetMap.isSome_of_mem hws)]
  exact ⟨SetMap.mem_add.mpr (.inr ⟨rfl, rfl⟩), SetMap.mem_add.mpr (.inr ⟨rfl, rfl⟩)⟩

omit [DecidableEq σ] in
theorem Routes.leave (h : r.Routes u g) (hne : ¬ (u = u' ∧ g = g')) :
    (r.leave u' g').Routes u g := by
  refine ⟨listens_leave.mpr ⟨h.1, hne⟩, SetMap.mem_discardIfPresent.mpr ⟨h.2, ?_⟩⟩
  exact fun ⟨hu, hg⟩ => hne ⟨hu, hg⟩

omit [DecidableEq σ] in
theorem Routes.deleteGroup (h : r.Routes u g) (hne : g ≠ g') :
    (r.deleteGroup g' ms).Routes u g :=
  ⟨listens_deleteGroup.mpr ⟨h.1, hne⟩, SetMap.mem_discardPresent.mpr ⟨h.2, fun ⟨_, hg⟩ => hne hg⟩⟩

theorem Routes.disconnect (h : r.Routes u g)
    (hopen : ws' ∈ (r.disconnect u' ws).localConnections.at? u) : (r.disconnect u' ws).Routes u g := by
  unfold Registry.disconnect at hopen ⊢
  split
  · next hlast =>
    rw [if_pos hlast] at hopen
    have hne : u ≠ u' := (SetMap.mem_pop.mp hopen).2
    exact ⟨SetMap.mem_discardEach.mpr ⟨h.1, fun hboth => hne hboth.2⟩, SetMap.mem_pop.mpr ⟨h.2, hne⟩⟩
  · exact h

/-! ### Which sockets are open afterwards -/

theorem mem_connect :
    ws' ∈ (r.connect u' ws).localConnections.at? u ↔
      ws' ∈ r.localConnections.at? u ∨ u = u' ∧ ws' = ws := SetMap.mem_add

@[simp] theorem localConnections_mergeGroups :
    (r.mergeGroups u ws gs).localConnections = r.localConnections := by
  unfold mergeGroups
  split <;> rfl

omit [DecidableEq σ] in
@[simp] theorem localConnections_join : (r.join u g).localConnections = r.localConnections := by
  unfold join
  split <;> rfl

omit [DecidableEq σ] in
@[simp] theorem localConnections_leave : (r.leave u g).localConnections = r.localConnections := rfl

omit [DecidableEq σ] in
@[simp] theorem localConnections_deleteGroup :
    (r.deleteGroup g ms).localConnections = r.localConnections := rfl

theorem mem_disconnect :
    ws' ∈ (r.disconnect u' ws).localConnections.at? u ↔
      ws' ∈ r.localConnections.at? u ∧ ¬ (u = u' ∧ ws' = ws) := by
  have hdiscard : ws' ∈ (r.discardSocket u' ws).at? u ↔
      ws' ∈ r.localConnections.at? u ∧ ¬ (u = u' ∧ ws' = ws) := SetMap.mem_discardIfPresent
  unfold disconnect
  split
  · next hlast =>
    rw [← hdiscard]
    refine SetMap.mem_pop.trans ⟨And.left, fun h => ⟨h, ?_⟩⟩
    rintro rfl
    have hempty : (r.discardSocket u ws).at? u = ∅ := hlast
    rw [hempty] at h
    cases h
  · exact hdiscard

theorem isLast_iff : r.IsLast u ws ↔ ∀ ws' ∈ r.localConnections.at? u, ws' = ws := by
  have hdiscard : ∀ ws', ws' ∈ (r.discardSocket u ws).at? u ↔
      ws' ∈ r.localConnections.at? u ∧ ¬ (u = u ∧ ws' = ws) := fun _ => SetMap.mem_discardIfPresent
  simp only [IsLast, Finset.eq_empty_iff_forall_notMem, hdiscard, true_and, not_and, not_not]

/-! ### How many sockets are open afterwards -/

theorem card_connect (hnew : ws ∉ r.localConnections.at? u') :
    ((r.connect u' ws).localConnections.at? u).card =
      (r.localConnections.at? u).card + if u = u' then 1 else 0 := by
  have hadd : (r.connect u' ws).localConnections.at? u =
      if u = u' then insert ws (r.localConnections.at? u') else r.localConnections.at? u :=
    SetMap.at?_put
  rw [hadd]
  split
  · next hu => rw [hu, Finset.card_insert_of_notMem hnew]
  · rfl

theorem card_disconnect (hopen : ws ∈ r.localConnections.at? u') :
    ((r.disconnect u' ws).localConnections.at? u).card + (if u = u' then 1 else 0) =
      (r.localConnections.at? u).card := by
  split
  · next hu =>
    subst hu
    have herase : (r.disconnect u ws).localConnections.at? u = (r.localConnections.at? u).erase ws := by
      ext ws'
      rw [mem_disconnect, Finset.mem_erase]
      tauto
    rw [herase, Finset.card_erase_add_one hopen]
  · next hu =>
    have hsame : (r.disconnect u' ws).localConnections.at? u = r.localConnections.at? u := by
      ext ws'
      rw [mem_disconnect]
      tauto
    rw [hsame, Nat.add_zero]

end Registry
end Messenger
