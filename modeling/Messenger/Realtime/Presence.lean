import Mathlib.Algebra.BigOperators.Group.Finset.Basic
import Messenger.Realtime.Hub

/-! The counter that the workers share against the sockets they hold. A registration counts its
socket, and only the last socket of a user on a worker is taken off the counter again: it is exact as
long as no worker holds two sockets of a user when one of them is closed. -/

namespace Messenger
open Transition

namespace Task
variable {ω σ : Type}

def toAdd (user : UUID) : Task ω σ → ℕ
  | .counting _ u _ => if user = u then 1 else 0
  | _ => 0

def toRemove (user : UUID) : Task ω σ → ℕ
  | .removing _ u => if user = u then 1 else 0
  | _ => 0

def IsCall : Task ω σ → Prop
  | .deleting .. => False
  | _ => True

end Task

namespace Hub

variable {ω σ : Type} [DecidableEq ω] [DecidableEq σ] [Fintype ω]

def openSockets (s : Hub ω σ) (u : UUID) : ℕ := ∑ w, ((s.registry w).localConnections.at? u).card

/-- Whenever no call is in progress, the active users are those with an open socket, and the counter
of each is the number of their sockets. -/
def PresenceExact (s : Hub ω σ) : Prop :=
  (∀ t ∈ s.tasks, ¬ t.IsCall) → ∀ u,
    (u ∈ getActiveUsers s.counts ↔ ∃ w, ((s.registry w).localConnections.at? u).Nonempty) ∧
    (s.counts u).getD 0 = s.openSockets u

/-- Redis answers, and every socket that is unregistered is one that was registered and is not being
unregistered already. -/
def Orderly (s : Hub ω σ) : HubAct ω σ → Prop
  | .countFails .. | .removeFails .. => False
  | .disconnect w u ws =>
    ws ∈ (s.registry w).localConnections.at? u ∧ .locking w u ws ∉ s.tasks
  | _ => True

/-- A socket is closed only while it is the only one of the user on the worker, and a closed socket
is taken off the counter only when the counter is there. -/
def OneSocket (s : Hub ω σ) : HubAct ω σ → Prop
  | .enter w u ws => ∀ ws' ∈ (s.registry w).localConnections.at? u, ws' = ws
  | .remove _ u => (s.counts u).isSome
  | _ => True

instance (s : Hub ω σ) (a : HubAct ω σ) : Decidable (s.Orderly a) := by
  cases a <;> unfold Orderly <;> infer_instance

instance (s : Hub ω σ) (a : HubAct ω σ) : Decidable (s.OneSocket a) := by
  cases a <;> unfold OneSocket <;> infer_instance

def tally (s : Hub ω σ) (f : Task ω σ → ℕ) : ℕ := (s.tasks.map f).sum

/-- The counter is ahead of the sockets by those that have yet to be taken off, and behind by those
that have yet to be added. -/
def Balanced (s : Hub ω σ) (u : UUID) : Prop :=
  (s.counts u).getD 0 + s.tally (Task.toAdd u) = (s.openSockets u : ℤ) + s.tally (Task.toRemove u)

structure Counted (s : Hub ω σ) : Prop extends s.Known where
  balanced : ∀ u, s.Balanced u
  positive : ActiveUserCounts.Positive s.counts
  locking : ∀ {w u ws}, .locking w u ws ∈ s.tasks → ws ∈ (s.registry w).localConnections.at? u
  once : ∀ {w u ws}, s.tasks.count (.locking w u ws) ≤ 1

variable {s s' : Hub ω σ} {a : HubAct ω σ} {w : ω} {u v : UUID} {ws : σ} {t t' : Task ω σ}

/-! ### The sockets of all workers -/

omit [DecidableEq σ] in
theorem openSockets_setRegistry {r : Registry σ} :
    (s.setRegistry w r).openSockets u + ((s.registry w).localConnections.at? u).card =
      s.openSockets u + (r.localConnections.at? u).card := by
  unfold openSockets
  rw [← Finset.add_sum_erase _ _ (Finset.mem_univ w), ← Finset.add_sum_erase _ _ (Finset.mem_univ w)]
  have hothers : ∀ w' ∈ Finset.univ.erase w,
      (((s.setRegistry w r).registry w').localConnections.at? u).card =
        ((s.registry w').localConnections.at? u).card := fun w' hw' => by
    rw [registry_setRegistry_of_ne (Finset.ne_of_mem_erase hw')]
  rw [Finset.sum_congr rfl hothers, registry_setRegistry]
  omega

omit [DecidableEq σ] in
theorem openSockets_setRegistry_of_eq {r : Registry σ}
    (h : r.localConnections = (s.registry w).localConnections) :
    (s.setRegistry w r).openSockets u = s.openSockets u := by
  have hsum := openSockets_setRegistry (s := s) (w := w) (u := u) (r := r)
  rw [h] at hsum
  omega

omit [DecidableEq ω] [DecidableEq σ] in
theorem openSockets_eq_zero :
    s.openSockets u = 0 ↔ ∀ w, (s.registry w).localConnections.at? u = ∅ := by
  simp [openSockets]

omit [DecidableEq ω] [DecidableEq σ] [Fintype ω] in
theorem tally_spawn {f : Task ω σ → ℕ} : (s.spawn t).tally f = f t + s.tally f := by
  rw [tally, spawn, Multiset.map_cons, Multiset.sum_cons, tally]

omit [Fintype ω] in
theorem tally_done {f : Task ω σ → ℕ} (ht : t ∈ s.tasks) : f t + (s.done t).tally f = s.tally f := by
  rw [tally, tally, ← Multiset.sum_cons, ← Multiset.map_cons, done, Multiset.cons_erase ht]

omit [Fintype ω] in
theorem tally_resumed {f : Task ω σ → ℕ} (ht : t ∈ s.tasks) :
    f t + ((s.spawn t').done t).tally f = f t' + s.tally f := by
  rw [tally_done (Multiset.mem_cons_of_mem ht), tally_spawn]

/-! ### The balance -/

omit [DecidableEq ω] [DecidableEq σ] in
theorem Balanced.congr (hb : s.Balanced v) (hcounts : s'.counts v = s.counts v)
    (hsockets : s'.openSockets v = s.openSockets v)
    (hadd : s'.tally (Task.toAdd v) = s.tally (Task.toAdd v))
    (hremove : s'.tally (Task.toRemove v) = s.tally (Task.toRemove v)) : s'.Balanced v := by
  rw [Balanced, hcounts, hsockets, hadd, hremove]
  exact hb

theorem Counted.balanced_connect (hc : s.Counted) (hnew : ws ∉ s.seen) :
    ({ (s.setRegistry w ((s.registry w).connect u ws)).spawn (.counting w u ws) with
      seen := insert ws s.seen } : Hub ω σ).Balanced v := by
  have hb := hc.balanced v
  have hsum := openSockets_setRegistry (s := s) (w := w) (u := v) (r := (s.registry w).connect u ws)
  have hfresh : ws ∉ (s.registry w).localConnections.at? u := fun hopen => hnew (hc.opened hopen)
  have hcard : (((s.registry w).connect u ws).localConnections.at? v).card =
    ((s.registry w).localConnections.at? v).card + if v = u then 1 else 0 :=
    Registry.card_connect hfresh
  have hadd : (s.spawn (.counting w u ws)).tally (Task.toAdd v) =
    (if v = u then 1 else 0) + s.tally (Task.toAdd v) := tally_spawn (f := Task.toAdd v)
  have hremove : (s.spawn (.counting w u ws)).tally (Task.toRemove v) =
    0 + s.tally (Task.toRemove v) := tally_spawn (f := Task.toRemove v)
  show (s.counts v).getD 0 + (s.spawn (.counting w u ws)).tally (Task.toAdd v) =
    ((s.setRegistry w ((s.registry w).connect u ws)).openSockets v : ℤ) +
      (s.spawn (.counting w u ws)).tally (Task.toRemove v)
  unfold Balanced at hb
  by_cases hvu : v = u
  · rw [if_pos hvu] at hcard hadd
    omega
  · rw [if_neg hvu] at hcard hadd
    omega

theorem Counted.balanced_count (hc : s.Counted) (ht : .counting w u ws ∈ s.tasks) :
    ({ s.spawn (.loading w u ws) with counts := addActiveUser s.counts u }.done
      (.counting w u ws)).Balanced v := by
  have hb := hc.balanced v
  have hcount := ActiveUserCounts.getD_addActiveUser (c := s.counts) (u := u) (v := v)
  have hadd : (if v = u then 1 else 0) +
      ((s.spawn (.loading w u ws)).done (.counting w u ws)).tally (Task.toAdd v) =
    0 + s.tally (Task.toAdd v) := tally_resumed (f := Task.toAdd v) ht
  have hremove : 0 + ((s.spawn (.loading w u ws)).done (.counting w u ws)).tally (Task.toRemove v) =
    0 + s.tally (Task.toRemove v) := tally_resumed (f := Task.toRemove v) ht
  show (addActiveUser s.counts u v).getD 0 +
      ((s.spawn (.loading w u ws)).done (.counting w u ws)).tally (Task.toAdd v) =
    (s.openSockets v : ℤ) +
      ((s.spawn (.loading w u ws)).done (.counting w u ws)).tally (Task.toRemove v)
  unfold Balanced at hb
  by_cases hvu : v = u
  · rw [if_pos hvu] at hcount hadd
    omega
  · rw [if_neg hvu] at hcount hadd
    omega

theorem Counted.balanced_enterLast (hc : s.Counted) (ht : .locking w u ws ∈ s.tasks) :
    ((((s.setRegistry w ((s.registry w).disconnect u ws)).setLock w u true).spawn
      (.removing w u)).done (.locking w u ws)).Balanced v := by
  have hb := hc.balanced v
  have hsum := openSockets_setRegistry (s := s) (w := w) (u := v)
    (r := (s.registry w).disconnect u ws)
  have hcard := Registry.card_disconnect (r := s.registry w) (u := v) (hc.locking ht)
  have hadd : 0 + ((s.spawn (.removing w u)).done (.locking w u ws)).tally (Task.toAdd v) =
    0 + s.tally (Task.toAdd v) := tally_resumed (f := Task.toAdd v) ht
  have hremove : 0 + ((s.spawn (.removing w u)).done (.locking w u ws)).tally (Task.toRemove v) =
    (if v = u then 1 else 0) + s.tally (Task.toRemove v) := tally_resumed (f := Task.toRemove v) ht
  show (s.counts v).getD 0 +
      ((s.spawn (.removing w u)).done (.locking w u ws)).tally (Task.toAdd v) =
    ((s.setRegistry w ((s.registry w).disconnect u ws)).openSockets v : ℤ) +
      ((s.spawn (.removing w u)).done (.locking w u ws)).tally (Task.toRemove v)
  unfold Balanced at hb
  by_cases hvu : v = u
  · rw [if_pos hvu] at hcard hremove
    omega
  · rw [if_neg hvu] at hcard hremove
    omega

theorem Counted.balanced_remove (hc : s.Counted) (hstored : (s.counts u).isSome)
    (ht : .removing w u ∈ s.tasks) :
    ({ s.setLock w u false with counts := removeActiveUser s.counts u }.done
      (.removing w u)).Balanced v := by
  have hb := hc.balanced v
  have hpos : 0 < (s.counts u).getD 0 := by
    obtain ⟨n, hn⟩ := Option.isSome_iff_exists.mp hstored
    rw [hn, Option.getD_some]
    exact hc.positive u n hn
  have hcount := ActiveUserCounts.getD_removeActiveUser (v := v) hpos
  have hadd : 0 + (s.done (.removing w u)).tally (Task.toAdd v) = s.tally (Task.toAdd v) :=
    tally_done (f := Task.toAdd v) ht
  have hremove : (if v = u then 1 else 0) + (s.done (.removing w u)).tally (Task.toRemove v) =
    s.tally (Task.toRemove v) := tally_done (f := Task.toRemove v) ht
  show (removeActiveUser s.counts u v).getD 0 +
      (s.done (.removing w u)).tally (Task.toAdd v) =
    (s.openSockets v : ℤ) + (s.done (.removing w u)).tally (Task.toRemove v)
  unfold Balanced at hb
  by_cases hvu : v = u
  · rw [if_pos hvu] at hcount hremove
    omega
  · rw [if_neg hvu] at hcount hremove
    omega

theorem Counted.balanced_move (hc : s.Counted) (ho : s.Orderly a) (h1 : s.OneSocket a)
    (hm : Move s a s') : s'.Balanced v := by
  have hb := hc.balanced v
  have hspawn : ∀ {t f}, f t = 0 → (s.spawn t).tally f = s.tally f := fun {t f} h => by
    rw [tally_spawn, h, Nat.zero_add]
  have hdone : ∀ {t f}, t ∈ s.tasks → f t = 0 → (s.done t).tally f = s.tally f := fun ht h => by
    rw [← tally_done ht, h, Nat.zero_add]
  have hresumed : ∀ {t t' f}, t ∈ s.tasks → f t = 0 → f t' = 0 →
      ((s.spawn t').done t).tally f = s.tally f := fun ht h h' => by
    rw [← Nat.zero_add (Hub.tally ..), ← h, tally_resumed ht, h', Nat.zero_add]
  cases hm with
  | connect hnew => exact hc.balanced_connect hnew
  | count ht => exact hc.balanced_count ht
  | enterLast _ ht => exact hc.balanced_enterLast ht
  | remove ht => exact hc.balanced_remove h1 ht
  | enter _ _ hmore => exact absurd (Registry.isLast_iff.mpr h1) hmore
  | countFails | removeFails => exact ho.elim
  | load ht | loadFails ht => exact hb.congr rfl rfl (hresumed ht rfl rfl) (hresumed ht rfl rfl)
  | merge ht =>
    exact hb.congr rfl (openSockets_setRegistry_of_eq Registry.localConnections_mergeGroups)
      (hdone ht rfl) (hdone ht rfl)
  | disconnect | deleting => exact hb.congr rfl rfl (hspawn rfl) (hspawn rfl)
  | request | publish | drop | miss => exact hb
  | join => exact hb.congr rfl (openSockets_setRegistry_of_eq Registry.localConnections_join) rfl rfl
  | leave | deleted => exact hb.congr rfl (openSockets_setRegistry_of_eq rfl) rfl rfl
  | finish ht =>
    exact hb.congr rfl (openSockets_setRegistry_of_eq rfl) (hdone ht rfl) (hdone ht rfl)

/-! ### Every socket is unregistered at most once -/

omit [Fintype ω] in
theorem Move.closed (hm : Move s a s') (h : ws ∈ (s.registry w).localConnections.at? u) :
    ws ∈ (s'.registry w).localConnections.at? u ∨ a = .enter w u ws := by
  rcases hm.registry w with heq | hrewrites
  · exact .inl (heq.symm ▸ h)
  · generalize s'.registry w = r at hrewrites ⊢
    cases hrewrites with
    | connect => exact .inl (Registry.mem_connect.mpr (.inl h))
    | merge =>
      rw [Registry.localConnections_mergeGroups]
      exact .inl h
    | @disconnect _ u' ws' =>
      by_cases heq : u = u' ∧ ws = ws'
      · obtain ⟨rfl, rfl⟩ := heq
        exact .inr rfl
      · exact .inl (Registry.mem_disconnect.mpr ⟨h, heq⟩)
    | join =>
      rw [Registry.localConnections_join]
      exact .inl h
    | leave | deleted | finish => exact .inl h

omit [Fintype ω] in
theorem Move.count_locking (hm : Move s a s') (ha : a ≠ .disconnect w u ws) :
    s'.tasks.count (.locking w u ws) ≤ s.tasks.count (.locking w u ws) := by
  have herase : ∀ {tasks : Multiset (Task ω σ)} {t},
      (tasks.erase t).count (.locking w u ws) ≤ tasks.count (.locking w u ws) :=
    Multiset.count_le_of_le _ (Multiset.erase_le ..)
  have hcons : ∀ {t : Task ω σ}, .locking w u ws ≠ t →
      (t ::ₘ s.tasks).count (.locking w u ws) ≤ s.tasks.count (.locking w u ws) := fun hne =>
    (Multiset.count_cons_of_ne hne _).le
  cases hm with
  | connect | deleting => exact hcons nofun
  | count | load | loadFails | enterLast => exact herase.trans (hcons nofun)
  | @disconnect w' u' ws' =>
    refine hcons fun heq => ha ?_
    obtain ⟨rfl, rfl, rfl⟩ : w = w' ∧ u = u' ∧ ws = ws' := by simpa using heq
    rfl
  | countFails | merge | enter | remove | removeFails | finish => exact herase
  | request | publish | drop | join | leave | deleted | miss => exact le_rfl

omit [Fintype ω] in
theorem Move.notMem_locking (hm : Move s (.enter w u ws) s')
    (honce : s.tasks.count (.locking w u ws) ≤ 1) : .locking w u ws ∉ s'.tasks := by
  rw [← Multiset.count_eq_zero]
  cases hm with
  | enterLast =>
    have hcons : (.removing w u ::ₘ s.tasks).count (.locking w u ws) =
        s.tasks.count (.locking w u ws) :=
      Multiset.count_cons_of_ne (by simp) _
    show ((Task.removing w u ::ₘ s.tasks).erase (.locking w u ws)).count (.locking w u ws) = 0
    rw [Multiset.count_erase_self, hcons]
    omega
  | enter =>
    show (s.tasks.erase (.locking w u ws)).count (.locking w u ws) = 0
    rw [Multiset.count_erase_self]
    omega

theorem Counted.init {d : Db} : (Hub.init d : Hub ω σ).Counted where
  toKnown := .init
  balanced u := by simp [Balanced, Hub.init, tally, openSockets, ActiveUserCounts.empty]
  positive _ _ h := by cases h
  locking h := absurd h (Multiset.notMem_zero _)
  once := Nat.zero_le _

theorem Counted.move (hc : s.Counted) (ho : s.Orderly a) (h1 : s.OneSocket a) (hm : Move s a s') :
    s'.Counted where
  toKnown := hc.toKnown.move hm
  balanced _ := hc.balanced_move ho h1 hm
  positive := by
    cases hm with
    | count => exact hc.positive.addActiveUser
    | remove => exact hc.positive.removeActiveUser
    | _ => exact hc.positive
  locking {w u ws} h := by
    rcases hm.spawned h with hold | hspawned
    · rcases hm.closed (hc.locking hold) with hopen | rfl
      · exact hopen
      · exact absurd h (hm.notMem_locking hc.once)
    · cases hspawned with
      | locking =>
        cases hm
        exact ho.1
  once {w u ws} := by
    by_cases ha : a = .disconnect w u ws
    · subst ha
      cases hm
      rw [spawn, Multiset.count_cons_self, Multiset.count_eq_zero.mpr ho.2]
    · exact (hm.count_locking ha).trans hc.once

theorem Counted.presenceExact (hc : s.Counted) : s.PresenceExact := by
  intro hidle u
  -- with no call in progress nothing is to be added to the counter or taken from it
  have hnothing : ∀ {f : Task ω σ → ℕ}, (∀ t, ¬ t.IsCall → f t = 0) → s.tally f = 0 := fun hf => by
    refine Multiset.sum_eq_zero fun n hn => ?_
    obtain ⟨t, ht, rfl⟩ := Multiset.mem_map.mp hn
    exact hf t (hidle t ht)
  have hadd : s.tally (Task.toAdd u) = 0 := hnothing fun t ht => by
    cases t with
    | deleting => rfl
    | _ => exact absurd trivial ht
  have hremove : s.tally (Task.toRemove u) = 0 := hnothing fun t ht => by
    cases t with
    | deleting => rfl
    | _ => exact absurd trivial ht
  have hcount : (s.counts u).getD 0 = s.openSockets u := by
    have hb := hc.balanced u
    rw [Balanced, hadd, hremove] at hb
    omega
  refine ⟨?_, hcount⟩
  have hactive : u ∈ getActiveUsers s.counts ↔ s.openSockets u ≠ 0 := by
    show (s.counts u).isSome ↔ _
    cases hu : s.counts u with
    | none =>
      rw [hu, Option.getD_none] at hcount
      simp only [Option.isSome_none, Bool.false_eq_true, false_iff]
      omega
    | some n =>
      have hpos := hc.positive u n hu
      rw [hu, Option.getD_some] at hcount
      simp only [Option.isSome_some, true_iff]
      omega
  rw [hactive, Ne, openSockets_eq_zero, not_forall]
  simp only [Finset.nonempty_iff_ne_empty]

/-- In an orderly run in which sockets are closed only one to a user on a worker, presence is exact
whenever no call is in progress. -/
theorem presence_exact (d : Db) (acts : List (HubAct ω σ)) (s : Hub ω σ)
    (ho : Guarded step Orderly (init d) acts) (h1 : Guarded step OneSocket (init d) acts)
    (hs : run step (init d) acts = some s) : s.PresenceExact :=
  (Guarded.induction (I := Counted) (fun _ _ _ hc hG hs => hc.move hG.1 hG.2 (move_of_step hs))
    (ho.and h1) hs Counted.init).presenceExact

end Hub

namespace Sample

def eve : UUID := ⟨9⟩

def registering (w : Bool) (ws : ℕ) : List (HubAct Bool ℕ) :=
  [.connect w eve ws, .count w eve ws, .load w eve ws, .merge w eve ws (some ∅)]

def unregistering (w : Bool) (ws : ℕ) : List (HubAct Bool ℕ) :=
  [.disconnect w eve ws, .enter w eve ws]

end Sample

open Sample in
theorem presence_exact_workers :
    ∃ s : Hub Bool ℕ, run Hub.step (Hub.init {})
        (registering false 0 ++ registering true 1 ++ unregistering false 0 ++ [.remove false eve]) =
        some s ∧
      s.tasks = 0 ∧ eve ∈ getActiveUsers s.counts := by
  obtain ⟨s, hs, hidle, hopen⟩ :
      ∃ s ∈ run Hub.step (Hub.init {})
        (registering false 0 ++ registering true 1 ++ unregistering false 0 ++ [.remove false eve]),
        s.tasks = 0 ∧ (1 : ℕ) ∈ (s.registry true).localConnections.at? eve := by decide
  have hexact : s.PresenceExact := Hub.presence_exact {} _ s (by decide) (by decide) hs
  exact ⟨s, hs, hidle, (hexact (by simp [hidle]) eve).1.mpr ⟨true, 1, hopen⟩⟩

open Sample in
/-- Two sockets of one user on one worker are closed one after the other: the counter keeps the first
of them. -/
theorem not_presenceExact_twoDevices :
    ∃ s : Hub Bool ℕ, run Hub.step (Hub.init {})
        (registering false 0 ++ registering false 1 ++ unregistering false 0 ++
          unregistering false 1 ++ [.remove false eve]) = some s ∧
      ¬ s.PresenceExact := by
  obtain ⟨s, hs, hidle, hcount, hclosed⟩ :
      ∃ s ∈ run Hub.step (Hub.init {})
        (registering false 0 ++ registering false 1 ++ unregistering false 0 ++
          unregistering false 1 ++ [.remove false eve]),
        s.tasks = 0 ∧ s.counts eve = some 1 ∧ s.openSockets eve = 0 := by decide
  refine ⟨s, hs, fun hexact => ?_⟩
  have hvalue := (hexact (by simp [hidle]) eve).2
  rw [hcount, hclosed] at hvalue
  cases hvalue

end Messenger
