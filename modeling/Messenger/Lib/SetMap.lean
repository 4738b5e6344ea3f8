import Mathlib.Data.Finset.Basic
import Mathlib.Logic.Function.Basic

/-! Dictionaries of sets, as Python's `defaultdict(set)`. A missing key and an empty set hold the
same values; only a membership test on the keys tells them apart. -/

def SetMap (κ ν : Type*) := κ → Option (Finset ν)

namespace SetMap

variable {κ ν : Type*}

def empty : SetMap κ ν := fun _ => none

/-- `m.get(k, set())`. -/
def at? (m : SetMap κ ν) (k : κ) : Finset ν := (m k).getD ∅

variable [DecidableEq κ]

/-- `m[k] = s`. -/
def put (m : SetMap κ ν) (k : κ) (s : Finset ν) : SetMap κ ν := Function.update m k (some s)

/-- `m.pop(k, None)`. -/
def pop (m : SetMap κ ν) (k : κ) : SetMap κ ν := Function.update m k none

/-- `if not m[k]: m.pop(k, None)`. -/
def popIfEmpty [DecidableEq ν] (m : SetMap κ ν) (k : κ) : SetMap κ ν :=
  if m.at? k = ∅ then m.pop k else m

section

variable [DecidableEq ν]

/-- `m[k].add(v)`. -/
def add (m : SetMap κ ν) (k : κ) (v : ν) : SetMap κ ν := m.put k (insert v (m.at? k))

/-- `m[k].update(vs)`. -/
def addAll (m : SetMap κ ν) (k : κ) (vs : Finset ν) : SetMap κ ν := m.put k (m.at? k ∪ vs)

/-- `m[k].discard(v)`. -/
def discard (m : SetMap κ ν) (k : κ) (v : ν) : SetMap κ ν := m.put k ((m.at? k).erase v)

/-- `if k in m: m[k].discard(v)`. -/
def discardIfPresent (m : SetMap κ ν) (k : κ) (v : ν) : SetMap κ ν :=
  if (m k).isSome then m.discard k v else m

/-- `for k in ks: m[k].add(v)`. -/
def addEach (m : SetMap κ ν) (ks : Finset κ) (v : ν) : SetMap κ ν := fun k =>
  if k ∈ ks then m.add k v k else m k

/-- `for k in ks: m[k].discard(v)`, where an emptied set is popped. -/
def discardEach (m : SetMap κ ν) (ks : Finset κ) (v : ν) : SetMap κ ν := fun k =>
  if k ∈ ks then (m.discard k v).popIfEmpty k k else m k

/-- `for k in ks: if k in m: m[k].discard(v)`. -/
def discardPresent (m : SetMap κ ν) (ks : Finset κ) (v : ν) : SetMap κ ν := fun k =>
  if k ∈ ks then m.discardIfPresent k v k else m k

end

variable {m : SetMap κ ν} {k k' : κ} {v v' : ν} {s vs : Finset ν} {ks : Finset κ}

theorem at?_put : (m.put k s).at? k' = if k' = k then s else m.at? k' := by
  by_cases hk : k' = k
  · subst hk
    rw [if_pos rfl]
    exact congrArg (Option.getD · ∅) (Function.update_self k' (some s) m)
  · rw [if_neg hk]
    have hother : m.put k s k' = m k' := Function.update_of_ne hk ..
    exact congrArg (Option.getD · ∅) hother

theorem at?_pop : (m.pop k).at? k' = if k' = k then ∅ else m.at? k' := by
  by_cases hk : k' = k
  · subst hk
    rw [if_pos rfl]
    exact congrArg (Option.getD · ∅) (Function.update_self k' none m)
  · rw [if_neg hk]
    have hother : m.pop k k' = m k' := Function.update_of_ne hk ..
    exact congrArg (Option.getD · ∅) hother

omit [DecidableEq κ] in
@[simp] theorem at?_empty : (empty : SetMap κ ν).at? k = ∅ := rfl

omit [DecidableEq κ] in
theorem isSome_of_mem (h : v ∈ m.at? k) : (m k).isSome := by
  cases hk : m k with
  | none => simp [at?, hk] at h
  | some s => rfl

@[simp] theorem mem_pop : v' ∈ (m.pop k).at? k' ↔ v' ∈ m.at? k' ∧ k' ≠ k := by
  rw [at?_pop]
  split
  · next hk => simp [hk]
  · next hk => simp [hk]

variable [DecidableEq ν]

theorem at?_popIfEmpty : (m.popIfEmpty k).at? k' = m.at? k' := by
  unfold popIfEmpty
  split
  · next hempty =>
    rw [at?_pop]
    split
    · next hk => rw [hk, hempty]
    · rfl
  · rfl

@[simp] theorem mem_add : v' ∈ (m.add k v).at? k' ↔ v' ∈ m.at? k' ∨ k' = k ∧ v' = v := by
  rw [add, at?_put]
  split
  · next hk =>
    subst hk
    simp only [Finset.mem_insert, true_and]
    tauto
  · next hk => simp [hk]

@[simp] theorem mem_addAll : v' ∈ (m.addAll k vs).at? k' ↔ v' ∈ m.at? k' ∨ k' = k ∧ v' ∈ vs := by
  rw [addAll, at?_put]
  split
  · next hk => simp [hk]
  · next hk => simp [hk]

@[simp] theorem mem_discard : v' ∈ (m.discard k v).at? k' ↔ v' ∈ m.at? k' ∧ ¬ (k' = k ∧ v' = v) := by
  rw [discard, at?_put]
  split
  · next hk =>
    subst hk
    simp only [Finset.mem_erase, true_and]
    tauto
  · next hk => simp [hk]

@[simp] theorem mem_popIfEmpty : v' ∈ (m.popIfEmpty k).at? k' ↔ v' ∈ m.at? k' := by
  rw [at?_popIfEmpty]

@[simp] theorem mem_discardIfPresent :
    v' ∈ (m.discardIfPresent k v).at? k' ↔ v' ∈ m.at? k' ∧ ¬ (k' = k ∧ v' = v) := by
  unfold discardIfPresent
  split
  · exact mem_discard
  · next habsent =>
    refine ⟨fun h => ⟨h, ?_⟩, And.left⟩
    rintro ⟨rfl, -⟩
    exact habsent (isSome_of_mem h)

@[simp] theorem mem_addEach :
    v' ∈ (m.addEach ks v).at? k ↔ v' ∈ m.at? k ∨ k ∈ ks ∧ v' = v := by
  have heq : (m.addEach ks v).at? k = if k ∈ ks then (m.add k v).at? k else m.at? k := by
    unfold at? addEach
    split <;> rfl
  rw [heq]
  split
  · next hk => simp [hk]
  · next hk => simp [hk]

@[simp] theorem mem_discardEach :
    v' ∈ (m.discardEach ks v).at? k ↔ v' ∈ m.at? k ∧ ¬ (k ∈ ks ∧ v' = v) := by
  have heq : (m.discardEach ks v).at? k =
      if k ∈ ks then ((m.discard k v).popIfEmpty k).at? k else m.at? k := by
    unfold at? discardEach
    split <;> rfl
  rw [heq]
  split
  · next hk =>
    rw [mem_popIfEmpty, mem_discard]
    simp [hk]
  · next hk => simp [hk]

@[simp] theorem mem_discardPresent :
    v' ∈ (m.discardPresent ks v).at? k ↔ v' ∈ m.at? k ∧ ¬ (k ∈ ks ∧ v' = v) := by
  have heq : (m.discardPresent ks v).at? k =
      if k ∈ ks then (m.discardIfPresent k v).at? k else m.at? k := by
    unfold at? discardPresent
    split <;> rfl
  rw [heq]
  split
  · next hk => simp [hk]
  · next hk => simp [hk]

/-! ### No key with an empty set -/

def Tidy (m : SetMap κ ν) : Prop := ∀ k, m k ≠ some ∅

omit [DecidableEq κ] [DecidableEq ν] in
theorem tidy_empty : (empty : SetMap κ ν).Tidy := fun _ => nofun

omit [DecidableEq κ] [DecidableEq ν] in
theorem Tidy.nonempty (h : m.Tidy) (hk : (m k).isSome) : (m.at? k).Nonempty := by
  obtain ⟨s, hs⟩ := Option.isSome_iff_exists.mp hk
  have hat : m.at? k = s := congrArg (Option.getD · ∅) hs
  rw [hat, Finset.nonempty_iff_ne_empty]
  rintro rfl
  exact h k hs

omit [DecidableEq ν] in
theorem put_apply : m.put k s k' = if k' = k then some s else m k' := Function.update_apply ..

omit [DecidableEq ν] in
theorem pop_apply : m.pop k k' = if k' = k then none else m k' := Function.update_apply ..

omit [DecidableEq ν] in
theorem isSome_put : (m.put k s k').isSome ↔ k' = k ∨ (m k').isSome := by
  rw [put_apply]
  split
  · next hk => simp [hk]
  · next hk => simp [hk]

omit [DecidableEq ν] in
theorem isSome_pop : (m.pop k k').isSome ↔ (m k').isSome ∧ k' ≠ k := by
  rw [pop_apply]
  split
  · next hk => simp [hk]
  · next hk => simp [hk]

omit [DecidableEq ν] in
theorem Tidy.put (h : m.Tidy) (hs : s.Nonempty) : (m.put k s).Tidy := by
  intro k'
  rw [put_apply]
  split
  · exact fun heq => hs.ne_empty (Option.some.inj heq)
  · exact h k'

omit [DecidableEq ν] in
theorem Tidy.pop (h : m.Tidy) : (m.pop k).Tidy := by
  intro k'
  rw [pop_apply]
  split
  · exact nofun
  · exact h k'

theorem Tidy.add (h : m.Tidy) : (m.add k v).Tidy := h.put (Finset.insert_nonempty ..)

theorem Tidy.addEach (h : m.Tidy) : (m.addEach ks v).Tidy := by
  intro k
  unfold SetMap.addEach
  split
  · exact h.add k
  · exact h k

theorem at?_discard_self : (m.discard k v).at? k = (m.at? k).erase v := by
  rw [discard, at?_put, if_pos rfl]

theorem Tidy.discard_popIfEmpty (h : m.Tidy) : ((m.discard k v).popIfEmpty k).Tidy := by
  unfold popIfEmpty
  split
  · intro k'
    rw [pop_apply]
    split
    · exact nofun
    · next hk =>
      have hother : m.discard k v k' = m k' := by rw [discard, put_apply, if_neg hk]
      exact hother ▸ h k'
  · next hsome =>
    rw [at?_discard_self] at hsome
    exact h.put (Finset.nonempty_iff_ne_empty.mpr hsome)

theorem Tidy.discardEach (h : m.Tidy) : (m.discardEach ks v).Tidy := by
  intro k
  unfold SetMap.discardEach
  split
  · exact h.discard_popIfEmpty k
  · exact h k

theorem Tidy.discardIfPresent (h : m.Tidy) (hsome : (m.discardIfPresent k v).at? k ≠ ∅) :
    (m.discardIfPresent k v).Tidy := by
  unfold SetMap.discardIfPresent at hsome ⊢
  split at hsome
  · rw [at?_discard_self] at hsome
    rw [if_pos (by assumption)]
    exact h.put (Finset.nonempty_iff_ne_empty.mpr hsome)
  · rw [if_neg (by assumption)]
    exact h

theorem isSome_discardIfPresent : (m.discardIfPresent k v k').isSome ↔ (m k').isSome := by
  unfold discardIfPresent
  split
  · next hk =>
    rw [discard, put_apply]
    split
    · next heq => simp [heq, hk]
    · rfl
  · rfl

theorem isSome_discardPresent : (m.discardPresent ks v k).isSome ↔ (m k).isSome := by
  unfold discardPresent
  split
  · exact isSome_discardIfPresent
  · rfl

end SetMap
