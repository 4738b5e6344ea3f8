import Messenger.Lib.ReadCommitted

/-! What two-phase locking gives a transaction: it holds the lock of every row it has written and
of every row its statement no longer waits for, nobody else writes such a row, and so a fact
read under a lock stays true until the transaction ends. -/

namespace ReadCommitted

variable {δ κ ω χ π τ γ : Type*} [DecidableEq τ]

namespace Sys

variable {s : Sys δ κ ω τ π} {t u : τ} {x y : Txn κ ω π} {k : κ}

@[simp] theorem setTxn_db : (s.setTxn t x).db = s.db := rfl
@[simp] theorem setTxn_lock : (s.setTxn t x).lock = s.lock := rfl
@[simp] theorem setTxn_log : (s.setTxn t x).log = s.log := rfl
@[simp] theorem setTxn_started : (s.setTxn t x).started = s.started := rfl
@[simp] theorem close_db : (s.close t).db = s.db := rfl
@[simp] theorem close_log : (s.close t).log = s.log := rfl
@[simp] theorem close_started : (s.close t).started = s.started := rfl

@[simp] theorem setTxn_txn_self : (s.setTxn t x).txn t = some x := Function.update_self ..

@[simp] theorem setTxn_txn_ne (h : u ≠ t) : (s.setTxn t x).txn u = s.txn u :=
  Function.update_of_ne h ..

@[simp] theorem close_txn_self : (s.close t).txn t = none := Function.update_self ..

@[simp] theorem close_txn_ne (h : u ≠ t) : (s.close t).txn u = s.txn u :=
  Function.update_of_ne h ..

theorem setTxn_txn_eq_some (h : (s.setTxn t x).txn u = some y) :
    u = t ∧ y = x ∨ u ≠ t ∧ s.txn u = some y := by
  rcases eq_or_ne u t with rfl | hne
  · exact .inl ⟨rfl, (Option.some.inj (setTxn_txn_self.symm.trans h)).symm⟩
  · exact .inr ⟨hne, setTxn_txn_ne hne ▸ h⟩

theorem close_txn_eq_some (h : (s.close t).txn u = some y) : u ≠ t ∧ s.txn u = some y := by
  rcases eq_or_ne u t with rfl | hne
  · rw [close_txn_self] at h
    cases h
  · exact ⟨hne, close_txn_ne hne ▸ h⟩

theorem close_lock_eq_some : (s.close t).lock k = some u ↔ u ≠ t ∧ s.lock k = some u := by
  simp only [close]
  split
  · next h =>
    simp only [reduceCtorEq, false_iff, not_and]
    rintro hne hk
    exact hne (Option.some.inj (hk.symm.trans h))
  · next h =>
    constructor
    · intro hk
      exact ⟨fun hne => h (hne ▸ hk), hk⟩
    · exact And.right

variable [DecidableEq κ]
omit [DecidableEq τ]

@[simp] theorem lockRow_db : (s.lockRow t k).db = s.db := rfl
@[simp] theorem lockRow_txn : (s.lockRow t k).txn = s.txn := rfl
@[simp] theorem lockRow_log : (s.lockRow t k).log = s.log := rfl
@[simp] theorem lockRow_started : (s.lockRow t k).started = s.started := rfl
@[simp] theorem lockRow_lock_self : (s.lockRow t k).lock k = some t := Function.update_self ..

theorem lockRow_lock_eq_some {k' : κ} (h : (s.lockRow t k).lock k' = some u) :
    k' = k ∧ u = t ∨ s.lock k' = some u := by
  rcases eq_or_ne k' k with rfl | hne
  · exact .inl ⟨rfl, (Option.some.inj (lockRow_lock_self.symm.trans h)).symm⟩
  · exact .inr ((Function.update_of_ne hne ..).symm.trans h)

theorem lockRow_lock_of_held {k' : κ} (ha : s.Available t k) (h : s.lock k' = some u) :
    (s.lockRow t k).lock k' = some u := by
  rcases eq_or_ne k' k with rfl | hne
  · rcases ha with ha | ha
    · rw [h] at ha
      cases ha
    · rw [lockRow_lock_self, ← ha, h]
  · exact (Function.update_of_ne hne ..).trans h

end Sys

namespace Program

variable (P : Program δ κ ω χ π)

structure LockInv (s : Sys δ κ ω τ π) : Prop where
  holder : ∀ k t, s.lock k = some t → (s.txn t).isSome
  writes : ∀ t x, s.txn t = some x → ∀ w ∈ x.writes, s.lock (P.target w) = some t
  rows : ∀ t x n ks todo, s.txn t = some x → x.phase = .locking n ks todo →
    ∀ k ∈ ks, k ∈ todo ∨ s.lock k = some t
  selected : ∀ t x n ks todo, s.txn t = some x → x.phase = .locking n ks todo →
    ∃ q d, P.cmd x.pc = .exec q ∧ ks = q.rows d
  started : ∀ t, (s.txn t).isSome → t ∈ s.started
  logged : ∀ e ∈ s.log, e.1 ∈ s.started ∧ s.txn e.1 = none

variable {P} {s s' : Sys δ κ ω τ π} {t : τ} {x : Txn κ ω π}

/-- The part of the invariant that only looks at the transactions, for a step of `t` that takes
no lock away. -/
theorem LockInv.setTxn (h : P.LockInv s) (hopen : (s.txn t).isSome)
    (hw : ∀ w ∈ x.writes, s.lock (P.target w) = some t)
    (hr : ∀ n ks todo, x.phase = .locking n ks todo → ∀ k ∈ ks, k ∈ todo ∨ s.lock k = some t)
    (hq : ∀ n ks todo, x.phase = .locking n ks todo → ∃ q d, P.cmd x.pc = .exec q ∧ ks = q.rows d) :
    P.LockInv (s.setTxn t x) where
  holder k u hk := by
    rcases eq_or_ne u t with rfl | hne
    · rw [Sys.setTxn_txn_self, Option.isSome_some]
    · exact Sys.setTxn_txn_ne (s := s) hne ▸ h.holder k u hk
  writes u y hy := by
    rcases Sys.setTxn_txn_eq_some hy with ⟨rfl, rfl⟩ | ⟨-, hy⟩
    · exact hw
    · exact h.writes u y hy
  rows u y n ks todo hy hph := by
    rcases Sys.setTxn_txn_eq_some hy with ⟨rfl, rfl⟩ | ⟨-, hy⟩
    · exact hr n ks todo hph
    · exact h.rows u y n ks todo hy hph
  selected u y n ks todo hy hph := by
    rcases Sys.setTxn_txn_eq_some hy with ⟨rfl, rfl⟩ | ⟨-, hy⟩
    · exact hq n ks todo hph
    · exact h.selected u y n ks todo hy hph
  started u hu := by
    rcases eq_or_ne u t with rfl | hne
    · exact h.started u hopen
    · exact h.started u (Sys.setTxn_txn_ne (s := s) hne ▸ hu)
  logged e he := by
    refine ⟨(h.logged e he).1, ?_⟩
    rcases eq_or_ne e.1 t with heq | hne
    · rw [← heq, (h.logged e he).2] at hopen
      cases hopen
    · rw [Sys.setTxn_txn_ne hne]
      exact (h.logged e he).2

theorem LockInv.opened (h : P.LockInv s) (ht : t ∉ s.started) (pc : π) :
    P.LockInv (s.opened t pc) where
  holder k u hk := by
    have hu := h.holder k u hk
    have hne : u ≠ t := fun heq => ht (heq ▸ h.started u hu)
    exact Sys.setTxn_txn_ne (s := s) hne ▸ hu
  writes u y hy := by
    rcases Sys.setTxn_txn_eq_some (s := s) hy with ⟨rfl, rfl⟩ | ⟨-, hy⟩
    · simp
    · exact h.writes u y hy
  rows u y n ks todo hy hph := by
    rcases Sys.setTxn_txn_eq_some (s := s) hy with ⟨rfl, rfl⟩ | ⟨-, hy⟩
    · cases hph
    · exact h.rows u y n ks todo hy hph
  selected u y n ks todo hy hph := by
    rcases Sys.setTxn_txn_eq_some (s := s) hy with ⟨rfl, rfl⟩ | ⟨-, hy⟩
    · cases hph
    · exact h.selected u y n ks todo hy hph
  started u hu := by
    rcases eq_or_ne u t with rfl | hne
    · exact List.mem_cons_self ..
    · exact List.mem_cons_of_mem _ (h.started u (Sys.setTxn_txn_ne (s := s) hne ▸ hu))
  logged e he := by
    have hne : e.1 ≠ t := fun heq => ht (heq ▸ (h.logged e he).1)
    exact ⟨List.mem_cons_of_mem _ (h.logged e he).1,
      (Sys.setTxn_txn_ne (s := s) hne).trans (h.logged e he).2⟩

theorem LockInv.close (h : P.LockInv s) : P.LockInv (s.close t) where
  holder k u hk := by
    obtain ⟨hne, hk⟩ := Sys.close_lock_eq_some.mp hk
    exact Sys.close_txn_ne (s := s) hne ▸ h.holder k u hk
  writes u y hy w hw := by
    obtain ⟨hne, hy⟩ := Sys.close_txn_eq_some hy
    exact Sys.close_lock_eq_some.mpr ⟨hne, h.writes u y hy w hw⟩
  rows u y n ks todo hy hph k hk := by
    obtain ⟨hne, hy⟩ := Sys.close_txn_eq_some hy
    exact (h.rows u y n ks todo hy hph k hk).imp_right
      fun hl => Sys.close_lock_eq_some.mpr ⟨hne, hl⟩
  selected u y n ks todo hy hph := h.selected u y n ks todo (Sys.close_txn_eq_some hy).2 hph
  started u hu := by
    obtain ⟨y, hy⟩ := Option.isSome_iff_exists.mp hu
    exact h.started u (Option.isSome_iff_exists.mpr ⟨y, (Sys.close_txn_eq_some hy).2⟩)
  logged e he := by
    refine ⟨(h.logged e he).1, ?_⟩
    rcases eq_or_ne e.1 t with heq | hne
    · rw [heq, Sys.close_txn_self]
    · rw [Sys.close_txn_ne hne]
      exact (h.logged e he).2

variable [DecidableEq κ]

omit [DecidableEq τ] in
theorem LockInv.lockRow {k : κ} (h : P.LockInv s) (ha : s.Available t k)
    (hopen : (s.txn t).isSome) : P.LockInv (s.lockRow t k) where
  holder k' u hk := by
    rcases eq_or_ne k' k with rfl | hne
    · rw [Sys.lockRow_lock_self] at hk
      exact Option.some.inj hk ▸ hopen
    · exact h.holder k' u ((Function.update_of_ne hne ..).symm.trans hk)
  writes u y hy w hw := Sys.lockRow_lock_of_held ha (h.writes u y hy w hw)
  rows u y n ks todo hy hph k' hk' :=
    (h.rows u y n ks todo hy hph k' hk').imp_right (Sys.lockRow_lock_of_held ha)
  selected := h.selected
  started := h.started
  logged := h.logged

omit [DecidableEq κ] [DecidableEq τ] in
theorem lockInv_init (d : δ) : P.LockInv ({ db := d } : Sys δ κ ω τ π) where
  holder _ _ hk := by cases hk
  writes _ _ hx := by cases hx
  rows _ _ _ _ _ hx := by cases hx
  selected _ _ _ _ _ hx := by cases hx
  started _ ht := by cases ht
  logged _ he := by cases he

theorem lockInv_preserves : P.Preserves (fun _ _ => True) (P.LockInv (τ := τ)) where
  begin s t c h ht := h.opened ht _
  select s t pc ws tr q h hx hq := by
    refine h.setTxn (by simp [hx]) (h.writes t ⟨pc, .ready, ws, tr⟩ hx) (fun n ks todo hph k hk => ?_)
      fun n ks todo hph => ?_
    · cases hph
      exact .inl hk
    · cases hph
      exact ⟨q, _, hq, rfl⟩
  acquire s t k pc n ks todo ws tr h hx hk ha := by
    refine (h.lockRow ha (by simp [hx])).setTxn (by simp [hx])
      (fun w hw => Sys.lockRow_lock_of_held ha (h.writes t _ hx w hw))
      (fun n' ks' todo' hph k' hk' => ?_) fun n' ks' todo' hph => ?_
    · cases hph
      rcases eq_or_ne k' k with rfl | hne
      · exact .inr Sys.lockRow_lock_self
      · rcases h.rows t _ n ks todo hx rfl k' hk' with ht | hl
        · exact .inl (List.mem_filter.mpr ⟨ht, by simpa using hne⟩)
        · exact .inr (Sys.lockRow_lock_of_held ha hl)
    · cases hph
      exact h.selected t ⟨pc, .locking n ks todo, ws, tr⟩ n ks todo hx rfl
  settle s t pc n ks ws tr q h hx hq := by
    refine h.setTxn (by simp [hx]) (fun w hw => ?_) (fun n ks todo hph => by cases hph)
      fun n ks todo hph => by cases hph
    rcases List.mem_append.mp hw with hw | hw
    · exact h.writes t _ hx w hw
    · -- a statement writes to the rows that it has selected, all of which are locked by now
      obtain ⟨q', d, hq', rfl⟩ := h.selected t _ n ks [] hx rfl
      obtain rfl : q' = q := by simpa using hq'.symm.trans hq
      have hk := P.locked pc q' hq d _ w hw
      exact (h.rows t _ n _ [] hx rfl _ hk).resolve_left List.not_mem_nil
  commit s t pc ws tr h _ hx hc := by
    have hcl := h.close (t := t)
    refine ⟨hcl.holder, hcl.writes, hcl.rows, hcl.selected, hcl.started, fun e he => ?_⟩
    rcases List.mem_append.mp he with he | he
    · exact hcl.logged e he
    · obtain rfl := List.mem_singleton.mp he
      exact ⟨h.started t (by simp [hx]), Sys.close_txn_self⟩
  abort s t x h _ := h.close

omit [DecidableEq τ] [DecidableEq κ] in
theorem LockInv.locked_of_settle {pc : π} {n : ℕ} {ks : List κ} {ws : List ω} {tr : List (ℕ × ℕ)}
    (h : P.LockInv s) (hx : s.txn t = some ⟨pc, .locking n ks [], ws, tr⟩) :
    ∀ k ∈ ks, s.lock k = some t := fun k hk =>
  (h.rows t _ n ks [] hx rfl k hk).resolve_left List.not_mem_nil

omit [DecidableEq κ] in
theorem applyAll_obs {obs : δ → γ} {k : κ} {ws : List ω} (d : δ)
    (hframe : ∀ w d, P.target w ≠ k → obs (P.apply w d) = obs d)
    (h : ∀ w ∈ ws, P.target w ≠ k) : obs (P.applyAll ws d) = obs d := by
  induction ws generalizing d with
  | nil => rfl
  | cons w ws ih =>
    exact (ih (P.apply w d) fun w' hw' => h w' (List.mem_cons_of_mem _ hw')).trans
      (hframe w d (h w (List.mem_cons_self ..)))

omit [DecidableEq τ] [DecidableEq κ] in
theorem LockInv.obs_of_unlocked (obs : δ → γ) {k : κ} (h : P.LockInv s)
    (hframe : ∀ w d, P.target w ≠ k → obs (P.apply w d) = obs d)
    (hx : s.txn t = some x) (hk : s.lock k ≠ some t) :
    obs (P.applyAll x.writes s.db) = obs s.db :=
  applyAll_obs s.db hframe fun w hw heq => hk (heq ▸ h.writes t x hx w hw)

omit [DecidableEq τ] [DecidableEq κ] in
theorem LockInv.obs_of_locked (obs : δ → γ) {k : κ} {u : τ} (h : P.LockInv s)
    (hframe : ∀ w d, P.target w ≠ k → obs (P.apply w d) = obs d)
    (hx : s.txn t = some x) (hk : s.lock k = some u) (hne : u ≠ t) :
    obs (P.applyAll x.writes s.db) = obs s.db :=
  h.obs_of_unlocked obs hframe hx fun hk' => hne (Option.some.inj (hk.symm.trans hk'))

end Program
end ReadCommitted
