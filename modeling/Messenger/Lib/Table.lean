import Mathlib.Data.List.Nodup

/-! Relational tables with a primary key. The rows are kept as a list, so that a query can
range over them, and no two rows of a table ever carry the same key. -/

structure Table (ρ : Type*) {κ : Type*} (key : ρ → κ) where
  rows : List ρ
  nodup : (rows.map key).Nodup

namespace Table

variable {ρ κ : Type*} {key : ρ → κ}

@[ext] theorem ext {t t' : Table ρ key} (h : t.rows = t'.rows) : t = t' := by
  cases t
  cases t'
  congr

instance [DecidableEq ρ] : DecidableEq (Table ρ key) := fun t t' =>
  decidable_of_iff (t.rows = t'.rows) ⟨ext, fun h => h ▸ rfl⟩

def empty : Table ρ key := ⟨[], List.nodup_nil⟩

instance : Inhabited (Table ρ key) := ⟨empty⟩

def keysWhere (t : Table ρ key) (p : ρ → Bool) : List κ := (t.rows.filter p).map key

/-- `UPDATE ... SET f WHERE p`, for an assignment that leaves the primary key alone. -/
def updateWhere (t : Table ρ key) (p : ρ → Bool) (f : ρ → ρ) (hf : ∀ r, key (f r) = key r) :
    Table ρ key where
  rows := t.rows.map fun r => if p r then f r else r
  nodup := by
    have hk : (key ∘ fun r => if p r then f r else r) = key := by
      funext r
      simp only [Function.comp_apply]
      split
      · exact hf r
      · rfl
    rw [List.map_map, hk]
    exact t.nodup

theorem mem_updateWhere {t : Table ρ key} {p : ρ → Bool} {f : ρ → ρ} (hf : ∀ r, key (f r) = key r)
    {r' : ρ} (h : r' ∈ (t.updateWhere p f hf).rows) : ∃ r ∈ t.rows, r' = r ∨ r' = f r := by
  obtain ⟨r, hr, rfl⟩ := List.mem_map.mp h
  refine ⟨r, hr, ?_⟩
  split
  · exact .inr rfl
  · exact .inl rfl

theorem exists_of_updateWhere {t : Table ρ key} {p : ρ → Bool} {f : ρ → ρ}
    (hf : ∀ r, key (f r) = key r) {r : ρ} (hr : r ∈ t.rows) :
    ∃ r' ∈ (t.updateWhere p f hf).rows, r' = r ∨ r' = f r := by
  refine ⟨if p r then f r else r, List.mem_map_of_mem hr, ?_⟩
  split
  · exact .inr rfl
  · exact .inl rfl

def deleteWhere (t : Table ρ key) (p : ρ → Bool) : Table ρ key where
  rows := t.rows.filter fun r => !p r
  nodup := t.nodup.sublist (List.filter_sublist.map key)

variable [DecidableEq κ]

def get? (t : Table ρ key) (k : κ) : Option ρ := t.rows.find? fun r => key r = k

theorem get?_eq_some {t : Table ρ key} {k : κ} {r : ρ} :
    t.get? k = some r ↔ r ∈ t.rows ∧ key r = k := by
  constructor
  · intro h
    exact ⟨List.mem_of_find?_eq_some h, by simpa using List.find?_some h⟩
  · rintro ⟨hr, rfl⟩
    cases hf : t.get? (key r) with
    | none => simpa using List.find?_eq_none.mp hf r hr
    | some r' =>
      have hk : key r' = key r := by simpa using List.find?_some hf
      exact congrArg some (List.inj_on_of_nodup_map t.nodup (List.mem_of_find?_eq_some hf) hr hk)

theorem get?_eq_none {t : Table ρ key} {k : κ} :
    t.get? k = none ↔ ∀ r ∈ t.rows, key r ≠ k := by
  simp [get?]

theorem key_of_get? {t : Table ρ key} {k : κ} {r : ρ} (h : t.get? k = some r) : key r = k :=
  (get?_eq_some.mp h).2

@[simp] theorem get?_empty (k : κ) : (empty : Table ρ key).get? k = none := rfl

theorem mem_keysWhere {t : Table ρ key} {p : ρ → Bool} {k : κ} :
    k ∈ t.keysWhere p ↔ ∃ r, t.get? k = some r ∧ p r = true := by
  simp only [keysWhere, List.mem_map, List.mem_filter, get?_eq_some]
  constructor
  · rintro ⟨r, ⟨hr, hp⟩, hk⟩
    exact ⟨r, ⟨hr, hk⟩, hp⟩
  · rintro ⟨r, ⟨hr, hk⟩, hp⟩
    exact ⟨r, ⟨hr, hp⟩, hk⟩

/-- A clause that fixes the primary key selects at most one row. -/
theorem keysWhere_of_key {t : Table ρ key} {k : κ} {p : ρ → Bool} (hp : ∀ r, p r = true → key r = k) :
    t.keysWhere p = if (t.get? k).any p then [k] else [] := by
  have hall : ∀ k' ∈ t.keysWhere p, k' = k := by
    intro k' hk'
    obtain ⟨r, hr, hpr⟩ := mem_keysWhere.mp hk'
    exact (key_of_get? hr).symm.trans (hp r hpr)
  have hnodup : (t.keysWhere p).Nodup := t.nodup.sublist (List.filter_sublist.map key)
  have hmem : k ∈ t.keysWhere p ↔ (t.get? k).any p := by
    rw [mem_keysWhere, Option.any_eq_true]
  split
  · next hk =>
    obtain ⟨l₁, l₂, hl⟩ := List.append_of_mem (hmem.mpr hk)
    rw [hl] at hall hnodup ⊢
    have hnil : l₁ ++ l₂ = [] := by
      refine List.eq_nil_iff_forall_not_mem.mpr fun k' hk' => ?_
      have hnot := (List.nodup_cons.mp (List.nodup_middle.mp hnodup)).1
      obtain rfl := hall k' (by simp only [List.mem_append, List.mem_cons] at hk' ⊢; tauto)
      exact hnot hk'
    obtain ⟨rfl, rfl⟩ := List.append_eq_nil_iff.mp hnil
    rfl
  · next hk =>
    refine List.eq_nil_iff_forall_not_mem.mpr fun k' hk' => hk (hmem.mp ?_)
    exact hall k' hk' ▸ hk'

theorem get?_updateWhere (t : Table ρ key) (p : ρ → Bool) (f : ρ → ρ)
    (hf : ∀ r, key (f r) = key r) (k : κ) :
    (t.updateWhere p f hf).get? k = (t.get? k).map fun r => if p r then f r else r := by
  have hk : ∀ r, key (if p r then f r else r) = key r := by
    intro r
    split
    · exact hf r
    · rfl
  simp only [get?, updateWhere, List.find?_map, Function.comp_def, hk]

theorem mem_rows_iff {t : Table ρ key} {r : ρ} : r ∈ t.rows ↔ t.get? (key r) = some r := by
  rw [get?_eq_some, and_iff_left rfl]

theorem mem_updateWhere_iff {t : Table ρ key} {p : ρ → Bool} {f : ρ → ρ}
    (hf : ∀ r, key (f r) = key r) {r : ρ} (h : ∀ r', t.get? (key r) = some r' → p r' = false) :
    r ∈ (t.updateWhere p f hf).rows ↔ r ∈ t.rows := by
  rw [mem_rows_iff, mem_rows_iff, get?_updateWhere]
  cases hr : t.get? (key r) with
  | none => rfl
  | some r' => rw [Option.map_some, h r' hr, if_neg Bool.false_ne_true]

omit [DecidableEq κ] in
theorem updateWhere_eq_self {t : Table ρ key} {p : ρ → Bool} {f : ρ → ρ}
    {hf : ∀ r, key (f r) = key r} (h : ∀ r ∈ t.rows, p r = true → f r = r) :
    t.updateWhere p f hf = t := by
  refine ext ((List.map_congr_left fun r hr => ?_).trans (List.map_id _))
  split
  · next hp => exact h r hr hp
  · rfl

theorem get?_deleteWhere (t : Table ρ key) (p : ρ → Bool) (k : κ) :
    (t.deleteWhere p).get? k = (t.get? k).filter fun r => !p r := by
  ext r
  simp only [Option.filter_eq_some_iff, get?_eq_some, deleteWhere, List.mem_filter]
  tauto

theorem get?_deleteWhere_of_ne {t : Table ρ key} {k k' : κ} (h : k' ≠ k) :
    (t.deleteWhere (key · = k')).get? k = t.get? k := by
  rw [get?_deleteWhere]
  cases hr : t.get? k with
  | none => rfl
  | some r => simp [Option.filter, key_of_get? hr, h.symm]

theorem get?_deleteWhere_self (t : Table ρ key) (k : κ) : (t.deleteWhere (key · = k)).get? k = none := by
  rw [get?_deleteWhere, Option.filter_eq_none_iff]
  intro r hr
  simp [key_of_get? hr]

theorem get?_updateWhere_of_ne {t : Table ρ key} {f : ρ → ρ} (hf : ∀ r, key (f r) = key r) {k k' : κ}
    (h : k' ≠ k) : (t.updateWhere (key · = k') f hf).get? k = t.get? k := by
  rw [get?_updateWhere]
  cases hr : t.get? k with
  | none => rfl
  | some r => simp [key_of_get? hr, h.symm]

omit [DecidableEq κ] in
theorem deleteWhere_deleteWhere (t : Table ρ key) (p q : ρ → Bool) :
    (t.deleteWhere p).deleteWhere q = t.deleteWhere fun r => p r || q r := by
  refine ext ?_
  show (t.rows.filter _).filter _ = t.rows.filter _
  rw [List.filter_filter]
  refine List.filter_congr fun r _ => ?_
  rw [Bool.not_or, Bool.and_comm]

omit [DecidableEq κ] in
theorem deleteWhere_congr {t : Table ρ key} {p q : ρ → Bool} (h : ∀ r ∈ t.rows, p r = q r) :
    t.deleteWhere p = t.deleteWhere q := by
  refine ext (List.filter_congr fun r hr => ?_)
  rw [h r hr]

/-- The rows that a clause selects may as well be deleted one by one. -/
theorem foldl_deleteWhere (t : Table ρ key) (p : ρ → Bool) :
    (t.keysWhere p).foldl (fun t k => t.deleteWhere (key · = k)) t = t.deleteWhere p := by
  have hfold (ks : List κ) (t : Table ρ key) :
      ks.foldl (fun t k => t.deleteWhere (key · = k)) t = t.deleteWhere (key · ∈ ks) := by
    induction ks generalizing t with
    | nil => exact ext (by simp [deleteWhere])
    | cons k ks ih =>
      rw [List.foldl_cons, ih, deleteWhere_deleteWhere]
      refine deleteWhere_congr fun r _ => ?_
      rw [← Bool.decide_or, decide_eq_decide]
      exact List.mem_cons.symm
  rw [hfold]
  refine deleteWhere_congr fun r hr => Bool.eq_iff_iff.mpr ?_
  rw [decide_eq_true_eq, mem_keysWhere]
  constructor
  · rintro ⟨r', hr', hp⟩
    have hsame : t.get? (key r) = some r := get?_eq_some.mpr ⟨hr, rfl⟩
    exact Option.some.inj (hr'.symm.trans hsame) ▸ hp
  · exact fun hp => ⟨r, get?_eq_some.mpr ⟨hr, rfl⟩, hp⟩

/-- The row is stored unless its key is taken; a caller that must know tests the key first. -/
def insertNew (t : Table ρ key) (r : ρ) : Table ρ key :=
  if h : t.get? (key r) = none then
    { rows := t.rows ++ [r]
      nodup := by
        rw [List.map_append, List.nodup_append]
        refine ⟨t.nodup, List.nodup_singleton _, ?_⟩
        rintro k hk k' hk' rfl
        obtain ⟨r', hr', rfl⟩ := List.mem_map.mp hk
        exact get?_eq_none.mp h r' hr' (List.mem_singleton.mp hk') }
  else t

theorem rows_insertNew {t : Table ρ key} {r : ρ} (h : t.get? (key r) = none) :
    (t.insertNew r).rows = t.rows ++ [r] := by
  simp [insertNew, h]

theorem insertNew_of_taken {t : Table ρ key} {r r' : ρ} (h : t.get? (key r) = some r') :
    t.insertNew r = t := by
  simp [insertNew, h]

theorem get?_insertNew (t : Table ρ key) (r : ρ) (k : κ) :
    (t.insertNew r).get? k = (t.get? k).or (if key r = k then some r else none) := by
  cases h : t.get? (key r) with
  | none =>
    simp only [get?, rows_insertNew h, List.find?_append, List.find?_singleton, decide_eq_true_eq]
  | some r' =>
    rw [insertNew_of_taken h]
    split
    · next hk => rw [← hk, h, Option.some_or]
    · rw [Option.or_none]

theorem get?_insertNew_self {t : Table ρ key} {r : ρ} (h : t.get? (key r) = none) :
    (t.insertNew r).get? (key r) = some r := by
  simp [get?_insertNew, h]

theorem get?_insertNew_of_ne {t : Table ρ key} {r : ρ} {k : κ} (h : key r ≠ k) :
    (t.insertNew r).get? k = t.get? k := by
  simp [get?_insertNew, h]

theorem mem_of_mem_insertNew {t : Table ρ key} {r r' : ρ} (h : r' ∈ (t.insertNew r).rows) :
    r' ∈ t.rows ∨ r' = r := by
  cases hk : t.get? (key r) with
  | none =>
    rw [rows_insertNew hk, List.mem_append, List.mem_singleton] at h
    exact h
  | some taken =>
    rw [insertNew_of_taken hk] at h
    exact .inl h

theorem mem_insertNew_iff {t : Table ρ key} {r r' : ρ} (h : r' ≠ r) :
    r' ∈ (t.insertNew r).rows ↔ r' ∈ t.rows := by
  cases hk : t.get? (key r) with
  | none =>
    rw [rows_insertNew hk, List.mem_append, List.mem_singleton]
    exact or_iff_left h
  | some taken => rw [insertNew_of_taken hk]

theorem mem_insertNew_of_mem {t : Table ρ key} {r r' : ρ} (hr : r ∈ t.rows) :
    r ∈ (t.insertNew r').rows := by
  cases hk : t.get? (key r') with
  | none =>
    rw [rows_insertNew hk]
    exact List.mem_append_left _ hr
  | some taken =>
    rw [insertNew_of_taken hk]
    exact hr

theorem isSome_insertNew {t : Table ρ key} {r : ρ} {k : κ} (h : (t.get? k).isSome) :
    ((t.insertNew r).get? k).isSome := by
  obtain ⟨row, hrow⟩ := Option.isSome_iff_exists.mp h
  rw [get?_insertNew, hrow, Option.some_or, Option.isSome_some]

theorem mem_insertNew_of_ne {t : Table ρ key} {r r' : ρ} (h : key r ≠ key r') :
    r' ∈ (t.insertNew r).rows ↔ r' ∈ t.rows := by
  rw [mem_rows_iff, get?_insertNew_of_ne h, mem_rows_iff]

instance decidableOfSome {p : ρ → Prop} [DecidablePred p] :
    ∀ o : Option ρ, Decidable (∀ r, o = some r → p r)
  | none => isTrue nofun
  | some r => decidable_of_iff (p r) (by simp)

end Table
