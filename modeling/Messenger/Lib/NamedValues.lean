import Mathlib.Data.List.Basic
import Mathlib.Logic.Function.Basic

/-! Objects, as maps from the names of their attributes to values, and lists of named values, as a mapping
is iterated over. -/

namespace NamedValues

section

universe u v

variable {α β : Type u} {ε : Type v}

/-- Names that are collected one after the other, none of them twice. -/
theorem foldl_collect [DecidableEq α] (p : α → Prop) [DecidablePred p] (names acc : List α)
    (hnodup : (acc ++ names).Nodup) (hp : ∀ name ∈ names, p name) :
    names.foldl (fun names name => if name ∉ names ∧ p name then names ++ [name] else names) acc =
      acc ++ names := by
  induction names generalizing acc with
  | nil => simp
  | cons name names ih =>
    have hnew : name ∉ acc := fun h => (List.nodup_append.mp hnodup).2.2 _ h _ List.mem_cons_self rfl
    rw [List.foldl_cons, if_pos ⟨hnew, hp name List.mem_cons_self⟩, ih, List.append_assoc,
      List.singleton_append]
    · simpa using hnodup
    · exact fun n hn => hp n (List.mem_cons_of_mem _ hn)

theorem getElem?_filterMap (f : α → Option β) (xs : List α)
    (h : ∀ x ∈ xs, (f x).isSome) (n : ℕ) : (xs.filterMap f)[n]? = xs[n]?.bind f := by
  induction xs generalizing n with
  | nil => simp
  | cons x xs ih =>
    obtain ⟨y, hy⟩ := Option.isSome_iff_exists.mp (h x List.mem_cons_self)
    rw [List.filterMap_cons_some hy]
    cases n with
    | zero => simp [hy]
    | succ n => simpa using ih (fun x hx => h x (List.mem_cons_of_mem _ hx)) n

/-- A list of names that are each given a value, where every one of them is. -/
theorem mapM_pair_eq_ok_iff {f : α → Except ε β} {xs : List α} {ys : List (α × β)} :
    (xs.mapM fun x => do return (x, ← f x)) = .ok ys ↔
      ys.map Prod.fst = xs ∧ ∀ y ∈ ys, f y.1 = .ok y.2 := by
  induction xs generalizing ys with
  | nil =>
    constructor
    · rintro ⟨⟩
      simp
    · rintro ⟨h, -⟩
      rw [List.map_eq_nil_iff.mp h]
      rfl
  | cons x xs ih =>
    rw [List.mapM_cons]
    generalize (xs.mapM fun x => do return (x, ← f x)) = r at ih ⊢
    constructor
    · intro h
      cases hx : f x with
      | error e => simp [hx, bind, Except.bind] at h
      | ok b =>
        cases r with
        | error e => simp [hx, bind, Except.bind, pure, Except.pure] at h
        | ok ys' =>
          obtain rfl : (x, b) :: ys' = ys := by
            simpa [hx, bind, Except.bind, pure, Except.pure] using h
          obtain ⟨hfst, hall⟩ := ih.mp rfl
          exact ⟨by simp [hfst], List.forall_mem_cons.mpr ⟨hx, hall⟩⟩
    · rintro ⟨hfst, hall⟩
      obtain ⟨⟨x, b⟩, ys, rfl, rfl, rfl⟩ := List.map_eq_cons_iff.mp hfst
      obtain ⟨hx, hall⟩ := List.forall_mem_cons.mp hall
      obtain rfl := ih.mpr ⟨rfl, hall⟩
      simp only at hx
      simp [hx, bind, Except.bind, pure, Except.pure]

end

variable {α β : Type*}

structure Mirrors (record : List (α × β)) (attrs : α → Option β) : Prop where
  agrees : ∀ kv ∈ record, attrs kv.1 = some kv.2
  covers : ∀ name, (attrs name).isSome → name ∈ record.map Prod.fst

namespace Mirrors

variable {record : List (α × β)} {attrs : α → Option β}

theorem lookup [BEq α] [LawfulBEq α] (h : Mirrors record attrs) (name : α) :
    record.lookup name = attrs name := by
  cases hl : record.lookup name with
  | none =>
    refine Eq.symm (Option.eq_none_iff_forall_ne_some.mpr fun v hv => ?_)
    obtain ⟨kv, hkv, rfl⟩ := List.mem_map.mp (h.covers name (by simp [hv]))
    simpa using List.lookup_eq_none_iff.mp hl kv hkv
  | some v =>
    obtain ⟨before, after, rfl, -⟩ := List.lookup_eq_some_iff.mp hl
    exact (h.agrees (name, v) (by simp)).symm

/-- Setting attributes to what they are changes nothing. -/
theorem foldl_update [DecidableEq α] (h : Mirrors record attrs) (p : α → Prop) [DecidablePred p] :
    record.foldl
      (fun (attrs : α → Option β) kv => if p kv.1 then Function.update attrs kv.1 (some kv.2) else attrs)
      attrs = attrs := by
  have hstep : ∀ kv ∈ record,
      (if p kv.1 then Function.update attrs kv.1 (some kv.2) else attrs) = attrs := fun kv hkv => by
    rw [← h.agrees kv hkv, Function.update_eq_self, ite_self]
  clear h
  induction record with
  | nil => rfl
  | cons kv record ih =>
    rw [List.foldl_cons, hstep kv List.mem_cons_self]
    exact ih fun kv hkv => hstep kv (List.mem_cons_of_mem _ hkv)

end Mirrors

end NamedValues
