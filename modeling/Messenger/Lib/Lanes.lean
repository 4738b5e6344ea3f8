import Mathlib.Data.List.Basic

/-! Queues whose elements are taken out in any order, seen lane by lane. Elements with one key form a
lane, and taking the first of its lane keeps every lane in order. -/

namespace Lanes

variable {α κ : Type*} [DecidableEq κ]

def lane (key : α → κ) (k : κ) (l : List α) : List α := l.filter fun a => key a = k

def pick (l : List α) (i : ℕ) : Option (α × List α) := l[i]?.map fun a => (a, l.eraseIdx i)

def InTurn (key : α → κ) (l : List α) (i : ℕ) : Prop :=
  ∀ a ∈ l[i]?, ∀ b ∈ l.take i, key b ≠ key a

instance (key : α → κ) (l : List α) (i : ℕ) : Decidable (InTurn key l i) :=
  match h : l[i]? with
  | none => isTrue (by simp [InTurn, h])
  | some a => decidable_of_iff (∀ b ∈ l.take i, key b ≠ key a) (by simp [InTurn, h])

variable {key : α → κ} {k : κ} {l l' : List α} {a : α} {i : ℕ}

@[simp] theorem lane_nil : lane key k [] = [] := rfl

@[simp] theorem lane_append : lane key k (l ++ l') = lane key k l ++ lane key k l' :=
  List.filter_append ..

theorem lane_sublist (h : l.Sublist l') : (lane key k l).Sublist (lane key k l') := h.filter _

omit [DecidableEq κ] in
theorem pick_eq_some (h : pick l i = some (a, l')) :
    l[i]? = some a ∧ l = l.take i ++ a :: l.drop (i + 1) ∧ l' = l.take i ++ l.drop (i + 1) := by
  obtain ⟨b, hb, heq⟩ := Option.map_eq_some_iff.mp h
  obtain ⟨rfl, rfl⟩ := Prod.mk.inj heq
  obtain ⟨hi, rfl⟩ := List.getElem?_eq_some_iff.mp hb
  refine ⟨hb, ?_, List.eraseIdx_eq_take_drop_succ ..⟩
  rw [List.getElem_cons_drop hi, List.take_append_drop]

omit [DecidableEq κ] in
theorem pick_sublist (h : pick l i = some (a, l')) : l'.Sublist l := by
  obtain ⟨b, -, heq⟩ := Option.map_eq_some_iff.mp h
  obtain ⟨-, rfl⟩ := Prod.mk.inj heq
  exact List.eraseIdx_sublist ..

/-- An element that is taken in turn leaves from the front of its lane. -/
theorem lane_pick (h : pick l i = some (a, l')) (hturn : InTurn key l i) :
    lane key k l = lane key k [a] ++ lane key k l' := by
  obtain ⟨ha, hl, rfl⟩ := pick_eq_some h
  have hbefore : key a = k → lane key k (l.take i) = [] := by
    intro hk
    refine List.filter_eq_nil_iff.mpr fun b hb => ?_
    simpa [hk] using hturn a ha b hb
  have hsplit : lane key k l =
      lane key k (l.take i) ++ (lane key k [a] ++ lane key k (l.drop (i + 1))) := by
    rw [← lane_append, ← lane_append, List.singleton_append, ← hl]
  rw [hsplit, lane_append]
  by_cases hk : key a = k
  · rw [hbefore hk, List.nil_append, List.nil_append]
  · have hnone : lane key k [a] = [] := by simp [lane, hk]
    rw [hnone, List.nil_append, List.nil_append]

end Lanes
