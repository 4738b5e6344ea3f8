import Mathlib.Data.List.Forall2
import Mathlib.Data.List.Induction

/-! Machines that answer every input. What each input meets in a run, what all runs keep, and when two
runs stay alike. -/

namespace Mealy

variable {σ ι ο : Type*} (step : σ → ι → ο × σ)

def after : σ → List ι → σ
  | s, [] => s
  | s, i :: is => after (step s i).2 is

def visits : σ → List ι → List (σ × ι)
  | _, [] => []
  | s, i :: is => (s, i) :: visits (step s i).2 is

variable {step} {s t : σ} {is js : List ι}

theorem after_concat (s : σ) (is : List ι) (i : ι) :
    after step s (is ++ [i]) = (step (after step s is) i).2 := by
  induction is generalizing s with
  | nil => rfl
  | cons j is ih => exact ih (step s j).2

/-- An invariant may speak of the inputs that have led to a state. -/
theorem after_history {J : List ι → σ → Prop} (hs : J [] s)
    (hstep : ∀ pre i, J pre (after step s pre) → J (pre ++ [i]) (step (after step s pre) i).2)
    (is : List ι) : J is (after step s is) := by
  induction is using List.reverseRecOn with
  | nil => exact hs
  | append_singleton is i ih =>
    rw [after_concat]
    exact hstep is i ih

/-- Every input is taken in a state that the inputs before it lead to. -/
theorem exists_prefix_of_mem_visits {v : σ × ι} (hv : v ∈ visits step s is) :
    ∃ pre post, is = pre ++ v.2 :: post ∧ v.1 = after step s pre := by
  induction is generalizing s with
  | nil => cases hv
  | cons i is ih =>
    rcases List.mem_cons.mp hv with rfl | hv
    · exact ⟨[], is, rfl, rfl⟩
    · obtain ⟨pre, post, hsplit, hstate⟩ := ih hv
      exact ⟨i :: pre, post, by rw [hsplit, List.cons_append], hstate⟩

/-- Two runs whose inputs are related, one by one, in the states that they meet stay alike if each pair of
steps keeps the states alike. -/
theorem unwinding {A : σ × ι → σ × ι → Prop} {R : σ → σ → Prop}
    (hstep : ∀ x y, R x.1 y.1 → A x y → R (step x.1 x.2).2 (step y.1 y.2).2)
    (hA : List.Forall₂ A (visits step s is) (visits step t js)) (hR : R s t) :
    List.Forall₂ (fun x y => R x.1 y.1 ∧ A x y) (visits step s is) (visits step t js) ∧
      R (after step s is) (after step t js) := by
  induction is generalizing s t js with
  | nil =>
    cases js with
    | nil => exact ⟨.nil, hR⟩
    | cons j js => cases hA
  | cons i is ih =>
    cases js with
    | nil => cases hA
    | cons j js =>
      obtain ⟨hfirst, hrest⟩ := List.forall₂_cons.mp hA
      have hnext : R (step s i).2 (step t j).2 := hstep (s, i) (t, j) hR hfirst
      obtain ⟨hvisits, hafter⟩ := ih hrest hnext
      exact ⟨.cons ⟨hR, hfirst⟩ hvisits, hafter⟩

end Mealy
