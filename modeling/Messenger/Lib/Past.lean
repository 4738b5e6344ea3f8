import Mathlib.Data.List.Induction
import Messenger.Lib.Transition

/-! What happened earlier in a run. `Since P Q` says that some step met `P` and that every state from
there on meets `Q`; a step is judged with the actions that led to it, so the operators nest. -/

namespace Transition

variable {σ α : Type*}

def Since (step : σ → α → Option σ) (s₀ : σ) (as : List α) (P : List α → σ → α → Prop)
    (Q : σ → Prop) : Prop :=
  ∃ pre a post m m', as = pre ++ a :: post ∧ run step s₀ pre = some m ∧ step m a = some m' ∧
    P pre m a ∧ ∀ mid, mid <+: post → ∀ n, run step m' mid = some n → Q n

variable {step : σ → α → Option σ} {s₀ s s' : σ} {a : α} {as : List α}
  {P P' : List α → σ → α → Prop} {Q Q' : σ → Prop}

theorem since_of_step (hr : run step s₀ as = some s) (hs : step s a = some s') (hP : P as s a)
    (hQ : Q s') : Since step s₀ (as ++ [a]) P Q := by
  refine ⟨as, a, [], s, s', rfl, hr, hs, hP, fun mid hmid n hn => ?_⟩
  obtain rfl := List.prefix_nil.mp hmid
  exact Option.some.inj hn ▸ hQ

theorem Since.snoc (h : Since step s₀ as P Q) (hr : run step s₀ as = some s)
    (hs : step s a = some s') (hQ : Q s') : Since step s₀ (as ++ [a]) P Q := by
  obtain ⟨pre, b, post, m, m', rfl, hpre, hb, hP, hpost⟩ := h
  refine ⟨pre, b, post ++ [a], m, m', by simp, hpre, hb, hP, fun mid hmid n hn => ?_⟩
  rcases List.prefix_concat_iff.mp hmid with rfl | hmid
  · -- the new state, which is the only one that the whole run leads to
    obtain ⟨m₁, hm₁, hrest⟩ := run_append_eq_some.mp hr
    obtain ⟨m₂, hm₂, hpost'⟩ := run_cons_eq_some.mp hrest
    obtain rfl := Option.some.inj (hpre.symm.trans hm₁)
    obtain rfl := Option.some.inj (hb.symm.trans hm₂)
    have hend : run step m' (post ++ [a]) = some s' :=
      run_append_eq_some.mpr ⟨s, hpost', run_singleton.trans hs⟩
    exact run_det hend hn ▸ hQ
  · exact hpost mid hmid n hn

theorem Since.mono (h : Since step s₀ as P Q) (hP : ∀ pre m a, a ∈ as → P pre m a → P' pre m a)
    (hQ : ∀ n, Q n → Q' n) : Since step s₀ as P' Q' := by
  obtain ⟨pre, a, post, m, m', rfl, hpre, ha, hp, hpost⟩ := h
  have hmem : a ∈ pre ++ a :: post := List.mem_append_right _ (List.mem_cons_self ..)
  exact ⟨pre, a, post, m, m', rfl, hpre, ha, hP pre m a hmem hp,
    fun mid hmid n hn => hQ n (hpost mid hmid n hn)⟩

def Throughout (step : σ → α → Option σ) (s₀ : σ) (as : List α) (Q : σ → Prop) : Prop :=
  ∀ pre, pre <+: as → ∀ n, run step s₀ pre = some n → Q n

theorem throughout_nil (hQ : Q s₀) : Throughout step s₀ [] Q := by
  intro pre hpre n hn
  obtain rfl := List.prefix_nil.mp hpre
  exact Option.some.inj hn ▸ hQ

theorem Throughout.snoc (h : Throughout step s₀ as Q) (hr : run step s₀ as = some s)
    (hs : step s a = some s') (hQ : Q s') : Throughout step s₀ (as ++ [a]) Q := by
  intro pre hpre n hn
  rcases List.prefix_concat_iff.mp hpre with rfl | hpre
  · have hend : run step s₀ (as ++ [a]) = some s' :=
      run_append_eq_some.mpr ⟨s, hr, run_singleton.trans hs⟩
    exact run_det hend hn ▸ hQ
  · exact h pre hpre n hn

/-- What every step preserves, given the actions so far, holds at the end of a run. -/
theorem run_history {I : List α → σ → Prop} (hinit : I [] s₀)
    (hstep : ∀ as s a s', run step s₀ as = some s → I as s → step s a = some s' → I (as ++ [a]) s')
    (hr : run step s₀ as = some s) : I as s := by
  induction as using List.reverseRecOn generalizing s with
  | nil => exact Option.some.inj hr ▸ hinit
  | append_singleton as a ih =>
    obtain ⟨m, hm, ha⟩ := run_append_eq_some.mp hr
    exact hstep as m a s hm (ih hm) (run_singleton.symm.trans ha)

end Transition
