import Mathlib.Data.List.Basic

/-! Runs of a guarded step function. The choices of the scheduler are carried by the
actions, so a step is a partial function and an action that is not enabled has no result. -/

namespace Transition

variable {σ τ α β : Type*}

def run (step : σ → α → Option σ) : σ → List α → Option σ
  | s, [] => some s
  | s, a :: as => (step s a).bind fun s' => run step s' as

/-- Every action of the list is taken in a state that meets the condition `G`. -/
def Guarded (step : σ → α → Option σ) (G : σ → α → Prop) : σ → List α → Prop
  | _, [] => True
  | s, a :: as => G s a ∧ ∀ s', step s a = some s' → Guarded step G s' as

instance Guarded.decidable {step : σ → α → Option σ} {G : σ → α → Prop} [∀ s a, Decidable (G s a)] :
    ∀ s as, Decidable (Guarded step G s as)
  | _, [] => isTrue trivial
  | s, a :: as =>
    match h : step s a with
    | none => decidable_of_iff (G s a) (by simp [Guarded, h])
    | some s' =>
      have : Decidable (Guarded step G s' as) := Guarded.decidable s' as
      decidable_of_iff (G s a ∧ Guarded step G s' as) (by simp [Guarded, h])

def Reachable (step : σ → α → Option σ) (s t : σ) : Prop := ∃ as, run step s as = some t

variable {step : σ → α → Option σ} {G : σ → α → Prop} {I : σ → Prop} {s t : σ} {a : α}
  {as bs : List α}

@[simp] theorem run_nil : run step s [] = some s := rfl

theorem run_cons_eq_some :
    run step s (a :: as) = some t ↔ ∃ s', step s a = some s' ∧ run step s' as = some t := by
  simp only [run, Option.bind_eq_some_iff]

theorem run_append_eq_some :
    run step s (as ++ bs) = some t ↔ ∃ m, run step s as = some m ∧ run step m bs = some t := by
  induction as generalizing s with
  | nil => simp
  | cons a as ih =>
    simp only [List.cons_append, run_cons_eq_some, ih]
    constructor
    · rintro ⟨s', hs, m, hm, ht⟩
      exact ⟨m, ⟨s', hs, hm⟩, ht⟩
    · rintro ⟨m, ⟨s', hs, hm⟩, ht⟩
      exact ⟨s', hs, m, hm, ht⟩

theorem run_singleton : run step s [a] = step s a := by
  simp only [run]
  cases step s a <;> rfl

theorem run_det {t' : σ} (h : run step s as = some t) (h' : run step s as = some t') : t = t' :=
  Option.some.inj (h.symm.trans h')

theorem Guarded.append (h : Guarded step G s (as ++ bs)) :
    Guarded step G s as ∧ ∀ m, run step s as = some m → Guarded step G m bs := by
  induction as generalizing s with
  | nil =>
    refine ⟨trivial, fun m hm => ?_⟩
    obtain rfl := Option.some.inj hm
    exact h
  | cons a as ih =>
    refine ⟨⟨h.1, fun s' hs => (ih (h.2 s' hs)).1⟩, fun m hm => ?_⟩
    obtain ⟨s', hs, hm⟩ := run_cons_eq_some.mp hm
    exact (ih (h.2 s' hs)).2 m hm

theorem guarded_append (h : Guarded step G s as)
    (h' : ∀ m, run step s as = some m → Guarded step G m bs) : Guarded step G s (as ++ bs) := by
  induction as generalizing s with
  | nil => exact h' s rfl
  | cons a as ih =>
    exact ⟨h.1, fun s' hs => ih (h.2 s' hs) fun m hm => h' m (run_cons_eq_some.mpr ⟨s', hs, hm⟩)⟩

theorem guarded_of_forall_mem (h : ∀ a ∈ as, ∀ s, G s a) : Guarded step G s as := by
  induction as generalizing s with
  | nil => trivial
  | cons a as ih =>
    exact ⟨h a (List.mem_cons_self ..) s,
      fun s' _ => ih fun b hb => h b (List.mem_cons_of_mem _ hb)⟩

theorem guarded_iff_forall_split :
    Guarded step G s as ↔
      ∀ pre a post, as = pre ++ a :: post → ∀ m, run step s pre = some m → G m a := by
  constructor
  · rintro hG pre a post rfl m hm
    have hrest : Guarded step G m (a :: post) := hG.append.2 m hm
    exact hrest.1
  · intro hall
    induction as generalizing s with
    | nil => trivial
    | cons a as ih =>
      have hfirst : G s a := hall [] a as rfl s rfl
      refine ⟨hfirst, fun s' hs => ih fun pre b post hsplit m hm => ?_⟩
      have hrun : run step s (a :: pre) = some m := run_cons_eq_some.mpr ⟨s', hs, hm⟩
      exact hall (a :: pre) b post (by rw [hsplit, List.cons_append]) m hrun

theorem Guarded.mono {G' : σ → α → Prop} (himp : ∀ s a, G s a → G' s a)
    (h : Guarded step G s as) : Guarded step G' s as := by
  induction as generalizing s with
  | nil => trivial
  | cons a as ih => exact ⟨himp _ _ h.1, fun s' hs => ih (h.2 s' hs)⟩

theorem Guarded.and {G' : σ → α → Prop} (h : Guarded step G s as) (h' : Guarded step G' s as) :
    Guarded step (fun s a => G s a ∧ G' s a) s as := by
  induction as generalizing s with
  | nil => trivial
  | cons a as ih => exact ⟨⟨h.1, h'.1⟩, fun s' hs => ih (h.2 s' hs) (h'.2 s' hs)⟩

theorem Guarded.induction (hstep : ∀ s a s', I s → G s a → step s a = some s' → I s')
    (hG : Guarded step G s as) (h : run step s as = some t) (hs : I s) : I t := by
  induction as generalizing s with
  | nil => exact Option.some.inj h ▸ hs
  | cons a as ih =>
    obtain ⟨s', hs', ht⟩ := run_cons_eq_some.mp h
    exact ih (hG.2 s' hs') ht (hstep s a s' hs hG.1 hs')

/-- Where a step keeps `I` exactly if it meets `G`, a run stays in `I` exactly if it is guarded. -/
theorem guarded_iff_along_prefixes {J : σ → Prop} (hJ : ∀ s a s', J s → step s a = some s' → J s')
    (hI : ∀ s a s', J s → I s → step s a = some s' → (I s' ↔ G s a)) (hj : J s) (hi : I s)
    (h : run step s as = some t) :
    Guarded step G s as ↔ ∀ pre, pre <+: as → ∀ m, run step s pre = some m → I m := by
  induction as generalizing s with
  | nil =>
    refine iff_of_true trivial fun pre hpre m hm => ?_
    obtain rfl := List.prefix_nil.mp hpre
    exact Option.some.inj hm ▸ hi
  | cons a as ih =>
    obtain ⟨s', hs, ht⟩ := run_cons_eq_some.mp h
    have hkeep := hI s a s' hj hi hs
    constructor
    · intro hG pre hpre m hm
      rcases List.prefix_cons_iff.mp hpre with rfl | ⟨pre, rfl, hprefix⟩
      · exact Option.some.inj hm ▸ hi
      · obtain ⟨s₁, hs₁, hm⟩ := run_cons_eq_some.mp hm
        obtain rfl := Option.some.inj (hs.symm.trans hs₁)
        exact (ih (hJ s a s' hj hs) (hkeep.mpr hG.1) ht).mp (hG.2 s' hs) pre hprefix m hm
    · intro hall
      have hnext : I s' := hall [a] (List.prefix_cons_iff.mpr (.inr ⟨[], rfl, List.nil_prefix⟩)) s'
        (run_singleton.trans hs)
      refine ⟨hkeep.mp hnext, fun s₁ hs₁ => ?_⟩
      obtain rfl := Option.some.inj (hs.symm.trans hs₁)
      refine (ih (hJ s a s' hj hs) hnext ht).mpr fun pre hpre m hm => ?_
      exact hall (a :: pre) (List.prefix_cons_iff.mpr (.inr ⟨pre, rfl, hpre⟩)) m
        (run_cons_eq_some.mpr ⟨s', hs, hm⟩)

theorem run_induction (hstep : ∀ s a s', I s → step s a = some s' → I s')
    (h : run step s as = some t) (hs : I s) : I t :=
  Guarded.induction (G := fun _ _ => True) (fun s a s' hI _ => hstep s a s' hI)
    (guarded_of_forall_mem fun _ _ _ => trivial) h hs

theorem Reachable.induction (hstep : ∀ s a s', I s → step s a = some s' → I s')
    (h : Reachable step s t) (hs : I s) : I t :=
  let ⟨_, has⟩ := h
  run_induction hstep has hs

theorem Reachable.refl (s : σ) : Reachable step s s := ⟨[], rfl⟩

theorem Reachable.tail {t' : σ} (h : Reachable step s t) (ht : step t a = some t') :
    Reachable step s t' := by
  obtain ⟨as, has⟩ := h
  exact ⟨as ++ [a], run_append_eq_some.mpr ⟨t, has, run_singleton.trans ht⟩⟩

end Transition
