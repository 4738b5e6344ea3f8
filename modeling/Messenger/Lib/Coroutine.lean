import Mathlib.Logic.Basic

/-! Coroutines with a state that outlives their exceptions, and rules for their pre- and
postconditions. A specification has a postcondition for a return and one for an exception. -/

def Coroutine (ε σ α : Type) := σ → Except ε α × σ

namespace Coroutine

variable {ε σ α β : Type}

instance : Monad (Coroutine ε σ) where
  pure a := fun s => (.ok a, s)
  bind m k := fun s =>
    match m s with
    | (.ok a, s') => k a s'
    | (.error e, s') => (.error e, s')

def raise (e : ε) : Coroutine ε σ α := fun s => (.error e, s)

def read (f : σ → α) : Coroutine ε σ α := fun s => (.ok (f s), s)

def update (f : σ → σ) : Coroutine ε σ Unit := fun s => (.ok (), f s)

/-- `try: m` with `except` clauses; `h` raises again what they do not catch. -/
def tryExcept (m : Coroutine ε σ α) (h : ε → Coroutine ε σ α) : Coroutine ε σ α := fun s =>
  match m s with
  | (.ok a, s') => (.ok a, s')
  | (.error e, s') => h e s'

/-- `try: m finally: f`. An exception of `f` takes the place of the one that led to it. -/
def tryFinally (m : Coroutine ε σ α) (f : Coroutine ε σ Unit) : Coroutine ε σ α := fun s =>
  match m s with
  | (r, s') =>
    match f s' with
    | (.ok _, s'') => (r, s'')
    | (.error e, s'') => (.error e, s'')

theorem bind_of_ok {m : Coroutine ε σ α} {k : α → Coroutine ε σ β} {s s' : σ} {a : α}
    (hm : m s = (.ok a, s')) : (m >>= k) s = k a s' := by
  simp only [bind, hm]

theorem bind_of_error {m : Coroutine ε σ α} {k : α → Coroutine ε σ β} {s s' : σ} {e : ε}
    (hm : m s = (.error e, s')) : (m >>= k) s = (.error e, s') := by
  simp only [bind, hm]

theorem read_bind (f : σ → β) (k : β → Coroutine ε σ α) (s : σ) : (read f >>= k) s = k (f s) s := rfl

theorem tryExcept_of_ok {m : Coroutine ε σ α} {h : ε → Coroutine ε σ α} {s s' : σ} {a : α}
    (hm : m s = (.ok a, s')) : tryExcept m h s = (.ok a, s') := by
  simp only [tryExcept, hm]

theorem tryExcept_of_error {m : Coroutine ε σ α} {h : ε → Coroutine ε σ α} {s s' : σ} {e : ε}
    (hm : m s = (.error e, s')) : tryExcept m h s = h e s' := by
  simp only [tryExcept, hm]

def Ends (Q : α → σ → Prop) (E : ε → σ → Prop) : Except ε α × σ → Prop
  | (.ok a, s) => Q a s
  | (.error e, s) => E e s

def Spec (P : σ → Prop) (m : Coroutine ε σ α) (Q : α → σ → Prop) (E : ε → σ → Prop) : Prop :=
  ∀ s, P s → Ends Q E (m s)

variable {P P' : σ → Prop} {Q Q' R : α → σ → Prop} {E E' X : ε → σ → Prop} {m : Coroutine ε σ α}

theorem Spec.mono (h : Spec P m Q E) (hP : ∀ s, P' s → P s) (hQ : ∀ a s, Q a s → Q' a s)
    (hE : ∀ e s, E e s → E' e s) : Spec P' m Q' E' := by
  intro s hs
  have hends := h s (hP s hs)
  generalize m s = result at hends ⊢
  obtain ⟨_ | _, s'⟩ := result
  · exact hE _ _ hends
  · exact hQ _ _ hends

theorem spec_pure {a : α} : Spec (Q a) (pure a) Q E := fun _ hs => hs

theorem spec_bind {k : α → Coroutine ε σ β} {Q : β → σ → Prop} (hm : Spec P m R E)
    (hk : ∀ a, Spec (R a) (k a) Q E) : Spec P (m >>= k) Q E := by
  intro s hs
  have hends := hm s hs
  simp only [bind]
  generalize m s = result at hends ⊢
  obtain ⟨_ | a, s'⟩ := result
  · exact hends
  · exact hk a s' hends

theorem spec_tryExcept {h : ε → Coroutine ε σ α} (hm : Spec P m Q X)
    (hh : ∀ e, Spec (X e) (h e) Q E) : Spec P (tryExcept m h) Q E := by
  intro s hs
  have hends := hm s hs
  unfold tryExcept
  generalize m s = result at hends ⊢
  obtain ⟨e | _, s'⟩ := result
  · exact hh e s' hends
  · exact hends

theorem spec_tryFinally {f : Coroutine ε σ Unit} (hm : Spec P m R X)
    (hok : ∀ a, Spec (R a) f (fun _ => Q a) E) (herr : ∀ e, Spec (X e) f (fun _ => E e) E) :
    Spec P (tryFinally m f) Q E := by
  intro s hs
  have hends := hm s hs
  unfold tryFinally
  generalize m s = result at hends ⊢
  obtain ⟨e | a, s'⟩ := result
  · have hlast := herr e s' hends
    dsimp only
    generalize f s' = result at hlast ⊢
    obtain ⟨_ | _, s''⟩ := result <;> exact hlast
  · have hlast := hok a s' hends
    dsimp only
    generalize f s' = result at hlast ⊢
    obtain ⟨_ | _, s''⟩ := result <;> exact hlast

theorem forM_cons_of_ok {β : Type} {body : β → Coroutine ε σ Unit} {b : β} {s s' : σ}
    (hb : body b s = (.ok (), s')) (bs : List β) : (b :: bs).forM body s = bs.forM body s' :=
  bind_of_ok (k := fun _ => bs.forM body) hb

/-- A loop, by an invariant that knows what is left of the list. -/
theorem spec_forM_left {β : Type} {I : List β → σ → Prop} {body : β → Coroutine ε σ Unit}
    {E : ε → σ → Prop} (hbody : ∀ b bs, Spec (I (b :: bs)) (body b) (fun _ => I bs) E) (bs : List β) :
    Spec (I bs) (bs.forM body) (fun _ => I []) E := by
  induction bs with
  | nil => exact spec_pure (Q := fun _ => I [])
  | cons b bs ih => exact spec_bind (hbody b bs) fun _ => ih

/-- What every turn keeps holds after the loop. -/
theorem spec_forM {β : Type} {I : σ → Prop} {body : β → Coroutine ε σ Unit} {E : ε → σ → Prop}
    (hbody : ∀ b, Spec I (body b) (fun _ => I) E) (bs : List β) :
    Spec I (bs.forM body) (fun _ => I) E :=
  spec_forM_left (I := fun _ => I) (fun b _ => hbody b) bs

end Coroutine
