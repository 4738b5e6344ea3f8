import Mathlib.Data.Prod.Basic

/-! Operations that await a store and other services, each await a point at which they may fail.
An error inside a transaction loses the writes of the transaction, an error elsewhere keeps what
has been done before it. -/

namespace Transactional

variable {φ ε δ σ α β : Type}

abbrev Faults (φ ε : Type) := φ → Option ε

def Tx (φ ε δ α : Type) := Faults φ ε → δ → Except ε (α × δ)

def Op (φ ε σ α : Type) := Faults φ ε → σ → Except ε α × σ

namespace Tx

def pure (a : α) : Tx φ ε δ α := fun _ d => .ok (a, d)

def bind (m : Tx φ ε δ α) (k : α → Tx φ ε δ β) : Tx φ ε δ β := fun f d =>
  match m f d with
  | .ok (a, d') => k a f d'
  | .error e => .error e

instance : Monad (Tx φ ε δ) where
  pure := Tx.pure
  bind := Tx.bind

def throw (e : ε) : Tx φ ε δ α := fun _ _ => .error e

def statement (p : φ) (q : δ → Except ε (α × δ)) : Tx φ ε δ α := fun f d =>
  match f p with
  | some e => .error e
  | none => q d

def await (p : φ) : Tx φ ε δ Unit := fun f d => (f p).elim (.ok ((), d)) .error

variable {f : Faults φ ε} {d d' : δ} {a a' : α} {b : β} {e : ε} {p : φ}

@[simp] theorem pure_eq_ok : (Pure.pure a : Tx φ ε δ α) f d = .ok (a', d') ↔ a = a' ∧ d = d' := by
  simp [Pure.pure, Tx.pure]

@[simp] theorem throw_eq_ok : ¬ (throw e : Tx φ ε δ α) f d = .ok (a, d') := by simp [throw]

@[simp] theorem await_eq_ok {u : Unit} :
    (await p : Tx φ ε δ Unit) f d = .ok (u, d') ↔ f p = none ∧ d = d' := by
  cases hp : f p <;> simp [await, hp]

theorem statement_eq_ok {q : δ → Except ε (α × δ)} :
    statement p q f d = .ok (a, d') ↔ f p = none ∧ q d = .ok (a, d') := by
  cases hp : f p <;> simp [statement, hp]

theorem bind_eq_ok {m : Tx φ ε δ α} {k : α → Tx φ ε δ β} :
    (m >>= k) f d = .ok (b, d') ↔ ∃ a d₁, m f d = .ok (a, d₁) ∧ k a f d₁ = .ok (b, d') := by
  change Tx.bind m k f d = _ ↔ _
  unfold Tx.bind
  rcases m f d with e | ⟨a, d₁⟩
  · simp
  · constructor
    · exact fun h => ⟨a, d₁, rfl, h⟩
    · rintro ⟨_, _, heq, h⟩
      obtain ⟨rfl, rfl⟩ := Prod.mk.inj (Except.ok.inj heq)
      exact h

theorem bind_of_ok {m : Tx φ ε δ α} {k : α → Tx φ ε δ β} (hm : m f d = .ok (a, d')) :
    (m >>= k) f d = k a f d' := by
  change Tx.bind m k f d = _
  simp [Tx.bind, hm]

theorem bind_of_error {m : Tx φ ε δ α} {k : α → Tx φ ε δ β} (hm : m f d = .error e) :
    (m >>= k) f d = .error e := by
  change Tx.bind m k f d = _
  simp [Tx.bind, hm]

end Tx

namespace Op

def pure (a : α) : Op φ ε σ α := fun _ w => (.ok a, w)

def bind (m : Op φ ε σ α) (k : α → Op φ ε σ β) : Op φ ε σ β := fun f w =>
  match m f w with
  | (.ok a, w') => k a f w'
  | (.error e, w') => (.error e, w')

instance : Monad (Op φ ε σ) where
  pure := Op.pure
  bind := Op.bind

def throw (e : ε) : Op φ ε σ α := fun _ w => (.error e, w)

def modify (g : σ → σ) : Op φ ε σ Unit := fun _ w => (.ok (), g w)

def await (p : φ) : Op φ ε σ Unit := fun f w => ((f p).elim (.ok ()) .error, w)

/-- Runs `body` on the store `get w`. It takes effect as a whole when it commits, and an operation
that fails to begin, to complete or to commit it has left the store as it was: a commit that raises is
taken as rolled back. -/
def transaction (get : σ → δ) (set : δ → σ → σ) (begin commit : φ) (body : Tx φ ε δ α) :
    Op φ ε σ α := fun f w =>
  match (do Tx.await begin; let a ← body; Tx.await commit; return a : Tx φ ε δ α) f (get w) with
  | .ok (a, d) => (.ok a, set d w)
  | .error e => (.error e, w)

/-- Gives an error another meaning, which may be a normal answer. -/
def handle (g : ε → Except ε α) (m : Op φ ε σ α) : Op φ ε σ α := fun f w =>
  match m f w with
  | (.ok a, w') => (.ok a, w')
  | (.error e, w') => (g e, w')

variable {f : Faults φ ε} {w w' : σ} {a : α} {b : β} {e : ε} {p : φ} {m : Op φ ε σ α}
  {k : α → Op φ ε σ β} {get : σ → δ} {set : δ → σ → σ} {begin commit : φ} {body : Tx φ ε δ α}
  {g : ε → Except ε α} {r : Except ε α}

@[simp] theorem pure_apply : (Pure.pure a : Op φ ε σ α) f w = (.ok a, w) := rfl
@[simp] theorem throw_apply : (throw e : Op φ ε σ α) f w = (.error e, w) := rfl
@[simp] theorem modify_apply (g : σ → σ) : (modify g : Op φ ε σ Unit) f w = (.ok (), g w) := rfl

theorem await_apply_of_none (hp : f p = none) : (await p : Op φ ε σ Unit) f w = (.ok (), w) := by
  simp [await, hp]

theorem await_apply_of_some (hp : f p = some e) :
    (await p : Op φ ε σ Unit) f w = (.error e, w) := by
  simp [await, hp]

theorem bind_of_ok (hm : m f w = (.ok a, w')) : (m >>= k) f w = k a f w' := by
  change Op.bind m k f w = _
  simp [Op.bind, hm]

theorem bind_of_error (hm : m f w = (.error e, w')) : (m >>= k) f w = (.error e, w') := by
  change Op.bind m k f w = _
  simp [Op.bind, hm]

theorem bind_pure_snd (g : α → β) : ((m >>= fun a => Pure.pure (g a)) f w).2 = (m f w).2 := by
  cases hm : m f w with
  | mk r w' =>
    cases r with
    | ok a => rw [bind_of_ok hm, pure_apply]
    | error e => rw [bind_of_error hm]

theorem handle_of_ok (hm : m f w = (.ok a, w')) : handle g m f w = (.ok a, w') := by
  simp [handle, hm]

theorem handle_of_error (hm : m f w = (.error e, w')) : handle g m f w = (g e, w') := by
  simp [handle, hm]

theorem handle_snd : (handle g m f w).2 = (m f w).2 := by
  unfold handle
  split <;> simp_all

theorem handle_fst_congr {w₁ w₂ : σ} (h : (m f w₁).1 = (m f w₂).1) :
    (handle g m f w₁).1 = (handle g m f w₂).1 := by
  have hfst (w : σ) : (handle g m f w).1 = match (m f w).1 with
      | .ok a => .ok a
      | .error e => g e := by
    unfold handle
    rcases m f w with ⟨e | a, w'⟩ <;> rfl
  rw [hfst, hfst, h]

theorem transaction_of_ok {d : δ} (hbegin : f begin = none) (hbody : body f (get w) = .ok (a, d))
    (hcommit : f commit = none) :
    transaction get set begin commit body f w = (.ok a, set d w) := by
  have hrun : (do Tx.await begin; let a ← body; Tx.await commit; return a : Tx φ ε δ α) f (get w) =
      .ok (a, d) := by
    simp [Tx.bind_eq_ok, hbegin, hbody, hcommit]
  simp only [transaction, hrun]

/-- What a transaction that commits leaves in the store, and what the operation announces then. -/
def committed {γ : Type} (begin commit : φ) (body : Tx φ ε δ α) (announce : α → List γ)
    (f : Faults φ ε) (d : δ) : Option (δ × List γ) :=
  match (do Tx.await begin; let a ← body; Tx.await commit; return a : Tx φ ε δ α) f d with
  | .ok (a, d') => some (d', announce a)
  | .error _ => none

theorem committed_eq_some {γ : Type} {announce : α → List γ} {d d' : δ} {cs : List γ} :
    committed begin commit body announce f d = some (d', cs) ↔
      f begin = none ∧ f commit = none ∧ ∃ a, body f d = .ok (a, d') ∧ cs = announce a := by
  have hrun (a : α) (d' : δ) : (do Tx.await begin; let a ← body; Tx.await commit; return a :
      Tx φ ε δ α) f d = .ok (a, d') ↔ f begin = none ∧ f commit = none ∧ body f d = .ok (a, d') := by
    simp only [Tx.bind_eq_ok, Tx.await_eq_ok, Tx.pure_eq_ok]
    constructor
    · rintro ⟨_, _, ⟨hbegin, rfl⟩, _, _, hbody, _, _, ⟨hcommit, rfl⟩, rfl, rfl⟩
      exact ⟨hbegin, hcommit, hbody⟩
    · rintro ⟨hbegin, hcommit, hbody⟩
      exact ⟨(), d, ⟨hbegin, rfl⟩, a, d', hbody, (), d', ⟨hcommit, rfl⟩, rfl, rfl⟩
  unfold committed
  constructor
  · intro h
    split at h
    · next a d₁ hok =>
      obtain ⟨rfl, rfl⟩ := Prod.mk.inj (Option.some.inj h)
      obtain ⟨hbegin, hcommit, hbody⟩ := (hrun _ _).mp hok
      exact ⟨hbegin, hcommit, a, hbody, rfl⟩
    · cases h
  · rintro ⟨hbegin, hcommit, a, hbody, rfl⟩
    rw [(hrun a d').mpr ⟨hbegin, hcommit, hbody⟩]

theorem transaction_bind_cases {γ : Type} (announce : α → List γ) (k : α → Op φ ε σ β)
    (f : Faults φ ε) (w : σ) :
    (∃ a d, committed begin commit body announce f (get w) = some (d, announce a) ∧
        (transaction get set begin commit body >>= k) f w = k a f (set d w)) ∨
      committed begin commit body announce f (get w) = none ∧
        ∃ e, (transaction get set begin commit body >>= k) f w = (.error e, w) := by
  unfold committed
  cases hrun : (do Tx.await begin; let a ← body; Tx.await commit; return a : Tx φ ε δ α) f (get w) with
  | ok r =>
    have htx : transaction get set begin commit body f w = (.ok r.1, set r.2 w) := by
      simp only [transaction, hrun]
    exact .inl ⟨r.1, r.2, rfl, bind_of_ok htx⟩
  | error e =>
    have htx : transaction get set begin commit body f w = (.error e, w) := by
      simp only [transaction, hrun]
    exact .inr ⟨rfl, e, bind_of_error htx⟩

theorem transaction_bind_snd {γ : Type} {announce : α → List γ} {k : α → Op φ ε σ β}
    (perform : List γ → σ → σ) (hk : ∀ a w, (k a f w).2 = perform (announce a) w) (w : σ) :
    ((transaction get set begin commit body >>= k) f w).2 =
      (committed begin commit body announce f (get w)).elim w fun r => perform r.2 (set r.1 w) := by
  rcases transaction_bind_cases announce k f w with ⟨a, d, hcommitted, hrun⟩ | ⟨hnone, e, hrun⟩
  · rw [hrun, hk, hcommitted, Option.elim_some]
  · rw [hrun, hnone, Option.elim_none]

theorem isSome_handle (hg : ∀ e a, g e ≠ .ok a) :
    (handle g m f w).1.toOption.isSome = (m f w).1.toOption.isSome := by
  unfold handle
  rcases m f w with ⟨e | a, w'⟩
  · cases hge : g e with
    | ok a => exact absurd hge (hg e a)
    | error e' => simp [hge, Except.toOption]
  · rfl

theorem isSome_bind_of_ok (hm : m f w = (.ok a, w')) (hk : (k a f w').1.toOption.isSome) :
    ((m >>= k) f w).1.toOption.isSome := by
  rw [bind_of_ok hm]
  exact hk

theorem isSome_handle_of_isSome (hm : (m f w).1.toOption.isSome) :
    (handle g m f w).1.toOption.isSome := by
  unfold handle
  rcases hrun : m f w with ⟨e | a, w'⟩
  · rw [hrun] at hm
    cases hm
  · rfl

theorem isSome_transaction_bind {γ : Type} {announce : α → List γ} {k : α → Op φ ε σ β}
    (hk : ∀ a w, (k a f w).1.toOption.isSome) (w : σ) :
    ((transaction get set begin commit body >>= k) f w).1.toOption.isSome =
      (committed begin commit body announce f (get w)).isSome := by
  rcases transaction_bind_cases announce k f w with ⟨a, d, hcommitted, hrun⟩ | ⟨hnone, e, hrun⟩
  · rw [hrun, hcommitted, hk]
    rfl
  · rw [hrun, hnone]
    rfl

theorem isSome_transaction {γ : Type} (announce : α → List γ) (w : σ) :
    (transaction get set begin commit body f w).1.toOption.isSome =
      (committed begin commit body announce f (get w)).isSome := by
  unfold transaction committed
  split <;> rfl

theorem transaction_snd {γ : Type} (announce : α → List γ) (w : σ) :
    (transaction get set begin commit body f w).2 =
      (committed begin commit body announce f (get w)).elim w fun r => set r.1 w := by
  unfold transaction committed
  split <;> rfl

theorem transaction_cases (f : Faults φ ε) (w : σ) :
    (∃ a d, f begin = none ∧ body f (get w) = .ok (a, d) ∧ f commit = none ∧
        transaction get set begin commit body f w = (.ok a, set d w)) ∨
      ∃ e, transaction get set begin commit body f w = (.error e, w) ∧
        (f begin = some e ∨ body f (get w) = .error e ∨ f commit = some e) := by
  cases hbegin : f begin with
  | some e =>
    have hrun : transaction get set begin commit body f w = (.error e, w) := by
      simp only [transaction, Tx.bind_of_error (show Tx.await begin f (get w) = .error e by
        simp [Tx.await, hbegin])]
    exact .inr ⟨e, hrun, .inl rfl⟩
  | none =>
    have hawait : Tx.await begin f (get w) = .ok ((), get w) := by simp [hbegin]
    rcases hbody : body f (get w) with e | ⟨a, d⟩
    · have hrun : transaction get set begin commit body f w = (.error e, w) := by
        simp only [transaction, Tx.bind_of_ok hawait, Tx.bind_of_error hbody]
      exact .inr ⟨e, hrun, .inr (.inl rfl)⟩
    · cases hcommit : f commit with
      | none => exact .inl ⟨a, d, rfl, rfl, rfl, transaction_of_ok hbegin hbody hcommit⟩
      | some e =>
        have hrun : transaction get set begin commit body f w = (.error e, w) := by
          simp only [transaction, Tx.bind_of_ok hawait, Tx.bind_of_ok hbody,
            Tx.bind_of_error (show Tx.await commit f d = .error e by simp [Tx.await, hcommit])]
        exact .inr ⟨e, hrun, .inr (.inr rfl)⟩

def Keeps (R : σ → σ → Prop) (m : Op φ ε σ α) : Prop := ∀ f w, R w (m f w).2

namespace Keeps

variable {R : σ → σ → Prop}

theorem bind (htrans : ∀ w w' w'', R w w' → R w' w'' → R w w'') (hm : Keeps R m)
    (hk : ∀ a, Keeps R (k a)) : Keeps R (m >>= k) := by
  intro f w
  have hfirst : R w (m f w).2 := hm f w
  cases hrun : m f w with
  | mk r w' =>
    rw [hrun] at hfirst
    cases r with
    | ok a =>
      rw [bind_of_ok hrun]
      exact htrans w w' _ hfirst (hk a f w')
    | error e =>
      rw [bind_of_error hrun]
      exact hfirst

theorem handle (hm : Keeps R m) : Keeps R (Op.handle g m) := by
  intro f w
  rw [handle_snd]
  exact hm f w

theorem transaction (hrefl : ∀ w, R w w) (hset : ∀ d w, R w (set d w)) :
    Keeps R (Op.transaction get set begin commit body) := by
  intro f w
  unfold Op.transaction
  split
  · exact hset _ w
  · exact hrefl w

end Keeps

end Op
end Transactional
