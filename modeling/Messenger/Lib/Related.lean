import Messenger.Lib.Transactional

/-! Two runs of one transaction or operation from related states: they answer the same, and what they
leave is related again. One rule for each way of composing them. -/

namespace Transactional

variable {φ ε δ σ α β : Type} {p : φ}

inductive SameAnswer (R : δ → δ → Prop) : Except ε (α × δ) → Except ε (α × δ) → Prop
  | ok {a : α} {d d' : δ} (h : R d d') : SameAnswer R (.ok (a, d)) (.ok (a, d'))
  | error (e : ε) : SameAnswer R (.error e) (.error e)

theorem SameAnswer.cases {R : δ → δ → Prop} {r r' : Except ε (α × δ)} (h : SameAnswer R r r') :
    (∃ a d d', r = .ok (a, d) ∧ r' = .ok (a, d') ∧ R d d') ∨ ∃ e, r = .error e ∧ r' = .error e := by
  cases h with
  | ok h => exact .inl ⟨_, _, _, rfl, rfl, h⟩
  | error e => exact .inr ⟨e, rfl, rfl⟩

namespace Tx

/-- The transaction does not tell related stores apart, and keeps them related. -/
def Respects (R : δ → δ → Prop) (m : Tx φ ε δ α) : Prop :=
  ∀ f d d', R d d' → SameAnswer R (m f d) (m f d')

namespace Respects

variable {R : δ → δ → Prop} {m : Tx φ ε δ α} {k : α → Tx φ ε δ β} {a : α} {e : ε}

theorem pure : Respects R (Pure.pure a : Tx φ ε δ α) := fun _ _ _ h => .ok h

theorem throw : Respects R (Tx.throw e : Tx φ ε δ α) := fun _ _ _ _ => .error e

theorem statement {q : δ → Except ε (α × δ)} (hq : ∀ d d', R d d' → SameAnswer R (q d) (q d')) :
    Respects R (Tx.statement p q) := by
  intro f d d' h
  unfold Tx.statement
  cases f p with
  | none => exact hq d d' h
  | some e => exact .error e

theorem await : Respects R (Tx.await p : Tx φ ε δ Unit) := by
  intro f d d' h
  unfold Tx.await
  cases f p with
  | none => exact .ok h
  | some e => exact .error e

theorem bind (hm : Respects R m) (hk : ∀ a, Respects R (k a)) : Respects R (m >>= k) := by
  intro f d d' h
  rcases (hm f d d' h).cases with ⟨a, d₁, d₁', hrun, hrun', h₁⟩ | ⟨e, hrun, hrun'⟩
  · rw [bind_of_ok hrun, bind_of_ok hrun']
    exact hk a f d₁ d₁' h₁
  · rw [bind_of_error hrun, bind_of_error hrun']
    exact .error e

end Respects

end Tx

namespace Op

def Respects (S : σ → σ → Prop) (m : Op φ ε σ α) : Prop :=
  ∀ f w w', S w w' → (m f w).1 = (m f w').1 ∧ S (m f w).2 (m f w').2

namespace Respects

variable {S : σ → σ → Prop} {m : Op φ ε σ α} {k : α → Op φ ε σ β} {a : α} {e : ε}

theorem pure : Respects S (Pure.pure a : Op φ ε σ α) := fun _ _ _ h => ⟨rfl, h⟩

theorem throw : Respects S (Op.throw e : Op φ ε σ α) := fun _ _ _ h => ⟨rfl, h⟩

theorem await : Respects S (Op.await p : Op φ ε σ Unit) := fun _ _ _ h => ⟨rfl, h⟩

theorem modify {g : σ → σ} (hg : ∀ w w', S w w' → S (g w) (g w')) :
    Respects S (Op.modify g : Op φ ε σ Unit) := fun _ w w' h => ⟨rfl, hg w w' h⟩

theorem bind (hm : Respects S m) (hk : ∀ a, Respects S (k a)) : Respects S (m >>= k) := by
  intro f w w' h
  obtain ⟨hanswer, hleft⟩ := hm f w w' h
  rcases hrun : m f w with ⟨r, w₁⟩
  rcases hrun' : m f w' with ⟨r', w₁'⟩
  rw [hrun, hrun'] at hanswer hleft
  obtain rfl : r = r' := hanswer
  cases r with
  | ok a =>
    rw [bind_of_ok hrun, bind_of_ok hrun']
    exact hk a f w₁ w₁' hleft
  | error e =>
    rw [bind_of_error hrun, bind_of_error hrun']
    exact ⟨rfl, hleft⟩

theorem handle {g : ε → Except ε α} (hm : Respects S m) : Respects S (Op.handle g m) := by
  intro f w w' h
  obtain ⟨hanswer, hleft⟩ := hm f w w' h
  refine ⟨handle_fst_congr hanswer, ?_⟩
  rw [handle_snd, handle_snd]
  exact hleft

theorem transaction {R : δ → δ → Prop} {get : σ → δ} {set : δ → σ → σ} {begin commit : φ}
    {body : Tx φ ε δ α} (hget : ∀ w w', S w w' → R (get w) (get w'))
    (hset : ∀ d d' w w', R d d' → S w w' → S (set d w) (set d' w')) (hbody : body.Respects R) :
    Respects S (Op.transaction get set begin commit body) := by
  intro f w w' h
  have htx : (do Tx.await begin; let a ← body; Tx.await commit; return a : Tx φ ε δ α).Respects R :=
    .bind .await fun _ => .bind hbody fun _ => .bind .await fun _ => .pure
  unfold Op.transaction
  rcases (htx f (get w) (get w') (hget w w' h)).cases with
    ⟨a, d, d', hrun, hrun', hd⟩ | ⟨e, hrun, hrun'⟩
  · rw [hrun, hrun']
    exact ⟨rfl, hset d d' w w' hd h⟩
  · rw [hrun, hrun']
    exact ⟨rfl, h⟩

end Respects

end Op
end Transactional
