import Messenger.Lib.Transactional

/-! Which errors a transaction or an operation may raise where it runs, each rule for what it is composed
of. -/

namespace Transactional

variable {φ ε δ σ α β : Type} {E E' : ε → Prop} {f : Faults φ ε} {d : δ} {w : σ} {a : α} {e : ε} {p : φ}

namespace Tx

def Raises (E : ε → Prop) (m : Tx φ ε δ α) (f : Faults φ ε) (d : δ) : Prop :=
  ∀ e, m f d = .error e → E e

namespace Raises

variable {m : Tx φ ε δ α} {k : α → Tx φ ε δ β}

theorem mono (hm : Raises E m f d) (hE : ∀ e, E e → E' e) : Raises E' m f d :=
  fun e he => hE e (hm e he)

theorem pure : Raises E (Pure.pure a : Tx φ ε δ α) f d := nofun

theorem throw (he : E e) : Raises E (Tx.throw e : Tx φ ε δ α) f d := by
  intro e' h
  rwa [← Except.error.inj h]

theorem await (hp : f p = none) : Raises E (Tx.await p : Tx φ ε δ Unit) f d := by
  intro e h
  have hok : Tx.await p f d = .ok ((), d) := await_eq_ok.mpr ⟨hp, rfl⟩
  rw [hok] at h
  cases h

theorem statement {q : δ → Except ε (α × δ)} (hp : f p = none) (hq : ∀ e, q d = .error e → E e) :
    Raises E (Tx.statement p q) f d := by
  intro e h
  simp only [Tx.statement, hp] at h
  exact hq e h

theorem bind (hm : Raises E m f d) (hk : ∀ a d', m f d = .ok (a, d') → Raises E (k a) f d') :
    Raises E (m >>= k) f d := by
  intro e h
  cases hrun : m f d with
  | error e' =>
    rw [bind_of_error hrun] at h
    rw [← Except.error.inj h]
    exact hm e' hrun
  | ok r =>
    rw [bind_of_ok hrun] at h
    exact hk r.1 r.2 hrun e h

end Raises

end Tx

namespace Op

def Raises (E : ε → Prop) (m : Op φ ε σ α) (f : Faults φ ε) (w : σ) : Prop :=
  ∀ e, (m f w).1 = .error e → E e

namespace Raises

variable {m : Op φ ε σ α} {k : α → Op φ ε σ β} {g : ε → Except ε α}

theorem pure : Raises E (Pure.pure a : Op φ ε σ α) f w := nofun

theorem throw (he : E e) : Raises E (Op.throw e : Op φ ε σ α) f w := by
  intro e' h
  rwa [← Except.error.inj h]

theorem modify {g : σ → σ} : Raises E (Op.modify g : Op φ ε σ Unit) f w := nofun

theorem await (hp : f p = none) : Raises E (Op.await p : Op φ ε σ Unit) f w := by
  intro e h
  rw [await_apply_of_none hp] at h
  cases h

theorem bind (hm : Raises E m f w) (hk : ∀ a w', m f w = (.ok a, w') → Raises E (k a) f w') :
    Raises E (m >>= k) f w := by
  intro e h
  cases hrun : m f w with
  | mk r w' =>
    cases r with
    | error e' =>
      rw [bind_of_error hrun] at h
      rw [← Except.error.inj h]
      exact hm e' (congrArg Prod.fst hrun)
    | ok a =>
      rw [bind_of_ok hrun] at h
      exact hk a w' hrun e h

theorem handle (hm : Raises E m f w) (hg : ∀ e e', E e → g e = .error e' → E' e') :
    Raises E' (Op.handle g m) f w := by
  intro e h
  cases hrun : m f w with
  | mk r w' =>
    cases r with
    | error e' =>
      rw [handle_of_error hrun] at h
      exact hg e' e (hm e' (congrArg Prod.fst hrun)) h
    | ok a =>
      rw [handle_of_ok hrun] at h
      cases h

theorem transaction {get : σ → δ} {set : δ → σ → σ} {begin commit : φ} {body : Tx φ ε δ α}
    (hbegin : f begin = none) (hcommit : f commit = none) (hbody : body.Raises E f (get w)) :
    Raises E (Op.transaction get set begin commit body) f w := by
  intro e h
  rcases transaction_cases f w with ⟨a, d, -, -, -, hok⟩ | ⟨e', herror, hcause⟩
  · rw [hok] at h
    cases h
  · rw [herror] at h
    obtain rfl := Except.error.inj h
    rcases hcause with hfault | hraised | hfault
    · rw [hbegin] at hfault
      cases hfault
    · exact hbody e' hraised
    · rw [hcommit] at hfault
      cases hfault

end Raises

end Op
end Transactional
