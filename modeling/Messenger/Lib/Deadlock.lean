import Mathlib.Logic.Relation
import Messenger.Lib.TwoPhase

/-! Who waits for whom under row locks. A statement may have to wait for the holder of any row that
it has still to lock, and where every such wait leads to a lower rank there is no deadlock. -/

namespace ReadCommitted
open Relation

variable {δ κ ω χ π τ : Type*}

def Phase.todo : Phase κ → List κ
  | ready => []
  | locking _ _ todo => todo

namespace Sys

def todo (s : Sys δ κ ω τ π) (t : τ) : List κ := (s.txn t).elim [] (·.phase.todo)

def WaitsFor (s : Sys δ κ ω τ π) (t t' : τ) : Prop := t ≠ t' ∧ ∃ k ∈ s.todo t, s.lock k = some t'

instance [DecidableEq τ] (s : Sys δ κ ω τ π) (t t' : τ) : Decidable (s.WaitsFor t t') :=
  inferInstanceAs (Decidable (_ ∧ _))

/-- No transaction waits, directly or through others, for itself. -/
def DeadlockFree (s : Sys δ κ ω τ π) : Prop := ∀ t, ¬ TransGen s.WaitsFor t t

variable {s : Sys δ κ ω τ π} {t : τ} {x : Txn κ ω π}

theorem todo_of_txn (hx : s.txn t = some x) : s.todo t = x.phase.todo := by
  rw [todo, hx, Option.elim_some]

theorem exists_txn_of_mem_todo {k : κ} (hk : k ∈ s.todo t) :
    ∃ x, s.txn t = some x ∧ k ∈ x.phase.todo := by
  cases hx : s.txn t with
  | none => simp [todo, hx] at hk
  | some x => exact ⟨x, rfl, todo_of_txn hx ▸ hk⟩

theorem rank_lt_of_transGen {rank : τ → ℕ} (h : ∀ t t', s.WaitsFor t t' → rank t' < rank t) {t' : τ}
    (hpath : TransGen s.WaitsFor t t') : rank t' < rank t := by
  induction hpath with
  | single hwait => exact h _ _ hwait
  | tail _ hwait ih => exact Nat.lt_trans (h _ _ hwait) ih

theorem deadlockFree_of_rank (rank : τ → ℕ) (h : ∀ t t', s.WaitsFor t t' → rank t' < rank t) :
    s.DeadlockFree := fun _ hcycle => Nat.lt_irrefl _ (rank_lt_of_transGen h hcycle)

end Sys
end ReadCommitted
