import Mathlib.Data.Nat.Notation
import Messenger.Lib.Coroutine

/-! Async generators with one `yield`, the context managers made of them, and the retrying of a call. A
generator is given by what it does around the block that runs at its `yield`: the block runs once, and
its exception is thrown in there. -/

namespace Coroutine

variable {ε σ γ α : Type}

abbrev Generator (ε σ γ α : Type) := (γ → Coroutine ε σ α) → Coroutine ε σ α

/-- Calling an async generator function makes a generator and runs nothing of its body. -/
def invoke (g : Generator ε σ γ α) : Coroutine ε σ (Generator ε σ γ α) := pure g

/-- `async with asynccontextmanager(f)(): block`. -/
def asyncWith (f : Coroutine ε σ (Generator ε σ γ α)) (block : γ → Coroutine ε σ α) :
    Coroutine ε σ α := do
  let generator ← f
  generator block

/-- Calls `f` again when the call raises something to be retried, up to this number of calls, and then
lets the last exception through. -/
def retry (retryIf : ε → Bool) (f : Coroutine ε σ α) : ℕ → Coroutine ε σ α
  | 0 | 1 => f
  | n + 2 => tryExcept f fun e => if retryIf e then retry retryIf f (n + 1) else raise e

theorem retry_pure {retryIf : ε → Bool} {a : α} (attempts : ℕ) :
    retry retryIf (pure a : Coroutine ε σ α) attempts = pure a :=
  match attempts with
  | 0 | 1 | _ + 2 => rfl

/-- A generator function that is retried is called once: no exception of its body reaches the call. -/
theorem asyncWith_retry_invoke {retryIf : ε → Bool} {g : Generator ε σ γ α} {attempts : ℕ}
    {block : γ → Coroutine ε σ α} :
    asyncWith (retry retryIf (invoke g) attempts) block = g block := by
  rw [invoke, retry_pure]
  rfl

end Coroutine
