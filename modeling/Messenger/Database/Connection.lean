import Messenger.Lib.ContextManager
import Messenger.Lib.Transactional
import Messenger.Services.Errors

/-! `DatabaseManager.connection` and `DatabaseManager.transaction`: context managers made of async
generators, each with its translation of exceptions, the outer one under a retry decorator. -/

namespace Messenger
open Coroutine Transactional

inductive AsyncpgError where
  | interface
  | queryCanceled
  | serialization
  | postgres
  deriving DecidableEq

/-- What a `with` block raises: an exception of the driver, or one of the application. -/
inductive Exception where
  | driver (e : AsyncpgError)
  | error (e : Error)
  deriving DecidableEq

def serializationError : Error := .db (.driver .serialization)

def Error.exception : Error → Exception
  | .db (.driver .databaseConnection) => .driver .interface
  | .db (.driver .databaseTimeout) => .driver .queryCanceled
  | .db (.driver .serialization) => .driver .serialization
  | .db (.driver .database) => .driver .postgres
  | e => .error e

/-- The server and the pool of a worker: `working` is what the open transaction sees, and connections
are numbered as they are acquired. -/
structure Pool (δ : Type) where
  initialized : Bool := true
  db : δ
  working : δ
  acquired : ℕ := 0

def Pool.of {δ : Type} (d : δ) : Pool δ := { db := d, working := d }

namespace DatabaseManager

variable {φ δ α : Type}

/-- The `except` clauses of `connection`. -/
def connectionErrors : Exception → Exception
  | .driver .interface => .error (.db (.driver .databaseConnection))
  | .driver .queryCanceled => .error (.db (.driver .databaseTimeout))
  | .driver .serialization | .driver .postgres => .error (.db (.driver .database))
  | .error e => .error e

def transactionErrors : Exception → Exception
  | .driver .serialization => .error serializationError
  | e => e

def acquire : Coroutine Exception (Pool δ) ℕ := do
  let conn ← read (·.acquired)
  update fun s => { s with acquired := s.acquired + 1 }
  return conn

def connection (conn : Option ℕ) : Generator Exception (Pool δ) ℕ α := fun block =>
  match conn with
  | some conn => block conn
  | none => do
    if !(← read (·.initialized)) then raise (.error .other)
    else tryExcept (acquire >>= block) fun e => raise (connectionErrors e)

def awaiting (fs : ℕ → Faults φ Error) (conn : ℕ) (p : φ) : Coroutine Exception (Pool δ) Unit :=
  match fs conn p with
  | some e => raise e.exception
  | none => return

/-- `conn.transaction()` of the driver: the writes of the block take effect at its commit. -/
def driverTransaction (fs : ℕ → Faults φ Error) (begin commit : φ) (conn : ℕ) :
    Generator Exception (Pool δ) Unit α := fun block => do
  awaiting fs conn begin
  update fun s => { s with working := s.db }
  let a ← block ()
  awaiting fs conn commit
  update fun s => { s with db := s.working }
  return a

/-- The async generator function that `transaction` decorates. -/
def transactionGenerator (fs : ℕ → Faults φ Error) (begin commit : φ) (conn : Option ℕ) :
    Generator Exception (Pool δ) ℕ α := fun block =>
  asyncWith (invoke (connection conn)) fun activeConn =>
    tryExcept
      (asyncWith (invoke (driverTransaction fs begin commit activeConn)) fun _ => block activeConn)
      fun e => raise (transactionErrors e)

/-- `async with db.transaction(conn): block`. -/
def transaction (fs : ℕ → Faults φ Error) (begin commit : φ) (conn : Option ℕ)
    (block : ℕ → Coroutine Exception (Pool δ) α) : Coroutine Exception (Pool δ) α :=
  asyncWith
    (retry (fun e => decide (e = .error serializationError))
      (invoke (transactionGenerator fs begin commit conn)) 3)
    block

def statements (fs : ℕ → Faults φ Error) (body : Tx φ Error δ α) (conn : ℕ) :
    Coroutine Exception (Pool δ) α := fun s =>
  match body (fs conn) s.working with
  | .ok (a, d) => (.ok a, { s with working := d })
  | .error e => (.error e.exception, s)

/-! ### One execution -/

variable {fs : ℕ → Faults φ Error} {s : Pool δ} {a : α} {d : δ} {e : Error} {conn : ℕ}

/-- The two translations together give an error back its name. -/
theorem connectionErrors_transactionErrors (e : Error) :
    connectionErrors (transactionErrors e.exception) = .error e := by
  cases e with
  | db e =>
    cases e with
    | driver e => cases e <;> rfl
    | _ => rfl
  | _ => rfl

theorem awaiting_of_none {p : φ} (h : fs conn p = none) : awaiting fs conn p s = (.ok (), s) := by
  simp only [awaiting, h]
  rfl

theorem awaiting_of_some {p : φ} (h : fs conn p = some e) :
    awaiting fs conn p s = (.error e.exception, s) := by
  simp only [awaiting, h]
  rfl

def attempt (begin commit : φ) (body : Tx φ Error δ α) : Tx φ Error δ α := do
  Tx.await begin
  let a ← body
  Tx.await commit
  return a

def Results (r : Except Error (α × δ)) (rename : Error → Exception) (s : Pool δ)
    (result : Except Exception α × Pool δ) : Prop :=
  match r with
  | .ok (a, d) => ∃ working, result = (.ok a, { s with db := d, working })
  | .error e => ∃ working, result = (.error (rename e), { s with working })

theorem results_driverTransaction (fs : ℕ → Faults φ Error) (begin commit : φ)
    (body : Tx φ Error δ α) (s : Pool δ) (conn : ℕ) :
    Results (attempt begin commit body (fs conn) s.db) Error.exception s
      (driverTransaction fs begin commit conn (fun _ => statements fs body conn) s) := by
  unfold attempt driverTransaction
  cases hbegin : fs conn begin with
  | some e =>
    rw [bind_of_error (awaiting_of_some hbegin)]
    have hattempt := Tx.bind_of_error (k := fun _ => do let a ← body; Tx.await commit; return a)
      (show (Tx.await begin : Tx φ Error δ Unit) (fs conn) s.db = .error e by simp [Tx.await, hbegin])
    rw [hattempt]
    exact ⟨s.working, rfl⟩
  | none =>
    have hbegan : (Tx.await begin : Tx φ Error δ Unit) (fs conn) s.db = .ok ((), s.db) :=
      Tx.await_eq_ok.mpr ⟨hbegin, rfl⟩
    rw [bind_of_ok (awaiting_of_none hbegin), Tx.bind_of_ok hbegan]
    -- what the block writes is seen by its own transaction only
    refine (bind_of_ok (m := update fun s : Pool δ => { s with working := s.db }) rfl).symm ▸ ?_
    cases hbody : body (fs conn) s.db with
    | error e =>
      have hblock : statements fs body conn { s with working := s.db } =
          (.error e.exception, { s with working := s.db }) := by simp only [statements, hbody]
      rw [Tx.bind_of_error hbody, bind_of_error hblock]
      exact ⟨s.db, rfl⟩
    | ok r =>
      obtain ⟨a, d⟩ := r
      have hblock : statements fs body conn { s with working := s.db } =
          (.ok a, { s with working := d }) := by simp only [statements, hbody]
      rw [Tx.bind_of_ok hbody, bind_of_ok hblock]
      cases hcommit : fs conn commit with
      | some e =>
        have hattempt : (Tx.await commit : Tx φ Error δ Unit) (fs conn) d = .error e := by
          simp [Tx.await, hcommit]
        rw [Tx.bind_of_error hattempt, bind_of_error (awaiting_of_some hcommit)]
        exact ⟨d, rfl⟩
      | none =>
        have hattempt : (Tx.await commit : Tx φ Error δ Unit) (fs conn) d = .ok ((), d) :=
          Tx.await_eq_ok.mpr ⟨hcommit, rfl⟩
        rw [Tx.bind_of_ok hattempt, bind_of_ok (awaiting_of_none hcommit)]
        exact ⟨d, rfl⟩

/-- A `with` block is attempted once, whatever it ends with. -/
theorem results_transaction (fs : ℕ → Faults φ Error) (begin commit : φ) (body : Tx φ Error δ α)
    (hpool : s.initialized = true) :
    Results (attempt begin commit body (fs s.acquired) s.db) .error
      { s with acquired := s.acquired + 1 }
      (transaction fs begin commit none (statements fs body) s) := by
  have hinner := results_driverTransaction fs begin commit body { s with acquired := s.acquired + 1 }
    s.acquired
  unfold transaction
  -- the retry decorates the call that makes the generator, which raises nothing
  rw [asyncWith_retry_invoke]
  show Results _ _ _ (connection none _ s)
  have hacquired (block : ℕ → Coroutine Exception (Pool δ) α) : connection none block s =
      tryExcept (block s.acquired) (fun e => raise (connectionErrors e))
        { s with acquired := s.acquired + 1 } := by
    have hread : (Coroutine.read (·.initialized) : Coroutine Exception (Pool δ) Bool) s =
        (.ok true, s) := by
      rw [← hpool]
      rfl
    exact bind_of_ok hread
  rw [hacquired]
  cases hattempt : attempt begin commit body (fs s.acquired) s.db with
  | ok r =>
    rw [hattempt] at hinner
    obtain ⟨working, hinner⟩ := hinner
    exact ⟨working, tryExcept_of_ok (tryExcept_of_ok hinner)⟩
  | error e =>
    rw [hattempt] at hinner
    obtain ⟨working, hinner⟩ := hinner
    refine ⟨working, (tryExcept_of_error (tryExcept_of_error hinner)).trans ?_⟩
    rw [connectionErrors_transactionErrors]
    rfl

end DatabaseManager
end Messenger
