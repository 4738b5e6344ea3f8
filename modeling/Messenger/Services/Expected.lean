import Messenger.Lib.Raises
import Messenger.Services.Calls
import Messenger.Services.Roster

/-! Which errors the services raise when nothing fails. Each decorator has a meaning for the constraints
and the entities that its operation can run into, so only errors of the services are left. -/

namespace Messenger
open Transactional

namespace Error

/-- An error of the services, a violation of one of `cs`, or a missing entity of `es`. -/
def Among (cs : List Constraint) (es : List Entity) : Error → Prop
  | service _ => True
  | db (.constraintViolation _ c) => c ∈ cs
  | db (.notFound entity _) => entity ∈ es
  | _ => False

variable {e e' : Error} {cs cs' : List Constraint} {es es' : List Entity}

theorem Among.mono (hcs : cs ⊆ cs') (hes : es ⊆ es') (h : e.Among cs es) : e.Among cs' es' := by
  cases e with
  | db e =>
    cases e with
    | constraintViolation table c => exact hcs h
    | notFound entity identifier => exact hes h
    | driver e => exact h
  | _ => exact h

end Error

section

variable {φ σ α : Type} {overrides : Constraint → Option Handler} {overrides' : Entity → Option Handler}
  {suppressed : Entity → Option α} {kwargs : Kwargs} {m : Op φ Error σ α} {f : Faults φ Error} {w : σ}
  {cs : List Constraint} {es : List Entity}

end

/-! ### Accounts and sessions -/

section

variable {α : Type} {p : Await} {f : Await → Option Fault} {d : Db} {env : AuthEnv} {user : UUID}
  {k : TokenKind} {t : Token} {h : TokenHash} {cs : List Constraint} {es : List Entity}

namespace AuthService

end AuthService

namespace UserService

end UserService

end

/-! ### Friendships -/

namespace GroupService

variable {f : Faults GroupAwait Error} {d : Db} {p : GroupAwait} {cs : List Constraint} {es : List Entity}
  {actor g target : UUID} {name : String} {now : Timestamp}

end GroupService

/-! ### Messages -/

namespace MessagingService

variable {f : Faults MessagingAwait Error} {d : Db} {p : MessagingAwait} {cs : List Constraint}
  {es : List Entity} {env : MessagingEnv} {sender recipient group : UUID} {content : String}
  {before : Option Timestamp} {limit : ℕ}

end MessagingService

/-! ### Reads -/

namespace Reading

variable {α β : Type} {f : Faults ReadAwait Error} {d : Db} {p : ReadAwait} {es : List Entity}
  {actor g u : UUID} {username : String} {limitOne : RowChoice Friendship}

def Raises (E : Error → Prop) (m : Reading α) (f : Faults ReadAwait Error) (d : Db) : Prop :=
  ∀ e, m f d = .error e → E e

end Reading

end Messenger
