import Messenger.Api.Network
import Messenger.Api.Visibility

/-! What the reading routes tell of the network that the deployment stands for. -/

namespace Messenger
open Transactional Mealy Paging

def Network.between (n : MessengerNetwork) (u other : UUID) (before : Timestamp) : Set (UUID × UUID × Saying) :=
  {t ∈ n.direct | (t.1 = u ∧ t.2.1 = other ∨ t.1 = other ∧ t.2.1 = u) ∧ t.2.2.2.2 < before}

namespace UserEndpoint

/-- The history of a conversation meets no request that waits for an answer. -/
def Settled (n : MessengerNetwork) (u : UUID) : UserEndpoint → Prop
  | getDmHistory recipientId _ _ => (u, recipientId) ∉ n.asked ∧ (recipientId, u) ∉ n.asked
  | _ => True

end UserEndpoint

/-! ### The readings -/

namespace Reading

variable {α : Type} {f : Faults ReadAwait Error} {d : Db} {p : ReadAwait} {a : α} {m : Reading α}
  {q : Db → Except Error α} {g : Error → Except Error α} {kwargs : Kwargs}

theorem select_of_ok (hf : f p = none) (hq : q d = .ok a) : select p q f d = .ok a := by
  simp only [select, hf, hq]

theorem bind_of_ok {β : Type} {k : α → Reading β} {b : β} (hm : m f d = .ok a) (hk : k a f d = .ok b) :
    (m >>= k) f d = .ok b := except_bind_eq_ok.mpr ⟨a, hm, hk⟩

theorem connection_of_ok (hf : f .acquire = none) (hm : m f d = .ok a) : connection m f d = .ok a :=
  bind_of_ok (select_of_ok hf rfl) hm

theorem handle_of_ok (hm : m f d = .ok a) : handle g m f d = .ok a := by
  show (m f d).tryCatch g = .ok a
  rw [hm]
  rfl

end Reading

section

variable {d : Db} {f : Faults ReadAwait Error} {u v g : UUID} {username : String} {x : User}

theorem mapError_eq_ok {α : Type} {r : Except DbError α} {a : α} :
    r.mapError Error.db = .ok a ↔ r = .ok a := by
  cases r <;> simp [Except.mapError]

end

/-! ### The histories -/

section

variable {d : Db} {f : Faults MessagingAwait Error} {env : MessagingEnv} {w : MessagingState} {u v g : UUID}
  {before : Option Timestamp} {limit : ℕ}

end

/-! ### The routes -/

section

variable {env : Env} {user : User} {f : ApiFaults} {s : AppState} {response : Response} {e : UserEndpoint}

end

namespace Deployment

variable {ω : Type} [DecidableEq ω]

end Deployment

namespace Sample

end Sample

end Messenger
