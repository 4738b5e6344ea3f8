import Messenger.Services.Expected
import Messenger.Social.Refinement

/-! When a call commits. Where nothing fails and what it draws is fresh, it commits exactly if the network
allows its deed. -/

namespace Messenger
open Transactional AuthService

section

variable {d d' : Db} {u v g : UUID}

/-! ### Accounts -/

namespace GroupOperation
open GroupService GroupQueries

variable {f : Faults GroupAwait Error}

end GroupOperation

/-! ### Messages -/

namespace MessagingService

variable {f : Faults MessagingAwait Error} {env : MessagingEnv}

end MessagingService

end

end Messenger
