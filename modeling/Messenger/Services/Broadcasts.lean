import Messenger.Services.Announcements
import Messenger.Services.GroupTasks
import Messenger.Social.Confidentiality

/-! What the services broadcast once the transaction of a call has committed. -/

namespace Messenger
open Transactional

/-- What goes out on `ws_pushes` and `system_events_stream`. -/
inductive Broadcast where
  | push (p : MessagePush)
  | bus (e : BusEvent)
  | system (e : SystemEvent)
  deriving DecidableEq

inductive ServiceCall where
  | auth (op : Operation) (f : Await → Option Fault)
  | group (op : GroupOperation) (f : Faults GroupAwait Error)
  | message (op : MessageOperation) (f : Faults MessagingAwait Error)

namespace ServiceCall

def transact (c : ServiceCall) (d : Db) : Option (Db × List Broadcast) :=
  match c with
  | auth op f => (op.transact f d).map fun (d', es) => (d', es.map .system)
  | group op f => (op.transact f d).map fun (d', tasks) => (d', tasks.map fun task => .bus task.event)
  | message op f => (op.transact f d).map fun (d', pushes) => (d', pushes.map .push)

end ServiceCall
end Messenger
