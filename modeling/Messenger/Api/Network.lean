import Messenger.Api.Answers
import Messenger.Api.Provenance
import Messenger.Social.Progress

/-! A deployment as the network that it stands for. What its requests ask for is done where the network
allows it, and nothing else is. -/

namespace Messenger
open Transactional Mealy

def Request.deed (env : Env) (u : UUID) (r : Request) : Option MessengerDeed :=
  match r.endpoint with
  | .session (.register username _) => some (.join env.newId username)
  | .user .deleteMyAccount => some (.leave u)
  | .user (.sendRequest addresseeId) => some (.ask u addresseeId)
  | .user (.acceptRequest requesterId) => some (.accept u requesterId)
  | .user (.removeOrDecline targetId) => some (.part u targetId)
  | .user (.createGroup _) => some (.found u env.newId)
  | .user (.deleteGroup groupId) => some (.disband u groupId)
  | .user (.addMember groupId userId) => some (.invite u groupId userId)
  | .user (.removeMember groupId userId) => some (.expel u groupId userId)
  | .user (.sendDirectMessage recipientId content) =>
    some (.say u recipientId (env.newId, content, env.now))
  | .user (.sendGroupMessage groupId content) => some (.post u groupId (env.newId, content, env.now))
  | _ => none

theorem UserEndpoint.deed_call {e : UserEndpoint} {env : Env} {f : ApiFaults} {user : User} {c : UserCall}
    {credentials : Option String} (hc : e.call env f user = some c) :
    c.deed = Request.deed env user.userId ⟨.user e, credentials⟩ := by
  cases e with
  | deactivateMyAccount | reactivateMyAccount | deleteMyAccount | sendRequest | acceptRequest
  | removeOrDecline | createGroup | deleteGroup | addMember | removeMember | sendDirectMessage
  | sendGroupMessage =>
    obtain rfl := Option.some.inj hc
    rfl
  | _ => cases hc

/-- The direct messages of a deed meet no request that waits for an answer. -/
def Deed.Settled (d : Db) (deed : MessengerDeed) : Prop :=
  ∀ u v t, deed = .say u v t → (u, v) ∉ d.network.asked ∧ (v, u) ∉ d.network.asked

def UserCall.Settles (d : Db) (c : UserCall) (h : Except ApiError Response × AppState) : Prop :=
  (∃ response, h.1 = .ok response ∧ c.commit d = some h.2.db) ∨
    ∃ x, h.1 = .error x ∧ c.commit d = none ∧ h.2.db = d

section

variable {env : Env} {f : ApiFaults} {s s' : AppState} {r : Request} {u : UUID} {deed : MessengerDeed}
  {c : UserCall}

end

namespace Deployment

variable {ω : Type}

theorem network_init : ({} : Deployment ω).db.network = {} :=
  Network.ext Table.shown_empty Table.shown_empty Table.shown_empty Table.shown_empty Table.shown_empty
    Table.shown_empty Table.shown_empty

variable [DecidableEq ω]

def deeds (x : Deployment ω) (acts : List (ApiAct ω)) : List MessengerDeed :=
  (x.calls acts).filterMap UserCall.deed

theorem network_after (acts : List (ApiAct ω)) :
    Network.Run {} (deeds {} acts) (after step ({} : Deployment ω) acts).db.network := by
  rw [← network_init (ω := ω)]
  exact UserCall.network_run (run_calls {} acts)

theorem deed_of_call {acts : List (ApiAct ω)} {w : ω} {env : Env} {f : ApiFaults} {r : Request}
    {c : UserCall} {deed : MessengerDeed}
    (hc : r.call env f ((after step {} acts).worker w) = some c) (hdeed : c.deed = some deed) :
    ∃ u, Shows acts env r u ∧ r.deed env u = some deed := by
  obtain ⟨endpoint, credentials⟩ := r
  rcases Request.call_cases hc with ⟨e, rfl, -, rfl⟩ | ⟨e, user, s', rfl, -, hauth, hcall⟩
  · cases e with
    | register username password => exact ⟨env.newId, rfl, hdeed⟩
    | login | refresh | logout => cases hdeed
  · exact ⟨user.userId, shows_of_getCurrentUser rfl hauth,
      (UserEndpoint.deed_call hcall).symm.trans hdeed⟩

/-- Whatever is requested and whatever fails, the deployment stands for a network to which allowed deeds
have led, each asked for in a request by someone who has shown their credentials. -/
theorem requests_run_network (acts : List (ApiAct ω)) :
    Network.Run {} (deeds {} acts) (after step ({} : Deployment ω) acts).db.network ∧
      ∀ deed ∈ deeds {} acts, ∃ pre w env f r post u, acts = pre ++ .request w env f r :: post ∧
        Shows pre env r u ∧ r.deed env u = some deed := by
  refine ⟨network_after acts, fun deed hmem => ?_⟩
  obtain ⟨c, hc, hdeed⟩ := List.mem_filterMap.mp hmem
  obtain ⟨v, hv, hcall⟩ := List.mem_filterMap.mp hc
  obtain ⟨pre, post, hsplit, hstate⟩ := exists_prefix_of_mem_visits hv
  obtain ⟨x, a⟩ := v
  obtain rfl : x = after step {} pre := hstate
  cases a with
  | drop w h => cases hcall
  | request w env f r =>
    obtain ⟨u, hshows, hasked⟩ := deed_of_call (Option.filter_eq_some_iff.mp hcall).1 hdeed
    exact ⟨pre, w, env, f, r, post, u, hsplit, hshows, hasked⟩

end Deployment

end Messenger
