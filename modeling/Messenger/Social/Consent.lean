import Messenger.Lib.Past
import Messenger.Services.Calls

/-! Where direct messages come from. Each is stored after one of its two users has asked the other, and
the other has accepted. -/

namespace Messenger
open Transition FriendshipCall

namespace UserCall

def Requests (a b : UUID) : UserCall → Prop
  | friendship (.sendFriendRequest requester addressee _) => requester = a ∧ addressee = b
  | _ => False

def Accepts (a b : UUID) : UserCall → Prop
  | friendship (.acceptFriendRequest addressee requester _) => addressee = b ∧ requester = a
  | _ => False

def Parts (a b : UUID) : UserCall → Prop
  | friendship (.removeOrDeclineFriendship userA userB) =>
    (userA = a ∧ userB = b) ∨ (userA = b ∧ userB = a)
  | service (.auth (.deleteAccount id) _) => id = a ∨ id = b
  | _ => False

def Stores (m : DirectMessage) : UserCall → Prop
  | service (.message (.sendDirectMessage env s r content) _) => m = directMessage env s r content
  | _ => False

theorem Accepts.not_parts {c : UserCall} {a b : UUID} (h : c.Accepts a b) : ¬ c.Parts a b := by
  cases c with
  | friendship c =>
    cases c with
    | acceptFriendRequest => exact id
    | sendFriendRequest | removeOrDeclineFriendship => exact h.elim
  | service c => exact h.elim

end UserCall

/-- The last of the calls about a request of `a` to `b` was the request itself. -/
def Asked (calls : List UserCall) (a b : UUID) : Prop :=
  ∃ before request since, calls = before ++ request :: since ∧ request.Requests a b ∧
    ∀ c ∈ since, ¬ c.Parts a b

/-- A request of `a` to `b` was sent and accepted, and nothing has parted them since it was sent. -/
def Agreed (calls : List UserCall) (a b : UUID) : Prop :=
  ∃ before request meanwhile acceptance since,
    calls = before ++ request :: (meanwhile ++ acceptance :: since) ∧ request.Requests a b ∧
      acceptance.Accepts a b ∧ ∀ c ∈ meanwhile ++ since, ¬ c.Parts a b

/-- The message was stored after one of its users had asked the other, the other had accepted, and
nothing had parted them from the request on. -/
def RestsOnConsent (calls : List UserCall) (m : DirectMessage) : Prop :=
  ∃ a b before store after, calls = before ++ store :: after ∧ store.Stores m ∧ Agreed before a b ∧
    ((a = m.senderId ∧ b = m.recipientId) ∨ (a = m.recipientId ∧ b = m.senderId))

section

variable {calls : List UserCall} {c : UserCall} {a b : UUID} {m : DirectMessage}

theorem asked_of_requests (h : c.Requests a b) : Asked (calls ++ [c]) a b :=
  ⟨calls, c, [], rfl, h, fun _ => nofun⟩

theorem Asked.snoc (h : Asked calls a b) (hc : ¬ c.Parts a b) : Asked (calls ++ [c]) a b := by
  obtain ⟨before, request, since, rfl, hrequest, hsince⟩ := h
  refine ⟨before, request, since ++ [c], by simp, hrequest, fun c' hc' => ?_⟩
  rcases List.mem_append.mp hc' with hold | hnew
  · exact hsince c' hold
  · rwa [List.mem_singleton.mp hnew]

theorem Asked.accepts (h : Asked calls a b) (hc : c.Accepts a b) : Agreed (calls ++ [c]) a b := by
  obtain ⟨before, request, since, rfl, hrequest, hsince⟩ := h
  refine ⟨before, request, since, c, [], by simp, hrequest, hc, fun c' hc' => ?_⟩
  rw [List.append_nil] at hc'
  exact hsince c' hc'

theorem Agreed.snoc (h : Agreed calls a b) (hc : ¬ c.Parts a b) : Agreed (calls ++ [c]) a b := by
  obtain ⟨before, request, meanwhile, acceptance, since, rfl, hrequest, hacceptance, hall⟩ := h
  refine ⟨before, request, meanwhile, acceptance, since ++ [c], by simp, hrequest, hacceptance, ?_⟩
  intro c' hc'
  rw [← List.append_assoc] at hc'
  rcases List.mem_append.mp hc' with hold | hnew
  · exact hall c' hold
  · rwa [List.mem_singleton.mp hnew]

theorem RestsOnConsent.snoc (h : RestsOnConsent calls m) : RestsOnConsent (calls ++ [c]) m := by
  obtain ⟨a, b, before, store, after, rfl, hrest⟩ := h
  exact ⟨a, b, before, store, after ++ [c], by simp, hrest⟩

end

/-! ### What one call does -/

section

variable {d d' : Db} {a b : UUID} {f : Friendship}

theorem FriendshipCall.row_cases {c : FriendshipCall} (h : c.run d = .ok d')
    (hrow : d'.friendships.get? (a, b) = some f) :
    (UserCall.friendship c).Requests a b ∧ f.accepted = false ∨
      (UserCall.friendship c).Accepts a b ∧ (d.friendships.get? (a, b)).isSome ∨
      d.friendships.get? (a, b) = some f ∧ ¬ (UserCall.friendship c).Parts a b := by
  cases c with
  | sendFriendRequest x y now =>
    obtain ⟨-, -, -, -, rfl⟩ := run_sendFriendRequest.mp h
    rw [FriendshipWrite.get?_insert, pk_requestRow, Option.or_eq_some_iff] at hrow
    rcases hrow with hold | ⟨-, hnew⟩
    · exact .inr (.inr ⟨hold, id⟩)
    · split at hnew
      · next hk =>
        obtain rfl := Option.some.inj hnew
        exact .inl ⟨Prod.mk.inj hk, rfl⟩
      · cases hnew
  | acceptFriendRequest y x now =>
    obtain ⟨-, rfl⟩ := run_acceptFriendRequest.mp h
    rw [FriendshipWrite.get?_accept] at hrow
    obtain ⟨f', hf', heq⟩ := Option.map_eq_some_iff.mp hrow
    split at heq
    · next hk =>
      obtain ⟨rfl, rfl⟩ := Prod.mk.inj hk
      exact .inr (.inl ⟨⟨rfl, rfl⟩, Option.isSome_of_eq_some hf'⟩)
    · obtain rfl := heq
      exact .inr (.inr ⟨hf', id⟩)
  | removeOrDeclineFriendship x y =>
    rw [run_removeOrDeclineFriendship h] at hrow
    split at hrow
    · cases hrow
    · next hk =>
      refine .inr (.inr ⟨hrow, fun hparts => hk ?_⟩)
      rcases hparts with ⟨rfl, rfl⟩ | ⟨rfl, rfl⟩
      · exact .inl rfl
      · exact .inr rfl

theorem friendship_of_deleteUser {id : UUID} (h : d.deleteUser id = .ok d')
    (hrow : d'.friendships.get? (a, b) = some f) :
    d.friendships.get? (a, b) = some f ∧ id ≠ a ∧ id ≠ b := by
  obtain ⟨-, -, rfl⟩ := Db.deleteUser_eq_ok h
  rw [Table.get?_deleteWhere] at hrow
  obtain ⟨hold, hkeep⟩ := Option.filter_eq_some_iff.mp hrow
  have hk : f.pk = (a, b) := Table.key_of_get? hold
  obtain ⟨rfl, rfl⟩ := Prod.mk.inj hk
  simp only [Bool.not_eq_true', Bool.or_eq_false_iff, decide_eq_false_iff_not] at hkeep
  exact ⟨hold, fun heq => hkeep.1 heq.symm, fun heq => hkeep.2 heq.symm⟩

end

/-! ### Runs -/

structure ConsentInv (calls : List UserCall) (d : Db) : Prop where
  asked : ∀ a b, (d.friendships.get? (a, b)).isSome → Asked calls a b
  agreed : ∀ a b f, d.friendships.get? (a, b) = some f → f.accepted = true → Agreed calls a b
  messages : ∀ m ∈ d.directMessages.rows, RestsOnConsent calls m

variable {calls : List UserCall} {d d' : Db} {c : UserCall}

theorem ConsentInv.snoc (h : ConsentInv calls d)
    (hrows : ∀ a b f, d'.friendships.get? (a, b) = some f →
      d.friendships.get? (a, b) = some f ∧ ¬ c.Parts a b)
    (hmessages : ∀ m ∈ d'.directMessages.rows, m ∈ d.directMessages.rows) :
    ConsentInv (calls ++ [c]) d' where
  asked a b hsome := by
    obtain ⟨f, hf⟩ := Option.isSome_iff_exists.mp hsome
    obtain ⟨hold, hparts⟩ := hrows a b f hf
    exact (h.asked a b (Option.isSome_of_eq_some hold)).snoc hparts
  agreed a b f hf haccepted := by
    obtain ⟨hold, hparts⟩ := hrows a b f hf
    exact (h.agreed a b f hold haccepted).snoc hparts
  messages m hm := (h.messages m (hmessages m hm)).snoc

theorem ConsentInv.step (h : ConsentInv calls d) (hc : c.commit d = some d') :
    ConsentInv (calls ++ [c]) d' := by
  cases UserCall.effect_of_commit hc with
  | @writes op f ws hop =>
    have hparts (a b : UUID) : ¬ (UserCall.service (.auth op f)).Parts a b := by
      cases op with
      | deleteAccount id => exact absurd rfl (hop id)
      | _ => exact id
    refine h.snoc (fun a b f hf => ⟨?_, hparts a b⟩) fun m hm => ?_
    · rwa [Write.friendships_applyAll] at hf
    · rwa [Write.directMessages_applyAll] at hm
  | deletes hdelete =>
    refine h.snoc (fun a b f hf => ?_) fun m hm => ?_
    · obtain ⟨hold, ha, hb⟩ := friendship_of_deleteUser hdelete hf
      exact ⟨hold, fun hparts => hparts.elim ha hb⟩
    · obtain ⟨-, -, rfl⟩ := Db.deleteUser_eq_ok hdelete
      exact List.mem_of_mem_filter hm
  | group hgroup =>
    obtain ⟨groups, memberships, groupMessages, rfl⟩ := GroupOperation.tx_frame hgroup
    exact h.snoc (fun a b f hf => ⟨hf, id⟩) fun m hm => hm
  | @directMessage env s r content f hfriends hfresh =>
    have hold := h.snoc (c := .service (.message (.sendDirectMessage env s r content) f))
      (fun a b f hf => ⟨hf, id⟩) fun m hm => hm
    refine ⟨hold.asked, hold.agreed, fun m hm => ?_⟩
    rw [Table.rows_insertNew hfresh, List.mem_append, List.mem_singleton] at hm
    rcases hm with hm | rfl
    · exact hold.messages m hm
    · -- the friendship may have been asked for by either of the two
      obtain ⟨f', hrow, haccepted⟩ := hfriends
      rcases hrow with hrow | hrow
      · exact ⟨s, r, calls, _, [], rfl, rfl, h.agreed s r f' hrow haccepted, .inl ⟨rfl, rfl⟩⟩
      · exact ⟨r, s, calls, _, [], rfl, rfl, h.agreed r s f' hrow haccepted, .inr ⟨rfl, rfl⟩⟩
  | groupMessage m => exact h.snoc (fun a b f hf => ⟨hf, id⟩) fun m hm => hm
  | friendship hrun =>
    obtain ⟨friendships, rfl⟩ := run_frame hrun
    refine ⟨fun a b hsome => ?_, fun a b f hf haccepted => ?_, fun m hm => (h.messages m hm).snoc⟩
    · obtain ⟨f, hf⟩ := Option.isSome_iff_exists.mp hsome
      rcases row_cases hrun hf with ⟨hrequest, -⟩ | ⟨haccept, hold⟩ | ⟨hold, hparts⟩
      · exact asked_of_requests hrequest
      · exact (h.asked a b hold).snoc haccept.not_parts
      · exact (h.asked a b (Option.isSome_of_eq_some hold)).snoc hparts
    · -- an accepted row is an old one, or the call has accepted the request that it was
      rcases row_cases hrun hf with ⟨-, hpending⟩ | ⟨haccept, hold⟩ | ⟨hold, hparts⟩
      · rw [haccepted] at hpending
        cases hpending
      · exact (h.asked a b hold).accepts haccept
      · exact (h.agreed a b f hold haccepted).snoc hparts

theorem consentInv_init : ConsentInv [] {} where
  asked _ _ h := by cases h
  agreed _ _ _ h := by cases h
  messages _ h := by cases h

/-- Every direct message rests on mutual consent. -/
theorem direct_messages_rest_on_consent (calls : List UserCall) (d : Db)
    (h : run UserCall.commit {} calls = some d) :
    ∀ m ∈ d.directMessages.rows, RestsOnConsent calls m := by
  have hinv : ConsentInv calls d :=
    run_history (I := ConsentInv) consentInv_init (fun _ _ _ _ _ => ConsentInv.step) h
  exact hinv.messages

namespace Sample

def consent : List UserCall :=
  registrations.filterMap (fun
    | .account op => some (.service (.auth op fun _ => none))
    | .friendship _ => none) ++
  [.friendship (.sendFriendRequest ⟨2⟩ ⟨1⟩ 0), .friendship (.acceptFriendRequest ⟨1⟩ ⟨2⟩ 0),
    .service (.message (.sendDirectMessage messagingEnv ⟨1⟩ ⟨2⟩ "hello") fun _ => none)]

end Sample
open Sample

theorem direct_messages_rest_on_consent_answer :
    ∃ d, run UserCall.commit {} consent = some d ∧
      ∃ m ∈ d.directMessages.rows, RestsOnConsent consent m := by
  obtain ⟨d, hd, hstored⟩ :
      ∃ d ∈ run UserCall.commit {} consent, d.directMessages.rows ≠ [] := by decide
  obtain ⟨m, hm⟩ := List.exists_mem_of_ne_nil _ hstored
  exact ⟨d, hd, m, hm, direct_messages_rest_on_consent consent d hd m hm⟩

end Messenger
