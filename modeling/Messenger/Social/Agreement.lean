import Messenger.Lib.Transition
import Messenger.Services.Friendship
import Messenger.Services.Messaging
import Messenger.Session.Operations

/-! Whether two users may message each other, as their friend lists and as the messaging service see
it. The lists look for an accepted row, the service at the one row that the database returns. -/

namespace Messenger
open Transactional Transition FriendshipQueries

def Friendship.other (f : Friendship) (a : UUID) : UUID :=
  if f.requesterId = a then f.addresseeId else f.requesterId

/-- `b` appears in `get_friends(a)`. -/
def Db.ListsFriend (d : Db) (a b : UUID) : Prop := ∃ f ∈ UserService.getFriends a d, f.other a = b

def NotAllowed {α : Type} (r : Except Error α) : Prop :=
  ∃ id, r = .error (.service (.directMessageNotAllowed id))

namespace MessagingService

/-- No statement fails for a reason outside the database's contents. -/
def noFailure : Faults MessagingAwait Error := fun _ => none

def MaySend (d : Db) (a b : UUID) : Prop :=
  ∀ env content, ¬ NotAllowed (sendDirectMessage env a b content noFailure { db := d }).1

def MayNotSend (d : Db) (a b : UUID) : Prop :=
  ∀ env content, NotAllowed (sendDirectMessage env a b content noFailure { db := d }).1

def MayRead (d : Db) (a b : UUID) : Prop :=
  ∀ env before limit, ¬ NotAllowed (getDmHistory env a b before limit noFailure { db := d }).1

def MayNotRead (d : Db) (a b : UUID) : Prop :=
  ∀ env before limit, NotAllowed (getDmHistory env a b before limit noFailure { db := d }).1

end MessagingService
open MessagingService

/-- All verdicts about the pair are the same, whichever row each query returns. -/
def Db.Agrees (d : Db) (a b : UUID) : Prop :=
  (d.ListsFriend a b ∧ d.ListsFriend b a ∧ MaySend d a b ∧ MaySend d b a ∧ MayRead d a b ∧
      MayRead d b a) ∨
    (¬ d.ListsFriend a b ∧ ¬ d.ListsFriend b a ∧ MayNotSend d a b ∧ MayNotSend d b a ∧
      MayNotRead d a b ∧ MayNotRead d b a)

/-- Of two requests that crossed, both are accepted or both are pending. -/
def Db.Settled (d : Db) (a b : UUID) : Prop :=
  ∀ f f', d.friendships.get? (a, b) = some f → d.friendships.get? (b, a) = some f' →
    f.accepted = f'.accepted

/-- The foreign keys of the table hold, and no user is a friend of their own. -/
structure Db.FriendshipsSound (d : Db) : Prop where
  stored : ∀ a b, (d.friendships.get? (a, b)).isSome →
    (d.users.get? a).isSome ∧ (d.users.get? b).isSome
  irrefl : ∀ a, d.friendships.get? (a, a) = none

/-! ### The verdicts -/

section

variable {d : Db} {a b : UUID}

def Db.Accepted (d : Db) (a b : UUID) : Prop :=
  ∃ f, (d.friendships.get? (a, b) = some f ∨ d.friendships.get? (b, a) = some f) ∧ f.accepted = true

theorem accepted_comm : d.Accepted a b ↔ d.Accepted b a := by
  simp only [Db.Accepted, or_comm]

theorem listsFriend_iff : d.ListsFriend a b ↔ d.Accepted a b := by
  simp only [Db.ListsFriend, Db.Accepted, UserService.getFriends, listAcceptedFriends,
    List.mem_append, List.mem_filter, Bool.and_eq_true, decide_eq_true_eq, Table.get?_eq_some,
    Friendship.pk, Prod.mk.injEq, Friendship.other]
  constructor
  · rintro ⟨f, ⟨hrow, hreq, hacc⟩ | ⟨hrow, hadd, hacc⟩, hother⟩
    · rw [if_pos hreq] at hother
      exact ⟨f, .inl ⟨hrow, hreq, hother⟩, hacc⟩
    · split at hother
      · next hreq => exact ⟨f, .inl ⟨hrow, hreq, hother⟩, hacc⟩
      · exact ⟨f, .inr ⟨hrow, hother, hadd⟩, hacc⟩
  · rintro ⟨f, ⟨hrow, hreq, hadd⟩ | ⟨hrow, hreq, hadd⟩, hacc⟩
    · exact ⟨f, .inl ⟨hrow, hreq, hacc⟩, by rw [if_pos hreq, hadd]⟩
    · refine ⟨f, .inr ⟨hrow, hadd, hacc⟩, ?_⟩
      split
      · next hself => rw [hadd, ← hself, hreq]
      · exact hreq

def Allows (limitOne : RowChoice Friendship) (d : Db) (a b : UUID) : Prop :=
  ∃ f, getFriendshipStatus limitOne a b d = .ok f ∧ f.accepted = true

variable {env : MessagingEnv} {content : String} {before : Option Timestamp} {limit : ℕ}

theorem requireFriendship_of_allows (h : Allows env.limitOne d a b) :
    requireFriendship env a b noFailure d = .ok ((), d) := by
  obtain ⟨f, hf, hacc⟩ := h
  have hfetch : fetch .getFriendshipStatus (getFriendshipStatus env.limitOne a b) noFailure d =
      .ok (f, d) := fetch_of_ok rfl hf
  refine (Tx.bind_of_ok hfetch).trans ?_
  simp only [hacc, Bool.not_true, Bool.false_eq_true, if_false]
  rfl

def Refuses (b : UUID) (e : Error) : Prop :=
  e = .service (.directMessageNotAllowed b.str) ∨ ∃ i, e = .db (.notFound .friendship i)

theorem requireFriendship_of_not_allows (h : ¬ Allows env.limitOne d a b) :
    ∃ e, requireFriendship env a b noFailure d = .error e ∧ Refuses b e := by
  cases hf : getFriendshipStatus env.limitOne a b d with
  | ok f =>
    have hacc : f.accepted = false := by
      rw [← Bool.not_eq_true]
      exact fun hacc => h ⟨f, hf, hacc⟩
    have hfetch : fetch .getFriendshipStatus (getFriendshipStatus env.limitOne a b) noFailure d =
        .ok (f, d) := fetch_of_ok rfl hf
    refine ⟨_, (Tx.bind_of_ok hfetch).trans ?_, .inl rfl⟩
    simp only [hacc, Bool.not_false, if_true]
    rfl
  | error e =>
    obtain rfl := getFriendshipStatus_eq_error hf
    exact ⟨_, Tx.bind_of_error (fetch_of_error rfl hf), .inr ⟨_, rfl⟩⟩

theorem notAllowed_of_refuses {α : Type} {kwargs : Kwargs} {m : MessagingOp α}
    {f : Faults MessagingAwait Error} {w w' : MessagingState} {e : Error}
    (hm : m f w = (.error e, w')) (he : Refuses b e) :
    NotAllowed (decorated directMessageEntities kwargs m f w).1 := by
  rcases he with rfl | ⟨i, rfl⟩
  · exact ⟨b.str, congrArg Prod.fst (decorated_of_error hm rfl)⟩
  · have htranslated : handleDbNotFoundError directMessageEntities (fun _ => none) kwargs
        (.db (.notFound .friendship i)) = (.error (.service (.directMessageNotAllowed
          ((kwargs ++ [("identifier", i)]).getD "recipient_id"))) : Except Error α) := rfl
    exact ⟨_, congrArg Prod.fst (decorated_of_error hm htranslated)⟩

theorem notAllowed_getDmHistory :
    NotAllowed (getDmHistory env a b before limit noFailure { db := d }).1 ↔
      ¬ Allows env.limitOne d a b := by
  by_cases hallow : Allows env.limitOne d a b
  · refine iff_of_false ?_ (not_not_intro hallow)
    have hbody := Tx.bind_of_ok (k := fun _ => fetch .getDmConversationHistory fun d =>
      .ok (MessageQueries.getDmConversationHistory env.conversation a b (before.getD env.now) limit d))
      (requireFriendship_of_allows hallow)
    rintro ⟨id, hid⟩
    cases hid.symm.trans (congrArg Prod.fst (decorated_of_ok (connection_of_ok rfl hbody)))
  · refine iff_of_true ?_ hallow
    obtain ⟨e, hreq, he⟩ := requireFriendship_of_not_allows hallow
    exact notAllowed_of_refuses (connection_of_error rfl (Tx.bind_of_error hreq)) he

theorem notAllowed_sendDirectMessage (hstored : ∀ a b, (d.friendships.get? (a, b)).isSome →
      (d.users.get? a).isSome ∧ (d.users.get? b).isSome) :
    NotAllowed (sendDirectMessage env a b content noFailure { db := d }).1 ↔
      ¬ Allows env.limitOne d a b := by
  by_cases hallow : Allows env.limitOne d a b
  · refine iff_of_false ?_ (not_not_intro hallow)
    have hreq := requireFriendship_of_allows hallow
    have hrecipient : (d.users.get? b).isSome := by
      obtain ⟨f, hf, -⟩ := hallow
      rcases getFriendshipStatus_eq_ok hf with hrow | hrow
      · exact (hstored a b (by simp [hrow])).2
      · exact (hstored b a (by simp [hrow])).1
    rintro ⟨id, hid⟩
    rcases MessagingService.transaction_cases (sendDirectMessageTx env a b content) noFailure
      { db := d } with ⟨dm, d', -, -, -, hrun⟩ | ⟨e, hrun, hf | hbody | hf⟩
    · cases hid.symm.trans (congrArg Prod.fst (decorated_of_ok (Op.bind_of_ok hrun)))
    · cases hf
    · rw [sendDirectMessageTx, Tx.bind_of_ok hreq] at hbody
      obtain ⟨e', hinsert, rfl⟩ := insert_eq_error rfl hbody
      obtain ⟨constraint, rfl, hc⟩ := MessageQueries.sendDirectMessage_eq_error hinsert
      have hanswer := hid.symm.trans
        (congrArg Prod.fst (decorated_of_error (Op.bind_of_error hrun) rfl))
      rcases hc with rfl | rfl | ⟨rfl, hnone⟩
      · cases hanswer
      · cases hanswer
      · simp [hnone] at hrecipient
    · cases hf
  · -- the check of the friendship comes first in the transaction
    refine iff_of_true ?_ hallow
    obtain ⟨e, hreq, he⟩ := requireFriendship_of_not_allows hallow
    have htx : sendDirectMessageTx env a b content noFailure d = .error e := Tx.bind_of_error hreq
    rcases MessagingService.transaction_cases (sendDirectMessageTx env a b content) noFailure
      { db := d } with ⟨_, _, -, hbody, -, -⟩ | ⟨e', hrun, hf | hbody | hf⟩
    · cases htx.symm.trans hbody
    · cases hf
    · obtain rfl := Except.error.inj (htx.symm.trans hbody)
      exact notAllowed_of_refuses (Op.bind_of_error hrun) he
    · cases hf

theorem allows_of_accepted (hs : d.Settled a b) (h : d.Accepted a b) (limitOne : RowChoice Friendship) :
    Allows limitOne d a b := by
  obtain ⟨f, hf, hacc⟩ := h
  obtain ⟨f', hf'⟩ := getFriendshipStatus_of_some limitOne hf
  refine ⟨f', hf', ?_⟩
  rcases hf with hf | hf <;> rcases getFriendshipStatus_eq_ok hf' with hrow | hrow
  · rw [← Option.some.inj (hf.symm.trans hrow), hacc]
  · rw [← hs f f' hf hrow, hacc]
  · rw [hs f' f hrow hf, hacc]
  · rw [← Option.some.inj (hf.symm.trans hrow), hacc]

theorem Allows.accepted {limitOne : RowChoice Friendship} (h : Allows limitOne d a b) :
    d.Accepted a b :=
  let ⟨f, hf, hacc⟩ := h
  ⟨f, getFriendshipStatus_eq_ok hf, hacc⟩

theorem Db.Settled.symm (h : d.Settled a b) : d.Settled b a :=
  fun f f' hf hf' => (h f' f hf' hf).symm

/-- The verdicts about a pair agree exactly where its crossing requests are settled. -/
theorem agrees_iff (hsound : d.FriendshipsSound) : d.Agrees a b ↔ d.Settled a b := by
  constructor
  · intro h f f' hf hf'
    by_contra hne
    -- one of the two rows is accepted and the other, which may be the one returned, is not
    have hmixed : d.Accepted a b ∧ ∃ g, (d.friendships.get? (a, b) = some g ∨
        d.friendships.get? (b, a) = some g) ∧ g.accepted = false := by
      cases hacc : f.accepted with
      | true =>
        have hacc' : f'.accepted = false := by simpa [hacc] using hne
        exact ⟨⟨f, .inl hf, hacc⟩, f', .inr hf', hacc'⟩
      | false =>
        have hacc' : f'.accepted = true := by simpa [hacc] using hne
        exact ⟨⟨f', .inr hf', hacc'⟩, f, .inl hf, hacc⟩
    obtain ⟨haccepted, g, hg, hpending⟩ := hmixed
    rcases h with ⟨-, -, hsend, -⟩ | ⟨hlist, -⟩
    · have hnot : ¬ Allows (.prefer g) d a b := by
        rintro ⟨g', hg', hacc⟩
        rw [getFriendshipStatus_prefer hg] at hg'
        rw [← Except.ok.inj hg', hpending] at hacc
        cases hacc
      let env : MessagingEnv := ⟨0, ⟨0⟩, .prefer g, .stable _, .stable _⟩
      exact hsend env "" ((notAllowed_sendDirectMessage hsound.stored).mpr hnot)
    · exact hlist (listsFriend_iff.mpr haccepted)
  · intro hs
    by_cases h : d.Accepted a b
    · have hallow := allows_of_accepted hs h
      have hallow' := allows_of_accepted hs.symm (accepted_comm.mp h)
      exact .inl ⟨listsFriend_iff.mpr h, listsFriend_iff.mpr (accepted_comm.mp h),
        fun env _ hn => (notAllowed_sendDirectMessage hsound.stored).mp hn (hallow env.limitOne),
        fun env _ hn => (notAllowed_sendDirectMessage hsound.stored).mp hn (hallow' env.limitOne),
        fun env _ _ hn => notAllowed_getDmHistory.mp hn (hallow env.limitOne),
        fun env _ _ hn => notAllowed_getDmHistory.mp hn (hallow' env.limitOne)⟩
    · have hnot (limitOne : RowChoice Friendship) : ¬ Allows limitOne d a b :=
        fun hallow => h hallow.accepted
      have hnot' (limitOne : RowChoice Friendship) : ¬ Allows limitOne d b a :=
        fun hallow => h (accepted_comm.mp hallow.accepted)
      exact .inr ⟨fun hl => h (listsFriend_iff.mp hl),
        fun hl => h (accepted_comm.mp (listsFriend_iff.mp hl)),
        fun env _ => (notAllowed_sendDirectMessage hsound.stored).mpr (hnot env.limitOne),
        fun env _ => (notAllowed_sendDirectMessage hsound.stored).mpr (hnot' env.limitOne),
        fun env _ _ => notAllowed_getDmHistory.mpr (hnot env.limitOne),
        fun env _ _ => notAllowed_getDmHistory.mpr (hnot' env.limitOne)⟩

end

/-! ### Runs -/

inductive SocialAction where
  | friendship (c : FriendshipCall)
  | account (op : Operation)

namespace SocialAction

def step (d : Db) : SocialAction → Option Db
  | friendship c =>
    match c.run d with
    | .ok d' => some d'
    | .error _ => none
  | account op => (op.commit d).map Prod.fst

/-- No request is sent to a user whose own request is accepted already, and none is accepted beside
a pending one in the other direction. -/
def Settles (d : Db) : SocialAction → Prop
  | friendship (.sendFriendRequest a b _) =>
    ∀ f, d.friendships.get? (b, a) = some f → f.accepted = false
  | friendship (.acceptFriendRequest b a _) =>
    ∀ f, d.friendships.get? (b, a) = some f → f.accepted = true
  | friendship (.removeOrDeclineFriendship _ _) => True
  | account _ => True

instance (d : Db) : ∀ act, Decidable (Settles d act)
  | friendship (.sendFriendRequest a b _) => Table.decidableOfSome (d.friendships.get? (b, a))
  | friendship (.acceptFriendRequest b a _) => Table.decidableOfSome (d.friendships.get? (b, a))
  | friendship (.removeOrDeclineFriendship _ _) => instDecidableTrue
  | account _ => instDecidableTrue

end SocialAction

open FriendshipCall SocialAction

variable {d d' : Db} {a b : UUID} {op : Operation} {c : FriendshipCall} {act : SocialAction}

theorem isSome_get?_deleteUser {users : Table User User.userId} {id i : UUID} :
    ((users.deleteWhere (·.userId = id)).get? i).isSome ↔ (users.get? i).isSome ∧ i ≠ id := by
  rw [Table.get?_deleteWhere]
  cases hu : users.get? i with
  | none => simp
  | some u =>
    have hid : u.userId = i := Table.key_of_get? hu
    by_cases hi : i = id <;> simp [Option.filter, hid, hi]

theorem step_friendship : step d (.friendship c) = some d' ↔ c.run d = .ok d' := by
  simp only [step]
  cases c.run d <;> simp

theorem account_friendships (h : step d (.account op) = some d') :
    d'.friendships = d.friendships ∧ (∀ id, (d.users.get? id).isSome → (d'.users.get? id).isSome) ∨
      ∃ id, d'.friendships =
          d.friendships.deleteWhere (fun f => f.requesterId = id || f.addresseeId = id) ∧
        d'.users = d.users.deleteWhere (·.userId = id) := by
  obtain ⟨⟨d₁, es⟩, hc, rfl⟩ := Option.map_eq_some_iff.mp h
  rcases Operation.commit_cases hc with ⟨ws, rfl⟩ | ⟨id, -, hd⟩
  · exact .inl ⟨Write.friendships_applyAll ws d, fun id => Write.isSome_user_applyAll ws⟩
  · obtain ⟨-, -, hd⟩ := Db.deleteUser_eq_ok hd
    exact .inr ⟨id, congrArg Db.friendships hd, congrArg Db.users hd⟩

theorem soundness_step (hs : d.FriendshipsSound) (h : step d act = some d') : d'.FriendshipsSound := by
  -- a friendship call deletes no user, so its rows alone matter
  have hcall (c : FriendshipCall) (h : c.run d = .ok d') (hrows : ∀ a b,
      (d'.friendships.get? (a, b)).isSome → (d.friendships.get? (a, b)).isSome ∨
        (d.users.get? a).isSome ∧ (d.users.get? b).isSome ∧ a ≠ b) : d'.FriendshipsSound := by
    refine ⟨fun a b hrow => ?_, fun a => ?_⟩
    · rw [users_run h]
      rcases hrows a b hrow with hrow | ⟨ha, hb, -⟩
      · exact hs.stored a b hrow
      · exact ⟨ha, hb⟩
    · refine Option.not_isSome_iff_eq_none.mp fun hrow => ?_
      rcases hrows a a hrow with hrow | ⟨-, -, hne⟩
      · simp [hs.irrefl a] at hrow
      · exact hne rfl
  cases act with
  | friendship c =>
    rw [step_friendship] at h
    cases c with
    | sendFriendRequest a b now =>
      obtain ⟨hne, -, ha, hb, rfl⟩ := run_sendFriendRequest.mp h
      refine hcall _ h fun x y hrow => ?_
      rw [FriendshipWrite.get?_insert, Option.isSome_or, Bool.or_eq_true] at hrow
      refine hrow.imp id fun hnew => ?_
      split at hnew
      · next hk =>
        obtain ⟨rfl, rfl⟩ := Prod.mk.inj hk
        exact ⟨ha, hb, hne⟩
      · cases hnew
    | acceptFriendRequest b a now =>
      obtain ⟨-, rfl⟩ := run_acceptFriendRequest.mp h
      refine hcall _ h fun x y hrow => .inl ?_
      rwa [FriendshipWrite.get?_accept, Option.isSome_map] at hrow
    | removeOrDeclineFriendship a b =>
      refine hcall _ h fun x y hrow => .inl ?_
      rw [run_removeOrDeclineFriendship h] at hrow
      split at hrow
      · cases hrow
      · exact hrow
  | account op =>
    rcases account_friendships h with ⟨hf, hu⟩ | ⟨id, hf, hu⟩
    · exact ⟨fun a b hrow => (hs.stored a b (hf ▸ hrow)).imp (hu a) (hu b),
        fun a => hf ▸ hs.irrefl a⟩
    · refine ⟨fun a b hrow => ?_, fun a => ?_⟩
      · rw [hf, Table.get?_deleteWhere] at hrow
        obtain ⟨f, hrow⟩ := Option.isSome_iff_exists.mp hrow
        obtain ⟨hrow, hkeep⟩ := Option.filter_eq_some_iff.mp hrow
        obtain ⟨ha, hb⟩ := hs.stored a b (by simp [hrow])
        have hk : f.pk = (a, b) := Table.key_of_get? hrow
        obtain ⟨rfl, rfl⟩ := Prod.mk.inj hk
        simp only [Bool.not_eq_true', Bool.or_eq_false_iff, decide_eq_false_iff_not] at hkeep
        simp only [hu, isSome_get?_deleteUser]
        exact ⟨⟨ha, hkeep.1⟩, hb, hkeep.2⟩
      · rw [hf, Table.get?_deleteWhere, hs.irrefl a]
        rfl

theorem forall_settled_iff (hsettled : ∀ x y, d.Settled x y)
    (hrows : ∀ k, k ≠ (a, b) → d'.friendships.get? k = d.friendships.get? k) :
    (∀ x y, d'.Settled x y) ↔ d'.Settled a b := by
  refine ⟨fun h => h a b, fun h x y f f' hf hf' => ?_⟩
  by_cases hk : (x, y) = (a, b)
  · obtain ⟨rfl, rfl⟩ := Prod.mk.inj hk
    exact h f f' hf hf'
  · by_cases hk' : (y, x) = (a, b)
    · obtain ⟨rfl, rfl⟩ := Prod.mk.inj hk'
      exact (h f' f hf' hf).symm
    · rw [hrows _ hk] at hf
      rw [hrows _ hk'] at hf'
      exact hsettled x y f f' hf hf'

theorem settled_iff_of_some {f : Friendship} (hf : d.friendships.get? (a, b) = some f) :
    d.Settled a b ↔ ∀ f', d.friendships.get? (b, a) = some f' → f'.accepted = f.accepted := by
  refine ⟨fun h f' hf' => (h f f' hf hf').symm, fun h f₁ f' hf₁ hf' => ?_⟩
  rw [← Option.some.inj (hf.symm.trans hf₁), h f' hf']

theorem settled_of_subset (hsettled : ∀ x y, d.Settled x y)
    (hrows : ∀ k f, d'.friendships.get? k = some f → d.friendships.get? k = some f) (x y : UUID) :
    d'.Settled x y :=
  fun f f' hf hf' => hsettled x y f f' (hrows _ f hf) (hrows _ f' hf')

theorem settled_step (hsound : d.FriendshipsSound) (hsettled : ∀ x y, d.Settled x y)
    (h : step d act = some d') : (∀ x y, d'.Settled x y) ↔ act.Settles d := by
  -- a request and an acceptance touch one row, so only the one that crosses it is to be looked at
  cases act with
  | friendship c =>
    rw [step_friendship] at h
    cases c with
    | sendFriendRequest a b now =>
      obtain ⟨hne, hnone, -, -, rfl⟩ := run_sendFriendRequest.mp h
      have hnew := FriendshipWrite.get?_insert d (requestRow a b now) (a, b)
      have hold (k : UUID × UUID) (hk : k ≠ (a, b)) :
          ((FriendshipWrite.insert (requestRow a b now)).apply d).friendships.get? k =
            d.friendships.get? k := by
        rw [FriendshipWrite.get?_insert, pk_requestRow, if_neg (Ne.symm hk), Option.or_none]
      have hback := hold (b, a) fun hk => hne (Prod.mk.inj hk).2
      rw [hnone, Option.none_or, pk_requestRow, if_pos rfl] at hnew
      rw [forall_settled_iff hsettled hold, settled_iff_of_some hnew, hback]
      rfl
    | acceptFriendRequest b a now =>
      obtain ⟨hsome, rfl⟩ := run_acceptFriendRequest.mp h
      obtain ⟨f, hf⟩ := Option.isSome_iff_exists.mp hsome
      have hne : a ≠ b := by
        rintro rfl
        simp [hsound.irrefl a] at hf
      have hnew := FriendshipWrite.get?_accept d (a, b) (a, b) now
      have hold (k : UUID × UUID) (hk : k ≠ (a, b)) :
          ((FriendshipWrite.accept (a, b) now).apply d).friendships.get? k =
            d.friendships.get? k := by
        simp only [FriendshipWrite.get?_accept, if_neg hk, Option.map_id']
      have hback := hold (b, a) fun hk => hne (Prod.mk.inj hk).2
      rw [hf, Option.map_some, if_pos rfl] at hnew
      rw [forall_settled_iff hsettled hold, settled_iff_of_some hnew, hback]
      rfl
    | removeOrDeclineFriendship a b =>
      refine iff_of_true (settled_of_subset hsettled fun k f hf => ?_) trivial
      rw [run_removeOrDeclineFriendship h] at hf
      split at hf
      · cases hf
      · exact hf
  | account op =>
    refine iff_of_true (settled_of_subset hsettled fun k f hf => ?_) trivial
    rcases account_friendships h with ⟨heq, -⟩ | ⟨id, heq, -⟩
    · exact heq ▸ hf
    · rw [heq, Table.get?_deleteWhere] at hf
      exact (Option.filter_eq_some_iff.mp hf).1

theorem soundness_init : ({} : Db).FriendshipsSound :=
  ⟨fun _ _ h => (Bool.false_ne_true h).elim, fun _ => rfl⟩

theorem soundness_run {acts : List SocialAction} (hr : run step {} acts = some d) :
    d.FriendshipsSound :=
  run_induction (fun _ _ _ hs h => soundness_step hs h) hr soundness_init

/-- In every state of a run all pairs agree exactly if every step settles the requests it crosses. -/
theorem direct_messages_agree (acts : List SocialAction) (d : Db) (hr : run step {} acts = some d) :
    Guarded step Settles {} acts ↔
      ∀ pre, pre <+: acts → ∀ m, run step {} pre = some m → ∀ a b, m.Agrees a b := by
  rw [guarded_iff_along_prefixes (J := Db.FriendshipsSound) (I := fun d => ∀ a b, d.Settled a b)
    (fun _ _ _ hs h => soundness_step hs h) (fun _ _ _ hs hi h => settled_step hs hi h)
    soundness_init (fun _ _ _ _ hf => nomatch hf) hr]
  refine forall₂_congr fun pre _ => forall₂_congr fun m hm => forall₂_congr fun a b => ?_
  exact (agrees_iff (soundness_run hm)).symm

namespace Sample

def registrations : List SocialAction :=
  [.account (.register { env with newUserId := ⟨1⟩ } "ada" "secret"),
    .account (.register { env with
      newUserId := ⟨2⟩
      tokenPair := ⟨"aaaaaa", "rrrrrrr", 900, 9000⟩ } "bob" "secret")]

def request (a b : UUID) : SocialAction := .friendship (.sendFriendRequest a b 0)

def acceptance (a b : UUID) : SocialAction := .friendship (.acceptFriendRequest b a 0)

end Sample

/-- An accepted request makes the two users friends in every respect. -/
theorem direct_messages_agree_accepted :
    ∃ d, run step {} (Sample.registrations ++
      [Sample.request ⟨1⟩ ⟨2⟩, Sample.acceptance ⟨1⟩ ⟨2⟩]) = some d ∧ d.Agrees ⟨1⟩ ⟨2⟩ := by
  have hsome : (run step {} (Sample.registrations ++
      [Sample.request ⟨1⟩ ⟨2⟩, Sample.acceptance ⟨1⟩ ⟨2⟩])).isSome = true := by decide
  obtain ⟨d, hd⟩ := Option.isSome_iff_exists.mp hsome
  have hguarded : Guarded step Settles {} (Sample.registrations ++
      [Sample.request ⟨1⟩ ⟨2⟩, Sample.acceptance ⟨1⟩ ⟨2⟩]) := by decide
  exact ⟨d, hd, (direct_messages_agree _ d hd).mp hguarded _ List.prefix_rfl d hd ⟨1⟩ ⟨2⟩⟩

/-- Both users ask, and one of the two requests is accepted: whether messages are allowed depends on
the row that the database returns. -/
theorem not_direct_messages_agree :
    ∃ d, run step {} (Sample.registrations ++ [Sample.request ⟨1⟩ ⟨2⟩, Sample.request ⟨2⟩ ⟨1⟩,
      Sample.acceptance ⟨1⟩ ⟨2⟩]) = some d ∧ ¬ d.Agrees ⟨1⟩ ⟨2⟩ := by
  obtain ⟨d, hd, hrow, hrow'⟩ :
      ∃ d ∈ run step {} (Sample.registrations ++ [Sample.request ⟨1⟩ ⟨2⟩, Sample.request ⟨2⟩ ⟨1⟩,
          Sample.acceptance ⟨1⟩ ⟨2⟩]),
        (d.friendships.get? (⟨1⟩, ⟨2⟩)).map (·.accepted) = some true ∧
        (d.friendships.get? (⟨2⟩, ⟨1⟩)).map (·.accepted) = some false := by decide
  obtain ⟨f, hf, haccepted⟩ := Option.map_eq_some_iff.mp hrow
  obtain ⟨f', hf', hpending⟩ := Option.map_eq_some_iff.mp hrow'
  refine ⟨d, hd, fun hagrees => ?_⟩
  have hsettled := (agrees_iff (soundness_run hd)).mp hagrees f f' hf hf'
  rw [haccepted, hpending] at hsettled
  cases hsettled

end Messenger
