import Messenger.Database.FriendshipQueries
import Messenger.Services.Errors

/-! The friendship operations of `UserService`. Each that writes runs one statement in a transaction. -/

namespace Messenger
open ReadCommitted

inductive FriendshipCall where
  | sendFriendRequest (requesterId addresseeId : UUID) (now : Timestamp)
  | acceptFriendRequest (addresseeId requesterId : UUID) (now : Timestamp)
  | removeOrDeclineFriendship (userA userB : UUID)
  deriving DecidableEq

namespace FriendshipCall

def query : FriendshipCall → FriendshipQuery Unit
  | sendFriendRequest requester addressee now =>
    FriendshipQueries.sendFriendRequest requester addressee now
  | acceptFriendRequest addressee requester now =>
    FriendshipQueries.acceptFriendRequest requester addressee now
  | removeOrDeclineFriendship a b => FriendshipQueries.removeFriendship a b

def kwargs : FriendshipCall → Kwargs
  | sendFriendRequest requester addressee _ =>
    [("requester_id", requester.str), ("addressee_id", addressee.str)]
  | acceptFriendRequest addressee requester _ =>
    [("addressee_id", addressee.str), ("requester_id", requester.str)]
  | removeOrDeclineFriendship a b => [("user_a", a.str), ("user_b", b.str)]

/-- The decorator of the call; `send_friend_request` has none for missing entities, and the others
have none for constraints. -/
def handler (c : FriendshipCall) : Error → Except Error Unit :=
  match c with
  | sendFriendRequest .. => handleDbConstraintError (fun _ => none) c.kwargs
  | _ => handleDbNotFoundError (fun _ => none) (fun _ => none) c.kwargs

/-- A user who asks themselves is refused before a transaction begins. -/
def refused : FriendshipCall → Option Error
  | sendFriendRequest requester addressee _ =>
    if requester = addressee then some (.service .selfFriendship) else none
  | _ => none

/-- The call when nothing runs beside it: what it raises, or the database it leaves. -/
def run (c : FriendshipCall) (d : Db) : Except Error Db :=
  match c.refused with
  | some e => .error e
  | none =>
    match c.query.run (c.query.rows d) d with
    | (.ok _, ws) => .ok (FriendshipWrite.applyAll ws d)
    | (.error e, _) =>
      match c.handler (.db e) with
      | .ok _ => .ok d
      | .error e => .error e

end FriendshipCall

namespace UserService

def sendFriendRequest (requesterId addresseeId : UUID) (now : Timestamp) : Db → Except Error Db :=
  (FriendshipCall.sendFriendRequest requesterId addresseeId now).run

def acceptFriendRequest (addresseeId requesterId : UUID) (now : Timestamp) : Db → Except Error Db :=
  (FriendshipCall.acceptFriendRequest addresseeId requesterId now).run

def removeOrDeclineFriendship (userA userB : UUID) : Db → Except Error Db :=
  (FriendshipCall.removeOrDeclineFriendship userA userB).run

def getFriends (id : UUID) (d : Db) : List Friendship := FriendshipQueries.listAcceptedFriends id d

end UserService

namespace FriendshipQueries

variable {d : Db} {a b : UUID} {now : Timestamp}

/-! Statements that run alone have locked every row they select. -/

theorem writeFriendships_alone (p : Friendship → Bool) (write : UUID × UUID → FriendshipWrite)
    (d : Db) :
    (writeFriendships p write).run ((writeFriendships p write).rows d) d =
      ((d.friendships.keysWhere p).length, (d.friendships.keysWhere p).map write) := by
  have hself : (d.friendships.keysWhere p).filter (· ∈ d.friendships.keysWhere p) =
      d.friendships.keysWhere p :=
    List.filter_eq_self.mpr fun k hk => decide_eq_true hk
  simp only [writeFriendships, hself]

theorem acceptFriendRequest_alone (r a : UUID) (now : Timestamp) (d : Db) :
    (acceptFriendRequest r a now).run ((acceptFriendRequest r a now).rows d) d =
      if (d.friendships.get? (r, a)).isSome then (.ok (), [.accept (r, a) now])
      else (.error (.notFound .friendship (r.str ++ ", " ++ a.str)), []) := by
  change Prod.map (Queries.requireRows .friendship (r.str ++ ", " ++ a.str)) id
    ((writeFriendships (·.pk = (r, a)) (.accept · now)).run
      ((writeFriendships (·.pk = (r, a)) (.accept · now)).rows d) d) = _
  rw [writeFriendships_alone, Table.keysWhere_of_key fun f hf => of_decide_eq_true hf]
  cases hf : d.friendships.get? (r, a) with
  | none => rfl
  | some f => simp [Table.key_of_get? hf, Queries.requireRows]

end FriendshipQueries

namespace FriendshipCall
open FriendshipQueries

variable {c : FriendshipCall} {d d' : Db} {a b : UUID} {now : Timestamp}

theorem handler_ne_ok {e : Error} {u : Unit} : c.handler e ≠ .ok u := by
  intro h
  unfold handler at h
  split at h
  · exact handleDbConstraintError_ne_ok h
  · obtain ⟨_, _, -, hsome⟩ := handleDbNotFoundError_eq_ok h
    cases hsome

theorem run_eq_ok : c.run d = .ok d' ↔ c.refused = none ∧
    ∃ ws, c.query.run (c.query.rows d) d = (.ok (), ws) ∧ d' = FriendshipWrite.applyAll ws d := by
  unfold run
  cases c.refused with
  | some e => simp
  | none =>
    rcases c.query.run (c.query.rows d) d with ⟨e | u, ws⟩
    · cases hh : c.handler (.db e) with
      | ok u => exact absurd hh handler_ne_ok
      | error e' => simp [hh]
    · simp [eq_comm (a := d')]

theorem run_frame (h : c.run d = .ok d') : ∃ friendships, d' = { d with friendships } := by
  obtain ⟨-, ws, -, rfl⟩ := run_eq_ok.mp h
  exact FriendshipWrite.applyAll_eq ws d

theorem users_run (h : c.run d = .ok d') : d'.users = d.users := by
  obtain ⟨-, ws, -, rfl⟩ := run_eq_ok.mp h
  exact FriendshipWrite.users_applyAll ws d

def requestRow (a b : UUID) (now : Timestamp) : Friendship :=
  { requesterId := a, addresseeId := b, createdAt := now, updatedAt := now }

@[simp] theorem pk_requestRow : (requestRow a b now).pk = (a, b) := rfl

theorem run_sendFriendRequest :
    (sendFriendRequest a b now).run d = .ok d' ↔
      a ≠ b ∧ d.friendships.get? (a, b) = none ∧ (d.users.get? a).isSome ∧
        (d.users.get? b).isSome ∧ d' = (FriendshipWrite.insert (requestRow a b now)).apply d := by
  rw [run_eq_ok]
  simp only [refused, query, FriendshipQueries.sendFriendRequest]
  by_cases hself : a = b
  · simp [hself]
  · cases d.friendships.get? (a, b) <;> cases d.users.get? a <;> cases d.users.get? b <;>
      simp [hself, FriendshipWrite.applyAll, requestRow]

theorem run_acceptFriendRequest :
    (acceptFriendRequest b a now).run d = .ok d' ↔
      (d.friendships.get? (a, b)).isSome ∧ d' = (FriendshipWrite.accept (a, b) now).apply d := by
  rw [run_eq_ok]
  simp only [refused, query, acceptFriendRequest_alone]
  cases d.friendships.get? (a, b) <;> simp [FriendshipWrite.applyAll]

theorem run_removeOrDeclineFriendship (h : (removeOrDeclineFriendship a b).run d = .ok d')
    (k : UUID × UUID) :
    d'.friendships.get? k = if k = (a, b) ∨ k = (b, a) then none else d.friendships.get? k := by
  obtain ⟨-, ws, hrun, rfl⟩ := run_eq_ok.mp h
  have hws : ws = (d.friendships.keysWhere (Between a b ·)).map .delete := by
    have halone : ((removeFriendship a b).run ((removeFriendship a b).rows d) d).2 = ws :=
      congrArg Prod.snd hrun
    rw [← halone]
    exact congrArg Prod.snd (writeFriendships_alone _ _ d)
  simp only [hws, FriendshipWrite.get?_applyAll_delete, mem_keysWhere_between]
  by_cases hk : k = (a, b) ∨ k = (b, a)
  · cases hf : d.friendships.get? k <;> simp [hk]
  · simp [hk]

end FriendshipCall
end Messenger
