import Messenger.Services.Auth

/-! The account operations of `UserService`. None of them touches the stream or the cache. -/

namespace Messenger
open Transactional

/-- `DELETE FROM users WHERE user_id = $1` with the actions of the foreign keys. A group of the user
makes it fail: `created_by` is to be set to `NULL` and is `NOT NULL`. -/
def Db.deleteUser (d : Db) (id : UUID) : Except DbError Db :=
  if (d.users.get? id).isNone then .error (.notFound .user id.str)
  else if d.groups.rows.any (·.createdBy = id) then .error (.driver .database)
  else .ok
    { d with
      users := d.users.deleteWhere (·.userId = id)
      friendships := d.friendships.deleteWhere fun f => f.requesterId = id || f.addresseeId = id
      accessTokens := d.accessTokens.deleteWhere (·.userId = id)
      refreshTokens := d.refreshTokens.deleteWhere (·.userId = id)
      memberships := d.memberships.deleteWhere (·.userId = id)
      directMessages := d.directMessages.deleteWhere fun m => m.senderId = id || m.recipientId = id
      groupMessages := d.groupMessages.deleteWhere (·.senderId = id) }

theorem Db.deleteUser_eq_ok {d d' : Db} {id : UUID} (h : d.deleteUser id = .ok d') :
    (d.users.get? id).isSome ∧ (∀ g ∈ d.groups.rows, g.createdBy ≠ id) ∧ d' = { d with
      users := d.users.deleteWhere (·.userId = id)
      friendships := d.friendships.deleteWhere fun f => f.requesterId = id || f.addresseeId = id
      accessTokens := d.accessTokens.deleteWhere (·.userId = id)
      refreshTokens := d.refreshTokens.deleteWhere (·.userId = id)
      memberships := d.memberships.deleteWhere (·.userId = id)
      directMessages := d.directMessages.deleteWhere fun m => m.senderId = id || m.recipientId = id
      groupMessages := d.groupMessages.deleteWhere (·.senderId = id) } := by
  unfold Db.deleteUser at h
  split at h
  · cases h
  · next hsome =>
    split at h
    · cases h
    · next hgroups =>
      simp only [Bool.not_eq_true, List.any_eq_false, decide_eq_true_eq] at hgroups
      have hid : (d.users.get? id).isSome :=
        Option.isSome_iff_ne_none.mpr fun hnone => hsome (Option.isNone_iff_eq_none.mpr hnone)
      exact ⟨hid, hgroups, (Except.ok.inj h).symm⟩

namespace UserService

def deactivateAccountTx (id : UUID) : AuthTx Unit := query .deactivateUser (Queries.deactivateUser id)
def reactivateAccountTx (id : UUID) : AuthTx Unit := query .reactivateUser (Queries.reactivateUser id)

def deleteAccountTx (id : UUID) : AuthTx Unit := fun f d =>
  match f .deleteUser with
  | some e => .error e
  | none =>
    match d.deleteUser id with
    | .ok d' => .ok ((), d')
    | .error e => .error (.db e)

/-- A `COMMIT` that raises is taken as rolled back. -/
def accountTransaction (body : AuthTx Unit) : AuthOp Unit :=
  Op.transaction AuthState.db (fun d w => { w with db := d }) .begin .commit body

/-- The router passes its argument by position, so the decorator sees no keyword arguments. -/
def account (body : AuthTx Unit) : AuthOp Unit :=
  Op.handle (handleDbNotFoundError (fun _ => none) (fun _ => none) []) (accountTransaction body)

def deactivateAccount (id : UUID) : AuthOp Unit := account (deactivateAccountTx id)
def reactivateAccount (id : UUID) : AuthOp Unit := account (reactivateAccountTx id)
def deleteAccount (id : UUID) : AuthOp Unit := account (deleteAccountTx id)

variable {f : Faults Await Error} {d d' : Db} {id : UUID} {a : Unit}

theorem accountTransaction_cases (body : AuthTx Unit) (f : Faults Await Error) (w : AuthState) :
    (∃ d, f .begin = none ∧ body f w.db = .ok ((), d) ∧ f .commit = none ∧
        accountTransaction body f w = (.ok (), { w with db := d })) ∨
      ∃ e, accountTransaction body f w = (.error e, w) ∧
        (f .begin = some e ∨ body f w.db = .error e ∨ f .commit = some e) := by
  have hcases : (∃ a d, f .begin = none ∧ body f w.db = .ok (a, d) ∧ f .commit = none ∧
      accountTransaction body f w = (.ok a, { w with db := d })) ∨ _ := Op.transaction_cases f w
  exact hcases.imp_left fun ⟨_, hrest⟩ => hrest

theorem deleteAccountTx_eq_ok :
    deleteAccountTx id f d = .ok (a, d') ↔ f .deleteUser = none ∧ d.deleteUser id = .ok d' := by
  unfold deleteAccountTx
  cases f .deleteUser with
  | some e => simp
  | none => cases d.deleteUser id <;> simp

end UserService
end Messenger
