import Messenger.Services.Commitments

/-! No phantom broadcasts: an event is published only after the transaction of its own call has committed
what the event announces. Only `user_invalidated` may come from a call that has found its work done: two
calls may have read a user, or presented a token, before either of them commits. -/

namespace Messenger
open ReadCommitted Publishing

/-! ### What an event announces -/

namespace Db

/-- The row of the user, or one of their tokens, is no longer what it was. -/
def AccountChanged (d d' : Db) (u : UUID) : Prop :=
  d'.users.get? u ≠ d.users.get? u ∨ ∃ k ∈ [TokenKind.access, .refresh],
    ∃ h ∈ (d.tokens k).keysWhere (·.userId = u), (d'.tokens k).get? h ≠ (d.tokens k).get? h

instance (d d' : Db) (u : UUID) : Decidable (d.AccountChanged d' u) :=
  inferInstanceAs (Decidable (_ ∨ _))

/-- The change from `d` to `d'` is what the broadcast announces. -/
def Announced (d d' : Db) : Broadcast → Prop
  | .push (.toUser u e) =>
    d.directMessages.get? e.messageId = none ∧ ∃ m, d'.directMessages.get? e.messageId = some m ∧
      m.senderId = e.senderId ∧ m.recipientId = e.recipientId ∧ m.recipientId = u ∧
      m.content = e.content ∧ m.createdAt = e.createdAt
  | .push (.toGroup g e sender) =>
    d.groupMessages.get? e.messageId = none ∧ ∃ m, d'.groupMessages.get? e.messageId = some m ∧
      m.senderId = e.senderId ∧ m.senderId = sender ∧ m.groupId = e.groupId ∧ m.groupId = g ∧
      m.content = e.content ∧ m.createdAt = e.createdAt
  | .bus (.groupMembership u g .join) => ¬ d.Member g u ∧ d'.Member g u
  | .bus (.groupMembership u g .leave) => d.Member g u ∧ ¬ d'.Member g u
  | .bus (.groupDeleted g) => (d.groups.get? g).isSome ∧ d'.groups.get? g = none
  | .system (.tokenRevoked h) => ∃ k, ((d.tokens k).get? h).isSome ∧ d'.Revoked k h
  | .system (.userInvalidated u) => d.AccountChanged d' u

end Db

/-- What `user_invalidated` tells of a call that committed the change from `d` to `d'`. A login has read
the row of `u` and has stored what it has found to be due: an account that it read as deactivated is active
then, and a password hash that it read as outdated, which was the stored one still, is replaced. A refresh
has met a revoked token of `u`, and has revoked every token of `u` that its sweeps have found. -/
def AuthPc.Invalidates (pw : PasswordHasher) (p : AuthPc) (d d' : Db) (u : UUID) : Prop :=
  match p.call with
  | .login username password newHash _ =>
    ∃ user before after : User, user.userId = u ∧ user.username = username ∧
      pw.verify password user.passwordHash = true ∧ d.users.get? u = some before ∧
      d'.users.get? u = some after ∧
      (user.deactivated = true ∨ pw.needsRehash user.passwordHash = true) ∧
      (user.deactivated = true → after.deactivated = false) ∧
      (pw.needsRehash user.passwordHash = true →
        before.passwordHash = user.passwordHash ∧ after.passwordHash = newHash)
  | .refresh h _ _ =>
    d.Revoked .refresh h ∧ d.OwnedBy .refresh h u ∧
      ∀ k h', .token k h' ∈ p.swept → d.OwnedBy k h' u → d'.Revoked k h'
  | _ => False

section

variable {pw : PasswordHasher} {d : Db} {g u : UUID}

namespace AuthPc

end AuthPc

namespace ServiceWrite

theorem groups_apply {w : ServiceWrite} (d : Db) (hw : ∀ row, w ≠ .insertGroup row)
    (h : d.groups.get? g = none) : (w.apply d).groups.get? g = none := by
  cases w with
  | auth w => exact (congrArg (Table.get? · g) (Write.groups_applyAll [w] d)).trans h
  | deleteToken kind hash => cases kind <;> exact h
  | friendship w => cases w <;> exact h
  | insertGroup row => exact absurd rfl (hw row)
  | deleteGroup id =>
    show (d.groups.deleteWhere _).get? g = none
    rw [Table.get?_deleteWhere, h]
    rfl
  | _ => exact h

theorem groups_applyAll {ws : List ServiceWrite} (hws : ∀ row, .insertGroup row ∉ ws)
    (h : d.groups.get? g = none ∨ .deleteGroup g ∈ ws) :
    ((publications pw).applyAll ws d).groups.get? g = none := by
  induction ws generalizing d with
  | nil => exact h.resolve_right List.not_mem_nil
  | cons w ws ih =>
    refine ih (d := w.apply d) (fun row hrow => hws row (List.mem_cons_of_mem _ hrow)) ?_
    rcases h with h | h
    · exact .inl (groups_apply d (fun row hw => hws row (hw ▸ List.mem_cons_self ..)) h)
    · rcases List.mem_cons.mp h with rfl | h
      · exact .inl (Table.get?_deleteWhere_self ..)
      · exact .inr h

end ServiceWrite

namespace ServicePc

variable {pc : ServicePc} {ws : List ServiceWrite} {held : Set ServiceKey} {b : Broadcast}

end ServicePc

end

namespace Sample

def serviceStatement (t : ℕ) (rows : List RowKey) : List (ServiceAct ℕ) :=
  .server (.start t) :: rows.map fun k => .server (.lock t (.auth k))

def readUser (t n : ℕ) : List (ServiceAct ℕ) :=
  .server (.begin t (.auth (.login user.username "secret" "" (pair n)))) :: serviceStatement t []

end Sample

end Messenger
