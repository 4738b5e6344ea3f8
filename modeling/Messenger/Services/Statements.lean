import Messenger.Auth.SingleUse
import Messenger.Services.Auth

/-! When a statement of a transaction that runs alone succeeds, and what it leaves behind. -/

namespace Messenger
open Transactional

variable {f : Faults Await Error} {p : Await} {d d' : Db} {k : TokenKind} {h : TokenHash} {t : Token}
  {u : User} {id : UUID} {a : Unit}

theorem query_getRefreshToken :
    query p (Queries.getRefreshToken h true) f d = .ok (t, d') ↔
      f p = none ∧ (d.tokens .refresh).get? h = some t ∧ d' = d := by
  rw [query_eq_ok, Queries.getRefreshToken, Queries.getToken_alone]
  cases (d.tokens .refresh).get? h <;> simp [Write.applyAll]

theorem query_revokeToken :
    query p (Queries.revokeToken k h) f d = .ok (a, d') ↔
      f p = none ∧ ((d.tokens k).get? h).isSome ∧ d' = (Write.revokeToken k h).apply d := by
  rw [query_eq_ok, Queries.revokeToken_alone]
  split <;> simp_all [Write.applyAll]

theorem query_revokeToken_of_some (hf : f p = none) (hh : ((d.tokens k).get? h).isSome) :
    query p (Queries.revokeToken k h) f d = .ok ((), (Write.revokeToken k h).apply d) :=
  query_revokeToken.mpr ⟨hf, hh, rfl⟩

theorem query_revokeAllUserTokens :
    query p (Queries.revokeAllUserTokens k id) f d = .ok (a, d') ↔
      f p = none ∧ d' = Write.applyAll
        (((d.tokens k).keysWhere (·.userId = id)).map (.revokeToken k)) d := by
  rw [query_eq_ok, Queries.revokeAllUserTokens_alone]
  simp

theorem query_createToken :
    query p (Queries.createToken k t) f d = .ok (a, d') ↔
      f p = none ∧ (d.tokens k).get? t.tokenHash = none ∧ (d.users.get? t.userId).isSome ∧
        d' = (Write.insertToken k t).apply d := by
  rw [query_eq_ok]
  simp only [Queries.createToken]
  cases (d.tokens k).get? t.tokenHash <;> cases d.users.get? t.userId <;> simp [Write.applyAll]

theorem query_createUser {u' : User} :
    query p (Queries.createUser u) f d = .ok (u', d') ↔
      f p = none ∧ u' = u ∧ d.users.get? u.userId = none ∧
        d.users.rows.any (·.username = u.username) = false ∧ d' = (Write.insertUser u).apply d := by
  rw [query_eq_ok]
  simp only [Queries.createUser]
  cases d.users.get? u.userId <;> cases d.users.rows.any (·.username = u.username) <;>
    simp [Write.applyAll, eq_comm (a := u)]

theorem query_getUserByUsername {name : String} :
    query p (Queries.getUserByUsername name) f d = .ok (u, d') ↔
      f p = none ∧ d.users.rows.find? (·.username = name) = some u ∧ d' = d := by
  rw [query_eq_ok]
  simp only [Queries.getUserByUsername, Queries.selectUser, Bool.not_false, Bool.true_or,
    Bool.and_true]
  cases d.users.rows.find? (·.username = name) <;> simp [Write.applyAll]

theorem query_reactivateUser :
    query p (Queries.reactivateUser id) f d = .ok (a, d') ↔
      f p = none ∧ (d.users.get? id).isSome ∧ d' = (Write.setDeactivated id false).apply d := by
  rw [query_eq_ok, Queries.reactivateUser,
    Queries.updateUser_alone fun u hu => of_decide_eq_true hu]
  cases hu : d.users.get? id with
  | none => simp
  | some u => simp [Table.key_of_get? hu, Write.applyAll]

theorem query_deactivateUser :
    query p (Queries.deactivateUser id) f d = .ok (a, d') ↔
      f p = none ∧ (d.users.get? id).isSome ∧ d' = (Write.setDeactivated id true).apply d := by
  rw [query_eq_ok, Queries.deactivateUser,
    Queries.updateUser_alone fun u hu => of_decide_eq_true hu]
  cases hu : d.users.get? id with
  | none => simp
  | some u => simp [Table.key_of_get? hu, Write.applyAll]

theorem query_updateUserPassword {newHash oldHash : String} :
    query p (Queries.updateUserPassword id newHash oldHash) f d = .ok (a, d') ↔
      f p = none ∧ (∃ u, d.users.get? id = some u ∧ u.passwordHash = oldHash ∧ u.deactivated = false) ∧
        d' = (Write.changePassword id newHash).apply d := by
  rw [query_eq_ok, Queries.updateUserPassword,
    Queries.updateUser_alone fun u hu => of_decide_eq_true (Bool.and_eq_true_iff.mp
      (Bool.and_eq_true_iff.mp hu).1).1]
  cases hu : d.users.get? id with
  | none => simp
  | some u => by_cases hp : u.passwordHash = oldHash <;> cases hd : u.deactivated <;>
      simp [Table.key_of_get? hu, Write.applyAll, hp, hd]

namespace Sample

/-- A stand-in for SHA-256 that tells the tokens of the samples apart. -/
def env : AuthEnv where
  hashToken raw := ⟨.ofNat 256 raw.length⟩
  hasher := hasher
  hashPassword password := password
  tokenPair := ⟨"aaaa", "rrrrr", 900, 9000⟩
  newUserId := ⟨2⟩
  now := 0

end Sample

end Messenger
