import Messenger.Services.Statements

/-! What the transactions of `AuthService` leave behind when they commit, and which failures keep
them from it. -/

namespace Messenger
open Transactional
namespace AuthService

variable {env : AuthEnv} {f : Await → Option Fault} {d d' : Db} {u : UUID} {h r : TokenHash}
  {a : Option TokenHash} {b : Bool} {username password : String} {user : User}

/-- `_issue_token_pair` meets no failure and no stored hash. -/
def Issues (env : AuthEnv) (f : Await → Option Fault) (d : Db) : Prop :=
  ∀ k, f (.createToken k) = none ∧ (d.tokens k).get? (env.pair.hash k) = none

theorem issueTokenPair_eq_ok {a : Unit} :
    issueTokenPair env u (raising f) d = .ok (a, d') ↔
      Issues env f d ∧ (d.users.get? u).isSome ∧
        d' = Write.applyAll [.insertToken .access (env.pair.row .access u),
          .insertToken .refresh (env.pair.row .refresh u)] d := by
  have hother : (((Write.insertToken .access (env.pair.row .access u)).apply d).tokens .refresh) =
      d.tokens .refresh := rfl
  have husers : ((Write.insertToken .access (env.pair.row .access u)).apply d).users = d.users := rfl
  simp only [issueTokenPair, Tx.bind_eq_ok, Queries.createAccessToken, Queries.createRefreshToken,
    query_createToken, raising_eq_none]
  constructor
  · rintro ⟨_, _, ⟨hf, hnone, hu, rfl⟩, hf', hnone', -, rfl⟩
    refine ⟨fun k => ?_, hu, rfl⟩
    cases k with
    | access => exact ⟨hf, hnone⟩
    | refresh => exact ⟨hf', hnone'⟩
  · rintro ⟨hissues, hu, rfl⟩
    exact ⟨(), _, ⟨(hissues .access).1, (hissues .access).2, hu, rfl⟩, (hissues .refresh).1,
      (hissues .refresh).2, hu, rfl⟩

theorem registerTx_eq_ok {u' : User} :
    registerTx env user (raising f) d = .ok (u', d') ↔
      f .createUser = none ∧ Issues env f d ∧ u' = user ∧ d.users.get? user.userId = none ∧
        d.users.rows.any (·.username = user.username) = false ∧
        d' = Write.applyAll [.insertUser user, .insertToken .access (env.pair.row .access user.userId),
          .insertToken .refresh (env.pair.row .refresh user.userId)] d := by
  simp only [registerTx, Tx.bind_eq_ok, query_createUser, raising_eq_none, issueTokenPair_eq_ok,
    Tx.pure_eq_ok]
  constructor
  · rintro ⟨_, _, ⟨hf, rfl, hid, hname, rfl⟩, _, _, ⟨hissues, -, rfl⟩, rfl, rfl⟩
    exact ⟨hf, hissues, rfl, hid, hname, rfl⟩
  · rintro ⟨hf, hissues, rfl, hid, hname, rfl⟩
    have hstored : (((Write.insertUser u').apply d).users.get? u'.userId).isSome := by
      simp [Write.apply, Table.get?_insertNew_self hid]
    exact ⟨u', _, ⟨hf, rfl, hid, hname, rfl⟩, (), _, ⟨hissues, hstored, rfl⟩, rfl, rfl⟩

def sweep (d : Db) (k : TokenKind) (u : UUID) : Db :=
  Write.applyAll (((d.tokens k).keysWhere (·.userId = u)).map (.revokeToken k)) d

theorem sweep_of_revoked {k : TokenKind}
    (hr : ∀ h t, (d.tokens k).get? h = some t → t.userId = u → t.isRevoked = true) :
    sweep d k u = d := by
  refine Write.applyAll_revokeToken_of_revoked fun h hh => ?_
  obtain ⟨t, ht, hu⟩ := Table.mem_keysWhere.mp hh
  exact ⟨t, ht, hr h t ht (of_decide_eq_true hu)⟩

theorem revoked_sweep {k : TokenKind} (ho : d.OwnedBy k h u) : (sweep d k u).Revoked k h := by
  obtain ⟨t, ht, hu⟩ := ho
  exact Write.revoked_of_mem (u := u) (List.mem_map.mpr
    ⟨h, Table.mem_keysWhere.mpr ⟨t, ht, decide_eq_true hu⟩, rfl⟩) ⟨t, ht, hu⟩

theorem revoked_sweeps {k : TokenKind} (ho : d.OwnedBy k h u) :
    (sweep (sweep d .access u) .refresh u).Revoked k h := by
  cases k with
  | access => exact Write.revoked_applyAll _ (revoked_sweep ho)
  | refresh => exact revoked_sweep (Write.ownedBy_applyAll _ ho)

theorem refreshTx_eq_ok :
    refreshTx env h (raising f) d = .ok ((b, u), d') ↔
      f .getRefreshToken = none ∧ ∃ token, (d.tokens .refresh).get? h = some token ∧
        b = token.isRevoked ∧ u = token.userId ∧
        if token.isRevoked then
          (∀ k, f (.revokeAllUserTokens k) = none) ∧ d' = sweep (sweep d .access u) .refresh u
        else
          token.isExpired env.now = false ∧ f (.revokeToken .refresh) = none ∧ Issues env f d ∧
            (d.users.get? token.userId).isSome ∧
            d' = Write.applyAll [.revokeToken .refresh h, .insertToken .access (env.pair.row .access u),
              .insertToken .refresh (env.pair.row .refresh u)] d := by
  have hissues : Issues env f ((Write.revokeToken .refresh h).apply d) ↔ Issues env f d := by
    have hkey (k : TokenKind) : (((Write.revokeToken .refresh h).apply d).tokens k).get?
        (env.pair.hash k) = none ↔ (d.tokens k).get? (env.pair.hash k) = none := by
      rw [Write.get?_apply, Write.onToken]
      split <;> simp
    simp only [Issues, hkey]
  simp only [refreshTx, Tx.bind_eq_ok, query_getRefreshToken, raising_eq_none]
  constructor
  · rintro ⟨token, _, ⟨hf, htoken, rfl⟩, hrest⟩
    refine ⟨hf, token, htoken, ?_⟩
    cases hrev : token.isRevoked with
    | true =>
      simp only [hrev, if_true, Tx.bind_eq_ok, Queries.revokeAllUserAccessTokens,
        Queries.revokeAllUserRefreshTokens, query_revokeAllUserTokens, raising_eq_none,
        Tx.pure_eq_ok, Prod.mk.injEq] at hrest
      obtain ⟨_, _, ⟨ha, rfl⟩, _, _, ⟨hr, rfl⟩, ⟨rfl, rfl⟩, rfl⟩ := hrest
      exact ⟨rfl, rfl, fun k => by cases k <;> assumption, rfl⟩
    | false =>
      cases hexp : token.isExpired env.now with
      | true => simp [hrev, hexp] at hrest
      | false =>
        simp only [hrev, hexp, Bool.false_eq_true, if_false, Tx.bind_eq_ok,
          Queries.revokeRefreshToken, query_revokeToken, raising_eq_none, issueTokenPair_eq_ok,
          Tx.pure_eq_ok, Prod.mk.injEq] at hrest
        obtain ⟨_, _, ⟨hr, -, rfl⟩, _, _, ⟨hi, hu, rfl⟩, ⟨rfl, rfl⟩, rfl⟩ := hrest
        exact ⟨rfl, rfl, rfl, hr, hissues.mp hi, by simpa [Write.apply] using hu, rfl⟩
  · rintro ⟨hf, token, htoken, rfl, rfl, hrest⟩
    refine ⟨token, d, ⟨hf, htoken, rfl⟩, ?_⟩
    cases hrev : token.isRevoked with
    | true =>
      rw [hrev, if_pos rfl] at hrest
      obtain ⟨hk, rfl⟩ := hrest
      simp only [if_true, Tx.bind_eq_ok, Queries.revokeAllUserAccessTokens,
        Queries.revokeAllUserRefreshTokens, query_revokeAllUserTokens, raising_eq_none,
        Tx.pure_eq_ok]
      exact ⟨(), _, ⟨hk .access, rfl⟩, (), _, ⟨hk .refresh, rfl⟩, trivial, rfl⟩
    | false =>
      rw [hrev, if_neg (by simp)] at hrest
      obtain ⟨hexp, hr, hi, hu, rfl⟩ := hrest
      simp only [hexp, Bool.false_eq_true, if_false, Tx.bind_eq_ok, Queries.revokeRefreshToken,
        query_revokeToken, raising_eq_none, issueTokenPair_eq_ok, Tx.pure_eq_ok]
      exact ⟨(), _, ⟨hr, by simp [htoken], rfl⟩, (), _,
        ⟨hissues.mpr hi, by simpa [Write.apply] using hu, rfl⟩, trivial, rfl⟩

/-! ### `login` -/

def LoginRuns (env : AuthEnv) (f : Await → Option Fault) (d : Db) (username password : String)
    (user : User) : Prop :=
  (∀ p ∈ [Await.getUserByUsername, .verifyPassword, .needsRehash], f p = none) ∧ Issues env f d ∧
    d.users.rows.find? (·.username = username) = some user ∧
    env.hasher.verify password user.passwordHash = true ∧
    (user.deactivated = true → f .reactivateUser = none) ∧
    (env.hasher.needsRehash user.passwordHash = true →
      f .hashPassword = none ∧ f .updateUserPassword = none)

theorem get?_of_find? (hu : d.users.rows.find? (·.username = username) = some user) :
    d.users.get? user.userId = some user :=
  Table.get?_eq_some.mpr ⟨List.mem_of_find?_eq_some hu, rfl⟩

theorem reactivateIfDeactivated_eq_ok {a : Unit} (hu : d.users.get? user.userId = some user) :
    reactivateIfDeactivated user (raising f) d = .ok (a, d') ↔
      (user.deactivated = true → f .reactivateUser = none) ∧
        d' = if user.deactivated then (Write.setDeactivated user.userId false).apply d else d := by
  unfold reactivateIfDeactivated
  cases hd : user.deactivated with
  | true => simp [query_reactivateUser, hu]
  | false => simp [eq_comm (a := d)]

theorem rehashIfNeeded_eq_ok {a : Unit} {u' : User} (hu : d.users.get? user.userId = some u')
    (hp : u'.passwordHash = user.passwordHash) (hd : u'.deactivated = false) :
    rehashIfNeeded env password user (raising f) d = .ok (a, d') ↔
      f .needsRehash = none ∧
        (env.hasher.needsRehash user.passwordHash = true →
          f .hashPassword = none ∧ f .updateUserPassword = none) ∧
        d' = if env.hasher.needsRehash user.passwordHash then
          (Write.changePassword user.userId (env.hashPassword password)).apply d else d := by
  unfold rehashIfNeeded
  cases hr : env.hasher.needsRehash user.passwordHash with
  | true =>
    simp only [if_true, Tx.bind_eq_ok, Tx.await_eq_ok, raising_eq_none, query_updateUserPassword]
    constructor
    · rintro ⟨_, _, ⟨hf, rfl⟩, _, _, ⟨hf', rfl⟩, hf'', -, rfl⟩
      exact ⟨hf, fun _ => ⟨hf', hf''⟩, rfl⟩
    · rintro ⟨hf, hf', rfl⟩
      exact ⟨(), d, ⟨hf, rfl⟩, (), d, ⟨(hf' trivial).1, rfl⟩, (hf' trivial).2, ⟨u', hu, hp, hd⟩, rfl⟩
  | false =>
    simp only [Bool.false_eq_true, if_false, Tx.bind_eq_ok, Tx.await_eq_ok, raising_eq_none,
      Tx.pure_eq_ok, false_implies, true_and]
    constructor
    · rintro ⟨_, _, ⟨hf, rfl⟩, rfl⟩
      exact ⟨hf, rfl⟩
    · rintro ⟨hf, rfl⟩
      exact ⟨(), _, ⟨hf, rfl⟩, rfl⟩

theorem get?_reactivated (hu : d.users.get? user.userId = some user) :
    ((if user.deactivated then (Write.setDeactivated user.userId false).apply d else d).users.get?
      user.userId) = some { user with deactivated := false } := by
  cases hd : user.deactivated with
  | true => simp [Write.get?_setDeactivated, hu]
  | false =>
    rw [if_neg (by simp), hu, ← hd]

def loginWrites (env : AuthEnv) (password : String) (user : User) : List Write :=
  (if user.deactivated then [.setDeactivated user.userId false] else []) ++
    (if env.hasher.needsRehash user.passwordHash then
      [.changePassword user.userId (env.hashPassword password)] else []) ++
    [.insertToken .access (env.pair.row .access user.userId),
      .insertToken .refresh (env.pair.row .refresh user.userId)]

theorem get?_loginWrites (hu : d.users.get? user.userId = some user) :
    (Write.applyAll (loginWrites env password user) d).users.get? user.userId =
      some { user with
        deactivated := false
        passwordHash := if env.hasher.needsRehash user.passwordHash then env.hashPassword password
          else user.passwordHash } := by
  have hactive := get?_reactivated hu
  have hinserts (d : Db) : (Write.applyAll [.insertToken .access (env.pair.row .access user.userId),
      .insertToken .refresh (env.pair.row .refresh user.userId)] d).users = d.users := rfl
  have hreactivated : Write.applyAll (if user.deactivated then
      [.setDeactivated user.userId false] else []) d =
      if user.deactivated then (Write.setDeactivated user.userId false).apply d else d := by
    split <;> rfl
  simp only [loginWrites, Write.applyAll_append, hinserts, hreactivated]
  cases env.hasher.needsRehash user.passwordHash with
  | true =>
    show ((Write.changePassword user.userId (env.hashPassword password)).apply _).users.get? _ = _
    rw [Write.get?_changePassword, hactive, Option.map_some, if_pos rfl]
    rfl
  | false => exact hactive

theorem loginTx_eq_ok (hu : d.users.rows.find? (·.username = username) = some user) :
    loginTx env username password (raising f) d = .ok ((user, b), d') ↔
      LoginRuns env f d username password user ∧
        b = (user.deactivated || env.hasher.needsRehash user.passwordHash) ∧
        d' = Write.applyAll (loginWrites env password user) d := by
  have hstored := get?_of_find? hu
  have hactive := get?_reactivated hstored
  have hissues₁ (d : Db) : Issues env f (if user.deactivated then
      (Write.setDeactivated user.userId false).apply d else d) ↔ Issues env f d := by
    split <;> rfl
  have hissues₂ (d : Db) : Issues env f (if env.hasher.needsRehash user.passwordHash then
      (Write.changePassword user.userId (env.hashPassword password)).apply d else d) ↔
        Issues env f d := by
    split <;> rfl
  have hexists (d : Db) (hd : (d.users.get? user.userId).isSome) :
      ((if env.hasher.needsRehash user.passwordHash then
        (Write.changePassword user.userId (env.hashPassword password)).apply d else d).users.get?
          user.userId).isSome := by
    split
    · simpa only [Write.get?_changePassword, Option.isSome_map] using hd
    · exact hd
  simp only [loginTx, Tx.bind_eq_ok, query_getUserByUsername, raising_eq_none, Tx.await_eq_ok]
  constructor
  · rintro ⟨u', _, ⟨hget, hu', rfl⟩, _, _, ⟨hverify, rfl⟩, hrest⟩
    obtain rfl : u' = user := Option.some.inj (hu'.symm.trans hu)
    cases hv : env.hasher.verify password u'.passwordHash with
    | false => simp [hv] at hrest
    | true =>
      simp only [hv, Bool.not_true, Bool.false_eq_true, if_false, Tx.bind_eq_ok, Tx.pure_eq_ok,
        Prod.mk.injEq, true_and] at hrest
      obtain ⟨_, d₁, h₁, _, d₂, h₂, _, d₃, h₃, rfl, rfl⟩ := hrest
      obtain ⟨hr, rfl⟩ := (reactivateIfDeactivated_eq_ok hstored).mp h₁
      obtain ⟨hneeds, hrehash, rfl⟩ := (rehashIfNeeded_eq_ok hactive rfl rfl).mp h₂
      obtain ⟨hi, -, rfl⟩ := issueTokenPair_eq_ok.mp h₃
      refine ⟨⟨by simp [*], (hissues₁ _).mp ((hissues₂ _).mp hi), hu, hv, hr, hrehash⟩, rfl, ?_⟩
      unfold loginWrites
      cases u'.deactivated <;> cases env.hasher.needsRehash u'.passwordHash <;> rfl
  · rintro ⟨⟨hf, hi, -, hv, hr, hrehash⟩, rfl, rfl⟩
    refine ⟨user, d, ⟨hf _ (by simp), hu, rfl⟩, (), d, ⟨hf _ (by simp), rfl⟩, ?_⟩
    simp only [hv, Bool.not_true, Bool.false_eq_true, if_false, Tx.bind_eq_ok, Tx.pure_eq_ok]
    refine ⟨(), _, (reactivateIfDeactivated_eq_ok hstored).mpr ⟨hr, rfl⟩, (), _,
      (rehashIfNeeded_eq_ok hactive rfl rfl).mpr ⟨hf _ (by simp), hrehash, rfl⟩, (), _,
      issueTokenPair_eq_ok.mpr ⟨(hissues₂ _).mpr ((hissues₁ _).mpr hi), hexists _ (by simp [hactive]), rfl⟩,
      trivial, ?_⟩
    unfold loginWrites
    cases user.deactivated <;> cases env.hasher.needsRehash user.passwordHash <;> rfl

theorem find?_of_loginTx (h : loginTx env username password (raising f) d = .ok ((user, b), d')) :
    d.users.rows.find? (·.username = username) = some user := by
  obtain ⟨u', _, hget, hrest⟩ := Tx.bind_eq_ok.mp h
  obtain ⟨-, hu, rfl⟩ := query_getUserByUsername.mp hget
  obtain ⟨_, _, -, hrest⟩ := Tx.bind_eq_ok.mp hrest
  split at hrest
  · cases hrest
  · simp only [Tx.bind_eq_ok, Tx.pure_eq_ok, Prod.mk.injEq] at hrest
    obtain ⟨_, _, -, _, _, -, _, _, -, ⟨rfl, -⟩, -⟩ := hrest
    exact hu

/-! ### `logout` -/

def logoutWrites (r : TokenHash) (a : Option TokenHash) : List Write :=
  .revokeToken .refresh r :: a.toList.map (.revokeToken .access)

theorem get?_isSome_apply {k k' : TokenKind} {h h' : TokenHash} :
    ((((Write.revokeToken k' h').apply d).tokens k).get? h).isSome =
      ((d.tokens k).get? h).isSome := by
  rw [Write.get?_apply, Write.onToken]
  split <;> simp

theorem query_revokeToken_missing {k : TokenKind} {h : TokenHash}
    (hh : (d.tokens k).get? h = none) (hf : f (.revokeToken k) = none) :
    query (.revokeToken k) (Queries.revokeToken k h) (raising f) d =
      .error (.db (.notFound k.entity h.str)) := by
  refine query_of_error (raising_eq_none.mpr hf) (?_ : _ = (_, []))
  rw [Queries.revokeToken_alone, hh]
  rfl

theorem logoutTx_of_present (hr : ((d.tokens .refresh).get? r).isSome)
    (ha : ∀ h, a = some h → ((d.tokens .access).get? h).isSome) (f : Await → Option Fault) :
    logoutTx r a (raising f) d = .ok ((), Write.applyAll (logoutWrites r a) d) ∨
      ∃ x : Fault, logoutTx r a (raising f) d = .error x.error := by
  cases hf : f (.revokeToken .refresh) with
  | some x =>
    cases a with
    | none => exact .inr ⟨x, query_of_fault hf⟩
    | some h => exact .inr ⟨x, Tx.bind_of_error (query_of_fault hf)⟩
  | none =>
    have hfirst := query_revokeToken_of_some (raising_eq_none.mpr hf) hr
    cases a with
    | none => exact .inl hfirst
    | some h =>
      have hpresent : ((((Write.revokeToken .refresh r).apply d).tokens .access).get? h).isSome :=
        get?_isSome_apply.trans (ha h rfl)
      cases hf' : f (.revokeToken .access) with
      | none =>
        exact .inl ((Tx.bind_of_ok hfirst).trans
          (query_revokeToken_of_some (raising_eq_none.mpr hf') hpresent))
      | some x => exact .inr ⟨x, (Tx.bind_of_ok hfirst).trans (query_of_fault hf')⟩

/-- Without failures a missing row is all that stops the transaction. -/
theorem logoutTx_of_missing
    (hmissing : (d.tokens .refresh).get? r = none ∨ ∃ h, a = some h ∧ (d.tokens .access).get? h = none) :
    ∃ k h, logoutTx r a (raising fun _ => none) d = .error (.db (.notFound (TokenKind.entity k) h)) := by
  by_cases hr : (d.tokens .refresh).get? r = none
  · refine ⟨.refresh, r.str, ?_⟩
    cases a with
    | none => exact query_revokeToken_missing (f := fun _ => none) hr rfl
    | some h => exact Tx.bind_of_error (query_revokeToken_missing (f := fun _ => none) hr rfl)
  · obtain ⟨h, rfl, ha⟩ := hmissing.resolve_left hr
    have hmissing : (((Write.revokeToken .refresh r).apply d).tokens .access).get? h = none := by
      rw [← Option.not_isSome_iff_eq_none, get?_isSome_apply, ha]
      simp
    have hfirst : query (.revokeToken .refresh) (Queries.revokeRefreshToken r)
        (raising fun _ => none) d = .ok ((), (Write.revokeToken .refresh r).apply d) :=
      query_revokeToken.mpr ⟨rfl, Option.isSome_iff_ne_none.mpr hr, rfl⟩
    exact ⟨.access, h.str, (Tx.bind_of_ok hfirst).trans (query_revokeToken_missing hmissing rfl)⟩

theorem logoutTx_eq_ok {d' : Db} (h : logoutTx r a (raising f) d = .ok ((), d')) :
    ((d.tokens .refresh).get? r).isSome ∧ (∀ h, a = some h → ((d.tokens .access).get? h).isSome) ∧
      d' = Write.applyAll (logoutWrites r a) d := by
  have hpresent : ((d.tokens .refresh).get? r).isSome ∧
      ∀ h, a = some h → ((d.tokens .access).get? h).isSome := by
    cases a with
    | none => exact ⟨(query_revokeToken.mp h).2.1, nofun⟩
    | some h' =>
      obtain ⟨_, d₁, hfirst, hsecond⟩ := Tx.bind_eq_ok.mp h
      obtain ⟨-, hr, rfl⟩ := query_revokeToken.mp hfirst
      refine ⟨hr, fun h'' hh => ?_⟩
      obtain rfl := Option.some.inj hh
      exact get?_isSome_apply.symm.trans (query_revokeToken.mp hsecond).2.1
  refine ⟨hpresent.1, hpresent.2, ?_⟩
  rcases logoutTx_of_present hpresent.1 hpresent.2 f with hok | ⟨x, herr⟩
  · exact (Prod.mk.inj (Except.ok.inj (h.symm.trans hok))).2
  · cases h.symm.trans herr

end AuthService
end Messenger
