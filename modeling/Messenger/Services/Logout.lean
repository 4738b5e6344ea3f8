import Messenger.Services.Transactions

/-! What a normal return of `logout` says about the session. A missing row of either token makes the
transaction raise `NotFoundError`, which the decorator turns into a normal return after everything
has been rolled back. -/

namespace Messenger
open Transactional
namespace AuthService

variable {env : AuthEnv} {w w' : AuthState} {f : Await → Option Fault} {r : TokenHash}
  {a : Option TokenHash} {d : Db}

/-- Neither token can be used any more, and the cache of this worker does not hold `a`. -/
def SessionEnded (env : AuthEnv) (w : AuthState) (r : String) (a : Option String) : Prop :=
  ¬ w.db.Unrevoked .refresh (env.hashToken r) ∧
    ∀ x, a = some x → ¬ w.db.Unrevoked .access (env.hashToken x) ∧ w.cache (env.hashToken x) = none

/-- The rows of both tokens are stored, where an empty access token has no row to be revoked. -/
def LogoutTargets (env : AuthEnv) (w : AuthState) (r : String) (a : Option String) : Prop :=
  ((w.db.tokens .refresh).get? (env.hashToken r)).isSome ∧
    ∀ x, a = some x →
      if x = "" then
        ¬ w.db.Unrevoked .access (env.hashToken x) ∧ w.cache (env.hashToken x) = none
      else ((w.db.tokens .access).get? (env.hashToken x)).isSome

theorem afterLogout_cases (r : TokenHash) (a : Option TokenHash) (f : Await → Option Fault)
    (w : AuthState) :
    (∃ es, afterLogout r a (raising f) w =
        (.ok (), { w with cache := a.elim w.cache w.cache.evict, stream := w.stream ++ es })) ∨
      ∃ (x : Fault) (w' : AuthState), afterLogout r a (raising f) w = (.error x.error, w') := by
  cases a with
  | none =>
    rcases publishStreamEvent_cases (.tokenRevoked r) f w with hp | ⟨x, hp⟩
    · exact .inl ⟨_, hp⟩
    · exact .inr ⟨x, w, hp⟩
  | some h =>
    have hevict : afterLogout r (some h) (raising f) w =
        (do publishStreamEvent (.tokenRevoked r); publishStreamEvent (.tokenRevoked h) : AuthOp Unit)
          (raising f) { w with cache := w.cache.evict h } := rfl
    rw [hevict]
    rcases publishStreamEvent_cases (.tokenRevoked r) f { w with cache := w.cache.evict h } with hp | ⟨x, hp⟩
    · rw [Op.bind_of_ok hp]
      rcases publishStreamEvent_cases (.tokenRevoked h) f
        { w with cache := w.cache.evict h, stream := w.stream ++ [.tokenRevoked r] } with hp' | ⟨x, hp'⟩
      · exact .inl ⟨[.tokenRevoked r, .tokenRevoked h], by simpa using hp'⟩
      · exact .inr ⟨x, _, hp'⟩
    · exact .inr ⟨x, _, Op.bind_of_error hp⟩

theorem logout_eq_ok {r : String} {a : Option String}
    (h : logout env r a (raising f) w = (.ok (), w')) :
    logoutTx (env.hashToken r) (logoutAccessHash env a) (raising f) w.db = .ok ((), w'.db) ∧
        w'.cache = (logoutAccessHash env a).elim w.cache w.cache.evict ∨
      w' = w ∧ ∃ k i, logoutTx (env.hashToken r) (logoutAccessHash env a) (raising f) w.db =
        .error (.db (.notFound k i)) := by
  have hfault {p : Await} {k : Entity} {i : String} :
      raising f p ≠ some (.db (.notFound k i)) := by
    simp only [raising, ne_eq, Option.map_eq_some_iff, not_exists, not_and]
    intro x _
    cases x <;> simp [Fault.error]
  rcases transaction_cases (logoutTx (env.hashToken r) (logoutAccessHash env a)) (raising f) w with
    ⟨_, d, -, htx, -, ⟨-, hrun⟩ | ⟨e, hlost, hrun⟩⟩ | ⟨e, hrun, he⟩
  · refine .inl ?_
    rcases afterLogout_cases (env.hashToken r) (logoutAccessHash env a) f { w with db := d } with
      ⟨es, hafter⟩ | ⟨x, w₁, hafter⟩
    · have := (Op.handle_of_ok ((Op.bind_of_ok hrun).trans hafter)).symm.trans h
      obtain ⟨-, rfl⟩ := Prod.mk.inj this
      exact ⟨htx, rfl⟩
    · have := (Op.handle_of_error ((Op.bind_of_ok hrun).trans hafter)).symm.trans h
      rw [handleDbNotFoundError_fault] at this
      cases this
  · -- the call raises where the answer to its commit is lost
    obtain ⟨x, -, rfl⟩ := Option.map_eq_some_iff.mp hlost
    have := (Op.handle_of_error (Op.bind_of_error hrun)).symm.trans h
    rw [handleDbNotFoundError_fault] at this
    cases this
  · refine .inr ?_
    have := (Op.handle_of_error (Op.bind_of_error hrun)).symm.trans h
    obtain ⟨hg, rfl⟩ := Prod.mk.inj this
    obtain ⟨k, i, rfl, -⟩ := handleDbNotFoundError_eq_ok hg
    exact ⟨rfl, k, i, (he.resolve_left hfault).resolve_right hfault⟩

theorem logout_of_missing {r : String} {a : Option String}
    (hmissing : (w.db.tokens .refresh).get? (env.hashToken r) = none ∨
      ∃ h, logoutAccessHash env a = some h ∧ (w.db.tokens .access).get? h = none) :
    logout env r a (raising fun _ => none) w = (.ok (), w) := by
  obtain ⟨k, i, htx⟩ := logoutTx_of_missing hmissing
  rcases transaction_cases (logoutTx (env.hashToken r) (logoutAccessHash env a))
    (raising fun _ => none) w with ⟨_, d, -, htx', -⟩ | ⟨e, hrun, he⟩
  · cases htx.symm.trans htx'
  · have heq : e = .db (.notFound k.entity i) := by
      rcases he with he | he | he
      · cases he
      · exact Except.error.inj (he.symm.trans htx)
      · cases he
    subst heq
    refine (Op.handle_of_error (Op.bind_of_error hrun)).trans ?_
    cases k <;> rfl

theorem logout_alone {r : String} {a : Option String} (ha : logoutAccessHash env a = none)
    (hr : ((w.db.tokens .refresh).get? (env.hashToken r)).isSome) :
    logout env r a (raising fun _ => none) w =
      (.ok (), { w with
        db := (Write.revokeToken .refresh (env.hashToken r)).apply w.db
        stream := w.stream ++ [.tokenRevoked (env.hashToken r)] }) := by
  have hbody : logoutTx (env.hashToken r) none (raising fun _ => none) w.db =
      .ok ((), (Write.revokeToken .refresh (env.hashToken r)).apply w.db) :=
    query_revokeToken_of_some (p := .revokeToken .refresh) (f := raising fun _ => none) rfl hr
  have htx : transaction (logoutTx (env.hashToken r) none) (raising fun _ => none) w =
      (.ok (), { w with db := (Write.revokeToken .refresh (env.hashToken r)).apply w.db }) :=
    transaction_of_ok rfl hbody rfl rfl
  simp only [logout, ha]
  exact Op.handle_of_ok ((Op.bind_of_ok htx).trans (publishStreamEvent_of_none rfl))

theorem not_unrevoked_of_logoutWrites {k : TokenKind} {h : TokenHash}
    (hmem : .revokeToken k h ∈ logoutWrites r a) (hh : ((d.tokens k).get? h).isSome) :
    ¬ (Write.applyAll (logoutWrites r a) d).Unrevoked k h := by
  obtain ⟨t, ht⟩ := Option.isSome_iff_exists.mp hh
  exact (Write.revoked_of_mem hmem ⟨t, ht, rfl⟩).not_unrevoked

theorem unrevoked_access_revokeToken {h : TokenHash} :
    ((Write.revokeToken .refresh r).apply d).Unrevoked .access h ↔ d.Unrevoked .access h := by
  simp only [Db.Unrevoked, Write.get?_apply_of_ne (.revokeToken .refresh r) d
    (show Write.target _ ≠ RowKey.token .access h by simp [Write.target])]

theorem sessionEnded_of_commit {r : String} {a : Option String}
    (hr : ((w.db.tokens .refresh).get? (env.hashToken r)).isSome)
    (ha : ∀ h, logoutAccessHash env a = some h → ((w.db.tokens .access).get? h).isSome)
    (hempty : a = some "" → ¬ w.db.Unrevoked .access (env.hashToken "") ∧
      w.cache (env.hashToken "") = none)
    (hdb : w'.db = Write.applyAll (logoutWrites (env.hashToken r) (logoutAccessHash env a)) w.db)
    (hcache : w'.cache = (logoutAccessHash env a).elim w.cache w.cache.evict) :
    SessionEnded env w' r a := by
  refine ⟨hdb ▸ not_unrevoked_of_logoutWrites (List.mem_cons_self ..) hr, fun x hx => ?_⟩
  subst hx
  rw [hdb, hcache]
  by_cases hx : x = ""
  · subst hx
    exact ⟨fun hu => (hempty rfl).1 (unrevoked_access_revokeToken.mp hu), (hempty rfl).2⟩
  · have hhash : logoutAccessHash env (some x) = some (env.hashToken x) := by
      simp [logoutAccessHash, Option.filter, hx]
    rw [hhash] at ha ⊢
    exact ⟨not_unrevoked_of_logoutWrites (by simp [logoutWrites]) (ha _ rfl), Function.update_self ..⟩

/-- A normal return of `logout` means that the session is over, whatever fails on the way, if and
only if the session was over before or the rows of all given tokens are stored. -/
theorem logout_ends_session_iff (env : AuthEnv) (w : AuthState) (r : String) (a : Option String) :
    (∀ f w', logout env r a (raising f) w = (.ok (), w') → SessionEnded env w' r a) ↔
      SessionEnded env w r a ∨ LogoutTargets env w r a := by
  constructor
  · intro hall
    by_cases hmissing : (w.db.tokens .refresh).get? (env.hashToken r) = none ∨
        ∃ h, logoutAccessHash env a = some h ∧ (w.db.tokens .access).get? h = none
    · exact .inl (hall _ w (logout_of_missing hmissing))
    · obtain ⟨hr, ha⟩ := not_or.mp hmissing
      have hr := Option.isSome_iff_ne_none.mpr hr
      refine .inr ⟨hr, fun x hx => ?_⟩
      subst hx
      split
      · next hx =>
        subst hx
        -- nothing touches the empty access token, so what holds of it at the end held before
        obtain ⟨hu, hc⟩ := (hall _ _ (logout_alone rfl hr)).2 "" rfl
        exact ⟨fun hu' => hu (unrevoked_access_revokeToken.mpr hu'), hc⟩
      · next hx =>
        refine Option.isSome_iff_ne_none.mpr fun hnone => ha ⟨_, ?_, hnone⟩
        simp [logoutAccessHash, Option.filter, hx]
  · intro h f w' hret
    rcases logout_eq_ok hret with ⟨htx, hcache⟩ | ⟨rfl, k, i, htx⟩
    · obtain ⟨hr, ha, hdb⟩ := logoutTx_eq_ok htx
      refine sessionEnded_of_commit hr ha (fun hx => ?_) hdb hcache
      rcases h with h | h
      · exact h.2 "" hx
      · simpa using h.2 "" hx
    · rcases h with h | ⟨hr, ha⟩
      · exact h
      · -- with all rows stored, no query of the transaction misses one
        have hpresent : ∀ h, logoutAccessHash env a = some h →
            ((w'.db.tokens .access).get? h).isSome := by
          intro h hh
          simp only [logoutAccessHash, Option.map_eq_some_iff, Option.filter_eq_some_iff] at hh
          obtain ⟨x, ⟨hx, hne⟩, rfl⟩ := hh
          have := ha x hx
          rwa [if_neg (by simpa using hne)] at this
        rcases logoutTx_of_present hr hpresent f with hok | ⟨x, herr⟩
        · cases hok.symm.trans htx
        · have := Except.error.inj (herr.symm.trans htx)
          cases x <;> cases this

end AuthService

namespace Sample

def accessOnly : Db :=
  Write.applyAll [.insertUser user, .insertToken .access ((pair 1).row .access user.userId)] {}

end Sample

/-- The refresh token `rr` is not stored, and the access token `a` stays usable. -/
theorem not_sessionEnded_accessOnly :
    ∃ w', AuthService.logout Sample.env "rr" (some "a") (raising fun _ => none)
        { db := Sample.accessOnly } = (.ok (), w') ∧
      ¬ AuthService.SessionEnded Sample.env w' "rr" (some "a") := by
  refine ⟨_, AuthService.logout_of_missing (.inl (by decide)), fun h => ?_⟩
  exact (h.2 "a" rfl).1 (by decide)

end Messenger
