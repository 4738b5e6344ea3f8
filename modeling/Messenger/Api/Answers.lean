import Messenger.Api.Effects
import Messenger.Services.Expected

/-! What the status of an answer says: when the server is to blame for an error, and what an error leaves
in the database. -/

namespace Messenger
open Transactional

/-! ### The status of an answer that is no error -/

section

variable {α : Type} {statusCode : ℕ} {body : α → Body} {f : ApiFaults} {s : AppState} {env : Env}
  {user : User} {response : Response}

theorem RouteHandler.statusCode_of_answer {r : Except Error α} (h : answer statusCode body r = .ok response) :
    response.statusCode = statusCode := by
  obtain ⟨a, -, rfl⟩ := answer_eq_ok.mp h
  rfl

theorem UserEndpoint.statusCode_of_handle {e : UserEndpoint}
    (h : (e.handle env user f s).1 = .ok response) : response.statusCode ∈ [200, 201, 204] := by
  cases e with
  | getMe | getMyProfile =>
    obtain rfl := Except.ok.inj h
    exact List.mem_cons_self ..
  | sendRequest | createGroup | addMember | sendDirectMessage | sendGroupMessage =>
    have hcode : response.statusCode = 201 := RouteHandler.statusCode_of_answer h
    rw [hcode]
    decide
  | deactivateMyAccount | reactivateMyAccount | deleteMyAccount | removeOrDecline | deleteGroup
  | removeMember =>
    have hcode : response.statusCode = 204 := RouteHandler.statusCode_of_answer h
    rw [hcode]
    decide
  | _ =>
    have hcode : response.statusCode = 200 := RouteHandler.statusCode_of_answer h
    rw [hcode]
    decide

theorem SessionEndpoint.statusCode_of_handle {e : SessionEndpoint} {c : Option String}
    (h : (e.handle env c f s).1 = .ok response) : response.statusCode ∈ [200, 201, 204] := by
  cases e with
  | register username password =>
    have hcode : response.statusCode = 201 := RouteHandler.statusCode_of_answer h
    rw [hcode]
    decide
  | login | refresh =>
    have hcode : response.statusCode = 200 := RouteHandler.statusCode_of_answer h
    rw [hcode]
    decide
  | logout raw =>
    have hcode : response.statusCode = 204 := RouteHandler.statusCode_of_answer h
    rw [hcode]
    decide

theorem statusCode_of_serve {r : Request} {s' : AppState}
    (h : serve env f r s = (.ok response, s')) : response.statusCode < 400 := by
  have hcode : response.statusCode ∈ [200, 201, 204] := by
    rcases serve_cases env f r s with
      ⟨e, s₁, hserve, -⟩ | ⟨e, -, -, hserve⟩ | ⟨e, user, s₁, -, -, -, hserve⟩
    · rw [hserve] at h
      cases (Prod.mk.inj h).1
    · exact SessionEndpoint.statusCode_of_handle (congrArg Prod.fst (hserve.symm.trans h))
    · exact UserEndpoint.statusCode_of_handle (congrArg Prod.fst (hserve.symm.trans h))
  simp only [List.mem_cons, List.not_mem_nil, or_false] at hcode
  omega

end

/-! ### Errors of the server -/

def noApiFault : ApiFaults := fun _ => none

section

variable {α : Type} {statusCode : ℕ} {body : α → Body} {s : AppState} {env : Env} {user : User}

end

section

variable {env : Env} {r : Request} {s s' : AppState} {x : ApiError} {user : User} {e : UserEndpoint}

end

namespace Sample

def founder : AppState :=
  let registered := (respond api noApiFault ⟨.session (.register "ada" "password"), none⟩ { db := {} }).2
  (respond api noApiFault ⟨.user (.createGroup "team"), some "aaaa"⟩ registered).2

end Sample

/-- The call raises only after it has committed: the answer to its `COMMIT` is lost, it cannot announce what
it has done, or a revoked refresh token has been presented again. -/
inductive SessionEndpoint.RaisesLate (env : Env) (f : ApiFaults) (d : Db) : SessionEndpoint → Prop
  | answer {e : SessionEndpoint} {x : Fault} (hf : f (.auth .commitAnswer) = some x) : RaisesLate env f d e
  | announcement {e : SessionEndpoint} {event : SystemEvent} {x : Fault}
    (hf : f (.auth (.publish event)) = some x) : RaisesLate env f d e
  | reuse {raw : String} {t : Token} (ht : (d.tokens .refresh).get? (env.hashToken raw) = some t)
    (hrevoked : t.isRevoked = true) : RaisesLate env f d (.refresh raw)

section

variable {f : Await → Option Fault} {w : AuthState} {env : AuthEnv} {raw username password : String}
  {access : Option String}

theorem answers_publish {event : SystemEvent} (hf : ∀ event, f (.publish event) = none) :
    (publishStreamEvent event (raising f) w).1.toOption.isSome := by
  rw [publishStreamEvent_of_none (raising_eq_none.mpr (hf event))]
  rfl

theorem answers_publish_bind {α : Type} {event : SystemEvent} {k : Unit → AuthOp α}
    (hf : ∀ event, f (.publish event) = none) (hk : ∀ w, (k () (raising f) w).1.toOption.isSome) :
    ((publishStreamEvent event >>= k) (raising f) w).1.toOption.isSome :=
  Op.isSome_bind_of_ok (publishStreamEvent_of_none (raising_eq_none.mpr (hf event))) (hk _)

theorem isSome_transaction_bind {α β γ : Type} {body : AuthTx α} {announce : α → List γ}
    {k : α → AuthOp β} (hanswer : f .commitAnswer = none)
    (hk : ∀ a w, (k a (raising f) w).1.toOption.isSome) (w : AuthState) :
    ((transaction body >>= k) (raising f) w).1.toOption.isSome =
      (Op.committed .begin .commit body announce (raising f) w.db).isSome := by
  rcases transaction_bind_cases announce k (raising f) w with
    ⟨a, d, hcommitted, hrun | ⟨e, hlost, -⟩⟩ | ⟨hnone, e, hrun⟩
  · rw [hrun, hcommitted, hk]
    rfl
  · cases (raising_eq_none.mpr hanswer).symm.trans hlost
  · rw [hrun, hnone]
    rfl

namespace AuthService

theorem isSome_register (hanswer : f .commitAnswer = none) :
    (register env username password (raising f) w).1.toOption.isSome =
      ((Operation.register env username password).transact f w.db).isSome := by
  rw [register, Op.isSome_handle fun _ _ => handleDbConstraintError_ne_ok, Operation.transact]
  cases hhash : f .hashPassword with
  | some x =>
    have hawait : raising f .hashPassword = some x.error := by rw [raising, hhash, Option.map_some]
    rw [Op.bind_of_error (Op.await_apply_of_some hawait)]
    rfl
  | none =>
    rw [Op.bind_of_ok (Op.await_apply_of_none (raising_eq_none.mpr hhash))]
    exact isSome_transaction_bind hanswer (fun _ _ => rfl) w

theorem answers_login (hanswer : f .commitAnswer = none) (hf : ∀ event, f (.publish event) = none)
    (h : ((Operation.login env username password).transact f w.db).isSome) :
    (login env username password (raising f) w).1.toOption.isSome := by
  apply Op.isSome_handle_of_isSome
  apply Op.isSome_handle_of_isSome
  refine (isSome_transaction_bind hanswer (fun a w => ?_) w).trans h
  obtain ⟨user, cacheNeedsInvalidation⟩ := a
  cases cacheNeedsInvalidation with
  | true => exact answers_publish_bind hf fun _ => rfl
  | false => rfl

theorem answers_logout (hanswer : f .commitAnswer = none) (hf : ∀ event, f (.publish event) = none)
    (h : ((Operation.logout env raw access).transact f w.db).isSome) :
    (logout env raw access (raising f) w).1.toOption.isSome := by
  apply Op.isSome_handle_of_isSome
  refine (isSome_transaction_bind hanswer (fun _ w => ?_) w).trans h
  show (afterLogout _ _ (raising f) w).1.toOption.isSome
  cases logoutAccessHash env access with
  | none => exact answers_publish hf
  | some accessHash =>
    show ((publishStreamEvent _ >>= fun _ => publishStreamEvent _) (raising f) _).1.toOption.isSome
    exact answers_publish_bind hf fun _ => answers_publish hf

/-- A refresh token that is not revoked is rotated, not reused. -/
theorem answers_refresh (hanswer : f .commitAnswer = none) (hf : ∀ event, f (.publish event) = none)
    (hactive : ∀ t, (w.db.tokens .refresh).get? (env.hashToken raw) = some t → t.isRevoked = false)
    (h : ((Operation.refresh env raw).transact f w.db).isSome) :
    (refresh env raw (raising f) w).1.toOption.isSome := by
  apply Op.isSome_handle_of_isSome
  apply Op.isSome_handle_of_isSome
  obtain ⟨⟨d, events⟩, hcommitted⟩ := Option.isSome_iff_exists.mp h
  obtain ⟨hbegin, hcommit, ⟨isReused, userId⟩, hbody, -⟩ := Op.committed_eq_some.mp hcommitted
  have hrotated : isReused = false := by
    obtain ⟨t, _, hget, hrest⟩ := Tx.bind_eq_ok.mp hbody
    obtain ⟨-, ht, rfl⟩ := query_getRefreshToken.mp hget
    simp only [hactive t ht, Bool.false_eq_true, if_false] at hrest
    split at hrest
    · exact absurd hrest Tx.throw_eq_ok
    · obtain ⟨_, _, -, hissue⟩ := Tx.bind_eq_ok.mp hrest
      obtain ⟨_, _, -, hreturn⟩ := Tx.bind_eq_ok.mp hissue
      exact (Prod.mk.inj (Tx.pure_eq_ok.mp hreturn).1).1.symm
  subst hrotated
  have hrun : transaction (refreshTx env (env.hashToken raw)) (raising f) w =
      (.ok (false, userId), { w with db := d }) :=
    transaction_of_ok hbegin hbody hcommit (raising_eq_none.mpr hanswer)
  exact Op.isSome_bind_of_ok hrun (answers_publish_bind hf fun _ => rfl)

end AuthService

end

section

variable {env : Env} {f : ApiFaults} {r : Request} {s : AppState} {x : ApiError}

/-- A call on sessions that has committed raises late, or answers. -/
theorem SessionEndpoint.answers_of_commit {e : SessionEndpoint} {c : Option String}
    (hlate : ¬ e.RaisesLate env f s.db)
    (h : ((e.operation env c).transact (fun p => f (.auth p)) s.db).isSome) :
    (e.handle env c f s).1.toOption.isSome := by
  have hf (event : SystemEvent) : f (.auth (.publish event)) = none := by
    cases hevent : f (.auth (.publish event)) with
    | none => rfl
    | some x => exact absurd (.announcement hevent) hlate
  have hanswer : f (.auth .commitAnswer) = none := by
    cases hlost : f (.auth .commitAnswer) with
    | none => rfl
    | some x => exact absurd (.answer hlost) hlate
  cases e with
  | register username password =>
    exact (RouteHandler.isSome_answer.trans (AuthService.isSome_register hanswer)).trans h
  | login username password => exact RouteHandler.isSome_answer.trans (AuthService.answers_login hanswer hf h)
  | refresh raw =>
    refine RouteHandler.isSome_answer.trans (AuthService.answers_refresh hanswer hf (fun t ht => ?_) h)
    cases hrevoked : t.isRevoked with
    | true => exact absurd (.reuse ht hrevoked) hlate
    | false => rfl
  | logout raw => exact RouteHandler.isSome_answer.trans (AuthService.answers_logout hanswer hf h)

/-- An error leaves the database as it was, but for a call on sessions that raises late. -/
theorem error_answers_change_nothing (env : Env) (f : ApiFaults) (r : Request) (s : AppState) :
    (respond env f r s).1.statusCode < 400 ∨ (respond env f r s).2.db = s.db ∨
      ∃ e, r.endpoint = .session e ∧ e.RaisesLate env f s.db := by
  rw [respond_snd]
  cases hserve : serve env f r s with
  | mk answer s' =>
    cases answer with
    | ok response =>
      rw [respond_of_ok hserve]
      exact .inl (statusCode_of_serve hserve)
    | error x =>
      refine .inr ?_
      rcases serve_cases env f r s with
        ⟨x', s₁, hrun, hrefused⟩ | ⟨e, hr, he, hrun⟩ | ⟨e, user, s₁, hr, he, hauth, hrun⟩
      · obtain rfl : s₁ = s' := (Prod.mk.inj (hrun.symm.trans hserve)).2
        exact .inl hrefused.db_eq
      · by_cases hlate : e.RaisesLate env f s.db
        · exact .inr ⟨e, hr, hlate⟩
        · have hraised : (e.handle env r.credentials f s).1 = .error x :=
            congrArg Prod.fst (hrun.symm.trans hserve)
          have hnone : (e.operation env r.credentials).transact (fun p => f (.auth p)) s.db = none := by
            rw [← Option.not_isSome_iff_eq_none]
            intro hsome
            have hanswers := SessionEndpoint.answers_of_commit hlate hsome
            rw [hraised] at hanswers
            cases hanswers
          have hdb : (e.handle env r.credentials f s).2.db = s.db := by
            rw [e.handle_db, hnone]
            rfl
          rw [← hrun, hserve] at hdb
          exact .inl hdb
      · have hraised : (e.handle env user f s₁).1 = .error x :=
          congrArg Prod.fst (hrun.symm.trans hserve)
        have hdb := (e.performs env f user s₁).raised x hraised
        rw [← hrun, hserve] at hdb
        exact .inl (hdb.trans (db_of_getCurrentUser hauth))

end

end Messenger
