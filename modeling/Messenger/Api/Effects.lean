import Messenger.Api.Routers
import Messenger.Services.Calls

/-! What a request leaves in the database: what one call of a service commits, made for the user that
the request is authenticated as, or nothing. -/

namespace Messenger
open Transactional

namespace SessionEndpoint

def operation (env : Env) (credentials : Option String) : SessionEndpoint → Operation
  | register username password => .register env.auth username password
  | login username password => .login env.auth username password
  | refresh refreshToken => .refresh env.auth refreshToken
  | logout refreshToken => .logout env.auth refreshToken credentials

end SessionEndpoint

namespace UserEndpoint

def call (env : Env) (f : ApiFaults) (user : User) : UserEndpoint → Option UserCall
  | deactivateMyAccount =>
    some (.service (.auth (.deactivateAccount user.userId) fun p => f (.auth p)))
  | reactivateMyAccount =>
    some (.service (.auth (.reactivateAccount user.userId) fun p => f (.auth p)))
  | deleteMyAccount => some (.service (.auth (.deleteAccount user.userId) fun p => f (.auth p)))
  | sendRequest addresseeId =>
    some (.friendship (.sendFriendRequest user.userId addresseeId env.now))
  | acceptRequest requesterId =>
    some (.friendship (.acceptFriendRequest user.userId requesterId env.now))
  | removeOrDecline targetId => some (.friendship (.removeOrDeclineFriendship user.userId targetId))
  | createGroup name => some (.service (.group (.createGroup user.userId name env.newId env.now)
      fun p => (f (.group p)).map Fault.error))
  | deleteGroup groupId => some (.service (.group (.deleteGroup user.userId groupId)
      fun p => (f (.group p)).map Fault.error))
  | addMember groupId userId => some (.service (.group (.addMember user.userId groupId userId env.now)
      fun p => (f (.group p)).map Fault.error))
  | removeMember groupId userId => some (.service (.group (.removeMember user.userId groupId userId)
      fun p => (f (.group p)).map Fault.error))
  | sendDirectMessage recipientId content =>
    some (.service (.message (.sendDirectMessage env.messaging user.userId recipientId content)
      fun p => (f (.messaging p)).map Fault.error))
  | sendGroupMessage groupId content =>
    some (.service (.message (.sendGroupMessage env.messaging user.userId groupId content)
      fun p => (f (.messaging p)).map Fault.error))
  | _ => none

end UserEndpoint

/-- The handler has answered and what is left is what the call `c` commits, or it has raised and
nothing is changed. The stream and the cache are none of its business. -/
structure Performs (f : ApiFaults) (c : Option UserCall) (s : AppState) (r : Except ApiError Response)
    (s' : AppState) : Prop where
  answered : ∀ response, r = .ok response → c.elim (s'.db = s.db) fun c => c.commit s.db = some s'.db
  raised : ∀ e, r = .error e → s'.db = s.db
  /-- Without a failure it answers whatever commits. -/
  complete : (∀ p, f p = none) → (c.bind fun c => c.commit s.db).isSome → r.toOption.isSome
  frame : ∃ db spawned, s' = { s with db, spawned }

section

variable {α : Type} {statusCode : ℕ} {body : α → Body} {f : ApiFaults} {s : AppState}

theorem RouteHandler.answer_eq_ok {r : Except Error α} {response : Response} :
    answer statusCode body r = .ok response ↔
      ∃ a, r = .ok a ∧ response = { statusCode, body := body a } := by
  cases r with
  | ok a => simp [answer, eq_comm (a := response)]
  | error e => simp [answer]

theorem RouteHandler.answer_eq_error {r : Except Error α} {e : ApiError} :
    answer statusCode body r = .error e ↔ ∃ x, r = .error x ∧ e = .raised x := by
  cases r with
  | ok a => simp [answer]
  | error x => simp [answer, eq_comm (a := e)]

theorem RouteHandler.isSome_answer {r : Except Error α} :
    (answer statusCode body r).toOption.isSome = r.toOption.isSome := by
  cases r <;> rfl

theorem Performs.nothing (r : Except ApiError Response) : Performs f none s r s where
  answered _ _ := rfl
  raised _ _ := rfl
  complete _ h := absurd h Bool.false_ne_true
  frame := ⟨_, _, rfl⟩

theorem Performs.of_commit {c : UserCall} {r : Except Error α} {d : Db} {spawned : List PushTask}
    (hanswers : r.toOption.isSome = (c.commit s.db).isSome) (hdb : d = (c.commit s.db).getD s.db) :
    Performs f (some c) s (RouteHandler.answer statusCode body r) { s with db := d, spawned } where
  answered response h := by
    obtain ⟨a, rfl, -⟩ := RouteHandler.answer_eq_ok.mp h
    obtain ⟨d', hd⟩ := Option.isSome_iff_exists.mp hanswers.symm
    show c.commit s.db = some d
    rw [hdb, hd, Option.getD_some]
  raised e h := by
    obtain ⟨x, rfl, -⟩ := RouteHandler.answer_eq_error.mp h
    have hnone : c.commit s.db = none := Option.isSome_eq_false_iff.mp hanswers.symm |>
      Option.isNone_iff_eq_none.mp
    show d = s.db
    rw [hdb, hnone, Option.getD_none]
  complete _ h := by
    rw [RouteHandler.isSome_answer, hanswers]
    exact h
  frame := ⟨_, _, rfl⟩

end

/-! ### The handlers of the services -/

section

variable {α : Type} {statusCode : ℕ} {body : α → Body} {f : ApiFaults} {s : AppState} {e : Error}

theorem handleDbNotFoundError_ne_ok {overrides : Entity → Option Handler} {kwargs : Kwargs} {a : α} :
    handleDbNotFoundError overrides (fun _ => none) kwargs e ≠ .ok a := by
  intro h
  obtain ⟨_, _, -, hsome⟩ := handleDbNotFoundError_eq_ok h
  cases hsome

theorem performs_account {op : Operation} {tx : AuthTx Unit} {body : Unit → Body}
    (htransact : ∀ g d, op.transact g d =
      Op.committed .begin .commit tx (fun _ => []) (raising g) d) :
    Performs f (some (.service (.auth op fun p => f (.auth p)))) s
      (RouteHandler.auth statusCode body (UserService.account tx) f s).1
      (RouteHandler.auth statusCode body (UserService.account tx) f s).2 := by
  let g : Await → Option Fault := fun p => f (.auth p)
  let w : AuthState := { db := s.db, stream := s.stream, cache := s.authCache }
  have hsnd : (UserService.account tx (raising g) w).2 =
      (op.transact g s.db).elim w fun r => { w with db := r.1 } := by
    rw [UserService.account, Op.handle_snd, htransact]
    exact Op.transaction_snd _ w
  have hfst : (UserService.account tx (raising g) w).1.toOption.isSome =
      (op.transact g s.db).isSome := by
    rw [UserService.account, Op.isSome_handle fun _ _ => handleDbNotFoundError_ne_ok, htransact]
    exact Op.isSome_transaction _ w
  have hstate : (RouteHandler.auth statusCode body (UserService.account tx) f s).2 =
      { s with db := ((op.transact g s.db).map Prod.fst).getD s.db } := by
    show { s with
      db := (UserService.account tx (raising g) w).2.db
      stream := (UserService.account tx (raising g) w).2.stream
      authCache := (UserService.account tx (raising g) w).2.cache } = _
    rw [hsnd]
    cases op.transact g s.db <;> rfl
  rw [hstate]
  refine Performs.of_commit (hfst.trans ?_) ?_
  · rw [UserCall.commit_auth, Option.isSome_map]
  · rw [UserCall.commit_auth]

theorem performs_group {op : GroupOperation} {m : GroupOp α}
    (hsnd : ∀ g w, (m g w).2 = op.run g w)
    (hfst : ∀ g w, (m g w).1.toOption.isSome = (op.transact g w.db).isSome) :
    Performs f (some (.service (.group op fun p => (f (.group p)).map Fault.error))) s
      (RouteHandler.group statusCode body m f s).1 (RouteHandler.group statusCode body m f s).2 := by
  refine Performs.of_commit ((hfst _ _).trans ?_) ?_
  · rw [UserCall.commit_group, Option.isSome_map]
  · rw [UserCall.commit_group, hsnd, GroupOperation.run_eq]
    cases op.transact _ s.db <;> rfl

theorem performs_message {op : MessageOperation} {m : MessagingOp α}
    (hsnd : ∀ g w, (m g w).2 = op.run g w)
    (hfst : ∀ g w, (m g w).1.toOption.isSome = (op.transact g w.db).isSome) :
    Performs f (some (.service (.message op fun p => (f (.messaging p)).map Fault.error))) s
      (RouteHandler.messaging statusCode body m f s).1
      (RouteHandler.messaging statusCode body m f s).2 := by
  refine Performs.of_commit ((hfst _ _).trans ?_) ?_
  · rw [UserCall.commit_message, Option.isSome_map]
  · rw [UserCall.commit_message, hsnd, MessageOperation.run_eq]
    cases op.transact _ s.db <;> rfl

theorem performs_friendship (c : FriendshipCall) (body : Body) :
    Performs f (some (.friendship c)) s (RouteHandler.friendship statusCode c body f s).1
      (RouteHandler.friendship statusCode c body f s).2 := by
  unfold RouteHandler.friendship
  rcases c.perform_cases (fun p => (f (.friendship p)).map Fault.error) s.db with
    ⟨d, hperform, hrun⟩ | ⟨e, hperform⟩
  · rw [hperform]
    have hcommit : (UserCall.friendship c).commit s.db = some d := by
      rw [UserCall.commit, hrun]
      rfl
    refine ⟨fun _ _ => hcommit, fun e h => ?_, fun _ _ => rfl, _, _, rfl⟩
    cases h
  · refine ⟨fun response h => ?_, fun _ _ => ?_, fun hf hcommit => ?_, ?_⟩
    · rw [hperform] at h
      cases h
    · rw [hperform]
    · -- it raises with nothing failing, so alone it raises too
      obtain ⟨d, hd⟩ := Option.isSome_iff_exists.mp hcommit
      have hnone : (fun p => (f (.friendship p)).map Fault.error) = fun _ => none := by
        funext p
        rw [hf, Option.map_none]
      rw [hnone] at hperform
      cases hrun : c.run s.db with
      | ok d' =>
        rw [FriendshipCall.perform_of_no_fault hrun] at hperform
        cases hperform
      | error e' =>
        simp [UserCall.commit, hrun, Except.toOption] at hd
    · rw [hperform]
      exact ⟨_, _, rfl⟩

theorem performs_read (m : Reading α) :
    Performs f none s (RouteHandler.read statusCode body m f s).1
      (RouteHandler.read statusCode body m f s).2 := .nothing _

theorem history_snd {overrides : Entity → Option Handler} {kwargs : Kwargs} {tx : MessagingTx α} :
    (RouteHandler.messaging statusCode body
      (MessagingService.decorated overrides kwargs (MessagingService.connection tx)) f s).2 = s := by
  have hsnd (g : Faults MessagingAwait Error) (w : MessagingState) :
      (MessagingService.decorated overrides kwargs (MessagingService.connection tx) g w).2 = w := by
    rw [MessagingService.decorated, Op.handle_snd, Op.handle_snd, MessagingService.connection]
    split <;> rfl
  unfold RouteHandler.messaging
  simp only [hsnd, List.map_nil, List.append_nil]

theorem performs_history {overrides : Entity → Option Handler} {kwargs : Kwargs}
    {tx : MessagingTx α} :
    Performs f none s
      (RouteHandler.messaging statusCode body
        (MessagingService.decorated overrides kwargs (MessagingService.connection tx)) f s).1
      (RouteHandler.messaging statusCode body
        (MessagingService.decorated overrides kwargs (MessagingService.connection tx)) f s).2 := by
  rw [history_snd]
  exact .nothing _

theorem isSome_decorated {σ φ : Type} {overrides : Constraint → Option Handler}
    {overrides' : Entity → Option Handler} {kwargs : Kwargs} {m : Op φ Error σ α}
    {g : Faults φ Error} {w : σ} :
    (Op.handle (handleDbConstraintError overrides kwargs)
      (Op.handle (handleDbNotFoundError overrides' (fun _ => none) kwargs) m) g w).1.toOption.isSome =
      (m g w).1.toOption.isSome := by
  rw [Op.isSome_handle fun _ _ => handleDbConstraintError_ne_ok,
    Op.isSome_handle fun _ _ => handleDbNotFoundError_ne_ok]

end

namespace UserEndpoint

theorem performs (e : UserEndpoint) (env : Env) (f : ApiFaults) (user : User) (s : AppState) :
    Performs f (e.call env f user) s (e.handle env user f s).1 (e.handle env user f s).2 := by
  cases e with
  | getMe | getMyProfile => exact .nothing _
  | getUserByUsername | getUserById | listPendingRequests | listFriends | getStatus | listGroups
  | getGroup | listGroupMembers => exact performs_read _
  | deactivateMyAccount | reactivateMyAccount | deleteMyAccount => exact performs_account fun _ _ => rfl
  | sendRequest | acceptRequest | removeOrDecline => exact performs_friendship _ _
  | getDmHistory | getGroupHistory => exact performs_history
  | createGroup name =>
    refine performs_group (fun _ _ => rfl) fun g w => ?_
    rw [GroupService.createGroup, Op.isSome_handle fun _ _ => handleDbConstraintError_ne_ok]
    exact Op.isSome_transaction_bind (fun _ _ => rfl) w
  | deleteGroup groupId =>
    refine performs_group (fun _ _ => rfl) fun g w => isSome_decorated.trans ?_
    exact Op.isSome_transaction_bind (fun _ _ => rfl) w
  | addMember groupId userId =>
    refine performs_group (fun _ _ => rfl) fun g w => isSome_decorated.trans ?_
    exact Op.isSome_transaction_bind (fun _ _ => rfl) w
  | removeMember groupId userId =>
    refine performs_group (fun _ _ => rfl) fun g w => isSome_decorated.trans ?_
    exact Op.isSome_transaction_bind (fun _ _ => rfl) w
  | sendDirectMessage recipientId content =>
    refine performs_message (fun _ _ => rfl) fun g w => isSome_decorated.trans ?_
    exact Op.isSome_transaction_bind (fun _ _ => rfl) w
  | sendGroupMessage groupId content =>
    refine performs_message (fun _ _ => rfl) fun g w => isSome_decorated.trans ?_
    exact Op.isSome_transaction_bind (fun _ _ => rfl) w

end UserEndpoint

/-! ### Requests -/

namespace SessionEndpoint

variable (e : SessionEndpoint) (env : Env) (f : ApiFaults) (credentials : Option String) (s : AppState)

def left : AuthState :=
  (e.operation env credentials).runUnder (fun p => f (.auth p))
    { db := s.db, stream := s.stream, cache := s.authCache }

theorem handle_snd : (e.handle env credentials f s).2 =
    { s with
      db := (e.left env f credentials s).db
      stream := (e.left env f credentials s).stream
      authCache := (e.left env f credentials s).cache } := by
  cases e <;> rfl

theorem handle_db : (e.handle env credentials f s).2.db =
    (((e.operation env credentials).transact (fun p => f (.auth p)) s.db).map Prod.fst).getD s.db := by
  have hfollows := Operation.runUnder_follows (e.operation env credentials) (fun p => f (.auth p))
    { db := s.db, stream := s.stream, cache := s.authCache }
  rw [handle_snd]
  unfold left
  cases htransact : (e.operation env credentials).transact (fun p => f (.auth p)) s.db with
  | none =>
    rw [htransact] at hfollows
    exact congrArg AuthState.db hfollows
  | some r =>
    rw [htransact] at hfollows
    exact hfollows.1

end SessionEndpoint

def Request.call (env : Env) (f : ApiFaults) (s : AppState) (r : Request) : Option UserCall :=
  match r.endpoint with
  | .session e =>
    if e.errors = [] then
      some (.service (.auth (e.operation env r.credentials) fun p => f (.auth p)))
    else none
  | .user e =>
    match (getCurrentUser env (fun p => f (.token p)) s e.allowsDeactivated r.credentials).1 with
    | .ok user => if e.errors = [] then e.call env f user else none
    | .error _ => none

section

variable {env : Env} {f : ApiFaults} {r : Request} {s : AppState}

theorem Request.call_cases {c : UserCall} (hc : r.call env f s = some c) :
    (∃ e, r.endpoint = .session e ∧ e.errors = [] ∧
        c = .service (.auth (e.operation env r.credentials) fun p => f (.auth p))) ∨
      ∃ e user s', r.endpoint = .user e ∧ e.errors = [] ∧
        getCurrentUser env (fun p => f (.token p)) s e.allowsDeactivated r.credentials =
          (.ok user, s') ∧ e.call env f user = some c := by
  unfold Request.call at hc
  cases hr : r.endpoint with
  | session e =>
    simp only [hr] at hc
    split at hc
    · next he => exact .inl ⟨e, rfl, he, (Option.some.inj hc).symm⟩
    · cases hc
  | user e =>
    simp only [hr] at hc
    cases hauth : getCurrentUser env (fun p => f (.token p)) s e.allowsDeactivated r.credentials with
    | mk answer s' =>
      rw [hauth] at hc
      cases answer with
      | error x => cases hc
      | ok user =>
        simp only at hc
        split at hc
        · next he => exact .inr ⟨e, user, s', rfl, he, hauth, hc⟩
        · cases hc

theorem serve_session {e : SessionEndpoint} (hr : r.endpoint = .session e) (he : e.errors = []) :
    serve env f r s = e.handle env r.credentials f s := by
  simp only [serve, hr, he, if_true]

theorem serve_user {e : UserEndpoint} {user : User} {s₁ : AppState} (hr : r.endpoint = .user e)
    (hauth : getCurrentUser env (fun p => f (.token p)) s e.allowsDeactivated r.credentials =
      (.ok user, s₁)) (he : e.errors = []) : serve env f r s = e.handle env user f s₁ := by
  simp only [serve, hr, hauth, he, if_true]

/-- A request that no handler is called for. -/
inductive Request.Refused (env : Env) (f : ApiFaults) (s : AppState) (r : Request) : AppState → Prop
  | session {e : SessionEndpoint} (hr : r.endpoint = .session e) (he : e.errors ≠ []) : Refused env f s r s
  | unauthorized {e : UserEndpoint} {x : ApiError} (hr : r.endpoint = .user e)
    (hauth : getCurrentUser env (fun p => f (.token p)) s e.allowsDeactivated r.credentials =
      (.error x, s)) : Refused env f s r s
  | user {e : UserEndpoint} {user : User} {s₁ : AppState} (hr : r.endpoint = .user e)
    (hauth : getCurrentUser env (fun p => f (.token p)) s e.allowsDeactivated r.credentials =
      (.ok user, s₁)) (he : e.errors ≠ []) : Refused env f s r s₁

theorem serve_cases (env : Env) (f : ApiFaults) (r : Request) (s : AppState) :
    (∃ e s', serve env f r s = (.error e, s') ∧ r.Refused env f s s') ∨
      (∃ e, r.endpoint = .session e ∧ e.errors = [] ∧
        serve env f r s = e.handle env r.credentials f s) ∨
      ∃ e user s₁, r.endpoint = .user e ∧ e.errors = [] ∧
        getCurrentUser env (fun p => f (.token p)) s e.allowsDeactivated r.credentials =
          (.ok user, s₁) ∧ serve env f r s = e.handle env user f s₁ := by
  cases hr : r.endpoint with
  | session e =>
    by_cases he : e.errors = []
    · exact .inr (.inl ⟨e, rfl, he, serve_session hr he⟩)
    · exact .inl ⟨.invalid e.errors, s, by simp only [serve, hr, he, if_false], .session hr he⟩
  | user e =>
    cases hauth : getCurrentUser env (fun p => f (.token p)) s e.allowsDeactivated r.credentials with
    | mk answer s₁ =>
      cases answer with
      | error x =>
        obtain rfl := getCurrentUser_of_error hauth
        exact .inl ⟨x, s₁, by simp only [serve, hr, hauth], .unauthorized hr hauth⟩
      | ok user =>
        by_cases he : e.errors = []
        · exact .inr (.inr ⟨e, user, s₁, rfl, he, hauth, serve_user hr hauth he⟩)
        · exact .inl ⟨.invalid e.errors, s₁, by simp only [serve, hr, hauth, he, if_false],
            .user hr hauth he⟩

theorem db_of_getCurrentUser {f : TokenAwait → Option Fault} {allow : Bool} {c : Option String}
    {user : User} {s₁ : AppState} (hauth : getCurrentUser env f s allow c = (.ok user, s₁)) :
    s₁.db = s.db := by
  obtain ⟨authCache, hframe⟩ := getCurrentUser_frame env f s allow c
  rw [hauth] at hframe
  obtain rfl : s₁ = { s with authCache } := hframe
  rfl

theorem Request.Refused.db_eq {s' : AppState} (h : r.Refused env f s s') : s'.db = s.db := by
  cases h with
  | session | unauthorized => rfl
  | user hr hauth he => exact db_of_getCurrentUser hauth

/-- A request leaves the database as it was, or as the call that it makes leaves it. -/
theorem serve_db (env : Env) (f : ApiFaults) (r : Request) (s : AppState) :
    (serve env f r s).2.db = s.db ∨
      ∃ c, r.call env f s = some c ∧ c.commit s.db = some (serve env f r s).2.db := by
  rcases serve_cases env f r s with
    ⟨e, s', hserve, hrefused⟩ | ⟨e, hr, he, hserve⟩ | ⟨e, user, s₁, hr, he, hauth, hserve⟩
  · rw [hserve]
    exact .inl hrefused.db_eq
  · rw [hserve, e.handle_db]
    cases htransact : (e.operation env r.credentials).transact (fun p => f (.auth p)) s.db with
    | none => exact .inl rfl
    | some d =>
      have hcall : r.call env f s = some (.service (.auth (e.operation env r.credentials)
          fun p => f (.auth p))) := by simp only [Request.call, hr, he, if_true]
      refine .inr ⟨_, hcall, ?_⟩
      rw [UserCall.commit_auth, htransact]
      rfl
  · have hdb : s₁.db = s.db := db_of_getCurrentUser hauth
    have hperforms := e.performs env f user s₁
    rw [hserve, ← hdb]
    cases hanswer : (e.handle env user f s₁).1 with
    | error x => exact .inl (hperforms.raised x hanswer)
    | ok response =>
      have hdone := hperforms.answered response hanswer
      cases hcall : e.call env f user with
      | none =>
        rw [hcall] at hdone
        exact .inl hdone
      | some c =>
        rw [hcall] at hdone
        exact .inr ⟨c, by simp only [Request.call, hr, hauth, he, if_true, hcall], hdone⟩

theorem respond_snd : (respond env f r s).2 = (serve env f r s).2 := by
  unfold respond
  split <;> simp_all

theorem respond_of_ok {response : Response} {s' : AppState}
    (h : serve env f r s = (.ok response, s')) : respond env f r s = (response, s') := by
  simp only [respond, h]

end

end Messenger
