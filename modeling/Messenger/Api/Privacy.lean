import Messenger.Api.Deployment
import Messenger.Services.Privacy

/-! What the messages of some conversations can change for everybody else: two runs that differ only in
what is sent in these conversations answer all other requests alike. -/

namespace Messenger
open Transactional Mealy

def PushTask.IsHidden (hidden : HiddenConversations) : PushTask → Bool
  | message (.toUser _ event) => hidden s(event.senderId, event.recipientId)
  | _ => false

structure AppState.SameBut (hidden : HiddenConversations) (s s' : AppState) : Prop where
  db : s.db.SameBut hidden s'.db
  stream : s'.stream = s.stream
  authCache : s'.authCache = s.authCache
  spawned : s'.spawned.filter (!·.IsHidden hidden) = s.spawned.filter (!·.IsHidden hidden)

namespace AppState.SameBut

variable {hidden : HiddenConversations} {s s' s'' : AppState}

theorem refl (s : AppState) : s.SameBut hidden s := ⟨.refl _, rfl, rfl, rfl⟩

theorem symm (h : s.SameBut hidden s') : s'.SameBut hidden s :=
  ⟨h.db.symm, h.stream.symm, h.authCache.symm, h.spawned.symm⟩

theorem trans (h : s.SameBut hidden s') (h' : s'.SameBut hidden s'') : s.SameBut hidden s'' :=
  ⟨h.db.trans h'.db, h'.stream.trans h.stream, h'.authCache.trans h.authCache,
    h'.spawned.trans h.spawned⟩

end AppState.SameBut

/-! ### Handlers -/

section

variable {α : Type} {hidden : HiddenConversations} {f : ApiFaults} {s s' : AppState} {statusCode : ℕ}
  {body : α → Body} {env : Env} {user : User}

/-- The handler answers alike in both states, and leaves them alike. -/
def RouteHandler.Alike (hidden : HiddenConversations) (f : ApiFaults) (s s' : AppState)
    (h : RouteHandler) : Prop := (h f s).1 = (h f s').1 ∧ (h f s).2.SameBut hidden (h f s').2

namespace RouteHandler

theorem alike_auth {m : AuthOp α} (h : s.SameBut hidden s') (hm : m.Respects (AuthState.SameBut hidden)) :
    (auth statusCode body m).Alike hidden f s s' := by
  obtain ⟨hanswer, hleft⟩ := hm (raising fun p => f (.auth p))
    { db := s.db, stream := s.stream, cache := s.authCache }
    { db := s'.db, stream := s'.stream, cache := s'.authCache } ⟨h.db, h.stream, h.authCache⟩
  exact ⟨congrArg (answer statusCode body) hanswer, hleft.db, hleft.stream, hleft.cache, h.spawned⟩

theorem alike_group {m : GroupOp α} (h : s.SameBut hidden s')
    (hm : m.Respects (GroupState.SameBut hidden)) : (group statusCode body m).Alike hidden f s s' := by
  obtain ⟨hanswer, hleft⟩ := hm (fun p => (f (.group p)).map Fault.error) { db := s.db } { db := s'.db }
    ⟨h.db, rfl⟩
  refine ⟨congrArg (answer statusCode body) hanswer, hleft.db, h.stream, h.authCache, ?_⟩
  show (s'.spawned ++ _).filter _ = (s.spawned ++ _).filter _
  rw [List.filter_append, List.filter_append, h.spawned, hleft.spawned]

theorem alike_messaging {m : MessagingOp α} {R : Db → Db → Prop} (h : s.SameBut hidden s')
    (hR : ∀ d d', R d d' → d.SameBut hidden d') (hdb : R s.db s'.db)
    (hm : m.Respects (MessagingState.Same R)) : (messaging statusCode body m).Alike hidden f s s' := by
  obtain ⟨hanswer, hleft⟩ := hm (fun p => (f (.messaging p)).map Fault.error) { db := s.db }
    { db := s'.db } ⟨hdb, rfl⟩
  refine ⟨congrArg (answer statusCode body) hanswer, hR _ _ hleft.db, h.stream, h.authCache, ?_⟩
  show (s'.spawned ++ _).filter _ = (s.spawned ++ _).filter _
  rw [List.filter_append, List.filter_append, h.spawned, hleft.spawned]

theorem alike_friendship {c : FriendshipCall} {body : Body} (h : s.SameBut hidden s') :
    (friendship statusCode c body).Alike hidden f s s' := by
  obtain ⟨hanswer, hleft⟩ := c.respects_perform (fun p => (f (.friendship p)).map Fault.error) s.db s'.db
    h.db
  exact ⟨congrArg (answer statusCode fun _ => body) hanswer, hleft, h.stream, h.authCache, h.spawned⟩

theorem alike_read {m : Reading α} (h : s.SameBut hidden s')
    (hm : ∀ f d messages, m f { d with directMessages := messages } = m f d) :
    (read statusCode body m).Alike hidden f s s' := by
  have hanswer : m (fun p => (f (.read p)).map Fault.error) s'.db =
      m (fun p => (f (.read p)).map Fault.error) s.db := h.db.eq_of_ignores (hm _)
  exact ⟨congrArg (answer statusCode body) hanswer.symm, h⟩

end RouteHandler

theorem SessionEndpoint.alike_handle (e : SessionEndpoint) {c : Option String}
    (h : s.SameBut hidden s') : (e.handle env c).Alike hidden f s s' := by
  cases e with
  | register username password => exact RouteHandler.alike_auth h AuthService.respects_register
  | login username password => exact RouteHandler.alike_auth h AuthService.respects_login
  | refresh raw => exact RouteHandler.alike_auth h AuthService.respects_refresh
  | logout raw => exact RouteHandler.alike_auth h AuthService.respects_logout

def UserEndpoint.partner : UserEndpoint → Option UUID
  | sendDirectMessage recipientId _ => some recipientId
  | getDmHistory recipientId _ _ => some recipientId
  | _ => none

theorem UserEndpoint.alike_handle (e : UserEndpoint) (h : s.SameBut hidden s')
    (hshown : ∀ partner ∈ e.partner, hidden s(user.userId, partner) = false)
    (hfresh : s.db.directMessages.get? env.newId = none)
    (hfresh' : s'.db.directMessages.get? env.newId = none) :
    (e.handle env user).Alike hidden f s s' := by
  cases e with
  | getMe | getMyProfile => exact ⟨rfl, h⟩
  | getUserByUsername | getUserById | listPendingRequests | listFriends | getStatus | listGroups
  | getGroup | listGroupMembers => exact RouteHandler.alike_read h fun _ _ _ => rfl
  | deactivateMyAccount =>
    exact RouteHandler.alike_auth h (UserService.respects_account (respects_query fun _ _ => rfl))
  | reactivateMyAccount =>
    exact RouteHandler.alike_auth h (UserService.respects_account (respects_query fun _ _ => rfl))
  | deleteMyAccount =>
    exact RouteHandler.alike_auth h (UserService.respects_account UserService.respects_deleteAccountTx)
  | sendRequest | acceptRequest | removeOrDecline => exact RouteHandler.alike_friendship h
  | createGroup name =>
    exact RouteHandler.alike_group h (.handle (.bind (GroupService.respects_transaction
      GroupService.respects_createGroupStmts) fun _ => .bind GroupService.respects_spawn fun _ => .pure))
  | deleteGroup groupId =>
    exact RouteHandler.alike_group h (.handle (.handle (.bind (GroupService.respects_transaction
      GroupService.respects_deleteGroupStmts) fun _ => GroupService.respects_spawn)))
  | addMember groupId userId =>
    exact RouteHandler.alike_group h (.handle (.handle (.bind (GroupService.respects_transaction
      GroupService.respects_addMemberStmts) fun _ => .bind GroupService.respects_spawn fun _ => .pure)))
  | removeMember groupId userId =>
    exact RouteHandler.alike_group h (.handle (.handle (.bind (GroupService.respects_transaction
      GroupService.respects_removeMemberStmts) fun _ => GroupService.respects_spawn)))
  | sendDirectMessage recipientId content =>
    have htaken : s.db.SameTaken hidden env.messaging.messageId s'.db := by
      refine ⟨h.db, ?_⟩
      show (s'.db.directMessages.get? env.newId).isSome = (s.db.directMessages.get? env.newId).isSome
      rw [hfresh, hfresh']
    refine RouteHandler.alike_messaging h (fun _ _ h => h.same) htaken ?_
    exact .handle (.handle (.bind (MessagingService.respects_transaction
      MessagingService.respects_sendDirectMessageTx) fun _ =>
        .bind MessagingService.respects_spawn fun _ => .pure))
  | getDmHistory recipientId before limit =>
    refine RouteHandler.alike_messaging h (fun _ _ h => h) h.db ?_
    refine .handle (.handle (MessagingService.respects_connection ?_))
    refine .bind (MessagingService.respects_requireFriendship fun _ _ h => h) fun _ =>
      MessagingService.respects_fetch fun d d' hd => ?_
    rw [MessagingService.history_eq hd (hshown recipientId rfl)]
  | sendGroupMessage groupId content =>
    refine RouteHandler.alike_messaging h (fun _ _ h => h) h.db ?_
    exact .handle (.handle (.bind (MessagingService.respects_transaction
      MessagingService.respects_sendGroupMessageTx) fun _ =>
        .bind MessagingService.respects_spawn fun _ => .pure))
  | getGroupHistory groupId before limit =>
    refine RouteHandler.alike_messaging h (fun _ _ h => h) h.db ?_
    refine .handle (.handle (MessagingService.respects_connection ?_))
    refine .bind MessagingService.respects_getMembership fun _ =>
      MessagingService.respects_fetch fun d d' hd => ?_
    rw [MessagingService.timeline_eq hd]

end

/-! ### Requests -/

section

variable {hidden : HiddenConversations} {f : ApiFaults} {s s' s₁ : AppState} {env : Env} {user : User}
  {r : Request} {e : UserEndpoint} {credentials : Option String}

theorem sameBut_getCurrentUser (h : s.SameBut hidden s') (env : Env) (g : TokenAwait → Option Fault)
    (allow : Bool) (credentials : Option String) :
    (getCurrentUser env g s' allow credentials).1 = (getCurrentUser env g s allow credentials).1 ∧
      (getCurrentUser env g s allow credentials).2.SameBut hidden
        (getCurrentUser env g s' allow credentials).2 := by
  have hlookup (t : TokenHash) : authenticateInDb env g s' allow t = authenticateInDb env g s allow t :=
    h.db.eq_of_ignores (q := fun d => authenticateInDb env g { s with db := d } allow t) fun _ _ => rfl
  unfold getCurrentUser
  split
  · unfold authenticate
    rw [h.authCache, hlookup]
    split
    · exact ⟨rfl, h⟩
    · split
      · exact ⟨rfl, h.db, h.stream, rfl, h.spawned⟩
      · exact ⟨rfl, h⟩
  · exact ⟨rfl, h⟩

def Request.IsPrivate (hidden : HiddenConversations) (env : Env) (f : ApiFaults) (s : AppState)
    (r : Request) : Prop :=
  ∃ e partner, r.endpoint = .user e ∧ e.partner = some partner ∧
    ∀ user s', getCurrentUser env (fun p => f (.token p)) s false r.credentials = (.ok user, s') →
      hidden s(user.userId, partner) = true

theorem UserEndpoint.allowsDeactivated_of_partner {partner : UUID} (h : e.partner = some partner) :
    e.allowsDeactivated = false := by
  cases e with
  | sendDirectMessage | getDmHistory => rfl
  | _ => cases h

theorem Request.IsPrivate.of_sameBut (h : s.SameBut hidden s') (hr : r.IsPrivate hidden env f s) :
    r.IsPrivate hidden env f s' := by
  obtain ⟨e, partner, hendpoint, hpartner, hhidden⟩ := hr
  refine ⟨e, partner, hendpoint, hpartner, fun user s₁ hauth => ?_⟩
  have hsame := (sameBut_getCurrentUser h env (fun p => f (.token p)) false r.credentials).1
  rw [hauth] at hsame
  exact hhidden user (getCurrentUser env (fun p => f (.token p)) s false r.credentials).2
    (Prod.ext hsame.symm rfl)

theorem UserEndpoint.sameBut_handle {partner : UUID} (he : e.partner = some partner)
    (hhidden : hidden s(user.userId, partner) = true) :
    s.SameBut hidden (e.handle env user f s).2 := by
  cases e with
  | getDmHistory recipientId before limit =>
    have hstate : (UserEndpoint.handle env user (.getDmHistory recipientId before limit) f s).2 = s :=
      history_snd
    rw [hstate]
    exact .refl s
  | sendDirectMessage recipientId content =>
    obtain rfl := Option.some.inj he
    let op : MessageOperation := .sendDirectMessage env.messaging user.userId recipientId content
    let g : Faults MessagingAwait Error := fun p => (f (.messaging p)).map Fault.error
    show s.SameBut hidden { s with
      db := (op.run g { db := s.db }).db
      spawned := s.spawned ++ (op.run g { db := s.db }).spawned.map .message }
    rw [MessageOperation.run_eq]
    cases htransact : op.transact g s.db with
    | none =>
      rw [Option.elim_none]
      refine ⟨.refl _, rfl, rfl, ?_⟩
      rw [List.map_nil, List.append_nil]
    | some result =>
      obtain ⟨d, pushes⟩ := result
      obtain ⟨-, -, m, hbody, rfl⟩ := Op.committed_eq_some.mp htransact
      obtain ⟨_, d₁, hfriends, hinsert⟩ := Tx.bind_eq_ok.mp hbody
      obtain ⟨rfl, -⟩ := accepted_of_requireFriendship hfriends
      obtain ⟨rfl, hfresh, rfl⟩ :=
        MessageQueries.sendDirectMessage_eq_ok (MessagingService.insert_eq_ok hinsert)
      refine ⟨⟨rfl, ?_⟩, rfl, rfl, ?_⟩
      · show (s.db.directMessages.insertNew _).rows.filter _ = s.db.directMessages.rows.filter _
        rw [Table.rows_insertNew hfresh, List.filter_append, List.filter_cons_of_neg, List.filter_nil,
          List.append_nil]
        rw [hhidden]
        exact Bool.false_ne_true
      · let push : PushTask := .message (.toUser recipientId (.fromModel
          (UserCall.directMessage env.messaging user.userId recipientId content)))
        have hpush : push.IsHidden hidden = true := hhidden
        show (s.spawned ++ [push]).filter _ = s.spawned.filter _
        rw [List.filter_append, List.filter_cons_of_neg, List.filter_nil, List.append_nil]
        rw [hpush]
        exact Bool.false_ne_true
  | _ => cases he

theorem sameBut_serve (hr : r.IsPrivate hidden env f s) :
    (getCurrentUser env (fun p => f (.token p)) s false r.credentials).2.SameBut hidden
      (serve env f r s).2 := by
  obtain ⟨e, partner, hendpoint, hpartner, hhidden⟩ := hr
  have hallows : e.allowsDeactivated = false := UserEndpoint.allowsDeactivated_of_partner hpartner
  simp only [serve, hendpoint, hallows]
  cases hauth : getCurrentUser env (fun p => f (.token p)) s false r.credentials with
  | mk answer s₁ =>
    cases answer with
    | error x => exact .refl s₁
    | ok user =>
      simp only
      split
      · exact UserEndpoint.sameBut_handle hpartner (hhidden user s₁ hauth)
      · exact .refl s₁

theorem sameBut_serve_serve {r' : Request} (h : s.SameBut hidden s')
    (hcredentials : r'.credentials = r.credentials) (hr : r.IsPrivate hidden env f s)
    (hr' : r'.IsPrivate hidden env f s) :
    (serve env f r s).2.SameBut hidden (serve env f r' s').2 := by
  have hauth := (sameBut_getCurrentUser h env (fun p => f (.token p)) false r.credentials).2
  have hleft' := sameBut_serve (hr'.of_sameBut h)
  rw [hcredentials] at hleft'
  exact ((sameBut_serve hr).symm.trans hauth).trans hleft'

theorem serve_alike (h : s.SameBut hidden s') (hr : ¬ r.IsPrivate hidden env f s)
    (hfresh : s.db.directMessages.get? env.newId = none)
    (hfresh' : s'.db.directMessages.get? env.newId = none) :
    (serve env f r s).1 = (serve env f r s').1 ∧
      (serve env f r s).2.SameBut hidden (serve env f r s').2 := by
  cases hendpoint : r.endpoint with
  | session e =>
    simp only [serve, hendpoint]
    split
    · exact e.alike_handle h
    · exact ⟨rfl, h⟩
  | user e =>
    obtain ⟨hsame, hleft⟩ :=
      sameBut_getCurrentUser h env (fun p => f (.token p)) e.allowsDeactivated r.credentials
    simp only [serve, hendpoint]
    cases hauth : getCurrentUser env (fun p => f (.token p)) s e.allowsDeactivated r.credentials with
    | mk answer s₁ =>
      cases hauth' : getCurrentUser env (fun p => f (.token p)) s' e.allowsDeactivated r.credentials with
      | mk answer' s₁' =>
        rw [hauth, hauth'] at hsame hleft
        obtain rfl : answer' = answer := hsame
        cases answer' with
        | error x => exact ⟨rfl, hleft⟩
        | ok user =>
          simp only
          split
          · have hshown : ∀ partner ∈ e.partner, hidden s(user.userId, partner) = false := by
              intro partner hpartner
              have hallows := UserEndpoint.allowsDeactivated_of_partner hpartner
              rw [hallows] at hauth
              by_contra hhidden
              refine hr ⟨e, partner, hendpoint, hpartner, fun user' s₂ hauth₂ => ?_⟩
              obtain rfl : user' = user :=
                Except.ok.inj (congrArg Prod.fst (hauth₂.symm.trans hauth))
              exact Bool.not_eq_false _ ▸ hhidden
            refine e.alike_handle hleft hshown ?_ ?_
            · rw [db_of_getCurrentUser hauth]
              exact hfresh
            · rw [db_of_getCurrentUser hauth']
              exact hfresh'
          · exact ⟨rfl, hleft⟩

theorem respond_alike (h : (serve env f r s).1 = (serve env f r s').1) :
    (respond env f r s).1 = (respond env f r s').1 := by
  unfold respond
  rcases hserve : serve env f r s with ⟨x | response, s₁⟩ <;>
    rcases hserve' : serve env f r s' with ⟨x' | response', s₁'⟩ <;>
      simp_all

end

/-! ### Runs -/

namespace Deployment

variable {ω : Type} [DecidableEq ω] {hidden : HiddenConversations} {x y : Deployment ω}
  {a a' : ApiAct ω} {acts acts' : List (ApiAct ω)}

structure SameBut (hidden : HiddenConversations) (x y : Deployment ω) : Prop where
  db : x.db.SameBut hidden y.db
  stream : y.stream = x.stream
  authCaches : y.authCaches = x.authCaches
  spawned : y.spawned.filter (!·.IsHidden hidden) = x.spawned.filter (!·.IsHidden hidden)

omit [DecidableEq ω] in
theorem SameBut.refl (x : Deployment ω) : x.SameBut hidden x := ⟨.refl _, rfl, rfl, rfl⟩

omit [DecidableEq ω] in
theorem SameBut.worker (h : x.SameBut hidden y) (w : ω) : (x.worker w).SameBut hidden (y.worker w) :=
  ⟨h.db, h.stream, congrFun h.authCaches w, h.spawned⟩

theorem SameBut.update {s s' : AppState} (h : x.SameBut hidden y) (w : ω) (hs : s.SameBut hidden s') :
    (x.update w s).SameBut hidden (y.update w s') := by
  refine ⟨hs.db, hs.stream, ?_, hs.spawned⟩
  show Function.update y.authCaches w s'.authCache = Function.update x.authCaches w s.authCache
  rw [h.authCaches, hs.authCache]

def Hides (hidden : HiddenConversations) (x : Deployment ω) : ApiAct ω → Prop
  | .request w env f r => r.IsPrivate hidden env f (x.worker w)
  | .drop _ _ => False

def DrawsFresh (x : Deployment ω) : ApiAct ω → Prop
  | .request _ env _ _ => x.db.directMessages.get? env.newId = none
  | .drop _ _ => True

/-- Two runs differ at most in what a caller asks about hidden conversations. -/
inductive Differ (hidden : HiddenConversations) (x : Deployment ω) : ApiAct ω → ApiAct ω → Prop
  | same (a : ApiAct ω) : Differ hidden x a a
  | hidden {w : ω} {env : Env} {f : ApiFaults} {r r' : Request} (hcredentials : r'.credentials = r.credentials)
    (h : Hides hidden x (.request w env f r)) (h' : Hides hidden x (.request w env f r')) :
    Differ hidden x (.request w env f r) (.request w env f r')

theorem sameBut_step (h : x.SameBut hidden y) (hdiffer : Differ hidden x a a')
    (hfresh : DrawsFresh x a) (hfresh' : DrawsFresh y a') :
    (x.step a).2.SameBut hidden (y.step a').2 := by
  cases hdiffer with
  | same =>
    cases a with
    | drop w t =>
      refine ⟨h.db, h.stream, ?_, h.spawned⟩
      show Function.update y.authCaches w ((y.authCaches w).evict t) =
        Function.update x.authCaches w ((x.authCaches w).evict t)
      rw [h.authCaches]
    | request w env f r =>
      refine h.update w ?_
      rw [respond_snd, respond_snd]
      by_cases hr : r.IsPrivate hidden env f (x.worker w)
      · exact sameBut_serve_serve (h.worker w) rfl hr hr
      · exact (serve_alike (h.worker w) hr hfresh hfresh').2
  | hidden hcredentials hr hr' =>
    refine h.update _ ?_
    rw [respond_snd, respond_snd]
    exact sameBut_serve_serve (h.worker _) hcredentials hr hr'

theorem step_alike (h : x.SameBut hidden y) (hshown : ¬ Hides hidden x a) (hfresh : DrawsFresh x a)
    (hfresh' : DrawsFresh y a) : (x.step a).1 = (y.step a).1 := by
  cases a with
  | drop w t => rfl
  | request w env f r =>
    have hserve := (serve_alike (h.worker w) hshown hfresh hfresh').1
    exact congrArg some (respond_alike hserve)

/-- The hidden conversations are nobody else's business: where two runs differ at most in what is asked
about them, every other request is answered alike, and all that the runs leave behind and push is alike but
for the messages of these conversations. -/
theorem conversations_stay_private (x : Deployment ω)
    (hruns : List.Forall₂ (fun v v' => Differ hidden v.1 v.2 v'.2 ∧ DrawsFresh v.1 v.2 ∧
      DrawsFresh v'.1 v'.2) (visits step x acts) (visits step x acts')) :
    List.Forall₂ (fun v v' => v.2 = v'.2 → ¬ Hides hidden v.1 v.2 → (v.1.step v.2).1 = (v'.1.step v'.2).1)
        (visits step x acts) (visits step x acts') ∧
      (after step x acts).SameBut hidden (after step x acts') := by
  obtain ⟨hvisits, hafter⟩ := unwinding (R := SameBut hidden)
    (fun v v' h hA => sameBut_step h hA.1 hA.2.1 hA.2.2) hruns (.refl x)
  refine ⟨hvisits.imp fun v v' hv hsame hshown => ?_, hafter⟩
  obtain ⟨hR, -, hfresh, hfresh'⟩ := hv
  obtain ⟨x', a⟩ := v
  obtain ⟨y', a'⟩ := v'
  obtain rfl : a = a' := hsame
  exact step_alike hR hshown hfresh hfresh'

end Deployment

namespace Sample

def neighbours : Deployment Unit where
  db :=
    { users := ((Table.empty.insertNew ⟨⟨1⟩, "ada", "", false, 0⟩).insertNew
        ⟨⟨2⟩, "bob", "", false, 0⟩).insertNew ⟨⟨3⟩, "eve", "", false, 0⟩
      friendships := Table.empty.insertNew ⟨⟨1⟩, ⟨2⟩, true, 0, 0⟩
      accessTokens := (Table.empty.insertNew ⟨⟨4⟩, ⟨1⟩, false, 900⟩).insertNew ⟨⟨5⟩, ⟨3⟩, false, 900⟩ }

def writesBob (content : String) : ApiAct Unit :=
  .request () api (fun _ => none) ⟨.user (.sendDirectMessage ⟨2⟩ content), some "aaaa"⟩

def listsFriends : ApiAct Unit :=
  .request () { api with newId := ⟨9⟩ } (fun _ => none) ⟨.user .listFriends, some "eeeee"⟩

def ofTheTwo : HiddenConversations := fun pair => pair = s(⟨1⟩, ⟨2⟩)

end Sample

theorem conversations_stay_private_neighbours :
    (after Deployment.step Sample.neighbours [Sample.writesBob "one", Sample.listsFriends]).SameBut
      Sample.ofTheTwo
      (after Deployment.step Sample.neighbours [Sample.writesBob "two", Sample.listsFriends]) := by
  have hides (content : String) : Sample.neighbours.Hides Sample.ofTheTwo (Sample.writesBob content) := by
    refine ⟨_, _, rfl, rfl, fun user s' hauth => ?_⟩
    obtain rfl : (⟨⟨1⟩, "ada", "", false, 0⟩ : User) = user :=
      Except.ok.inj (congrArg Prod.fst hauth)
    decide
  have hfirst : Sample.neighbours.db.directMessages.get? Sample.api.newId = none := by decide
  have hone : (Sample.neighbours.step (Sample.writesBob "one")).2.db.directMessages.get? ⟨9⟩ = none := by
    decide
  have htwo : (Sample.neighbours.step (Sample.writesBob "two")).2.db.directMessages.get? ⟨9⟩ = none := by
    decide
  refine (Deployment.conversations_stay_private Sample.neighbours (.cons ?_ (.cons ?_ .nil))).2
  · exact ⟨.hidden rfl (hides "one") (hides "two"), hfirst, hfirst⟩
  · exact ⟨.same _, hone, htwo⟩

end Messenger
