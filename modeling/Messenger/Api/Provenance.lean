import Messenger.Api.Deployment
import Messenger.Services.Origins

/-! On what credentials a deployment changes what it stores. A worker that answers from its cache relies on
a token that the database has accepted before. -/

namespace Messenger
open Transactional Mealy AuthService

/-! ### The caches -/

def TokenCache.Within (c' c : TokenCache) : Prop := ∀ h user, c' h = some user → c h = some user

def Forgets {α : Type} (m : AuthOp α) : Prop := Op.Keeps (fun w w' => w'.cache.Within w.cache) m

namespace Forgets

variable {α β : Type} {m : AuthOp α} {k : α → AuthOp β}

theorem bind (hm : Forgets m) (hk : ∀ a, Forgets (k a)) : Forgets (m >>= k) := by
  apply Op.Keeps.bind _ hm hk
  exact fun w w' w'' hfirst hrest h user hc => hfirst h user (hrest h user hc)

theorem pure (a : α) : Forgets (Pure.pure a) := fun _ _ _ _ hc => hc

theorem throw (e : Error) : Forgets (Op.throw e : AuthOp α) := fun _ _ _ _ hc => hc

theorem await (p : Await) : Forgets (Op.await p) := fun _ _ _ _ hc => hc

theorem transaction (body : AuthTx α) : Forgets (transaction body) := by
  refine bind ?_ fun a => bind (await _) fun _ => pure a
  apply Op.Keeps.transaction
  · exact fun w h user hc => hc
  · exact fun d w h user hc => hc

theorem publish (e : SystemEvent) : Forgets (publishStreamEvent e) :=
  bind (await _) fun _ _ _ _ _ hc => hc

end Forgets

theorem SessionEndpoint.left_cache (e : SessionEndpoint) (env : Env) (f : ApiFaults)
    (credentials : Option String) (s : AppState) :
    (e.left env f credentials s).cache.Within s.authCache := by
  have hforgets {α : Type} {m : AuthOp α} (hm : Forgets m) :=
    hm (raising fun p => f (.auth p)) { db := s.db, stream := s.stream, cache := s.authCache }
  cases e with
  | register username password =>
    have hregister : Forgets (AuthService.register env.auth username password) :=
      Op.Keeps.handle (Forgets.bind (.await _) fun _ => .bind (.transaction _) fun _ => .pure _)
    exact hforgets hregister
  | login username password =>
    have hlogin : Forgets (AuthService.login env.auth username password) := by
      refine Op.Keeps.handle (Op.Keeps.handle (Forgets.bind (.transaction _) fun a => ?_))
      split
      split
      · exact .bind (.publish _) fun _ => .pure _
      · exact .pure _
    exact hforgets hlogin
  | refresh refreshToken =>
    have hrefresh : Forgets (AuthService.refresh env.auth refreshToken) := by
      refine Op.Keeps.handle (Op.Keeps.handle (Forgets.bind (.transaction _) fun a => ?_))
      split
      split
      · exact .bind (.publish _) fun _ => .throw _
      · exact .bind (.publish _) fun _ => .pure _
    exact hforgets hrefresh
  | logout refreshToken =>
    have hafter (r : TokenHash) (a : Option TokenHash) : Forgets (afterLogout r a) := by
      cases a with
      | none => exact .publish _
      | some h =>
        have hevict : Forgets (Op.modify fun w => { w with cache := w.cache.evict h }) :=
          fun _ _ _ _ hc => TokenCache.of_evict hc
        exact .bind hevict fun _ => .bind (.publish _) fun _ => .publish _
    have hlogout : Forgets (AuthService.logout env.auth refreshToken credentials) :=
      Op.Keeps.handle (Forgets.bind (.transaction _) fun _ => hafter _ _)
    exact hforgets hlogout

def Db.Accepts (d : Db) (h : TokenHash) (u : UUID) : Prop :=
  d.OwnedBy .access h u ∧ d.Unrevoked .access h

section

variable {env : Env} {s s' : AppState} {user : User} {h : TokenHash}

theorem accepts_of_authenticateInDb {f : TokenAwait → Option Fault} {allow : Bool}
    (hauth : authenticateInDb env f s allow h = .ok user) : s.db.Accepts h user.userId := by
  obtain ⟨-, token, htoken, hfound⟩ := authenticateInDb_eq_ok.mp hauth
  obtain ⟨hstored, hunrevoked, -⟩ := lookupToken_eq_ok.mp htoken
  have howner : user.userId = token.userId := Table.key_of_get? (lookupUser_eq_ok.mp hfound).1
  exact ⟨⟨token, hstored, howner.symm⟩, token, hstored, hunrevoked⟩

theorem accepts_of_getCurrentUser {f : TokenAwait → Option Fault} {allow : Bool} {c : Option String}
    (hauth : getCurrentUser env f s allow c = (.ok user, s')) :
    ∃ raw, c = some raw ∧ (s.authCache (env.hashToken raw) = some user ∨
      s.db.Accepts (env.hashToken raw) user.userId) := by
  obtain ⟨raw, hc, -, ⟨-, hcached, -⟩ | ⟨-, hfound⟩⟩ := getCurrentUser_snd hauth
  · exact ⟨raw, hc, .inl hcached⟩
  · exact ⟨raw, hc, .inr (accepts_of_authenticateInDb hfound)⟩

theorem cached_of_getCurrentUser {f : TokenAwait → Option Fault} {allow : Bool} {c : Option String}
    {found : User} (hauth : getCurrentUser env f s allow c = (.ok found, s'))
    (hc : s'.authCache h = some user) :
    s.authCache h = some user ∨ s.db.Accepts h user.userId := by
  obtain ⟨raw, -, -, ⟨rfl, -⟩ | ⟨rfl, hfound⟩⟩ := getCurrentUser_snd hauth
  · exact .inl hc
  · rcases TokenCache.of_set hc with hold | ⟨rfl, rfl⟩
    · exact .inl hold
    · exact .inr (accepts_of_authenticateInDb hfound)

/-- A request makes a worker cache at most the owner of a token that the database accepts. -/
theorem cached_of_serve {f : ApiFaults} {r : Request} (hc : (serve env f r s).2.authCache h = some user) :
    s.authCache h = some user ∨ s.db.Accepts h user.userId := by
  rcases serve_cases env f r s with
    ⟨e, s', hserve, hrefused⟩ | ⟨e, -, -, hserve⟩ | ⟨e, found, s₁, -, -, hauth, hserve⟩
  · rw [hserve] at hc
    cases hrefused with
    | session | unauthorized => exact .inl hc
    | user hr hauth he => exact cached_of_getCurrentUser hauth hc
  · rw [hserve, e.handle_snd] at hc
    exact .inl (e.left_cache env f r.credentials s h user hc)
  · obtain ⟨d, spawned, hframe⟩ := (e.performs env f found s₁).frame
    rw [hserve, hframe] at hc
    exact cached_of_getCurrentUser hauth hc

end

namespace Deployment

variable {ω : Type} [DecidableEq ω] {acts : List (ApiAct ω)} {h : TokenHash} {u : UUID}

def Accepted (acts : List (ApiAct ω)) (h : TokenHash) (u : UUID) : Prop :=
  ∃ pre, pre <+: acts ∧ (after step {} pre).db.Accepts h u

theorem Accepted.concat {a : ApiAct ω} (hacc : Accepted acts h u) : Accepted (acts ++ [a]) h u := by
  obtain ⟨pre, hpre, haccepts⟩ := hacc
  exact ⟨pre, hpre.trans (List.prefix_append ..), haccepts⟩

def CachesAccepted (acts : List (ApiAct ω)) (x : Deployment ω) : Prop :=
  ∀ w h user, x.authCaches w h = some user → Accepted acts h user.userId

theorem CachesAccepted.step {a : ApiAct ω} (hacts : CachesAccepted acts (after step {} acts)) :
    CachesAccepted (acts ++ [a]) (step (after step {} acts) a).2 := by
  intro w h user hc
  cases a with
  | drop w' h' =>
    apply Accepted.concat
    apply hacts w h user
    have hupdate : Function.update (after Deployment.step {} acts).authCaches w'
        (((after Deployment.step {} acts).authCaches w').evict h') w h = some user := hc
    by_cases hw : w = w'
    · subst hw
      rw [Function.update_self] at hupdate
      exact TokenCache.of_evict hupdate
    · rwa [Function.update_of_ne hw] at hupdate
  | request w' env f r =>
    have hupdate : Function.update (after Deployment.step {} acts).authCaches w'
        (respond env f r ((after Deployment.step {} acts).worker w')).2.authCache w h = some user := hc
    by_cases hw : w = w'
    · subst hw
      rw [Function.update_self, respond_snd] at hupdate
      rcases cached_of_serve hupdate with hold | haccepts
      · exact (hacts w h user hold).concat
      · exact ⟨acts, List.prefix_append .., haccepts⟩
    · rw [Function.update_of_ne hw] at hupdate
      exact (hacts w h user hupdate).concat

theorem cachesAccepted (acts : List (ApiAct ω)) : CachesAccepted acts (after step {} acts) :=
  after_history nofun (fun _ _ hpre => hpre.step) acts

end Deployment

/-! ### Requests and whom they act for -/

theorem UserEndpoint.actsFor_call {e : UserEndpoint} {env : Env} {f : ApiFaults} {user : User}
    {c : UserCall} {d : Db} {u : UUID} (hc : e.call env f user = some c) (hu : c.ActsFor d u) :
    user.userId = u := by
  cases e with
  | deactivateMyAccount | reactivateMyAccount | deleteMyAccount | sendRequest | acceptRequest
  | removeOrDecline | createGroup | deleteGroup | addMember | removeMember | sendDirectMessage
  | sendGroupMessage =>
    obtain rfl := Option.some.inj hc
    exact hu
  | _ => cases hc

namespace Deployment

variable {ω : Type} [DecidableEq ω]

/-- What a request shows of a user's, after the run: the id that a registration draws, the password,
a stored token, or a bearer token that was accepted once. -/
def Shows (acts : List (ApiAct ω)) (env : Env) (r : Request) (u : UUID) : Prop :=
  match r.endpoint with
  | .session (.register _ _) => env.newId = u
  | .session (.login username password) =>
    ∃ user, (after step {} acts).db.users.get? u = some user ∧ user.username = username ∧
      env.hasher.verify password user.passwordHash = true
  | .session (.refresh raw) => (after step {} acts).db.OwnedBy .refresh (env.hashToken raw) u
  | .session (.logout raw) =>
    (after step {} acts).db.OwnedBy .refresh (env.hashToken raw) u ∨
      ∃ access, r.credentials = some access ∧
        (after step {} acts).db.OwnedBy .access (env.hashToken access) u
  | .user _ => ∃ access, r.credentials = some access ∧ Accepted acts (env.hashToken access) u

section

variable {acts : List (ApiAct ω)} {w : ω} {env : Env} {f : ApiFaults} {r : Request} {c : UserCall}

theorem shows_of_getCurrentUser {e : UserEndpoint} {g : TokenAwait → Option Fault} {user : User}
    {s' : AppState} (hr : r.endpoint = .user e)
    (hauth : getCurrentUser env g ((after step {} acts).worker w) e.allowsDeactivated r.credentials =
      (.ok user, s')) : Shows acts env r user.userId := by
  simp only [Shows, hr]
  obtain ⟨access, hcredentials, hcached | haccepts⟩ := accepts_of_getCurrentUser hauth
  · exact ⟨access, hcredentials, cachesAccepted acts w _ _ hcached⟩
  · exact ⟨access, hcredentials, acts, List.prefix_rfl, haccepts⟩

theorem shows_of_call {u : UUID} (hc : r.call env f ((after step {} acts).worker w) = some c)
    (hu : c.ActsFor (after step {} acts).db u) : Shows acts env r u := by
  rcases Request.call_cases hc with ⟨e, hr, -, rfl⟩ | ⟨e, user, s', hr, -, hauth, hcall⟩
  · simp only [Shows, hr]
    cases e with
    | register | login | refresh => exact hu
    | logout raw =>
      rcases hu with hrefresh | ⟨h, hh, haccess⟩
      · exact .inl hrefresh
      · obtain ⟨access, hsome, rfl⟩ := Option.map_eq_some_iff.mp hh
        exact .inr ⟨access, (Option.filter_eq_some_iff.mp hsome).1, haccess⟩
  · obtain rfl := UserEndpoint.actsFor_call hcall hu
    exact shows_of_getCurrentUser hr hauth

end

/-- Whoever changes a row has shown credentials of a user whom the row concerns. -/
theorem changes_need_credentials (acts : List (ApiAct ω)) (a : ApiAct ω) (row : Row) :
    ((step (after step {} acts) a).2.db.Has row ↔ (after step {} acts).db.Has row) ∨
      ∃ w env f r u, a = .request w env f r ∧ row.Concerns (after step {} acts).db u ∧
        Shows acts env r u := by
  cases hcall : (after step {} acts).call a with
  | none =>
    rw [db_of_no_call hcall]
    exact .inl Iff.rfl
  | some c =>
    have hcommit := commit_of_call hcall
    cases a with
    | drop w h => cases hcall
    | request w env f r =>
      refine or_iff_not_imp_right.mpr fun hnone => ?_
      refine UserCall.has_iff_of_commit hcommit fun u hu hconcerns => hnone ?_
      have hshows := shows_of_call (Option.filter_eq_some_iff.mp hcall).1 hu
      exact ⟨w, env, f, r, u, rfl, hconcerns, hshows⟩

/-! ### The requests that rows stem from -/

/-- The row that a request creates when the run has come to `acts`: its parameters are valid, and they
and the credentials that it shows make up the row. -/
inductive Creates (acts : List (ApiAct ω)) (env : Env) : Request → Row → Prop
  | user {username password : String} {c : Option String}
    (hname : RegisterRequest.username.Admits username)
    (hpassword : RegisterRequest.password.Admits password) :
    Creates acts env ⟨.session (.register username password), c⟩
      (.user ⟨env.newId, username, env.hashPassword password, false, env.now⟩)
  | token {e : SessionEndpoint} {c : Option String} {k : TokenKind} {u : UUID}
    (he : ∀ raw, e ≠ .logout raw) (hshows : Shows acts env ⟨.session e, c⟩ u) :
    Creates acts env ⟨.session e, c⟩ ((env.auth.pair.row k u).asRow k)
  | group {name : String} {c : Option String} {u : UUID} (hname : CreateGroupRequest.name.Admits name)
    (hshows : Shows acts env ⟨.user (.createGroup name), c⟩ u) :
    Creates acts env ⟨.user (.createGroup name), c⟩ (.group ⟨env.newId, name, u, env.now⟩)
  | founder {name : String} {c : Option String} {u : UUID}
    (hshows : Shows acts env ⟨.user (.createGroup name), c⟩ u) :
    Creates acts env ⟨.user (.createGroup name), c⟩ (.membership ⟨env.newId, u, env.now⟩)
  | member {groupId userId : UUID} {c : Option String} {g : Group}
    (hgroup : (after step {} acts).db.groups.get? groupId = some g)
    (hshows : Shows acts env ⟨.user (.addMember groupId userId), c⟩ g.createdBy) :
    Creates acts env ⟨.user (.addMember groupId userId), c⟩ (.membership ⟨groupId, userId, env.now⟩)
  | friendship {addresseeId u : UUID} {c : Option String}
    (hshows : Shows acts env ⟨.user (.sendRequest addresseeId), c⟩ u) :
    Creates acts env ⟨.user (.sendRequest addresseeId), c⟩
      (.friendship ⟨u, addresseeId, false, env.now, env.now⟩)
  | directMessage {recipientId u : UUID} {content : String} {c : Option String}
    (hcontent : SendDirectMessageRequest.content.Admits content)
    (hshows : Shows acts env ⟨.user (.sendDirectMessage recipientId content), c⟩ u) :
    Creates acts env ⟨.user (.sendDirectMessage recipientId content), c⟩
      (.directMessage ⟨env.newId, u, recipientId, content, env.now⟩)
  | groupMessage {groupId u : UUID} {content : String} {c : Option String}
    (hcontent : SendGroupMessageRequest.content.Admits content)
    (hshows : Shows acts env ⟨.user (.sendGroupMessage groupId content), c⟩ u) :
    Creates acts env ⟨.user (.sendGroupMessage groupId content), c⟩
      (.groupMessage ⟨env.newId, groupId, u, content, env.now⟩)

theorem creates_of_call {acts : List (ApiAct ω)} {w : ω} {env : Env} {f : ApiFaults} {r : Request}
    {c : UserCall} {row : Row} (hc : r.call env f ((after step {} acts).worker w) = some c)
    (hrow : c.Creates (after step {} acts).db row) : Creates acts env r row := by
  obtain ⟨endpoint, credentials⟩ := r
  rcases Request.call_cases hc with ⟨e, rfl, he, rfl⟩ | ⟨e, user, s', rfl, he, hauth, hcall⟩
  · cases e with
    | register username password =>
      obtain ⟨hname, hpassword⟩ := List.append_eq_nil_iff.mp he
      rcases hrow with rfl | ⟨k, rfl⟩
      · exact .user (TextField.check_eq_nil.mp hname) (TextField.check_eq_nil.mp hpassword)
      · exact .token nofun rfl
    | login username password =>
      obtain ⟨u, k, hu, rfl⟩ := hrow
      exact .token nofun hu
    | refresh raw =>
      obtain ⟨u, k, hu, rfl⟩ := hrow
      exact .token nofun hu
    | logout raw => exact hrow.elim
  · have hshows : Shows acts env ⟨.user e, credentials⟩ user.userId :=
      shows_of_getCurrentUser rfl hauth
    cases e with
    | sendRequest addresseeId =>
      obtain rfl := Option.some.inj hcall
      obtain rfl : row = _ := hrow
      exact .friendship hshows
    | createGroup name =>
      obtain rfl := Option.some.inj hcall
      rcases hrow with rfl | rfl
      · exact .group (TextField.check_eq_nil.mp he) hshows
      · exact .founder hshows
    | addMember groupId userId =>
      obtain rfl := Option.some.inj hcall
      obtain ⟨rfl, g, hgroup, hcreator⟩ := hrow
      exact .member hgroup (hcreator ▸ hshows)
    | sendDirectMessage recipientId content =>
      obtain rfl := Option.some.inj hcall
      obtain rfl : row = _ := hrow
      exact .directMessage (TextField.check_eq_nil.mp he) hshows
    | sendGroupMessage groupId content =>
      obtain rfl := Option.some.inj hcall
      obtain rfl : row = _ := hrow
      exact .groupMessage (TextField.check_eq_nil.mp he) hshows
    | deactivateMyAccount | reactivateMyAccount | deleteMyAccount | acceptRequest | removeOrDecline
    | deleteGroup | removeMember =>
      obtain rfl := Option.some.inj hcall
      exact hrow.elim
    | _ => cases hcall

/-- A request of the run has created the row, which has only been updated since. -/
def Requested (acts : List (ApiAct ω)) (row : Row) : Prop :=
  ∃ pre w env f r post row₀, acts = pre ++ .request w env f r :: post ∧ Creates pre env r row₀ ∧
    row₀.fixed = row.fixed

theorem Requested.concat {acts : List (ApiAct ω)} {row row' : Row} {a : ApiAct ω}
    (h : Requested acts row) (hfixed : row.fixed = row'.fixed) : Requested (acts ++ [a]) row' := by
  obtain ⟨pre, w, env, f, r, post, row₀, rfl, hcreates, hrow⟩ := h
  refine ⟨pre, w, env, f, r, post ++ [a], row₀, ?_, hcreates, hrow.trans hfixed⟩
  rw [List.append_assoc, List.cons_append]

def AllRequested (acts : List (ApiAct ω)) (x : Deployment ω) : Prop :=
  ∀ row, x.db.Has row → Requested acts row

theorem requested_step {acts : List (ApiAct ω)} {a : ApiAct ω} {row : Row}
    (h : AllRequested acts (after step {} acts))
    (hrow : (step (after step {} acts) a).2.db.Has row) : Requested (acts ++ [a]) row := by
  cases hcall : (after step {} acts).call a with
  | none =>
    rw [db_of_no_call hcall] at hrow
    exact (h row hrow).concat rfl
  | some c =>
    rcases UserCall.explains_of_commit (commit_of_call hcall) hrow with
      ⟨row₀, hrow₀, hfixed⟩ | ⟨row₀, hcreates, hfixed⟩
    · exact (h row₀ hrow₀).concat hfixed
    · cases a with
      | drop w h' => cases hcall
      | request w env f r =>
        have hmade := creates_of_call (Option.filter_eq_some_iff.mp hcall).1 hcreates
        exact ⟨acts, w, env, f, r, [], row₀, rfl, hmade, hfixed⟩

/-- All that is stored has been requested. -/
theorem stored_rows_were_requested (acts : List (ApiAct ω)) (row : Row)
    (hrow : (after step {} acts).db.Has row) : Requested acts row := by
  have hall : AllRequested acts (after step {} acts) :=
    after_history (fun row hnone => by cases row <;> cases hnone)
      (fun pre a hpre row hrow => requested_step hpre hrow) acts
  exact hall row hrow

end Deployment

namespace Sample

def registers : List (ApiAct Unit) :=
  [.request () api (fun _ => none) ⟨.session (.register "ada" "password"), none⟩]

end Sample

theorem Deployment.stored_rows_were_requested_registered :
    Requested Sample.registers (.user ⟨Sample.api.newId, "ada", "password", false, 0⟩) := by
  refine stored_rows_were_requested Sample.registers _ ?_
  show _ ∈ (after step {} Sample.registers).db.users.rows
  decide

end Messenger
