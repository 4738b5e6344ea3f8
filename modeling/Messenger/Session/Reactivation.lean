import Messenger.Session.Lockout

/-! Whether a valid session can be turned away. The path that admits deactivated accounts caches
their snapshots, and `reactivate_account` publishes nothing that would evict them; a login that
switches an account on does. -/

namespace Messenger
open Transition

def Operation.UnlocksSilently (id : UUID) : Operation → Prop
  | register env _ _ => env.newUserId = id
  | reactivateAccount id' => id' = id
  | _ => False

theorem Operation.unlocks_published {op : Operation} {d d' : Db} {es : List Effect} {id : UUID}
    (hc : op.commit d = some (d', es)) (hl : d.Locked id) (hl' : ¬ d'.Locked id) :
    op.UnlocksSilently id ∨ .publish (.userInvalidated id) ∈ es := by
  have hu : op.Unlocks d id := ((Operation.commits hc).unlocks id hl).resolve_left hl'
  cases op with
  | register env username password => exact .inl hu
  | reactivateAccount id' => exact .inl hu
  | login env username password =>
    obtain ⟨⟨user, b⟩, htx, rfl⟩ := committed_eq_some.mp hc
    have hfind := AuthService.find?_of_loginTx htx
    obtain ⟨user', hfind', rfl⟩ := hu
    obtain rfl := Option.some.inj (hfind.symm.trans hfind')
    have hoff : user.deactivated = true := hl user (AuthService.get?_of_find? hfind)
    have hb : b = true := by
      rw [((AuthService.loginTx_eq_ok hfind).mp htx).2.1, hoff, Bool.true_or]
    exact .inr (by simp [hb])
  | _ => exact hu.elim

namespace Cluster

variable {ω κ : Type} [DecidableEq ω] [DecidableEq κ] {s s' : Cluster ω κ} {a : ClusterAct ω κ}

/-- Every worker accepts every token that is neither revoked nor expired and whose user is active. -/
def AcceptsValid (s : Cluster ω κ) : Prop :=
  ∀ w h token user now, (s.db.tokens .access).get? h = some token → token.isRevoked = false →
    token.isExpired now = false → s.db.users.get? token.userId = some user →
    user.deactivated = false → ∀ allow,
      ∃ user', (authenticateToken s.db (s.cache w) now h allow).1 = .ok user'

/-- An account is unlocked silently, or a deactivated snapshot of an unlocked account is stored or
left behind by a failing operation, only where an event is on its way that evicts the snapshot. -/
def Refreshing (s : Cluster ω κ) : ClusterAct ω κ → Prop
  | .commit _ _ op => ∀ w h user, s.cache w h = some user → user.deactivated = true →
    op.UnlocksSilently user.userId → Unsettled s w h
  | .store k => ∀ w h allow u, s.call k = some ⟨w, h, allow, .user u⟩ → u.deactivated = true →
    s.db.Locked u.userId ∨ Unsettled s w h
  | .fail k => ∀ w h user, s.cache w h = some user → user.deactivated = true →
    s.db.Locked user.userId ∨ Unsettled (s.setOp k none) w h
  | _ => True

def Refreshed (s : Cluster ω κ) : Prop :=
  ∀ w h user, s.cache w h = some user → user.deactivated = true →
    s.db.Locked user.userId ∨ Unsettled s w h

theorem Refreshed.move (hr : Refreshed s) (hp : Provenance s) (hG : Refreshing s a)
    (hm : Move s a s') : Refreshed s' := by
  intro w h user hcached hoff
  have hkept (hu : Unsettled s w h) : (∀ k, a ≠ .fail k) → Unsettled s' w h :=
    hu.kept hp hm (by simp [hcached])
  rcases hm.db with ⟨hdb, -⟩ | ⟨k, w', op, es, rfl, -, -, hcommit, heq⟩
  · rw [hdb]
    rcases hm.cache hcached with hold | ⟨k, allow, rfl, hk⟩
    · have hbefore := hr w h user hold hoff
      cases hm with
      | fail => exact hG w h user hold hoff
      | reject ha => exact hbefore.imp_right fun hu => hkept hu (by rintro k rfl; simp at ha)
      | _ => exact hbefore.imp_right fun hu => hkept hu (by simp)
    · exact (hG w h allow user hk hoff).imp_right fun hu => hkept hu (by simp)
  · have hold : s.cache w h = some user := by
      rw [heq] at hcached
      exact hcached
    by_cases hlocked : s'.db.Locked user.userId
    · exact .inl hlocked
    refine .inr ?_
    rcases hr w h user hold hoff with hbefore | hu
    · rcases Operation.unlocks_published hcommit hbefore hlocked with hsilent | he
      · exact hkept (hG w h user hold hoff hsilent) (by simp)
      · -- the login that has switched the account on is about to publish its invalidation
        have hissued := (hp.move hm).cached w h user hcached
        refine ⟨.userInvalidated user.userId, _, hissued, rfl, .inr ⟨k, w', es, ?_, he⟩⟩
        rw [heq]
        exact Function.update_self ..
    · exact hkept hu (by simp)

theorem refreshed_run {d : Db} {acts : List (ClusterAct ω κ)}
    (hG : Guarded step Refreshing (init d) acts) (hs : run step (init d) acts = some s) :
    Provenance s ∧ Refreshed s :=
  Guarded.induction (I := fun s : Cluster ω κ => Provenance s ∧ Refreshed s)
    (fun _ _ _ hI hG hs => ⟨hI.1.move (move_of_step hs), hI.2.move hI.1 hG (move_of_step hs)⟩) hG hs
    ⟨provenance_init d, fun _ _ _ hc => by cases hc⟩

/-- In a run whose steps are all `Refreshing`: whenever everything is at rest, every valid session is
accepted on every worker, with or without `allow_deactivated`. -/
theorem valid_session_accepted (d : Db) (acts : List (ClusterAct ω κ)) (s : Cluster ω κ)
    (hG : Guarded step Refreshing (init d) acts) (hs : run step (init d) acts = some s)
    (hq : AtRest s) : AcceptsValid s := by
  obtain ⟨hp, hr⟩ := refreshed_run hG hs
  intro w h token user now hrow hunrevoked hunexpired huser hactive allow
  unfold authenticateToken
  cases hc : s.cache w h with
  | some cached =>
    -- the snapshot is of this user, so it cannot be one of a locked account
    have hid : cached.userId = token.userId :=
      Option.some.inj ((hp.cached w h cached hc).symm.trans (hp.row h token hrow))
    have hflag : cached.deactivated = false := by
      by_contra hoff
      rcases hr w h cached hc (Bool.of_not_eq_false hoff) with hlocked | hu
      · rw [hid] at hlocked
        exact absurd (hlocked user huser) (by simp [hactive])
      · exact hq.not_unsettled hu
    exact ⟨cached, checkUser_eq_ok.mpr ⟨by simp [hflag], rfl⟩⟩
  | none =>
    have htoken : lookupToken s.db h now = .ok token :=
      lookupToken_eq_ok.mpr ⟨hrow, hunrevoked, hunexpired⟩
    have hfound : lookupUser s.db token allow = .ok user :=
      lookupUser_eq_ok.mpr ⟨huser, by simp [hactive]⟩
    exact ⟨user, by simp only [htoken, hfound]⟩

end Cluster

namespace Sample

/-- The account is switched off, and a lookup that may read it so has read both rows. -/
def allowedLookup : List (ClusterAct Unit (Fin 2)) :=
  [deactivation, .effect operationTask, .begin lookupTask () accessHash true, .readToken lookupTask 0,
    .readUser lookupTask]

def loginActs : List (ClusterAct Unit (Fin 2)) :=
  [.commit operationTask () (.login env "ada" "secret"), .effect operationTask, .effect operationTask,
    .consume ()]

end Sample

/-- A deactivated account authenticates where that is allowed, and a login switches it on again: the
event evicts the cached snapshot. -/
theorem valid_session_accepted_login :
    ∃ r s : Cluster Unit (Fin 2),
      run Cluster.step (Cluster.init Sample.session) (Sample.allowedLookup ++ [.store 0]) = some r ∧
      r.cache () Sample.accessHash = some { Sample.user with deactivated := true } ∧
      run Cluster.step r Sample.loginActs = some s ∧ s.AcceptsValid ∧
      (s.db.tokens .access).get? Sample.accessHash =
        some ((Sample.pair 1).row .access Sample.user.userId) := by
  obtain ⟨m, hm, hcall, hstored, r, hr, hcached, s, hs, hquiet, hrow⟩ :
      ∃ m ∈ run Cluster.step (Cluster.init Sample.session) Sample.allowedLookup,
        Sample.hasRead m { Sample.user with deactivated := true } = true ∧
        m.db.users.get? Sample.user.userId = some { Sample.user with deactivated := true } ∧
        ∃ r ∈ m.step (.store 0),
        r.cache () Sample.accessHash = some { Sample.user with deactivated := true } ∧
        ∃ s ∈ run Cluster.step r Sample.loginActs, Sample.quiet s ∧
        (s.db.tokens .access).get? Sample.accessHash =
          some ((Sample.pair 1).row .access Sample.user.userId) := by decide
  have hrun : run Cluster.step (Cluster.init Sample.session)
      (Sample.allowedLookup ++ .store 0 :: Sample.loginActs) = some s :=
    run_append_eq_some.mpr ⟨m, hm, run_cons_eq_some.mpr ⟨r, hr, hs⟩⟩
  refine ⟨r, s, run_append_eq_some.mpr ⟨m, hm, run_singleton.trans hr⟩, hcached, hs,
    Cluster.valid_session_accepted _ _ s ?_ hrun (Sample.atRest_of_quiet hquiet), hrow⟩
  refine guarded_append (guarded_of_forall_mem fun a ha s => ?_) fun m' hm' => ⟨?_, fun _ _ =>
    guarded_of_forall_mem fun a ha s => ?_⟩
  · simp only [Sample.allowedLookup, List.mem_cons, List.not_mem_nil, or_false] at ha
    rcases ha with rfl | rfl | rfl | rfl | rfl
    · exact fun _ _ _ _ _ hsilent => hsilent.elim
    all_goals trivial
  · -- the account is locked when its snapshot is stored
    obtain rfl := Option.some.inj (hm.symm.trans hm')
    intro w h allow user hk hoff
    obtain rfl : user = { Sample.user with deactivated := true } := by
      simpa [Sample.hasRead, Sample.lookupTask, hk] using hcall
    refine .inl fun row hrow => ?_
    obtain rfl := Option.some.inj (hstored.symm.trans hrow)
    rfl
  · simp only [Sample.loginActs, List.mem_cons, List.not_mem_nil, or_false] at ha
    rcases ha with rfl | rfl | rfl | rfl
    · exact fun _ _ _ _ _ hsilent => hsilent.elim
    all_goals trivial

/-- The account is deactivated, authenticates where that is allowed, and reactivates itself: the
cached snapshot turns the token away. -/
theorem not_valid_session_accepted :
    ∃ s : Cluster Unit (Fin 2),
      run Cluster.step (Cluster.init Sample.session)
        [Sample.deactivation, .effect 1, .begin 0 () Sample.accessHash true, .readToken 0 0,
          .readUser 0, .store 0, .commit 1 () (.reactivateAccount Sample.user.userId), .effect 1] =
          some s ∧
      s.AtRest ∧ ¬ s.AcceptsValid := by
  obtain ⟨s, hs, hquiet, hcached, hrow, huser⟩ :
      ∃ s ∈ run Cluster.step (Cluster.init Sample.session)
        [Sample.deactivation, .effect 1, .begin 0 () Sample.accessHash true, .readToken 0 0,
          .readUser 0, .store 0, .commit 1 () (.reactivateAccount Sample.user.userId), .effect 1],
        Sample.quiet s ∧
        s.cache () Sample.accessHash = some { Sample.user with deactivated := true } ∧
        (s.db.tokens .access).get? Sample.accessHash =
          some ((Sample.pair 1).row .access Sample.user.userId) ∧
        s.db.users.get? Sample.user.userId = some Sample.user := by decide
  refine ⟨s, hs, Sample.atRest_of_quiet hquiet, fun haccepts => ?_⟩
  obtain ⟨user', hok⟩ := haccepts () Sample.accessHash _ _ 0 hrow rfl rfl huser rfl false
  simp only [authenticateToken, hcached] at hok
  cases hok

end Messenger
