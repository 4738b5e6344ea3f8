import Messenger.Session.Revocation

/-! Whether a deactivated or deleted account can still get in. The account operations publish
nothing, so the cached snapshots of an active account outlive its deactivation. Where there are
none, and none is stored later by a lookup that was on its way, the account is locked out. -/

namespace Messenger
open Transition
namespace Cluster

variable {ω κ : Type} [DecidableEq ω] [DecidableEq κ] {s s' t : Cluster ω κ}
  {a : ClusterAct ω κ} {w : ω} {h : TokenHash} {id : UUID}

def Evicting (s : Cluster ω κ) (w : ω) (h : TokenHash) (id : UUID) : Prop :=
  ∃ e ∈ s.stream.unread w, e.Names h id

/-- An account is switched off, and an active snapshot of a locked account is stored, only where
an event is on its way that evicts the snapshot. -/
def LockingOut (s : Cluster ω κ) : ClusterAct ω κ → Prop
  | .commit _ _ op => ∀ id, op = .deactivateAccount id ∨ op = .deleteAccount id →
    ∀ w h user, s.cache w h = some user → user.userId = id → user.deactivated = false →
      Evicting s w h id
  | .store k => ∀ w h allow user, s.call k = some ⟨w, h, allow, .user user⟩ →
    user.deactivated = false → s.db.Locked user.userId → Evicting s w h user.userId
  | _ => True

def Unlocks (id : UUID) (s : Cluster ω κ) : ClusterAct ω κ → Prop
  | .commit _ _ op => op.Unlocks s.db id
  | _ => False

def Expelled (s : Cluster ω κ) : Prop :=
  ∀ w h user, s.cache w h = some user → user.deactivated = false → s.db.Locked user.userId →
    Evicting s w h user.userId

theorem Expelled.move (he : Expelled s) (hp : Provenance s) (hG : LockingOut s a)
    (hm : Move s a s') : Expelled s' := by
  intro w h user hcached hactive hlocked
  have hkept (hev : Evicting s w h user.userId) : Evicting s' w h user.userId := by
    obtain ⟨e, hread, hn⟩ := hev
    rcases hm.unread hread with hread' | hhandled
    · exact ⟨e, hread', hn⟩
    · -- handling the event has emptied the place, or another step has just filled it
      rcases hm.cache hcached with hold | ⟨k, allow, rfl, hk⟩
      · have hnone := hp.handled (w := w) (hp.cached w h user hold) hn
        rw [← hhandled, hcached] at hnone
        cases hnone
      · cases hm with
        | store hk' => exact ⟨e, hread, hn⟩
        | reject ha => simp at ha
  rcases hm.db with ⟨hdb, -⟩ | ⟨k, w', op, es, rfl, -, -, hcommit, heq⟩
  · rw [hdb] at hlocked
    rcases hm.cache hcached with hold | ⟨k, allow, rfl, hk⟩
    · exact hkept (he w h user hold hactive hlocked)
    · exact hkept (hG w h allow user hk hactive hlocked)
  · have hold : s.cache w h = some user := by
      rw [heq] at hcached
      exact hcached
    rcases (Operation.commits hcommit).locks user.userId hlocked with hbefore | hswitch
    · exact hkept (he w h user hold hactive hbefore)
    · exact hkept (hG user.userId hswitch w h user hold rfl hactive)

theorem expelled_run {d : Db} {acts : List (ClusterAct ω κ)}
    (hG : Guarded step LockingOut (init d) acts) (hs : run step (init d) acts = some s) :
    Provenance s ∧ Expelled s :=
  Guarded.induction (I := fun s : Cluster ω κ => Provenance s ∧ Expelled s)
    (fun _ _ _ hI hG hs => ⟨hI.1.move (move_of_step hs), hI.2.move hI.1 hG (move_of_step hs)⟩) hG hs
    ⟨provenance_init d, fun _ _ _ hc => by cases hc⟩

theorem Locked.move (hl : s.db.Locked id) (hu : ¬ Unlocks id s a) (hm : Move s a s') :
    s'.db.Locked id := by
  rcases hm.db with ⟨hdb, -⟩ | ⟨k, w, op, es, rfl, -, -, hcommit, -⟩
  · rwa [hdb]
  · exact ((Operation.commits hcommit).unlocks id hl).resolve_right hu

theorem locked_run {acts : List (ClusterAct ω κ)} (hl : s.db.Locked id)
    (hu : Guarded step (fun s a => ¬ Unlocks id s a) s acts) (ht : run step s acts = some t) :
    t.db.Locked id :=
  Guarded.induction (I := fun s : Cluster ω κ => s.db.Locked id)
    (fun _ _ _ hl hu hs => Locked.move hl hu (move_of_step hs)) hu ht hl

theorem locked_of_commit {d d' : Db} {op : Operation} {es : List Effect}
    (hop : op = .deactivateAccount id ∨ op = .deleteAccount id) (hc : op.commit d = some (d', es)) :
    d'.Locked id := by
  rcases hop with rfl | rfl
  · obtain ⟨_, htx, -⟩ := committed_eq_some.mp hc
    obtain ⟨-, -, rfl⟩ := query_deactivateUser.mp htx
    intro user hu
    rw [Write.get?_setDeactivated] at hu
    obtain ⟨u, hrow, rfl⟩ := Option.map_eq_some_iff.mp hu
    rw [if_pos (Table.key_of_get? hrow)]
  · obtain ⟨_, htx, -⟩ := committed_eq_some.mp hc
    have hd := (UserService.deleteAccountTx_eq_ok.mp htx).2
    intro user hu
    have hid := Table.key_of_get? hu
    rw [(tables_deleteUser hd).1, Table.get?_deleteWhere] at hu
    simpa [hid] using (Option.filter_eq_some_iff.mp hu).2

/-- Every token of the account is rejected by every worker, whenever it is presented. -/
def LockedOut (s : Cluster ω κ) (id : UUID) : Prop :=
  ∀ w h, s.issuedTo h = some id → ∀ now user,
    (authenticateToken s.db (s.cache w) now h false).1 ≠ .ok user

/-- In a run whose steps are all `LockingOut`: after `deactivate_account` or `delete_account`, and
until the account is switched on, it is locked out whenever every worker has handled the whole
stream and no lookup is in progress. -/
theorem deactivated_locked_out (d : Db) (acts acts' : List (ClusterAct ω κ)) (s s' t : Cluster ω κ)
    (k : κ) (w : ω) (op : Operation) (id : UUID)
    (hop : op = .deactivateAccount id ∨ op = .deleteAccount id)
    (hs : run step (init d) acts = some s) (hc : step s (.commit k w op) = some s')
    (ht : run step s' acts' = some t)
    (hG : Guarded step LockingOut (init d) (acts ++ .commit k w op :: acts'))
    (hu : Guarded step (fun s a => ¬ Unlocks id s a) s' acts')
    (hquiet : (∀ w, t.stream.unread w = []) ∧ ∀ k, t.call k = none) : LockedOut t id := by
  have hrun : run step (init d) (acts ++ .commit k w op :: acts') = some t :=
    run_append_eq_some.mpr ⟨s, hs, run_cons_eq_some.mpr ⟨s', hc, ht⟩⟩
  obtain ⟨hp, he⟩ := expelled_run hG hrun
  have hlocked : t.db.Locked id := by
    refine locked_run ?_ hu ht
    cases move_of_step hc with
    | commit _ _ hcommit => exact locked_of_commit hop hcommit
    | reject ha => simp at ha
  intro w h hi now user hok
  rcases authenticateToken_eq_ok hok with ⟨hcached, hactive⟩ | ⟨-, token, htoken, huser⟩
  · -- an active snapshot would have an event coming, but the stream has been handled
    have hid : user.userId = id := Option.some.inj ((hp.cached w h user hcached).symm.trans hi)
    have hflag : user.deactivated = false := by
      simpa using hactive
    obtain ⟨e, hread, -⟩ := he w h user hcached hflag (hid ▸ hlocked)
    rw [hquiet.1 w] at hread
    cases hread
  · have hrow := hp.row h token (lookupToken_eq_ok.mp htoken).1
    obtain rfl : token.userId = id := Option.some.inj (hrow.symm.trans hi)
    exact lookupUser_of_locked hlocked huser

end Cluster

namespace Sample
open Cluster

def deactivation : ClusterAct Unit (Fin 2) := .commit (Fin.last 1) () (.deactivateAccount user.userId)

/-- The account is switched off, and on again by a login, before a lookup reads it. -/
def reactivation : List (ClusterAct Unit (Fin 2)) :=
  deactivation :: .effect operationTask :: .commit operationTask () (.login env "ada" "secret") ::
    lookupActs

def hasRead (s : Cluster Unit (Fin 2)) (u : User) : Bool :=
  match s.call lookupTask with
  | some ⟨_, _, _, .user u'⟩ => decide (u' = u)
  | _ => false

def loginReturns : List (ClusterAct Unit (Fin 2)) := [.effect operationTask, .effect operationTask]

end Sample

/-- A login has switched the account on and published its event. The snapshot that is cached meanwhile is
still to be evicted when the account is switched off again. -/
theorem deactivated_locked_out_evicted :
    ∃ s s' t : Cluster Unit (Fin 2),
      run Cluster.step (Cluster.init Sample.session) (Sample.reactivation ++ .store 0 :: Sample.loginReturns) =
        some s ∧
      s.cache () Sample.accessHash = some Sample.user ∧ s.step Sample.deactivation = some s' ∧
      run Cluster.step s' [.effect 1, .consume ()] = some t ∧ t.LockedOut Sample.user.userId := by
  obtain ⟨m, hm, hcall, hstored, r, hr, s, hs, hcached, hread, s', hs', t, ht, hquiet⟩ :
      ∃ m ∈ run Cluster.step (Cluster.init Sample.session) Sample.reactivation,
        Sample.hasRead m Sample.user = true ∧ m.db.users.get? Sample.user.userId = some Sample.user ∧
        ∃ r ∈ m.step (.store 0), ∃ s ∈ run Cluster.step r Sample.loginReturns,
        s.cache () Sample.accessHash = some Sample.user ∧
        s.stream.unread () = [.userInvalidated Sample.user.userId] ∧
        ∃ s' ∈ s.step Sample.deactivation,
        ∃ t ∈ run Cluster.step s' [.effect 1, .consume ()], Sample.quiet t := by decide
  have hrest := Sample.atRest_of_quiet hquiet
  have hrun : run Cluster.step (Cluster.init Sample.session)
      (Sample.reactivation ++ .store 0 :: Sample.loginReturns) = some s :=
    run_append_eq_some.mpr ⟨m, hm, run_cons_eq_some.mpr ⟨r, hr, hs⟩⟩
  refine ⟨s, s', t, hrun, hcached, hs', ht, Cluster.deactivated_locked_out Sample.session _ _ s s' t 1 () _ _
    (.inl rfl) hrun hs' ht ?_ ⟨id, fun _ _ => ⟨id, fun _ _ => trivial⟩⟩ ⟨hrest.1, hrest.2.1⟩⟩
  refine guarded_append (guarded_append ⟨?_, fun _ _ => guarded_of_forall_mem fun a ha s => ?_⟩
    fun m' hm' => ⟨?_, fun _ _ => guarded_of_forall_mem fun a ha s => ?_⟩)
    fun s₁ hs₁ => ⟨?_, fun _ _ => guarded_of_forall_mem fun a ha s => ?_⟩
  · intro id _ w h user hc
    cases hc
  · simp only [Sample.lookupActs, List.mem_cons, List.not_mem_nil, or_false] at ha
    rcases ha with rfl | rfl | rfl | rfl | rfl
    · trivial
    · intro id hop
      rcases hop with hop | hop <;> cases hop
    all_goals trivial
  · -- the login has switched the account on
    obtain rfl := Option.some.inj (hm.symm.trans hm')
    intro w h allow user hk hactive hlocked
    obtain rfl : user = Sample.user := by simpa [Sample.hasRead, Sample.lookupTask, hk] using hcall
    cases hlocked _ hstored
  · simp only [Sample.loginReturns, List.mem_cons, List.not_mem_nil, or_false] at ha
    rcases ha with rfl | rfl <;> trivial
  · -- the worker has still to handle the event
    obtain rfl := Option.some.inj (hrun.symm.trans hs₁)
    intro id hop w h user hc hid hactive
    obtain rfl : Sample.user.userId = id := by
      rcases hop with hop | hop <;> cases hop
      rfl
    exact ⟨.userInvalidated Sample.user.userId, hread ▸ List.mem_singleton_self _, rfl⟩
  · simp only [List.mem_cons, List.not_mem_nil, or_false] at ha
    rcases ha with rfl | rfl <;> trivial

/-- The session is looked up, the account is deactivated and everything is at rest: the cached
snapshot still lets the token in. -/
theorem not_deactivated_locked_out :
    ∃ s s' t : Cluster Unit (Fin 2),
      run Cluster.step (Cluster.init Sample.session) (Sample.lookupActs ++ [.store 0]) = some s ∧
      s.step Sample.deactivation = some s' ∧ run Cluster.step s' [.effect 1] = some t ∧
      ((∀ w, t.stream.unread w = []) ∧ ∀ k, t.call k = none) ∧
      ¬ t.LockedOut Sample.user.userId := by
  obtain ⟨s, hs, s', hc, t, ht, hquiet, hi, hcached⟩ :
      ∃ s ∈ run Cluster.step (Cluster.init Sample.session) (Sample.lookupActs ++ [.store 0]),
        ∃ s' ∈ s.step Sample.deactivation, ∃ t ∈ run Cluster.step s' [.effect 1], Sample.quiet t ∧
        t.issuedTo Sample.accessHash = some Sample.user.userId ∧
        (t.cache () Sample.accessHash) = some Sample.user := by decide
  have hrest := Sample.atRest_of_quiet hquiet
  refine ⟨s, s', t, hs, hc, ht, ⟨hrest.1, hrest.2.1⟩, fun hout => ?_⟩
  refine hout () Sample.accessHash hi 0 Sample.user ?_
  simp only [authenticateToken, hcached]
  rfl

end Messenger
