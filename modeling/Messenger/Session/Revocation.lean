import Messenger.Session.Cluster

/-! How long a revoked access token is still accepted. A lookup that read the token's row before the
revocation stores it whenever it gets there, after the evictions if need be, and then nothing takes
it out of that cache any more. Every other cached copy has an event coming that evicts it. -/

namespace Messenger
open Transition
namespace Cluster

variable {ω κ : Type} [DecidableEq ω] [DecidableEq κ] {s s' t : Cluster ω κ}
  {a : ClusterAct ω κ} {w : ω} {h : TokenHash}

/-- An event that will make `w` drop `h` is still to be published, or to be handled there. -/
def Unsettled (s : Cluster ω κ) (w : ω) (h : TokenHash) : Prop :=
  ∃ e id, s.issuedTo h = some id ∧ e.Names h id ∧
    (e ∈ s.stream.unread w ∨ ∃ k w' es, s.op k = some (w', es) ∧ .publish e ∈ es)

/-- Nothing is in progress, and every worker has handled the whole stream. -/
def AtRest (s : Cluster ω κ) : Prop :=
  (∀ w, s.stream.unread w = []) ∧ (∀ k, s.call k = none) ∧ ∀ k, s.op k = none

omit [DecidableEq ω] [DecidableEq κ] in
theorem AtRest.not_unsettled (hq : AtRest s) : ¬ Unsettled s w h := by
  rintro ⟨e, id, -, -, he | ⟨k, w', es, hk, -⟩⟩
  · rw [hq.1 w] at he
    cases he
  · cases (hq.2.2 k).symm.trans hk

/-- No lookup stores a token after its revocation has been handled, and no operation fails to
publish a revocation that a cache still needs. -/
def Settling (s : Cluster ω κ) : ClusterAct ω κ → Prop
  | .store k => ∀ w h allow u, s.call k = some ⟨w, h, allow, .user u⟩ → s.db.Revoked .access h →
    Unsettled s w h
  | .fail k => ∀ w h, s.db.Revoked .access h → s.cache w h ≠ none → Unsettled (s.setOp k none) w h
  | _ => True

theorem Move.published {k : κ} {w' : ω} {es : List Effect} {e : SystemEvent} (hm : Move s a s')
    (hk : s.op k = some (w', es)) (he : .publish e ∈ es) :
    (∃ es', s'.op k = some (w', es') ∧ .publish e ∈ es') ∨ (∀ w, e ∈ s'.stream.unread w) ∨
      a = .fail k := by
  have hset {k' : κ} (o : Option (ω × List Effect)) (hkk : k ≠ k') :
      Function.update s.op k' o k = some (w', es) := (Function.update_of_ne hkk ..).trans hk
  cases hm with
  | commit hk' =>
    refine .inl ⟨es, hset _ ?_, he⟩
    rintro rfl
    cases hk.symm.trans hk'
  | @evict k' _ _ es' hk' =>
    by_cases hkk : k = k'
    · subst hkk
      obtain ⟨rfl, rfl⟩ := Prod.mk.inj (Option.some.inj (hk.symm.trans hk'))
      refine .inl ⟨es', Function.update_self .., ?_⟩
      exact (List.mem_cons.mp he).resolve_left (by simp)
    · exact .inl ⟨es, hset _ hkk, he⟩
  | @publish k' _ e' es' hk' =>
    by_cases hkk : k = k'
    · subst hkk
      obtain ⟨rfl, rfl⟩ := Prod.mk.inj (Option.some.inj (hk.symm.trans hk'))
      rcases List.mem_cons.mp he with heq | htail
      · obtain rfl := Effect.publish.inj heq
        exact .inr (.inl fun w => Feed.mem_unread_publish.mpr (.inr rfl))
      · exact .inl ⟨es', Function.update_self .., htail⟩
    · exact .inl ⟨es, hset _ hkk, he⟩
  | @done k' _ hk' =>
    by_cases hkk : k = k'
    · subst hkk
      obtain ⟨-, rfl⟩ := Prod.mk.inj (Option.some.inj (hk.symm.trans hk'))
      cases he
    · exact .inl ⟨es, hset _ hkk, he⟩
  | @fail k' =>
    by_cases hkk : k = k'
    · exact .inr (.inr (by rw [hkk]))
    · exact .inl ⟨es, hset _ hkk, he⟩
  | _ => exact .inl ⟨es, hk, he⟩

theorem Unsettled.move (hu : Unsettled s w h) (hp : Provenance s) (hm : Move s a s') :
    Unsettled s' w h ∨ s'.cache w h = none ∨ ∃ k, a = .fail k := by
  obtain ⟨e, id, hi, hn, hpending⟩ := hu
  have hi' := hm.issuedTo hi
  rcases hpending with hread | ⟨k, w', es, hk, he⟩
  · rcases hm.unread hread with hread' | hhandled
    · exact .inl ⟨e, id, hi', hn, .inl hread'⟩
    · exact .inr (.inl (by rw [hhandled, hp.handled hi hn]))
  · rcases hm.published hk he with ⟨es', hk', he'⟩ | hread | hfail
    · exact .inl ⟨e, id, hi', hn, .inr ⟨k, w', es', hk', he'⟩⟩
    · exact .inl ⟨e, id, hi', hn, .inl (hread w)⟩
    · exact .inr (.inr ⟨k, hfail⟩)

theorem Unsettled.kept (hu : Unsettled s w h) (hp : Provenance s) (hm : Move s a s')
    (hcached : s'.cache w h ≠ none) (ha : ∀ k, a ≠ .fail k) : Unsettled s' w h := by
  rcases hu.move hp hm with hu' | hnone | ⟨k, rfl⟩
  · exact hu'
  · exact absurd hnone hcached
  · exact absurd rfl (ha k)

def Covered (s : Cluster ω κ) : Prop :=
  ∀ w h, s.db.Revoked .access h → s.cache w h ≠ none → Unsettled s w h

theorem Covered.move (hc : Covered s) (hp : Provenance s) (hG : Settling s a) (hm : Move s a s') :
    Covered s' := by
  intro w h hrev hcached
  obtain ⟨user, huser⟩ := Option.ne_none_iff_exists'.mp hcached
  have hkept (hu : Unsettled s w h) : (∀ k, a ≠ .fail k) → Unsettled s' w h :=
    hu.kept hp hm hcached
  rcases hm.db with ⟨hdb, -⟩ | ⟨k, w', op, es, rfl, -, hfresh, hcommit, heq⟩
  · rw [hdb] at hrev
    rcases hm.cache huser with hold | ⟨k, allow, rfl, hk⟩
    · have hu := hc w h hrev (by simp [hold])
      cases hm with
      | fail => exact hG w h hrev (by simp [hold])
      | reject ha => exact hkept hu (by rintro k rfl; simp at ha)
      | _ => exact hkept hu (by simp)
    · exact hkept (hG w h allow user hk hrev) (by simp)
  · obtain ⟨t, ht, hrevoked⟩ := hrev
    rcases (Operation.commits hcommit).named h t ht hrevoked with hbefore | ⟨e, he, hn⟩
    · have hold : s.cache w h = some user := by
        rw [heq] at huser
        exact huser
      exact hkept (hc w h hbefore (by simp [hold])) (by simp)
    · refine ⟨e, t.userId, (hp.move hm).row h t ht, hn, .inr ⟨k, w', es, ?_, he⟩⟩
      rw [heq]
      exact Function.update_self ..

structure Gone (s : Cluster ω κ) (w : ω) (h : TokenHash) : Prop where
  issued : s.issuedTo h ≠ none
  rejected : s.db.Revoked .access h ∨ (s.db.tokens .access).get? h = none
  cache : s.cache w h = none
  call : ∀ k c, s.call k = some c → c.worker = w → c.tokenHash = h → c.stage = .lookup

theorem Gone.move (hg : Gone s w h) (hm : Move s a s') : Gone s' w h where
  issued hnone := by
    obtain ⟨id, hi⟩ := Option.ne_none_iff_exists'.mp hg.issued
    cases hnone.symm.trans (hm.issuedTo hi)
  rejected := by
    rcases hm.db with ⟨hdb, -⟩ | ⟨k, w', op, es, -, -, hfresh, hcommit, -⟩
    · rw [hdb]
      exact hg.rejected
    · have hc := Operation.commits hcommit
      rcases hg.rejected with hrev | hnone
      · exact hc.revoked h hrev
      · refine .inr (Option.eq_none_iff_forall_not_mem.mpr fun t ht => ?_)
        rcases hc.row h t ht with ⟨t', ht', -⟩ | ⟨hissued, -, -⟩
        · cases hnone.symm.trans ht'
        · exact hg.issued (hfresh h hissued)
  cache := by
    refine Option.eq_none_iff_forall_not_mem.mpr fun user hc => ?_
    rcases hm.cache hc with hc | ⟨k, allow, -, hk⟩
    · cases hg.cache.symm.trans hc
    · cases hg.call k _ hk rfl rfl
  call k c hk hw hh := by
    rcases hm.call hk with hk | ⟨hk, -⟩ | ⟨now, t, -, -, ht, -⟩ | ⟨t, u, -, -, hk⟩
    · exact hg.call k c hk hw hh
    · exact hk
    · obtain ⟨hrow, hunrevoked, -⟩ := lookupToken_eq_ok.mp ht
      rw [hh] at hrow
      rcases hg.rejected with hrev | hnone
      · exact absurd ⟨t, hrow, hunrevoked⟩ hrev.not_unrevoked
      · cases hnone.symm.trans hrow
    · cases hg.call k _ hk hw hh

theorem Gone.answers (hg : Gone s w h) (hm : Move s a s') :
    ∃ as, s'.answers = s.answers ++ as ∧
      ∀ x ∈ as, x.worker = w → x.tokenHash = h → ∀ user, x.result ≠ .ok user := by
  obtain ⟨as, heq, has⟩ := hm.answers
  refine ⟨as, heq, fun x hx hw hh user hok => ?_⟩
  rcases has x hx user hok with ⟨k, allow, -, hc⟩ | ⟨k, allow, -, hk⟩
  · rw [hw, hh] at hc
    cases hg.cache.symm.trans hc
  · cases hg.call k _ hk hw hh

theorem Gone.run {acts : List (ClusterAct ω κ)} (hg : Gone s w h) (hr : run step s acts = some t) :
    ∃ as, t.answers = s.answers ++ as ∧
      ∀ x ∈ as, x.worker = w → x.tokenHash = h → ∀ user, x.result ≠ .ok user := by
  induction acts generalizing s with
  | nil =>
    obtain rfl := Option.some.inj hr
    exact ⟨[], (List.append_nil _).symm, List.forall_mem_nil _⟩
  | cons a acts ih =>
    obtain ⟨s', hs, hr⟩ := run_cons_eq_some.mp hr
    have hm := move_of_step hs
    obtain ⟨as, heq, has⟩ := hg.answers hm
    obtain ⟨as', heq', has'⟩ := ih (hg.move hm) hr
    refine ⟨as ++ as', by rw [heq', heq, List.append_assoc], fun x hx => ?_⟩
    rcases List.mem_append.mp hx with hx | hx
    · exact has x hx
    · exact has' x hx

theorem covered_run {d : Db} {acts : List (ClusterAct ω κ)} (hG : Guarded step Settling (init d) acts)
    (hs : run step (init d) acts = some s) : Provenance s ∧ Covered s :=
  Guarded.induction (I := fun s : Cluster ω κ => Provenance s ∧ Covered s)
    (fun _ _ _ hI hG hs => ⟨hI.1.move (move_of_step hs), hI.2.move hI.1 hG (move_of_step hs)⟩) hG hs
    ⟨provenance_init d, fun _ _ _ hc => (hc rfl).elim⟩

/-- In a run whose steps are all `Settling`: once a token is revoked, `w` has handled all events that
name it, none of them is still to be published, and no lookup of it is in progress on `w`, then no
call on `w` accepts it in any continuation. -/
theorem revocation_reaches_cache (d : Db) (acts acts' : List (ClusterAct ω κ)) (s t : Cluster ω κ)
    (w : ω) (h : TokenHash) (hG : Guarded step Settling (init d) acts)
    (hs : run step (init d) acts = some s) (ht : run step s acts' = some t)
    (hrev : s.db.Revoked .access h) (hsettled : ¬ Unsettled s w h)
    (hcalls : ∀ k c, s.call k = some c → c.worker = w → c.tokenHash ≠ h) :
    ∀ x ∈ t.answers.drop s.answers.length, x.worker = w → x.tokenHash = h →
      ∀ user, x.result ≠ .ok user := by
  obtain ⟨hp, hc⟩ := covered_run hG hs
  obtain ⟨token, hrow, hrevoked⟩ := hrev
  have hg : Gone s w h :=
    { issued := by simp [hp.row h token hrow]
      rejected := .inl ⟨token, hrow, hrevoked⟩
      cache := by
        by_contra hcached
        exact hsettled (hc w h ⟨token, hrow, hrevoked⟩ hcached)
      call := fun k c hk hw hh => absurd hh (hcalls k c hk hw) }
  obtain ⟨as, heq, has⟩ := hg.run ht
  rw [heq, List.drop_left]
  exact has

end Cluster

namespace Sample
open Cluster

def session : Db :=
  Write.applyAll [.insertUser user, .insertToken .access ((pair 1).row .access user.userId),
    .insertToken .refresh ((pair 2).row .refresh user.userId)] {}

def accessHash : TokenHash := (pair 1).accessToken

/-- The task of a lookup, and that of an operation. -/
def lookupTask : Fin 2 := 0
def operationTask : Fin 2 := 1

def logoutActs : List (ClusterAct Unit (Fin 2)) :=
  .commit 1 () (.logout env "rr" (some "a")) :: List.replicate 4 (.effect 1)

def lookupActs : List (ClusterAct Unit (Fin 2)) :=
  [.begin 0 () accessHash false, .readToken 0 0, .readUser 0]

def handled : List (ClusterAct Unit (Fin 2)) := [.consume (), .consume ()]

def quiet (s : Cluster Unit (Fin 2)) : Bool :=
  decide (s.stream.unread () = []) && decide (∀ k, (s.op k).isNone ∧ (s.call k).isNone)

theorem atRest_of_quiet {s : Cluster Unit (Fin 2)} (hq : quiet s = true) : s.AtRest := by
  simp only [quiet, Bool.and_eq_true, decide_eq_true_eq, Option.isNone_iff_eq_none] at hq
  exact ⟨fun _ => hq.1, fun k => (hq.2 k).2, fun k => (hq.2 k).1⟩

end Sample

/-- The token is cached when its session is logged out. -/
theorem revocation_reaches_cache_logout :
    ∃ r s t : Cluster Unit (Fin 2), r.cache () Sample.accessHash = some Sample.user ∧
      run Cluster.step r (Sample.logoutActs ++ Sample.handled) = some s ∧
      s.db.Revoked .access Sample.accessHash ∧ t.answers.length = s.answers.length + 1 ∧
      ∀ x ∈ t.answers.drop s.answers.length, x.worker = () → x.tokenHash = Sample.accessHash →
        ∀ user, x.result ≠ .ok user := by
  obtain ⟨m, hm, hcall, hlive, r, hr, hcached, s, hs, t, ht, hrev, hquiet, hlen⟩ :
      ∃ m ∈ run Cluster.step (Cluster.init Sample.session) Sample.lookupActs,
        ((m.call 0).all (·.tokenHash = Sample.accessHash)) = true ∧
        ¬ m.db.Revoked .access Sample.accessHash ∧
        ∃ r ∈ m.step (.store 0), r.cache () Sample.accessHash = some Sample.user ∧
        ∃ s ∈ run Cluster.step r (Sample.logoutActs ++ Sample.handled),
        ∃ t ∈ run Cluster.step s (Sample.lookupActs.take 2), s.db.Revoked .access Sample.accessHash ∧
        Sample.quiet s ∧ t.answers.length = s.answers.length + 1 := by decide
  have hrest := Sample.atRest_of_quiet hquiet
  have hrun : run Cluster.step (Cluster.init Sample.session)
      (Sample.lookupActs ++ .store 0 :: (Sample.logoutActs ++ Sample.handled)) = some s :=
    run_append_eq_some.mpr ⟨m, hm, run_cons_eq_some.mpr ⟨r, hr, hs⟩⟩
  refine ⟨r, s, t, hcached, hs, hrev, hlen, Cluster.revocation_reaches_cache Sample.session _ _ s t () _ ?_
    hrun ht hrev hrest.not_unsettled fun k c hk => by cases (hrest.2.1 k).symm.trans hk⟩
  refine guarded_append (guarded_of_forall_mem fun a ha s => ?_) fun m' hm' => ⟨?_, fun _ _ =>
    guarded_of_forall_mem fun a ha s => ?_⟩
  · simp only [Sample.lookupActs, List.mem_cons, List.not_mem_nil, or_false] at ha
    rcases ha with rfl | rfl | rfl <;> trivial
  · -- the token is not revoked yet when it is stored
    obtain rfl := Option.some.inj (hm.symm.trans hm')
    intro w h allow u hk hrevoked
    rw [hk] at hcall
    exact absurd (of_decide_eq_true hcall ▸ hrevoked) hlive
  · simp only [Sample.logoutActs, Sample.handled, List.replicate, List.cons_append, List.nil_append,
      List.mem_cons, List.not_mem_nil, or_false] at ha
    rcases ha with rfl | rfl | rfl | rfl | rfl | rfl | rfl <;> trivial

/-- The lookup has read both rows when the token is revoked, and stores the user after the eviction
and after the events. The next call accepts the revoked token. -/
theorem not_revocation_reaches_cache :
    ∃ s t : Cluster Unit (Fin 2),
      run Cluster.step (Cluster.init Sample.session)
        (Sample.lookupActs ++ Sample.logoutActs ++ Sample.handled ++ [.store 0]) = some s ∧
      run Cluster.step s [.begin 0 () Sample.accessHash false] = some t ∧
      s.db.Revoked .access Sample.accessHash ∧ ¬ Cluster.Unsettled s () Sample.accessHash ∧
      (∀ k, s.call k = none) ∧
      ∃ x ∈ t.answers.drop s.answers.length, x.tokenHash = Sample.accessHash ∧
        x.result = .ok Sample.user := by
  obtain ⟨s, hs, t, ht, hrev, hquiet, hanswer⟩ :
      ∃ s ∈ run Cluster.step (Cluster.init Sample.session)
        (Sample.lookupActs ++ Sample.logoutActs ++ Sample.handled ++ [.store 0]),
        ∃ t ∈ run Cluster.step s [.begin 0 () Sample.accessHash false],
        s.db.Revoked .access Sample.accessHash ∧ Sample.quiet s ∧
        (t.answers.drop s.answers.length).map (fun x => (x.tokenHash, x.result.toOption)) =
          [(Sample.accessHash, some Sample.user)] := by decide
  have hrest := Sample.atRest_of_quiet hquiet
  refine ⟨s, t, hs, ht, hrev, hrest.not_unsettled, hrest.2.1, ?_⟩
  obtain ⟨x, hx, heq⟩ := List.map_eq_singleton_iff.mp hanswer
  obtain ⟨hhash, hresult⟩ := Prod.mk.inj heq
  exact ⟨x, hx ▸ List.mem_singleton_self x, hhash, Sample.ok_of_toOption hresult⟩

end Messenger
