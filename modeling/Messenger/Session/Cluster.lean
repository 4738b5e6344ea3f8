import Messenger.Lib.Feed
import Messenger.Lib.Transition
import Messenger.Session.Commits

/-! Workers that share a database and the system stream, each with its own token cache. A call of
`authenticate_token` awaits between its steps; an account operation commits, and its local evictions
and publications follow one by one. Raw tokens are random, so no access token is issued twice. -/

namespace Messenger
open Transition

inductive Stage where
  | lookup
  | token (t : AccessToken)
  | user (u : User)

structure AuthCall (ω : Type) where
  worker : ω
  tokenHash : TokenHash
  allowDeactivated : Bool
  stage : Stage

structure Answer (ω : Type) where
  worker : ω
  tokenHash : TokenHash
  result : Except TokenRejection User

/-- `op` holds the effects that the operations in progress still have to perform, `issuedTo` the
user of every access token there has ever been, and `answers` what the calls have returned. -/
structure Cluster (ω κ : Type) where
  db : Db
  stream : Feed ω SystemEvent := .empty
  cache : ω → TokenCache := fun _ => .empty
  call : κ → Option (AuthCall ω) := fun _ => none
  op : κ → Option (ω × List Effect) := fun _ => none
  issuedTo : TokenHash → Option UUID
  answers : List (Answer ω) := []

inductive ClusterAct (ω κ : Type) where
  | begin (k : κ) (w : ω) (h : TokenHash) (allowDeactivated : Bool)
  | readToken (k : κ) (now : Timestamp)
  | readUser (k : κ)
  | store (k : κ)
  | abort (k : κ)
  | commit (k : κ) (w : ω) (op : Operation)
  | effect (k : κ)
  | fail (k : κ)
  | consume (w : ω)
  | lose (w : ω)
  | expire (w : ω) (h : TokenHash)

namespace Cluster

variable {ω κ : Type} [DecidableEq ω] [DecidableEq κ]

def init (d : Db) : Cluster ω κ :=
  { db := d, issuedTo := fun h => ((d.tokens .access).get? h).map (·.userId) }

def setCache (s : Cluster ω κ) (w : ω) (c : TokenCache) : Cluster ω κ :=
  { s with cache := Function.update s.cache w c }

def setCall (s : Cluster ω κ) (k : κ) (c : Option (AuthCall ω)) : Cluster ω κ :=
  { s with call := Function.update s.call k c }

def setOp (s : Cluster ω κ) (k : κ) (o : Option (ω × List Effect)) : Cluster ω κ :=
  { s with op := Function.update s.op k o }

def answer (s : Cluster ω κ) (w : ω) (h : TokenHash) (r : Except TokenRejection User) :
    Cluster ω κ :=
  { s with answers := s.answers ++ [⟨w, h, r⟩] }

def proceed {α : Type} (s : Cluster ω κ) (k : κ) (c : AuthCall ω) (r : Except TokenRejection α)
    (stage : α → Stage) : Cluster ω κ :=
  match r with
  | .ok a => s.setCall k (some { c with stage := stage a })
  | .error e => (s.setCall k none).answer c.worker c.tokenHash (.error e)

def perform (s : Cluster ω κ) (w : ω) : Effect → Cluster ω κ
  | .evict h => s.setCache w ((s.cache w).evict h)
  | .publish e => { s with stream := s.stream.publish e }

def commit (s : Cluster ω κ) (k : κ) (w : ω) (d : Db) (es : List Effect) : Cluster ω κ :=
  { s.setOp k (some (w, es)) with
    db := d
    issuedTo := fun h => (s.issuedTo h).or (((d.tokens .access).get? h).map (·.userId)) }

def step (s : Cluster ω κ) : ClusterAct ω κ → Option (Cluster ω κ)
  | .begin k w h allow =>
    match s.call k, s.cache w h with
    | some _, _ => none
    | none, some user => some (s.answer w h (checkUser user allow))
    | none, none => some (s.setCall k (some ⟨w, h, allow, .lookup⟩))
  | .readToken k now =>
    match s.call k with
    | some ⟨w, h, allow, .lookup⟩ =>
      some (s.proceed k ⟨w, h, allow, .lookup⟩ (lookupToken s.db h now) .token)
    | _ => none
  | .readUser k =>
    match s.call k with
    | some ⟨w, h, allow, .token t⟩ =>
      some (s.proceed k ⟨w, h, allow, .token t⟩ (lookupUser s.db t allow) .user)
    | _ => none
  | .store k =>
    match s.call k with
    | some ⟨w, h, _, .user u⟩ =>
      some (((s.setCache w ((s.cache w).set h u)).setCall k none).answer w h (.ok u))
    | _ => none
  | .abort k => (s.call k).map fun _ => s.setCall k none
  | .commit k w op =>
    match s.op k with
    | some _ => none
    | none =>
      if op.issues.any fun h => (s.issuedTo h).isSome then none
      else (op.commit s.db).map fun (d, es) => s.commit k w d es
  | .effect k =>
    match s.op k with
    | some (w, e :: es) => some ((s.perform w e).setOp k (some (w, es)))
    | some (_, []) => some (s.setOp k none)
    | none => none
  | .fail k => (s.op k).map fun _ => s.setOp k none
  | .consume w => (s.stream.read w).map fun (e, stream) =>
    { s with stream, cache := Function.update s.cache w ((s.cache w).handleInvalidationEvent e) }
  | .lose w => (s.stream.lose w).map fun stream => { s with stream }
  | .expire w h => some (s.setCache w ((s.cache w).evict h))

/-! ### What a step can do -/

inductive Move (s : Cluster ω κ) : ClusterAct ω κ → Cluster ω κ → Prop where
  | hit {k w h allow user} (hc : s.cache w h = some user) :
    Move s (.begin k w h allow) (s.answer w h (checkUser user allow))
  | miss {k w h allow} (hc : s.cache w h = none) :
    Move s (.begin k w h allow) (s.setCall k (some ⟨w, h, allow, .lookup⟩))
  | token {k w h allow now t} (hk : s.call k = some ⟨w, h, allow, .lookup⟩)
    (ht : lookupToken s.db h now = .ok t) :
    Move s (.readToken k now) (s.setCall k (some ⟨w, h, allow, .token t⟩))
  | user {k w h allow t u} (hk : s.call k = some ⟨w, h, allow, .token t⟩)
    (hu : lookupUser s.db t allow = .ok u) :
    Move s (.readUser k) (s.setCall k (some ⟨w, h, allow, .user u⟩))
  | reject {a k w h e} (ha : (∃ now, a = .readToken k now) ∨ a = .readUser k) :
    Move s a ((s.setCall k none).answer w h (.error e))
  | store {k w h allow u} (hk : s.call k = some ⟨w, h, allow, .user u⟩) :
    Move s (.store k) (((s.setCache w ((s.cache w).set h u)).setCall k none).answer w h (.ok u))
  | abort {k} : Move s (.abort k) (s.setCall k none)
  | commit {k w op d es} (hk : s.op k = none) (hfresh : ∀ h, op.issues = some h → s.issuedTo h = none)
    (hc : op.commit s.db = some (d, es)) : Move s (.commit k w op) (s.commit k w d es)
  | evict {k w h es} (hk : s.op k = some (w, .evict h :: es)) :
    Move s (.effect k) ((s.setCache w ((s.cache w).evict h)).setOp k (some (w, es)))
  | publish {k w e es} (hk : s.op k = some (w, .publish e :: es)) :
    Move s (.effect k) ({ s with stream := s.stream.publish e }.setOp k (some (w, es)))
  | done {k w} (hk : s.op k = some (w, [])) : Move s (.effect k) (s.setOp k none)
  | fail {k} : Move s (.fail k) (s.setOp k none)
  | consume {w e stream} (hr : s.stream.read w = some (e, stream)) :
    Move s (.consume w) { s with
      stream, cache := Function.update s.cache w ((s.cache w).handleInvalidationEvent e) }
  | lose {w stream} (hl : s.stream.lose w = some stream) : Move s (.lose w) { s with stream }
  | expire {w h} : Move s (.expire w h) (s.setCache w ((s.cache w).evict h))

variable {s s' : Cluster ω κ} {a : ClusterAct ω κ} {w : ω} {h : TokenHash} {k : κ} {user : User}
  {c : AuthCall ω}

theorem move_of_step (hs : step s a = some s') : Move s a s' := by
  cases a with
  | begin k w h allow =>
    simp only [step] at hs
    split at hs
    · cases hs
    · next hc =>
      obtain rfl := Option.some.inj hs
      exact .hit hc
    · next hc =>
      obtain rfl := Option.some.inj hs
      exact .miss hc
  | readToken k now =>
    simp only [step] at hs
    split at hs
    · next w h allow hk =>
      obtain rfl := Option.some.inj hs
      cases ht : lookupToken s.db h now with
      | ok t => exact .token hk ht
      | error e => exact .reject (.inl ⟨now, rfl⟩)
    · cases hs
  | readUser k =>
    simp only [step] at hs
    split at hs
    · next w h allow t hk =>
      obtain rfl := Option.some.inj hs
      cases hu : lookupUser s.db t allow with
      | ok u => exact .user hk hu
      | error e => exact .reject (.inr rfl)
    · cases hs
  | store k =>
    simp only [step] at hs
    split at hs
    · next hk =>
      obtain rfl := Option.some.inj hs
      exact .store hk
    · cases hs
  | abort k =>
    obtain ⟨_, -, rfl⟩ := Option.map_eq_some_iff.mp hs
    exact .abort
  | commit k w op =>
    simp only [step] at hs
    split at hs
    · cases hs
    · next hop =>
      split at hs
      · cases hs
      · next hfresh =>
        obtain ⟨⟨d, es⟩, hc, rfl⟩ := Option.map_eq_some_iff.mp hs
        exact .commit hop (fun h hh => by simpa [hh] using hfresh) hc
  | effect k =>
    simp only [step] at hs
    split at hs
    · next w e es hk =>
      obtain rfl := Option.some.inj hs
      cases e with
      | evict h => exact .evict hk
      | publish e => exact .publish hk
    · next w hk =>
      obtain rfl := Option.some.inj hs
      exact .done hk
    · cases hs
  | fail k =>
    obtain ⟨_, -, rfl⟩ := Option.map_eq_some_iff.mp hs
    exact .fail
  | consume w =>
    obtain ⟨_, hr, rfl⟩ := Option.map_eq_some_iff.mp hs
    exact .consume hr
  | lose w =>
    obtain ⟨_, hl, rfl⟩ := Option.map_eq_some_iff.mp hs
    exact .lose hl
  | expire w h =>
    obtain rfl := Option.some.inj hs
    exact .expire

/-- A commit is the only step that touches the database. -/
theorem Move.db (hm : Move s a s') :
    s'.db = s.db ∧ s'.issuedTo = s.issuedTo ∨
      ∃ k w op es, a = .commit k w op ∧ s.op k = none ∧ (∀ h, op.issues = some h → s.issuedTo h = none) ∧
        op.commit s.db = some (s'.db, es) ∧ s' = s.commit k w s'.db es := by
  cases hm with
  | commit hk hfresh hc => exact .inr ⟨_, _, _, _, rfl, hk, hfresh, hc, rfl⟩
  | _ => exact .inl ⟨rfl, rfl⟩

theorem Move.issuedTo {id : UUID} (hm : Move s a s') (hi : s.issuedTo h = some id) :
    s'.issuedTo h = some id := by
  rcases hm.db with ⟨-, heq⟩ | ⟨k, w, op, es, -, -, -, -, heq⟩
  · rw [heq, hi]
  · rw [heq]
    exact congrArg (Option.or · _) hi

/-- A cache gains an entry only at the end of the slow path. -/
theorem Move.cache (hm : Move s a s') (hc : s'.cache w h = some user) :
    s.cache w h = some user ∨
      ∃ k allow, a = .store k ∧ s.call k = some ⟨w, h, allow, .user user⟩ := by
  have hset {w' : ω} {c : TokenCache} (hc : Function.update s.cache w' c w h = some user) :
      s.cache w h = some user ∨ w' = w ∧ c h = some user := by
    by_cases hw : w = w'
    · subst hw
      rw [Function.update_self] at hc
      exact .inr ⟨rfl, hc⟩
    · rw [Function.update_of_ne hw] at hc
      exact .inl hc
  cases hm with
  | store hk =>
    rcases hset hc with hold | ⟨rfl, hnew⟩
    · exact .inl hold
    · refine (TokenCache.of_set hnew).imp_right fun ⟨hh, hu⟩ => ?_
      subst hh hu
      exact ⟨_, _, rfl, hk⟩
  | evict hk => exact .inl ((hset hc).elim id fun ⟨hw, hc⟩ => TokenCache.of_evict (hw ▸ hc))
  | expire => exact .inl ((hset hc).elim id fun ⟨hw, hc⟩ => TokenCache.of_evict (hw ▸ hc))
  | consume hr => exact .inl ((hset hc).elim id fun ⟨hw, hc⟩ => TokenCache.of_handle (hw ▸ hc))
  | _ => exact .inl hc

/-- A call reaches a stage by the read that leads there. -/
theorem Move.call (hm : Move s a s') (hk : s'.call k = some c) :
    s.call k = some c ∨ (c.stage = .lookup ∧ ∃ w h allow, a = .begin k w h allow) ∨
      (∃ now t, a = .readToken k now ∧ c.stage = .token t ∧
        lookupToken s.db c.tokenHash now = .ok t ∧ s.call k = some { c with stage := .lookup }) ∨
      ∃ t u, c.stage = .user u ∧ lookupUser s.db t c.allowDeactivated = .ok u ∧
        s.call k = some { c with stage := .token t } := by
  have hset {k' : κ} {c' : Option (AuthCall ω)} (hk : Function.update s.call k' c' k = some c) :
      s.call k = some c ∨ k' = k ∧ c' = some c := by
    by_cases hkk : k = k'
    · subst hkk
      exact .inr ⟨rfl, (Function.update_self k c' s.call).symm.trans hk⟩
    · exact .inl ((Function.update_of_ne hkk c' s.call).symm.trans hk)
  cases hm with
  | miss hc =>
    refine (hset hk).imp_right fun ⟨hkk, heq⟩ => .inl ?_
    obtain rfl := Option.some.inj heq
    exact ⟨rfl, _, _, _, by rw [hkk]⟩
  | token hk' ht =>
    refine (hset hk).imp_right fun ⟨hkk, heq⟩ => .inr (.inl ?_)
    obtain rfl := Option.some.inj heq
    exact ⟨_, _, by rw [hkk], rfl, ht, hkk ▸ hk'⟩
  | user hk' hu =>
    refine (hset hk).imp_right fun ⟨hkk, heq⟩ => .inr (.inr ?_)
    obtain rfl := Option.some.inj heq
    exact ⟨_, _, rfl, hu, hkk ▸ hk'⟩
  | reject => exact (hset hk).imp_right fun ⟨_, heq⟩ => by cases heq
  | store hk' => exact (hset hk).imp_right fun ⟨_, heq⟩ => by cases heq
  | abort => exact (hset hk).imp_right fun ⟨_, heq⟩ => by cases heq
  | _ => exact .inl hk

theorem call_of_begin {allow : Bool} (hs : step s (.begin k w h allow) = some s') :
    s.call k = none := by
  simp only [step] at hs
  split at hs
  · cases hs
  · assumption
  · assumption

/-- A worker stops having an event to handle by handling it. -/
theorem Move.unread {e : SystemEvent} (hm : Move s a s') (he : e ∈ s.stream.unread w) :
    e ∈ s'.stream.unread w ∨ s'.cache w = (s.cache w).handleInvalidationEvent e := by
  cases hm with
  | publish hk => exact .inl (Feed.mem_unread_publish.mpr (.inl he))
  | consume hr =>
    rcases Feed.mem_unread_of_read hr he with he' | ⟨rfl, rfl⟩
    · exact .inl he'
    · exact .inr (Function.update_self ..)
  | lose hl => exact .inl ((Feed.unread_lose hl).symm ▸ he)
  | _ => exact .inl he

/-- A worker accepts a token from its cache or at the end of the slow path. -/
theorem Move.answers (hm : Move s a s') :
    ∃ as, s'.answers = s.answers ++ as ∧ ∀ x ∈ as, ∀ user, x.result = .ok user →
      (∃ k allow, a = .begin k x.worker x.tokenHash allow ∧
        s.cache x.worker x.tokenHash = some user) ∨
      ∃ k allow, a = .store k ∧ s.call k = some ⟨x.worker, x.tokenHash, allow, .user user⟩ := by
  cases hm with
  | hit hc =>
    refine ⟨_, rfl, List.forall_mem_singleton.mpr fun user hok => .inl ?_⟩
    obtain ⟨-, rfl⟩ := checkUser_eq_ok.mp hok
    exact ⟨_, _, rfl, hc⟩
  | reject => exact ⟨_, rfl, List.forall_mem_singleton.mpr fun user hok => by cases hok⟩
  | store hk =>
    refine ⟨_, rfl, List.forall_mem_singleton.mpr fun user hok => .inr ?_⟩
    obtain rfl := Except.ok.inj hok
    exact ⟨_, _, rfl, hk⟩
  | _ => exact ⟨[], (List.append_nil _).symm, List.forall_mem_nil _⟩

omit [DecidableEq ω] in
@[simp] theorem call_setCall {o : Option (AuthCall ω)} : (s.setCall k o).call k = o :=
  Function.update_self ..

theorem authenticateToken_alone (w : ω) (h : TokenHash) (allow : Bool) (now : Timestamp)
    (hk : s.call k = none) :
    ∃ acts t, run step s acts = some t ∧
      t.answers = s.answers ++ [⟨w, h, (authenticateToken s.db (s.cache w) now h allow).1⟩] ∧
      t.cache w = (authenticateToken s.db (s.cache w) now h allow).2 := by
  cases hc : s.cache w h with
  | some user =>
    have hbegin : step s (.begin k w h allow) = some (s.answer w h (checkUser user allow)) := by
      simp [step, hk, hc]
    have hauth : authenticateToken s.db (s.cache w) now h allow =
        (checkUser user allow, s.cache w) := by
      simp only [authenticateToken, hc]
    rw [hauth]
    exact ⟨[.begin k w h allow], _, run_singleton.trans hbegin, rfl, rfl⟩
  | none =>
    let s₁ := s.setCall k (some ⟨w, h, allow, .lookup⟩)
    have hbegin : step s (.begin k w h allow) = some s₁ := by simp [step, hk, hc, s₁]
    cases ht : lookupToken s.db h now with
    | error e =>
      have hread : step s₁ (.readToken k now) = some ((s₁.setCall k none).answer w h (.error e)) := by
        simp only [step, s₁, call_setCall]
        simp only [setCall, proceed, ht]
      have hauth : authenticateToken s.db (s.cache w) now h allow = (.error e, s.cache w) := by
        simp only [authenticateToken, hc, ht]
      rw [hauth]
      exact ⟨[.begin k w h allow, .readToken k now], _,
        run_cons_eq_some.mpr ⟨_, hbegin, run_singleton.trans hread⟩, rfl, rfl⟩
    | ok token =>
      let s₂ := s₁.setCall k (some ⟨w, h, allow, .token token⟩)
      have hread : step s₁ (.readToken k now) = some s₂ := by
        simp only [step, s₁, s₂, call_setCall]
        simp only [setCall, proceed, ht]
      cases hu : lookupUser s.db token allow with
      | error e =>
        have hraise : step s₂ (.readUser k) = some ((s₂.setCall k none).answer w h (.error e)) := by
          simp only [step, s₁, s₂, call_setCall]
          simp only [setCall, proceed, hu]
        have hauth : authenticateToken s.db (s.cache w) now h allow = (.error e, s.cache w) := by
          simp only [authenticateToken, hc, ht, hu]
        rw [hauth]
        exact ⟨[.begin k w h allow, .readToken k now, .readUser k], _, run_cons_eq_some.mpr ⟨_, hbegin,
          run_cons_eq_some.mpr ⟨_, hread, run_singleton.trans hraise⟩⟩, rfl, rfl⟩
      | ok user =>
        let s₃ := s₂.setCall k (some ⟨w, h, allow, .user user⟩)
        have hfound : step s₂ (.readUser k) = some s₃ := by
          simp only [step, s₁, s₂, s₃, call_setCall]
          simp only [setCall, proceed, hu]
        have hstore : step s₃ (.store k) =
            some (((s₃.setCache w ((s.cache w).set h user)).setCall k none).answer w h (.ok user)) := by
          simp only [step, s₃, call_setCall]
          rfl
        have hauth : authenticateToken s.db (s.cache w) now h allow =
            (.ok user, (s.cache w).set h user) := by
          simp only [authenticateToken, hc, ht, hu]
        rw [hauth]
        exact ⟨[.begin k w h allow, .readToken k now, .readUser k, .store k], _,
          run_cons_eq_some.mpr ⟨_, hbegin, run_cons_eq_some.mpr ⟨_, hread,
            run_cons_eq_some.mpr ⟨_, hfound, run_singleton.trans hstore⟩⟩⟩, rfl,
          Function.update_self ..⟩

/-! ### Whose token it is -/

structure Provenance (s : Cluster ω κ) : Prop where
  row : ∀ h t, (s.db.tokens .access).get? h = some t → s.issuedTo h = some t.userId
  cached : ∀ w h user, s.cache w h = some user → s.issuedTo h = some user.userId
  token : ∀ k w h allow t, s.call k = some ⟨w, h, allow, .token t⟩ → s.issuedTo h = some t.userId
  user : ∀ k w h allow u, s.call k = some ⟨w, h, allow, .user u⟩ → s.issuedTo h = some u.userId

omit [DecidableEq ω] [DecidableEq κ] in
theorem provenance_init (d : Db) : Provenance (init d : Cluster ω κ) where
  row h t ht := congrArg (Option.map _) ht
  cached w h user hc := by cases hc
  token k w h allow t hk := by cases hk
  user k w h allow u hk := by cases hk

theorem Provenance.move (hp : Provenance s) (hm : Move s a s') : Provenance s' where
  row h t' ht' := by
    rcases hm.db with ⟨hdb, heq⟩ | ⟨k, w, op, es, -, -, hfresh, hc, heq⟩
    · rw [heq]
      exact hp.row h t' (hdb ▸ ht')
    · rcases (Operation.commits hc).row h t' ht' with ⟨t, ht, hid, -⟩ | ⟨hissued, -, -⟩
      · rw [← hid]
        exact hm.issuedTo (hp.row h t ht)
      · -- a new row is of a token that was never issued before
        rw [heq]
        simp [commit, hfresh h hissued, ht']
  cached w h user hc := by
    rcases hm.cache hc with hc | ⟨k, allow, -, hk⟩
    · exact hm.issuedTo (hp.cached w h user hc)
    · exact hm.issuedTo (hp.user k w h allow user hk)
  token k w h allow t hk := by
    rcases hm.call hk with hk | ⟨hk, -⟩ | ⟨now, t', -, hk, ht, -⟩ | ⟨t', u, hk, -, -⟩
    · exact hm.issuedTo (hp.token k w h allow t hk)
    · cases hk
    · cases hk
      exact hm.issuedTo (hp.row h t (lookupToken_eq_ok.mp ht).1)
    · cases hk
  user k w h allow u hk := by
    rcases hm.call hk with hk | ⟨hk, -⟩ | ⟨now, t', -, hk, -, -⟩ | ⟨t', u', hk, hu, hk'⟩
    · exact hm.issuedTo (hp.user k w h allow u hk)
    · cases hk
    · cases hk
    · cases hk
      have hid := Table.key_of_get? (lookupUser_eq_ok.mp hu).1
      exact hm.issuedTo (hid ▸ hp.token k w h allow t' hk')

omit [DecidableEq ω] [DecidableEq κ] in
theorem Provenance.handled {e : SystemEvent} {id : UUID} (hp : Provenance s)
    (hi : s.issuedTo h = some id) (he : e.Names h id) :
    (s.cache w).handleInvalidationEvent e h = none := by
  cases e with
  | tokenRevoked h' =>
    obtain rfl : h' = h := he
    exact TokenCache.evict_self
  | userInvalidated id' =>
    obtain rfl : id' = id := he
    refine Option.filter_eq_none_iff.mpr fun user hc => ?_
    have hid : user.userId = id' := Option.some.inj ((hp.cached w h user hc).symm.trans hi)
    simp [hid]

end Cluster
end Messenger
