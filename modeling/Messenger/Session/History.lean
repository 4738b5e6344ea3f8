import Messenger.Lib.Past
import Messenger.Session.Expiry

/-! Where an accepted token was checked. Behind every answer stands a read of an unrevoked and
unexpired row, by the call itself or by the one that set the entry it was answered from, and the user
is the one to whom the token was issued. -/

namespace Messenger
open Transition

def Operation.mints : Operation → Option String
  | register env _ _ | login env _ _ | refresh env _ => some env.tokenPair.accessToken
  | _ => none

namespace TimedCluster

variable {ω κ : Type} [DecidableEq ω] [DecidableEq κ] {ttl now : Timestamp} {d : Db}
  {s s' : TimedCluster ω κ} {a : TimedAct ω κ} {acts : List (TimedAct ω κ)}

/-! ### The past of a state -/

def ReadsRow (w : ω) (h : TokenHash) (k : κ) (_ : List (TimedAct ω κ)) (m : TimedCluster ω κ)
    (a : TimedAct ω κ) : Prop :=
  a = .act (.readToken k m.now) ∧ (∃ allow, m.call k = some ⟨w, h, allow, .lookup⟩) ∧
    ∃ token, (m.db.tokens .access).get? h = some token ∧ token.isRevoked = false ∧
      m.now < token.expiresAt

def Underway (w : ω) (h : TokenHash) (k : κ) (n : TimedCluster ω κ) : Prop :=
  ∃ c, n.call k = some c ∧ c.worker = w ∧ c.tokenHash = h ∧ c.stage ≠ .lookup

def Checked (ttl : Timestamp) (s₀ : TimedCluster ω κ) (acts : List (TimedAct ω κ)) (w : ω)
    (h : TokenHash) (k : κ) : Prop :=
  Since (step ttl) s₀ acts (ReadsRow w h k) (Underway w h k)

/-- A call that has read such a row stores and returns `user` at the time `at'`. -/
def Stores (ttl : Timestamp) (s₀ : TimedCluster ω κ) (w : ω) (h : TokenHash) (user : User)
    (at' : Timestamp) (pre : List (TimedAct ω κ)) (m : TimedCluster ω κ) (a : TimedAct ω κ) : Prop :=
  m.now = at' ∧ ∃ k allow, a = .act (.store k) ∧ m.call k = some ⟨w, h, allow, .user user⟩ ∧
    Checked ttl s₀ pre w h k

/-- The entry was stored at the time `at'` and has been in the cache ever since. -/
def StoredAt (ttl : Timestamp) (s₀ : TimedCluster ω κ) (acts : List (TimedAct ω κ)) (w : ω)
    (h : TokenHash) (user : User) (at' : Timestamp) : Prop :=
  Since (step ttl) s₀ acts (Stores ttl s₀ w h user at') fun n => n.cache w h = some user

def Issues (h : TokenHash) (id : UUID) (P : Operation → Prop) (_ : List (TimedAct ω κ))
    (m : TimedCluster ω κ) (a : TimedAct ω κ) : Prop :=
  ∃ k w op d' es token, a = .act (.commit k w op) ∧ P op ∧ op.issues = some h ∧
    op.commit m.db = some (d', es) ∧ (d'.tokens .access).get? h = some token ∧ token.userId = id

/-- The token was there at the start, or an operation that meets `P` issued it. -/
def IssuedTo (ttl : Timestamp) (s₀ : TimedCluster ω κ) (acts : List (TimedAct ω κ)) (h : TokenHash)
    (id : UUID) (P : Operation → Prop) : Prop :=
  (∃ token, (s₀.db.tokens .access).get? h = some token ∧ token.userId = id) ∨
    Since (step ttl) s₀ acts (Issues h id P) fun _ => True

/-! ### What the state says about its past -/

structure Recorded (ttl : Timestamp) (s₀ : TimedCluster ω κ) (acts : List (TimedAct ω κ))
    (s : TimedCluster ω κ) : Prop where
  calls : ∀ k c, s.call k = some c → c.stage ≠ .lookup →
    Checked ttl s₀ acts c.worker c.tokenHash k
  entries : ∀ w h user, s.cache w h = some user →
    StoredAt ttl s₀ acts w h user (s.setAt w h)
  issued : ∀ h id, s.issuedTo h = some id → IssuedTo ttl s₀ acts h id fun _ => True
  provenance : s.Provenance
  served : ∀ x ∈ s.served, ∀ user, x.result = .ok user → s.issuedTo x.tokenHash = some user.userId

theorem recorded_init : Recorded ttl (init d now) [] (init d now : TimedCluster ω κ) where
  calls k c hk := by cases hk
  entries w h user hc := by cases hc
  issued h id hi := .inl (Option.map_eq_some_iff.mp hi)
  provenance := Cluster.provenance_init d
  served x hx := by cases hx

omit [DecidableEq κ] in
theorem provenance_purged {b : ClusterAct ω κ} (hp : s.Provenance) : (s.purged ttl b).Provenance where
  row := hp.row
  cached w h user hc := hp.cached w h user (cache_of_purged hc)
  token := hp.token
  user := hp.user

theorem provenance_step (hp : s.Provenance) (hs : step ttl s a = some s') : s'.Provenance := by
  rcases cases_of_step hs with ⟨now, rfl, -, rfl⟩ | ⟨b, c, rfl, -, hstep, rfl⟩
  · exact hp
  · exact (provenance_purged hp).move (Cluster.move_of_step hstep)

theorem issuedTo_of_step {h : TokenHash} {id : UUID} (hs : step ttl s a = some s')
    (hi : s.issuedTo h = some id) : s'.issuedTo h = some id := by
  rcases cases_of_step hs with ⟨now, rfl, -, rfl⟩ | ⟨b, c, rfl, -, hstep, rfl⟩
  · exact hi
  · exact (Cluster.move_of_step hstep).issuedTo hi

theorem issues_of_step {h : TokenHash} {id : UUID} (hp : s.Provenance)
    (hs : step ttl s a = some s') (hi : s'.issuedTo h = some id) :
    s.issuedTo h = some id ∨ Issues h id (fun _ => True) acts s a := by
  rcases cases_of_step hs with ⟨now, rfl, -, rfl⟩ | ⟨b, c, rfl, -, hstep, rfl⟩
  · exact .inl hi
  have hi : c.issuedTo h = some id := hi
  rcases (Cluster.move_of_step hstep).db with ⟨-, heq⟩ | ⟨k, w, op, es, rfl, -, -, hc, heq⟩
  · exact .inl (heq ▸ hi)
  rw [heq] at hi
  rcases Option.or_eq_some_iff.mp hi with hold | ⟨hnone, hnew⟩
  · exact .inl hold
  · obtain ⟨token, hrow, hid⟩ := Option.map_eq_some_iff.mp hnew
    rcases (Operation.commits hc).row h token hrow with ⟨t, ht, -, -⟩ | ⟨hissued, -, -⟩
    · cases hnone.symm.trans (hp.row h t ht)
    · exact .inr ⟨k, w, op, c.db, es, token, rfl, trivial, hissued, hc, hrow, hid⟩

theorem Recorded.step {s₀ : TimedCluster ω κ} (hr : Recorded ttl s₀ acts s)
    (hrun : run (step ttl) s₀ acts = some s) (hs : step ttl s a = some s') :
    Recorded ttl s₀ (acts ++ [a]) s' where
  calls k c hk hstage := by
    have hunderway : Underway c.worker c.tokenHash k s' := ⟨c, hk, rfl, rfl, hstage⟩
    rcases call_of_step hs hk with ⟨hold, -⟩ | ⟨hlookup, -⟩ | ⟨t, rfl, -, ht, hold, -⟩ |
      ⟨t, u, -, -, hold, -⟩
    · exact (hr.calls k c hold hstage).snoc hrun hs hunderway
    · exact absurd hlookup hstage
    · obtain ⟨hrow, hunrevoked, hunexpired⟩ := lookupToken_eq_ok.mp ht
      have hlt : s.now < t.expiresAt := by
        simpa [Token.isExpired] using hunexpired
      exact since_of_step hrun hs ⟨rfl, ⟨_, hold⟩, t, hrow, hunrevoked, hlt⟩ hunderway
    · exact (hr.calls k _ hold (by simp)).snoc hrun hs hunderway
  entries w h user hc := by
    rcases cache_of_step hs hc with ⟨hold, hset⟩ | ⟨k, allow, rfl, hk, hset⟩
    · rw [hset]
      exact (hr.entries w h user hold).snoc hrun hs hc
    · rw [hset]
      have hchecked : Checked ttl s₀ acts w h k := hr.calls k _ hk (by simp)
      exact since_of_step hrun hs ⟨rfl, k, allow, rfl, hk, hchecked⟩ hc
  issued h id hi := by
    rcases issues_of_step hr.provenance hs hi with hold | hissues
    · exact (hr.issued h id hold).imp_right fun hsince => hsince.snoc hrun hs trivial
    · exact .inr (since_of_step hrun hs hissues trivial)
  provenance := provenance_step hr.provenance hs
  served x hx user hok := by
    obtain ⟨xs, hserved, hnew⟩ := served_of_step hs
    rw [hserved] at hx
    refine issuedTo_of_step hs ?_
    rcases List.mem_append.mp hx with hx | hx
    · exact hr.served x hx user hok
    · rcases (hnew x hx).2 user hok with ⟨k, allow, -, -, hc, -⟩ | ⟨k, allow, -, -, hk⟩
      · exact hr.provenance.cached _ _ user hc
      · exact hr.provenance.user k _ _ allow user hk

theorem recorded_run (hs : run (step ttl) (init d now) acts = some s) :
    Recorded ttl (init d now) acts s :=
  run_history recorded_init (fun _ _ _ _ hrun hr hstep => hr.step hrun hstep) hs

def ReadItself (ttl : Timestamp) (s₀ : TimedCluster ω κ) (acts : List (TimedAct ω κ))
    (s : TimedCluster ω κ) (a : TimedAct ω κ) (x : TimedAnswer ω) (user : User) : Prop :=
  ∃ k allow, a = .act (.store k) ∧ s.call k = some ⟨x.worker, x.tokenHash, allow, .user user⟩ ∧
    Checked ttl s₀ acts x.worker x.tokenHash k

def FromEntry (ttl : Timestamp) (s₀ : TimedCluster ω κ) (acts : List (TimedAct ω κ))
    (x : TimedAnswer ω) (user : User) : Prop :=
  ∃ at', x.returnedAt < at' + ttl ∧ StoredAt ttl s₀ acts x.worker x.tokenHash user at'

/-- Whenever a step returns a user for `raw`, the row was read by that call or by the one that set the
entry, less than `ttl` before and not evicted since; the token was issued to this user, and `raw` is
never accepted as that of another. No token made in the run collides with `raw`. -/
theorem authentication_provenance (ttl now : Timestamp) (d : Db) (hash : String → TokenHash)
    (raw : String) (acts : List (TimedAct ω κ)) (s s' : TimedCluster ω κ) (a : TimedAct ω κ)
    (hfree : ∀ k w op, .act (.commit k w op) ∈ acts → op.issues = some (hash raw) →
      op.mints = some raw)
    (hs : run (step ttl) (init d now) acts = some s) (ha : step ttl s a = some s') :
    ∀ x ∈ s'.served.drop s.served.length, x.tokenHash = hash raw → ∀ user, x.result = .ok user →
      (ReadItself ttl (init d now) acts s a x user ∨ FromEntry ttl (init d now) acts x user) ∧
      IssuedTo ttl (init d now) acts (hash raw) user.userId (fun op => op.mints = some raw) ∧
      ∀ y ∈ s'.served, y.tokenHash = hash raw → ∀ user', y.result = .ok user' →
        user'.userId = user.userId := by
  have hr := recorded_run hs
  have hr' := hr.step hs ha
  obtain ⟨xs, hserved, hnew⟩ := served_of_step ha
  rw [hserved, List.drop_left]
  intro x hx hraw user hok
  obtain ⟨hreturned, haccepted⟩ := hnew x hx
  have hsource : (ReadItself ttl (init d now) acts s a x user ∨
      FromEntry ttl (init d now) acts x user) ∧ s.issuedTo x.tokenHash = some user.userId := by
    rcases haccepted user hok with ⟨k, allow, -, -, hc, hlive⟩ | ⟨k, allow, hstore, -, hk⟩
    · refine ⟨.inr ⟨_, ?_, hr.entries _ _ user hc⟩, hr.provenance.cached _ _ user hc⟩
      rw [hreturned]
      exact hlive
    · exact ⟨.inl ⟨k, allow, hstore, hk, hr.calls k _ hk (by simp)⟩,
        hr.provenance.user k _ _ allow user hk⟩
  obtain ⟨hsource, hissued⟩ := hsource
  rw [hraw] at hissued
  refine ⟨hsource, ?_, fun y hy hyraw user' hyok => ?_⟩
  · refine (hr.issued _ _ hissued).imp_right fun hsince => hsince.mono ?_ fun _ _ => trivial
    rintro pre m b hb ⟨k, w, op, d', es, token, rfl, -, hissues, hc, hrow, hid⟩
    exact ⟨k, w, op, d', es, token, rfl, hfree k w op hb hissues, hissues, hc, hrow, hid⟩
  · have hother := hr'.served y (hserved ▸ hy) user' hyok
    rw [hyraw] at hother
    exact Option.some.inj (hother.symm.trans (issuedTo_of_step ha hissued))

end TimedCluster

namespace Sample

def newLogin : TimedAct Unit Unit := .act (.commit () () (.login env "ada" "secret"))

def begin (raw : String) : TimedAct Unit Unit := .act (.begin () () (env.hashToken raw) false)

end Sample

/-- The token of a new login is looked up, and presented again while its entry lasts. -/
theorem authentication_provenance_login :
    ∃ s s' : TimedCluster Unit Unit,
      run (TimedCluster.step 300) (TimedCluster.init Sample.session 0)
        [Sample.newLogin, Sample.begin "aaaa", .act (.readToken () 0), .act (.readUser ()),
          .act (.store ()), .tick 299] = some s ∧
      TimedCluster.step 300 s (Sample.begin "aaaa") = some s' ∧
      ∃ x ∈ s'.served.drop s.served.length, x.result = .ok Sample.user ∧
        TimedCluster.IssuedTo 300 (TimedCluster.init Sample.session 0)
          [Sample.newLogin, Sample.begin "aaaa", .act (.readToken () 0), .act (.readUser ()),
            .act (.store ()), .tick 299] (Sample.env.hashToken "aaaa") Sample.user.userId
          (fun op => op.mints = some "aaaa") := by
  obtain ⟨s, hs, s', hs', x, hx, hraw, hresult⟩ :
      ∃ s ∈ run (TimedCluster.step 300) (TimedCluster.init Sample.session 0)
        [Sample.newLogin, Sample.begin "aaaa", .act (.readToken () 0), .act (.readUser ()),
          .act (.store ()), .tick 299],
        ∃ s' ∈ TimedCluster.step 300 s (Sample.begin "aaaa"), ∃ x ∈ s'.served.drop s.served.length,
        x.tokenHash = Sample.env.hashToken "aaaa" ∧ x.result.toOption = some Sample.user := by decide
  have hok := Sample.ok_of_toOption hresult
  refine ⟨s, s', hs, hs', x, hx, hok, ?_⟩
  refine (TimedCluster.authentication_provenance 300 0 Sample.session Sample.env.hashToken "aaaa" _
    s s' _ (fun k w op hmem _ => ?_) hs hs' x hx hraw _ hok).2.1
  -- the login is the only operation of the run
  simp only [List.mem_cons, List.not_mem_nil, or_false, Sample.newLogin, Sample.begin,
    TimedAct.act.injEq, ClusterAct.commit.injEq, reduceCtorEq] at hmem
  obtain ⟨-, -, rfl⟩ := hmem
  rfl

end Messenger
