import Messenger.Session.Cluster

/-! The workers with a clock. An entry of a `TTLCache` is there until `ttl` after it was last set, or
until it is evicted, and rows are read at the time that the clock shows. -/

namespace Messenger
open Transition

structure TimedAnswer (ω : Type) extends Answer ω where
  calledAt : Timestamp
  returnedAt : Timestamp

/-- `setAt` is the time at which a cache entry was last set, and `expiresAt` the expiry of every
access token there has ever been. -/
structure TimedCluster (ω κ : Type) extends Cluster ω κ where
  now : Timestamp
  setAt : ω → TokenHash → Timestamp := fun _ _ => 0
  calledAt : κ → Timestamp := fun _ => 0
  expiresAt : TokenHash → Option Timestamp
  served : List (TimedAnswer ω) := []

inductive TimedAct (ω κ : Type) where
  | tick (now : Timestamp)
  | act (a : ClusterAct ω κ)

def ClusterAct.caller {ω κ : Type} : ClusterAct ω κ → Option κ
  | begin k .. | readToken k _ | readUser k | store k => some k
  | _ => none

namespace TimedCluster

variable {ω κ : Type} [DecidableEq ω] [DecidableEq κ] (ttl : Timestamp)

def init (d : Db) (now : Timestamp) : TimedCluster ω κ :=
  { Cluster.init d with
    now
    expiresAt := fun h => ((d.tokens .access).get? h).map (·.expiresAt) }

def Live (s : TimedCluster ω κ) (w : ω) (h : TokenHash) : Prop := s.now < s.setAt w h + ttl

instance (s : TimedCluster ω κ) (w : ω) (h : TokenHash) : Decidable (s.Live ttl w h) :=
  inferInstanceAs (Decidable (_ < _))

/-- `get` does not see an entry past its time. -/
def liveCache (s : TimedCluster ω κ) : ClusterAct ω κ → ω → TokenCache
  | .begin _ w h _ =>
    if s.Live ttl w h then s.cache else Function.update s.cache w ((s.cache w).evict h)
  | _ => s.cache

def purged (s : TimedCluster ω κ) (a : ClusterAct ω κ) : Cluster ω κ :=
  { s.toCluster with cache := s.liveCache ttl a }

/-- A row is read at the time that the clock shows. -/
def Timely (s : TimedCluster ω κ) : ClusterAct ω κ → Bool
  | .readToken _ now => now = s.now
  | _ => true

def setTimes (s : TimedCluster ω κ) : ClusterAct ω κ → ω → TokenHash → Timestamp
  | .store k => fun w h =>
    if (s.call k).any fun c => decide (c.worker = w ∧ c.tokenHash = h) then s.now else s.setAt w h
  | _ => s.setAt

def callTimes (s : TimedCluster ω κ) : ClusterAct ω κ → κ → Timestamp
  | .begin k .. => Function.update s.calledAt k s.now
  | _ => s.calledAt

def advance (s : TimedCluster ω κ) (a : ClusterAct ω κ) (c : Cluster ω κ) : TimedCluster ω κ :=
  { c with
    now := s.now
    setAt := s.setTimes a
    calledAt := s.callTimes a
    expiresAt := fun h => (s.expiresAt h).or (((c.db.tokens .access).get? h).map (·.expiresAt))
    served := s.served ++ (c.answers.drop s.answers.length).map fun x =>
      { x with calledAt := a.caller.elim s.now (s.callTimes a), returnedAt := s.now } }

def step (s : TimedCluster ω κ) : TimedAct ω κ → Option (TimedCluster ω κ)
  | .tick now => if s.now ≤ now then some { s with now } else none
  | .act a =>
    if s.Timely a then ((s.purged ttl a).step a).map (s.advance a) else none

/-! ### What a step can do -/

variable {ttl} {s s' : TimedCluster ω κ} {a : TimedAct ω κ} {b : ClusterAct ω κ} {c : Cluster ω κ}
  {d : AuthCall ω} {w : ω} {h : TokenHash} {k : κ} {user : User}

theorem cases_of_step (hs : step ttl s a = some s') :
    (∃ now, a = .tick now ∧ s.now ≤ now ∧ s' = { s with now := now }) ∨
      ∃ b c, a = .act b ∧ s.Timely b ∧ (s.purged ttl b).step b = some c ∧ s' = s.advance b c := by
  cases a with
  | tick now =>
    simp only [step, Option.ite_none_right_eq_some, Option.some.injEq] at hs
    exact .inl ⟨now, rfl, hs.1, hs.2.symm⟩
  | act b =>
    simp only [step, Option.ite_none_right_eq_some] at hs
    obtain ⟨c, hc, rfl⟩ := Option.map_eq_some_iff.mp hs.2
    exact .inr ⟨b, c, rfl, hs.1, hc, rfl⟩

omit [DecidableEq κ] in
theorem cache_of_purged (hc : (s.purged ttl b).cache w h = some user) : s.cache w h = some user := by
  unfold purged liveCache at hc
  split at hc
  · next k w' h' allow =>
    split at hc
    · exact hc
    · by_cases hw : w = w'
      · subst hw
        exact TokenCache.of_evict ((congrFun (Function.update_self ..) h).symm.trans hc)
      · exact (congrFun (Function.update_of_ne hw ..) h).symm.trans hc
  · exact hc

omit [DecidableEq κ] in
/-- A call that begins finds only what is live. -/
theorem live_of_purged {allow : Bool} (hc : (s.purged ttl (.begin k w h allow)).cache w h = some user) :
    s.cache w h = some user ∧ s.Live ttl w h := by
  refine ⟨cache_of_purged hc, ?_⟩
  by_contra hl
  have hnone : (s.purged ttl (.begin k w h allow)).cache w h = none := by
    simp only [purged, liveCache, if_neg hl, Function.update_self, TokenCache.evict_self]
  cases hnone.symm.trans hc

/-- An entry is as it was, or the slow path has just set it. -/
theorem cache_of_step (hs : step ttl s a = some s') (hc : s'.cache w h = some user) :
    s.cache w h = some user ∧ s'.setAt w h = s.setAt w h ∨
      ∃ k allow, a = .act (.store k) ∧ s.call k = some ⟨w, h, allow, .user user⟩ ∧
        s'.setAt w h = s.now := by
  rcases cases_of_step hs with ⟨now, rfl, -, rfl⟩ | ⟨b, c, rfl, -, hstep, rfl⟩
  · exact .inl ⟨hc, rfl⟩
  have hm := Cluster.move_of_step hstep
  rcases hm.cache hc with hold | ⟨k, allow, rfl, hk⟩
  · have hbefore := cache_of_purged hold
    cases b with
    | store k =>
      cases hm with
      | reject ha => simp at ha
      | @store _ w' h' allow' u hk =>
        by_cases hwh : w' = w ∧ h' = h
        · obtain ⟨rfl, rfl⟩ := hwh
          have hset : s.setTimes (.store k) w' h' = s.now := by
            simp [setTimes, show s.call k = _ from hk]
          have hnew : (Function.update s.cache w' ((s.cache w').set h' u)) w' h' = some user := hc
          rw [Function.update_self] at hnew
          obtain rfl : u = user := by simpa [TokenCache.set] using hnew
          exact .inr ⟨k, allow', rfl, hk, hset⟩
        · have hset : s.setTimes (.store k) w h = s.setAt w h := by
            simp [setTimes, show s.call k = _ from hk, hwh]
          exact .inl ⟨hbefore, hset⟩
    | _ => exact .inl ⟨hbefore, rfl⟩
  · have hset : s.setTimes (.store k) w h = s.now := by
      simp [setTimes, show s.call k = _ from hk]
    exact .inr ⟨k, allow, rfl, hk, hset⟩

theorem call_of_step (hs : step ttl s a = some s') (hk : s'.call k = some d) :
    (s.call k = some d ∧ s'.calledAt k = s.calledAt k) ∨
      (d.stage = .lookup ∧ s'.calledAt k = s.now) ∨
      (∃ t, a = .act (.readToken k s.now) ∧ d.stage = .token t ∧
        lookupToken s.db d.tokenHash s.now = .ok t ∧
        s.call k = some { d with stage := .lookup } ∧ s'.calledAt k = s.calledAt k) ∨
      ∃ t u, d.stage = .user u ∧ lookupUser s.db t d.allowDeactivated = .ok u ∧
        s.call k = some { d with stage := .token t } ∧ s'.calledAt k = s.calledAt k := by
  rcases cases_of_step hs with ⟨now, rfl, -, rfl⟩ | ⟨b, c, rfl, htimely, hstep, rfl⟩
  · exact .inl ⟨hk, rfl⟩
  have hsame (hcalled : s.call k ≠ none) : s.callTimes b k = s.calledAt k := by
    cases b with
    | begin k' w h allow =>
      have hnone : (s.purged ttl (.begin k' w h allow)).call k' = none :=
        Cluster.call_of_begin hstep
      have hne : k ≠ k' := by
        rintro rfl
        exact hcalled hnone
      exact Function.update_of_ne hne ..
    | _ => rfl
  rcases (Cluster.move_of_step hstep).call hk with
    hold | ⟨hd, w, h, allow, rfl⟩ | ⟨now, t, rfl, hd, ht, hold⟩ | ⟨t, u, hd, hu, hold⟩
  · have hold : s.call k = some d := hold
    exact .inl ⟨hold, hsame (by simp [hold])⟩
  · exact .inr (.inl ⟨hd, Function.update_self ..⟩)
  · obtain rfl : now = s.now := of_decide_eq_true htimely
    exact .inr (.inr (.inl ⟨t, rfl, hd, ht, hold, rfl⟩))
  · have hold : s.call k = some { d with stage := .token t } := hold
    exact .inr (.inr (.inr ⟨t, u, hd, hu, hold, hsame (by simp [hold])⟩))

/-- A worker accepts a token for a live entry of its cache, or at the end of the slow path. -/
theorem served_of_step (hs : step ttl s a = some s') :
    ∃ xs, s'.served = s.served ++ xs ∧ ∀ x ∈ xs, x.returnedAt = s.now ∧
      ∀ user, x.result = .ok user →
        (∃ k allow, a = .act (.begin k x.worker x.tokenHash allow) ∧ x.calledAt = s.now ∧
          s.cache x.worker x.tokenHash = some user ∧ s.Live ttl x.worker x.tokenHash) ∨
        ∃ k allow, a = .act (.store k) ∧ x.calledAt = s.calledAt k ∧
          s.call k = some ⟨x.worker, x.tokenHash, allow, .user user⟩ := by
  rcases cases_of_step hs with ⟨now, rfl, -, rfl⟩ | ⟨b, c, rfl, -, hstep, rfl⟩
  · exact ⟨[], (List.append_nil _).symm, List.forall_mem_nil _⟩
  obtain ⟨as, heq, has⟩ := (Cluster.move_of_step hstep).answers
  have hdrop : c.answers.drop s.answers.length = as := by
    rw [heq]
    exact List.drop_left
  refine ⟨_, rfl, fun x hx => ?_⟩
  rw [hdrop] at hx
  obtain ⟨y, hy, rfl⟩ := List.mem_map.mp hx
  refine ⟨rfl, fun user hok => ?_⟩
  rcases has y hy user hok with ⟨k, allow, rfl, hc⟩ | ⟨k, allow, rfl, hk⟩
  · exact .inl ⟨k, allow, rfl, Function.update_self .., live_of_purged hc⟩
  · exact .inr ⟨k, allow, rfl, rfl, hk⟩

theorem now_of_step (hs : step ttl s a = some s') : s.now ≤ s'.now := by
  rcases cases_of_step hs with ⟨now, rfl, hle, rfl⟩ | ⟨b, c, rfl, -, -, rfl⟩
  · exact hle
  · exact Int.le_refl s.now

theorem expiresAt_of_step {e : Timestamp} (hs : step ttl s a = some s')
    (he : s.expiresAt h = some e) : s'.expiresAt h = some e := by
  rcases cases_of_step hs with ⟨now, rfl, -, rfl⟩ | ⟨b, c, rfl, -, -, rfl⟩
  · exact he
  · exact congrArg (Option.or · _) he

end TimedCluster
end Messenger
