import Messenger.Session.Clock
import Messenger.Session.Revocation

/-! Whether a token is accepted past its expiry. The slow path checks the row, but the entry it sets
lives for a whole `ttl` whatever the row says: a token in the last `ttl` of its life outlives itself
in the cache. -/

namespace Messenger
open Transition
namespace TimedCluster

variable {ω κ : Type} [DecidableEq ω] [DecidableEq κ] {ttl : Timestamp}
  {s s' : TimedCluster ω κ} {a : TimedAct ω κ}

/-- A cache entry is set only if the token does not expire before the entry does. -/
def Outlasting (ttl : Timestamp) (s : TimedCluster ω κ) : TimedAct ω κ → Prop
  | .act (.store k) => ∀ c ∈ s.call k, ∀ e ∈ s.expiresAt c.tokenHash, s.now + ttl ≤ e
  | _ => True

instance (s : TimedCluster ω κ) : ∀ a : TimedAct ω κ, Decidable (s.Outlasting ttl a)
  | .act (.store k) =>
    inferInstanceAs (Decidable (∀ c ∈ s.call k, ∀ e ∈ s.expiresAt c.tokenHash, s.now + ttl ≤ e))
  | .tick _ | .act (.begin ..) | .act (.readToken ..) | .act (.readUser _) | .act (.abort _)
  | .act (.commit ..) | .act (.effect _) | .act (.fail _) | .act (.consume _) | .act (.lose _)
  | .act (.expire ..) => instDecidableTrue

/-- Every token that was accepted had not expired when the call was made. -/
def ExpiryHonoured (s : TimedCluster ω κ) : Prop :=
  ∀ x ∈ s.served, ∀ user, x.result = .ok user →
    ∃ e, s.expiresAt x.tokenHash = some e ∧ x.calledAt < e

structure Dated (ttl : Timestamp) (s : TimedCluster ω κ) : Prop where
  row : ∀ h t, (s.db.tokens .access).get? h = some t → s.expiresAt h = some t.expiresAt
  known : ∀ h, s.issuedTo h = none → s.expiresAt h = none
  cached : ∀ w h user, s.cache w h = some user →
    ∃ e, s.expiresAt h = some e ∧ s.setAt w h + ttl ≤ e
  past : ∀ k c, s.call k = some c → s.calledAt k ≤ s.now
  read : ∀ k c, s.call k = some c → c.stage ≠ .lookup →
    ∃ e, s.expiresAt c.tokenHash = some e ∧ s.calledAt k < e
  served : s.ExpiryHonoured

omit [DecidableEq ω] [DecidableEq κ] in
theorem dated_init (d : Db) (now : Timestamp) : Dated ttl (init d now : TimedCluster ω κ) where
  row h t ht := congrArg (Option.map _) ht
  known h hi := by
    have hnone : (d.tokens .access).get? h = none := Option.map_eq_none_iff.mp hi
    exact congrArg (Option.map _) hnone
  cached w h user hc := by cases hc
  past k c hk := by cases hk
  read k c hk := by cases hk
  served x hx := by cases hx

theorem Dated.row_advance {b : ClusterAct ω κ} {c : Cluster ω κ} {h : TokenHash} {t : Token}
    (hd : Dated ttl s) (hstep : (s.purged ttl b).step b = some c)
    (ht : (c.db.tokens .access).get? h = some t) : (s.advance b c).expiresAt h = some t.expiresAt := by
  have hor : (s.advance b c).expiresAt h = (s.expiresAt h).or (some t.expiresAt) := by
    simp only [advance, ht, Option.map_some]
  rcases (Cluster.move_of_step hstep).db with ⟨hdb, -⟩ | ⟨k, w, op, es, -, -, hfresh, hc, -⟩
  · rw [hdb] at ht
    rw [hor, hd.row h t ht, Option.or_some, Option.getD_some]
  · rcases (Operation.commits hc).row h t ht with ⟨t', ht', -, hexpires⟩ | ⟨hissued, -, -⟩
    · rw [hor, hd.row h t' ht', hexpires, Option.or_some, Option.getD_some]
    · rw [hor, hd.known h (hfresh h hissued), Option.none_or]

theorem Dated.known_advance {b : ClusterAct ω κ} {c : Cluster ω κ} {h : TokenHash}
    (hd : Dated ttl s) (hstep : (s.purged ttl b).step b = some c) (hi : c.issuedTo h = none) :
    (s.advance b c).expiresAt h = none := by
  have hold : s.issuedTo h = none := by
    by_contra hissued
    obtain ⟨id, hid⟩ := Option.ne_none_iff_exists'.mp hissued
    cases hi.symm.trans ((Cluster.move_of_step hstep).issuedTo hid)
  have hrow : (c.db.tokens .access).get? h = none := by
    rcases (Cluster.move_of_step hstep).db with ⟨hdb, -⟩ | ⟨k, w, op, es, -, -, -, -, heq⟩
    · by_contra hrow
      obtain ⟨t, ht⟩ := Option.ne_none_iff_exists'.mp hrow
      rw [hdb] at ht
      cases (hd.known h hold).symm.trans (hd.row h t ht)
    · rw [heq] at hi
      exact Option.map_eq_none_iff.mp (Option.or_eq_none_iff.mp hi).2
  show (s.expiresAt h).or _ = none
  rw [hd.known h hold, hrow, Option.map_none, Option.or_none]

theorem Dated.step (hd : Dated ttl s) (hG : s.Outlasting ttl a) (hs : step ttl s a = some s') :
    Dated ttl s' where
  row h t ht := by
    rcases cases_of_step hs with ⟨now, rfl, -, rfl⟩ | ⟨b, c, rfl, -, hstep, rfl⟩
    · exact hd.row h t ht
    · exact hd.row_advance hstep ht
  known h hi := by
    rcases cases_of_step hs with ⟨now, rfl, -, rfl⟩ | ⟨b, c, rfl, -, hstep, rfl⟩
    · exact hd.known h hi
    · exact hd.known_advance hstep hi
  cached w h user hc := by
    rcases cache_of_step hs hc with ⟨hold, hset⟩ | ⟨k, allow, rfl, hk, hset⟩
    · obtain ⟨e, he, hle⟩ := hd.cached w h user hold
      exact ⟨e, expiresAt_of_step hs he, by rw [hset]; exact hle⟩
    · -- an entry that is set lasts as long as the token, where the step is `Outlasting`
      obtain ⟨e, he, -⟩ := hd.read k _ hk (by simp)
      exact ⟨e, expiresAt_of_step hs he, by rw [hset]; exact hG _ hk e he⟩
  past k c hk := by
    have hnow := now_of_step hs
    rcases call_of_step hs hk with ⟨hk, hcalled⟩ | ⟨-, hcalled⟩ | ⟨t, -, -, -, hk, hcalled⟩ |
      ⟨t, u, -, -, hk, hcalled⟩
    · exact hcalled ▸ Int.le_trans (hd.past k _ hk) hnow
    · exact hcalled ▸ hnow
    · exact hcalled ▸ Int.le_trans (hd.past k _ hk) hnow
    · exact hcalled ▸ Int.le_trans (hd.past k _ hk) hnow
  read k c hk hstage := by
    rcases call_of_step hs hk with ⟨hk, hcalled⟩ | ⟨hlookup, -⟩ | ⟨t, -, -, ht, hk, hcalled⟩ |
      ⟨t, u, hu, -, hk, hcalled⟩
    · obtain ⟨e, he, hlt⟩ := hd.read k c hk hstage
      exact ⟨e, expiresAt_of_step hs he, hcalled ▸ hlt⟩
    · exact absurd hlookup hstage
    · -- the row had not expired when it was read, and the call had begun by then
      obtain ⟨hrow, -, hunexpired⟩ := lookupToken_eq_ok.mp ht
      have hlt : s.now < t.expiresAt := by
        simpa [Token.isExpired] using hunexpired
      refine ⟨t.expiresAt, expiresAt_of_step hs (hd.row _ t hrow), ?_⟩
      exact hcalled ▸ Int.lt_of_le_of_lt (hd.past k _ hk) hlt
    · obtain ⟨e, he, hlt⟩ := hd.read k _ hk (by simp)
      exact ⟨e, expiresAt_of_step hs he, hcalled ▸ hlt⟩
  served x hx user hok := by
    obtain ⟨xs, hserved, hnew⟩ := served_of_step hs
    rw [hserved] at hx
    rcases List.mem_append.mp hx with hx | hx
    · obtain ⟨e, he, hlt⟩ := hd.served x hx user hok
      exact ⟨e, expiresAt_of_step hs he, hlt⟩
    · rcases (hnew x hx).2 user hok with ⟨k, allow, -, hcalled, hc, hlive⟩ | ⟨k, allow, -, hcalled, hk⟩
      · obtain ⟨e, he, hle⟩ := hd.cached _ _ user hc
        exact ⟨e, expiresAt_of_step hs he, hcalled ▸ Int.lt_of_lt_of_le hlive hle⟩
      · obtain ⟨e, he, hlt⟩ := hd.read k _ hk (by simp)
        exact ⟨e, expiresAt_of_step hs he, hcalled ▸ hlt⟩

/-- In a run whose steps are all `Outlasting`: no call accepts a token that has expired when the call
is made, from the cache or from the database. The stored rows have the expiry that is meant. -/
theorem token_expiry_honoured (ttl : Timestamp) (d : Db) (now : Timestamp)
    (acts : List (TimedAct ω κ)) (s : TimedCluster ω κ)
    (hG : Guarded (step ttl) (Outlasting ttl) (init d now) acts)
    (hs : run (step ttl) (init d now) acts = some s) :
    s.ExpiryHonoured ∧
      ∀ h t, (s.db.tokens .access).get? h = some t → s.expiresAt h = some t.expiresAt := by
  have hd : Dated ttl s :=
    Guarded.induction (fun _ _ _ hd hG hs => hd.step hG hs) hG hs (dated_init d now)
  exact ⟨hd.served, hd.row⟩

end TimedCluster

namespace Sample

def lookupAt (now : Timestamp) : List (TimedAct Unit Unit) :=
  .tick now :: [.begin () () accessHash false, .readToken () now, .readUser (), .store ()].map .act

def presentAt (now : Timestamp) : List (TimedAct Unit Unit) :=
  [.tick now, .act (.begin () () accessHash false)]

end Sample

theorem token_expiry_honoured_early :
    ∃ s : TimedCluster Unit Unit,
      run (TimedCluster.step 300) (TimedCluster.init Sample.session 0)
        (Sample.lookupAt 0 ++ Sample.presentAt 299) = some s ∧
      s.served.map (fun x => (x.calledAt, x.result.toOption)) =
        [(0, some Sample.user), (299, some Sample.user)] ∧ s.ExpiryHonoured := by
  obtain ⟨s, hs, hserved⟩ :
      ∃ s ∈ run (TimedCluster.step 300) (TimedCluster.init Sample.session 0)
        (Sample.lookupAt 0 ++ Sample.presentAt 299),
        s.served.map (fun x => (x.calledAt, x.result.toOption)) =
          [(0, some Sample.user), (299, some Sample.user)] := by decide
  exact ⟨s, hs, hserved,
    (TimedCluster.token_expiry_honoured 300 Sample.session 0 _ s (by decide) hs).1⟩

/-- The entry is set at 700 and lasts until 1000, while the token expires at 900. -/
theorem not_token_expiry_honoured :
    ∃ s : TimedCluster Unit Unit,
      run (TimedCluster.step 300) (TimedCluster.init Sample.session 0)
        (Sample.lookupAt 700 ++ Sample.presentAt 950) = some s ∧ ¬ s.ExpiryHonoured := by
  obtain ⟨s, hs, ⟨x, hx, hcalled, hhash, hresult⟩, hexpires⟩ :
      ∃ s ∈ run (TimedCluster.step 300) (TimedCluster.init Sample.session 0)
        (Sample.lookupAt 700 ++ Sample.presentAt 950),
        (∃ x ∈ s.served, x.calledAt = 950 ∧ x.tokenHash = Sample.accessHash ∧
          x.result.toOption = some Sample.user) ∧ s.expiresAt Sample.accessHash = some 900 := by decide
  refine ⟨s, hs, fun hhonoured => ?_⟩
  obtain ⟨e, he, hlt⟩ := hhonoured x hx _ (Sample.ok_of_toOption hresult)
  rw [hhash, hexpires] at he
  obtain rfl := Option.some.inj he
  exact absurd hlt (by rw [hcalled]; decide)

end Messenger
