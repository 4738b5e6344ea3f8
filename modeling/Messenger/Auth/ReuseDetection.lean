import Messenger.Auth.SingleUse

/-! When the reuse branch of `refresh` reaches every rotation that runs beside it. Its two set-wide
`UPDATE`s only see what had committed when they started, so a pair escapes if it is committed
between the first of them and the end of the branch, or still later by a rotation that had locked
its token before that end. -/

namespace Messenger
open ReadCommitted

def Pc.rotating? : Pc → Option UUID
  | .revokePresented _ u _ => some u
  | .createToken _ (.rotation _) u _ => some u
  | .issued (.rotation _) u _ => some u
  | _ => none

def Pc.rotated? : Pc → Option UUID
  | .issued (.rotation _) u _ => some u
  | _ => none

def Pc.reused? : Pc → Option UUID
  | .reused _ u => some u
  | _ => none

section

variable {τ : Type}

def Rotating (s : AuthSys τ) (t : τ) (u : UUID) : Prop :=
  (s.txn t).bind (fun x => x.pc.rotating?) = some u

/-- Let `t` commit the reuse branch for `u`, and let every rotation of `u` that had locked its token
before have finished: then every pair issued by such a rotation is revoked. -/
def ReuseComplete [DecidableEq τ] (pw : PasswordHasher) (d : Db) (as : List (AuthAct τ)) : Prop :=
  ∀ pre t post s₁ s h u, as = pre ++ .commit t :: post →
    Transition.run (transactions pw).step (AuthSys.init d) pre = some s₁ →
    (s₁.txn t).map Txn.pc = some (.reused h u) →
    Transition.run (transactions pw).step (AuthSys.init d) as = some s →
    (∀ t', Rotating s₁ t' u → s.txn t' = none) →
    ∀ t' h' p, (t', .issued (.rotation h') u p) ∈ s.log →
      Rotating s₁ t' u ∨ (t', .issued (.rotation h') u p) ∈ s₁.log →
      ∀ k, ¬ s.db.Unrevoked k (p.hash k)

/-- A rotation commits only if no reuse branch of its user has committed since it locked its token,
and a reuse branch only if no rotation of its user has committed since its first `UPDATE` started. -/
def ReuseOrdered (s : AuthSys τ) (t : τ) : Prop :=
  match s.txn t with
  | some ⟨.issued (.rotation _) u _, _, _, (_, lockedAt) :: _⟩ =>
    ∀ e ∈ s.log.drop lockedAt, e.2.reused? ≠ some u
  | some ⟨.reused _ u, _, _, _ :: (seen, _) :: _⟩ =>
    ∀ e ∈ s.log.drop seen, e.2.rotated? ≠ some u
  | _ => True

instance (s : AuthSys τ) (t : τ) : Decidable (ReuseOrdered s t) := by
  unfold ReuseOrdered
  split <;> infer_instance

def Stuck (x : AuthTxn) (u : UUID) (n : ℕ) : Prop :=
  (x.pc.rotating? = some u ∨ ∃ e, x.pc = .raised e) ∧ ∃ a b tr, x.trail = (a, b) :: tr ∧ b ≤ n

variable {pw : PasswordHasher} {s : AuthSys τ} {t : τ} {h : TokenHash} {u : UUID} {n : ℕ}
  {old : List (τ × Pc)} {R : τ → Prop}

theorem Stuck.of_pc {x y : AuthTxn} (hx : Stuck x u n) (hpc : y.pc = x.pc) (htr : y.trail = x.trail) :
    Stuck y u n := by
  rw [Stuck, hpc, htr]
  exact hx

theorem Stuck.settle {pc : Pc} {ph : Phase RowKey} {ws ws' : List Write} {tr : List (ℕ × ℕ)}
    {q : Stmt Db RowKey Write Pc} {ks : List RowKey} {d : Db} {e : ℕ × ℕ}
    (hx : Stuck ⟨pc, ph, ws, tr⟩ u n) (hq : pc.cmd pw = .exec q) :
    Stuck ⟨(q.run ks d).1, .ready, ws', tr ++ [e]⟩ u n := by
  obtain ⟨hpc, a, b, tr, rfl, hle⟩ := hx
  refine ⟨?_, a, b, tr ++ [e], rfl, hle⟩
  have hstmt {α : Type} {q₀ : Query α} {f : α → Pc} (hq : Pc.andThen q₀ f = .exec q)
      (hf : ∀ a, (f a).rotating? = some u) :
      (q.run ks d).1.rotating? = some u ∨ ∃ e, (q.run ks d).1 = .raised e := by
    cases hq
    simp only [Stmt.map]
    cases (q₀.run ks d).1 with
    | ok a => exact .inl (hf a)
    | error e => exact .inr ⟨_, rfl⟩
  rcases hpc with hpc | ⟨e, rfl⟩
  · cases pc with
    | revokePresented h u' p => exact hstmt hq fun _ => hpc
    | createToken k o u' p => cases k <;> exact hstmt hq fun _ => by cases o <;> exact hpc
    | issued => cases hq
    | _ => cases hpc
  · cases hq

/-- What holds once a reuse branch for `u` has committed on top of the commits `old`, for the
transactions `R` that were rotating a token of `u` then. -/
structure AfterReuse [DecidableEq τ] (pw : PasswordHasher) (u : UUID) (old : List (τ × Pc))
    (R : τ → Prop) (s : AuthSys τ) : Prop where
  inv : AuthInv pw s
  reused : ∃ e es, s.log = old ++ e :: es ∧ e.2.reused? = some u
  revoked : ∀ t h p, (t, .issued (.rotation h) u p) ∈ old → ∀ k, s.db.Revoked k (p.hash k)
  started : ∀ t, R t → t ∈ s.started
  unlogged : ∀ t pc, R t → (t, pc) ∉ s.log
  stuck : ∀ t x, R t → s.txn t = some x → Stuck x u old.length

section

variable [DecidableEq τ]

theorem AfterReuse.setTxn {y : AuthTxn} (hI : AfterReuse pw u old R s)
    (hinv : AuthInv pw (s.setTxn t y)) (hy : R t → Stuck y u old.length) :
    AfterReuse pw u old R (s.setTxn t y) where
  inv := hinv
  reused := hI.reused
  revoked := hI.revoked
  started := hI.started
  unlogged := hI.unlogged
  stuck t' x hR hx := by
    rcases Sys.setTxn_txn_eq_some hx with ⟨rfl, rfl⟩ | ⟨-, hx⟩
    · exact hy hR
    · exact hI.stuck t' x hR hx

theorem AfterReuse.not_commit {pc : Pc} {ws : List Write} {tr : List (ℕ × ℕ)}
    (hI : AfterReuse pw u old R s) (hG : ReuseOrdered s t)
    (hx : s.txn t = some ⟨pc, .ready, ws, tr⟩) (hc : pc.cmd pw = .commit) : ¬ R t := by
  intro hR
  obtain ⟨hpc, a, b, tr, rfl, hle⟩ := hI.stuck t _ hR hx
  obtain ⟨e, es, hlog, he⟩ := hI.reused
  rcases hpc with hpc | ⟨e, rfl⟩
  · cases pc with
    | issued o u' p =>
      cases o with
      | rotation h =>
        obtain rfl : u' = u := Option.some.inj hpc
        simp only [ReuseOrdered, hx, hlog] at hG
        -- the reuse branch stands in the log behind the rows that the rotation has read
        refine hG e ?_ he
        rw [List.drop_append_of_le_length hle]
        exact List.mem_append_right _ (List.mem_cons_self ..)
      | _ => cases hpc
    | createToken k => cases k <;> cases hc
    | revokePresented => cases hc
    | _ => cases hpc
  · cases hc

theorem afterReuse_preserves :
    (transactions pw).Preserves ReuseOrdered (AfterReuse (τ := τ) pw u old R) where
  begin s t c hI ht := by
    have hinv := authInv_preserves.begin s t c hI.inv ht
    refine ⟨hinv, hI.reused, hI.revoked, fun t' hR => List.mem_cons_of_mem _ (hI.started t' hR),
      hI.unlogged, fun t' x hR hx => ?_⟩
    rcases Sys.setTxn_txn_eq_some (s := s) hx with ⟨rfl, -⟩ | ⟨-, hx⟩
    · exact absurd (hI.started t' hR) ht
    · exact hI.stuck t' x hR hx
  select s t pc ws tr q hI hx hq :=
    hI.setTxn (authInv_preserves.select s t pc ws tr q hI.inv hx hq)
      fun hR => (hI.stuck t _ hR hx).of_pc rfl rfl
  acquire s t k pc n ks todo ws tr hI hx hk ha :=
    AfterReuse.setTxn (s := s.lockRow t k)
      ⟨⟨hI.inv.locks.lockRow ha (by simp [hx]), hI.inv.log.of_eq rfl rfl, fun t' x hx' =>
          (hI.inv.txns t' x hx').beside
            (Beside.of_eq (fun _ hk' => Sys.lockRow_lock_of_held ha hk') rfl rfl)⟩,
        hI.reused, hI.revoked, hI.started, hI.unlogged, hI.stuck⟩
      (authInv_preserves.acquire s t k pc n ks todo ws tr hI.inv hx hk ha)
      fun hR => (hI.stuck t _ hR hx).of_pc rfl rfl
  settle s t pc n ks ws tr q hI hx hq :=
    hI.setTxn (authInv_preserves.settle s t pc n ks ws tr q hI.inv hx hq)
      fun hR => (hI.stuck t _ hR hx).settle hq
  commit s t pc ws tr hI hG hx hc := by
    have hR := hI.not_commit hG hx hc
    refine ⟨authInv_preserves.commit s t pc ws tr hI.inv trivial hx hc, ?_, fun t' h p he k =>
      Write.revoked_applyAll ws (hI.revoked t' h p he k), hI.started, fun t' pc' hR' he => ?_,
      fun t' x hR' hx' => hI.stuck t' x hR' (Sys.close_txn_eq_some (s := s) hx').2⟩
    · obtain ⟨e, es, hlog, he⟩ := hI.reused
      refine ⟨e, es ++ [(t, pc)], ?_, he⟩
      change s.log ++ [(t, pc)] = _
      rw [hlog, List.append_assoc, List.cons_append]
    · rcases List.mem_append.mp he with he | he
      · exact hI.unlogged t' pc' hR' he
      · exact hR ((Prod.mk.inj (List.mem_singleton.mp he)).1 ▸ hR')
  abort s t x hI hx :=
    ⟨authInv_preserves.abort s t x hI.inv hx, hI.reused, hI.revoked, hI.started, hI.unlogged,
      fun t' y hR hy => hI.stuck t' y hR (Sys.close_txn_eq_some hy).2⟩

theorem AuthInv.revoked_of_rotated {ws : List Write} {tr : List (ℕ × ℕ)} (hI : AuthInv pw s)
    (hG : ReuseOrdered s t) (hx : s.txn t = some ⟨.reused h u, .ready, ws, tr⟩) {t' : τ}
    {h' : TokenHash} {p : HashedPair} (he : (t', .issued (.rotation h') u p) ∈ s.log)
    (k : TokenKind) : (Write.applyAll ws s.db).Revoked k (p.hash k) := by
  obtain ⟨a, b, n, m, n', m', rfl, -, -, hnn', hacc, href⟩ := hI.txns t _ hx
  simp only [ReuseOrdered, hx] at hG
  -- ordered as they are, the rotation had committed before the first `UPDATE` chose its rows
  have hin {i : ℕ} (hi : n ≤ i) : (t', Pc.issued (.rotation h') u p) ∈ s.log.take i := by
    rw [← List.take_append_drop n s.log, List.mem_append] at he
    rcases he with he | he
    · exact (List.take_subset_take_left s.log hi) he
    · exact (hG _ he rfl).elim
  have ho := hI.log.issued t' _ u p (List.mem_of_mem_take (hin (Nat.le_refl n)))
  cases k with
  | access => exact Write.revoked_of_mem (hacc.2 _ (hin (Nat.le_refl n)) _ p rfl) (ho .access)
  | refresh => exact Write.revoked_of_mem (href.2 _ (hin hnn') _ p rfl) (ho .refresh)

theorem AuthInv.stuck_of_rotating {x : AuthTxn} (hI : AuthInv pw s) (hx : s.txn t = some x)
    (hpc : x.pc.rotating? = some u) : Stuck x u s.log.length := by
  have hinv := hI.txns t x hx
  obtain ⟨pc, ph, ws, tr⟩ := x
  refine ⟨.inl hpc, ?_⟩
  cases pc with
  | revokePresented h u' p => exact hinv.2
  | createToken k o u' p =>
    cases o with
    | rotation h => exact hinv.1.2.2
    | _ => cases hpc
  | issued o u' p =>
    cases o with
    | rotation h => exact hinv.1.2.2
    | _ => cases hpc
  | _ => cases hpc

theorem AfterReuse.of_commit {s' : AuthSys τ} (hI : AuthInv pw s) (hG : ReuseOrdered s t)
    (hpc : (s.txn t).map Txn.pc = some (.reused h u))
    (hc : (transactions pw).step s (.commit t) = some s') :
    AfterReuse pw u s.log (Rotating s · u) s' := by
  obtain ⟨pc, ws, tr, hx, hcmd, rfl⟩ := Program.commit_eq_some hc
  rw [hx] at hpc
  obtain rfl : pc = .reused h u := Option.some.inj hpc
  have hrot {t' : τ} (hR : Rotating s t' u) :
      ∃ x, s.txn t' = some x ∧ x.pc.rotating? = some u ∧ t' ≠ t := by
    obtain ⟨x, hx', hpc'⟩ := Option.bind_eq_some_iff.mp hR
    refine ⟨x, hx', hpc', ?_⟩
    rintro rfl
    rw [Option.some.inj (hx'.symm.trans hx)] at hpc'
    cases hpc'
  refine ⟨authInv_preserves.commit s t _ ws tr hI trivial hx hcmd, ⟨(t, .reused h u), [], rfl, rfl⟩,
    fun t' h' p he k => hI.revoked_of_rotated hG hx he k, fun t' hR => ?_, fun t' pc hR he => ?_,
    fun t' x hR hx' => ?_⟩
  · obtain ⟨x, hx', -⟩ := hrot hR
    exact hI.locks.started t' (by simp [hx'])
  · obtain ⟨x, hx', -, hne⟩ := hrot hR
    rcases List.mem_append.mp he with he | he
    · simpa [hx'] using (hI.locks.logged _ he).2
    · exact hne (Prod.mk.inj (List.mem_singleton.mp he)).1
  · obtain ⟨y, hy, hpc', hne⟩ := hrot hR
    obtain rfl : x = y :=
      Option.some.inj ((Sys.close_txn_eq_some (s := s) hx').2.symm.trans hy)
    exact hI.stuck_of_rotating hy hpc'

/-- Reuse detection is complete in every run in which rotations and reuse branches of one user are
ordered. -/
theorem reuse_complete (pw : PasswordHasher) (d : Db) (as : List (AuthAct τ))
    (hG : Transition.Guarded (transactions pw).step (Program.OnCommit ReuseOrdered)
      (AuthSys.init d) as) : ReuseComplete pw d as := by
  rintro pre t post s₁ s h u rfl hpre hpc hrun - t' h' p he hbefore k
  have hI : AuthInv pw s₁ := authInv_reachable ⟨pre, hpre⟩
  obtain ⟨-, hG⟩ := hG.append
  obtain ⟨hGt, hGpost⟩ := hG s₁ hpre
  obtain ⟨m, hm, hrun⟩ := Transition.run_append_eq_some.mp hrun
  obtain rfl : m = s₁ := Transition.run_det hm hpre
  obtain ⟨s₂, hc, hpost⟩ := Transition.run_cons_eq_some.mp hrun
  -- `AfterReuse` holds from the commit of the reuse branch on
  have hafter := afterReuse_preserves.guarded_run (AfterReuse.of_commit hI hGt hpc hc)
    (hGpost s₂ hc) hpost
  rcases hbefore with hR | he₁
  · exact absurd he (hafter.unlogged t' _ hR)
  · exact (hafter.revoked t' h' p he₁ k).not_unrevoked

end
end

namespace Sample

/-- The second presentation of token 0 sweeps the pairs 0 and 1 after the rotation of 1 is over. -/
def ordered : List (AuthAct ℕ) :=
  register 0 0 ++ present 1 0 1 ++ rotate 1 0 1 ++ [.commit 1] ++ present 2 0 9 ++ present 3 1 2 ++
    rotate 3 1 2 ++ [.commit 3] ++ statement 2 [accessRow 0, accessRow 1, accessRow 2] ++
    statement 2 [refreshRow 0, refreshRow 1, refreshRow 2] ++ [.commit 2]

def crossedBefore : List (AuthAct ℕ) :=
  register 0 0 ++ present 1 0 1 ++ rotate 1 0 1 ++ [.commit 1] ++ present 2 0 9 ++ present 3 1 2 ++
    rotate 3 1 2 ++ statement 2 [accessRow 0, accessRow 1] ++ statement 2 [refreshRow 0] ++
    [.commit 3, .lock 2 (refreshRow 1)]

end Sample

theorem reuse_complete_ordered : ReuseComplete Sample.hasher {} Sample.ordered :=
  reuse_complete Sample.hasher {} Sample.ordered (by decide)

theorem not_reuse_complete_crossed :
    ¬ ReuseComplete Sample.hasher {} (Sample.crossedBefore ++ [.commit 2]) := by
  intro hcomplete
  obtain ⟨s₁, hs₁, s, hs, hpc, hnone, hlog₁, hlog, hun⟩ :
      ∃ s₁ ∈ Transition.run (transactions Sample.hasher).step (AuthSys.init {}) Sample.crossedBefore,
        ∃ s ∈ Transition.run (transactions Sample.hasher).step s₁ [.commit 2],
        (s₁.txn 2).map Txn.pc = some (.reused ⟨.ofNat 256 0⟩ Sample.user.userId) ∧
        (∀ t ∈ s₁.started, (s.txn t).isNone) ∧
        (3, .issued (.rotation ⟨.ofNat 256 1⟩) Sample.user.userId (Sample.pair 2)) ∈ s₁.log ∧
        (3, .issued (.rotation ⟨.ofNat 256 1⟩) Sample.user.userId (Sample.pair 2)) ∈ s.log ∧
        s.db.Unrevoked .refresh ((Sample.pair 2).hash .refresh) := by decide
  refine hcomplete _ 2 [] s₁ s _ _ rfl hs₁ hpc (Transition.run_append_eq_some.mpr ⟨s₁, hs₁, hs⟩)
    (fun t hR => ?_) 3 _ _ hlog (.inr hlog₁) .refresh hun
  obtain ⟨x, hx, -⟩ := Option.bind_eq_some_iff.mp hR
  have hstarted := (authInv_reachable ⟨_, hs₁⟩).locks.started t (by simp [hx])
  exact Option.isNone_iff_eq_none.mp (hnone t hstarted)

end Messenger
