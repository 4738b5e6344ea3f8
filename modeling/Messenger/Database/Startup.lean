import Messenger.Lib.SessionLocks

/-! The schema setup of `lifespan`, which every worker runs when it starts: its statements, and what the
advisory lock among them keeps apart. -/

namespace Messenger
open SessionLocks Transition

inductive SchemaStatement where
  | advisoryXactLock (key : String)
  | createTable (table : String)
  | createIndex (index : String)
  deriving DecidableEq

def SchemaStatement.lock : SchemaStatement → Option String
  | advisoryXactLock key => some key
  | _ => none

abbrev SchemaCommand := Command SchemaStatement

/-- `EnsureTableExists`. -/
def tablesToEnsure : List String :=
  ["users", "friendships", "access_tokens", "refresh_tokens", "groups", "memberships",
    "direct_messages", "group_messages"]

/-- `EnsureIndexExists`. -/
def indexesToEnsure : List String :=
  ["idx_friendships_addressee_id", "idx_friendships_requester_id", "idx_access_tokens_user_id",
    "idx_refresh_tokens_user_id", "idx_access_tokens_expires_at", "idx_refresh_tokens_expires_at",
    "idx_groups_created_by", "idx_memberships_user_id", "idx_dm_sender_recipient",
    "idx_dm_recipient_sender", "idx_group_messages_timeline", "idx_group_messages_sender_id"]

def ensureTablesExist : List SchemaCommand := tablesToEnsure.map fun t => .execute (.createTable t)

def ensureIndexesExist : List SchemaCommand := indexesToEnsure.map fun i => .execute (.createIndex i)

/-- What a client sends for `async with db.connection() as conn: block`. -/
def connectionCommands (block : List SchemaCommand) : List SchemaCommand := block

def lockCommand : SchemaCommand := .execute (.advisoryXactLock "messenger_schema_init")

def lifespanSetup : List SchemaCommand :=
  connectionCommands (lockCommand :: (ensureTablesExist ++ ensureIndexesExist))

abbrev Startup (ω : Type) := Server ω SchemaStatement String

namespace Startup

variable {ω : Type}

def init : Startup ω where
  session _ := { todo := lifespanSetup }

/-- The worker has acquired the lock and has not finished `ensure_indexes_exist`. -/
def Inside (s : Startup ω) (w : ω) : Prop :=
  lockCommand ∉ (s.session w).todo ∧ ((s.session w).todo ≠ [] ∨ (s.session w).running.isSome)

instance (s : Startup ω) (w : ω) : Decidable (s.Inside w) := by
  unfold Inside
  infer_instance

def ExecutesDdl (s : Startup ω) (w : ω) : Prop :=
  ∃ c ∈ ensureTablesExist ++ ensureIndexesExist, (s.session w).running = some c

structure Exclusive (s : Startup ω) : Prop where
  one_inside : ∀ w w', s.Inside w → s.Inside w' → w = w'
  ddl_alone : ∀ w w', s.ExecutesDdl w → s.Inside w' → w = w'

variable [DecidableEq ω]

abbrev step : Startup ω → Act ω → Option (Startup ω) := Server.step SchemaStatement.lock

/-- The statement that takes the lock finds no other worker at its setup. -/
def Unshared (s : Startup ω) : Act ω → Prop
  | .issue w => (s.session w).todo = lifespanSetup → ∀ w', ¬ s.Inside w'
  | _ => True

/-! ### What one step does -/

def Placed (s : Startup ω) : Prop := ∀ w,
  ((s.session w).todo = lifespanSetup ∧ (s.session w).running = none) ∨
    lockCommand ∉ (s.session w).todo

theorem lockCommand_not_mem_ddl : lockCommand ∉ ensureTablesExist ++ ensureIndexesExist := by
  decide

variable {s s' : Startup ω} {a : Act ω} {w w' : ω}

omit [DecidableEq ω] in
theorem Placed.not_mem_of_running (hs : Placed s) (h : (s.session w).running.isSome) :
    lockCommand ∉ (s.session w).todo := by
  rcases hs w with ⟨-, hrunning⟩ | hnot
  · rw [hrunning] at h
    cases h
  · exact hnot

omit [DecidableEq ω] in
theorem Placed.inside_of_running (hs : Placed s) (h : (s.session w).running.isSome) : s.Inside w :=
  ⟨hs.not_mem_of_running h, .inr h⟩

theorem Placed.step (hs : Placed s) (h : s.step a = some s') : Placed s' := by
  intro v
  rcases Server.session_step h with
    ⟨w, c, todo, rfl, hrunning, htodo, hsession⟩ | ⟨w, session, -, hrunning, htodo, hdone, hsession⟩
  · rw [hsession]
    by_cases hv : v = w
    · subst hv
      right
      rw [Function.update_self]
      rcases hs v with ⟨hall, -⟩ | hnot
      · obtain ⟨-, rfl⟩ := List.cons.inj (htodo.symm.trans hall)
        exact lockCommand_not_mem_ddl
      · rw [htodo] at hnot
        exact fun hmem => hnot (List.mem_cons_of_mem c hmem)
    · rw [Function.update_of_ne hv]
      exact hs v
  · rw [hsession]
    by_cases hv : v = w
    · subst hv
      right
      rw [Function.update_self]
      rcases htodo with heq | heq
      · rw [heq]
        exact hs.not_mem_of_running hrunning
      · rw [heq]
        exact List.not_mem_nil
    · rw [Function.update_of_ne hv]
      exact hs v

omit [DecidableEq ω] in
theorem Placed.exclusive_iff (hs : Placed s) :
    s.Exclusive ↔ ∀ w w', s.Inside w → s.Inside w' → w = w' := by
  constructor
  · exact fun h => h.one_inside
  · intro h
    refine ⟨h, fun w w' hddl hinside => h w w' (hs.inside_of_running ?_) hinside⟩
    obtain ⟨c, -, hrunning⟩ := hddl
    exact Option.isSome_of_eq_some hrunning

/-- A step leaves the setups apart exactly if it does not bring a second worker in. -/
theorem exclusive_step_iff (hs : Placed s) (hI : s.Exclusive) (h : s.step a = some s') :
    s'.Exclusive ↔ s.Unshared a := by
  rw [(hs.step h).exclusive_iff]
  rcases Server.session_step h with
    ⟨w, c, todo, rfl, hrunning, htodo, hsession⟩ | ⟨w, session, ha, hrunning, htodo, hdone, hsession⟩
  · have hother : ∀ v, v ≠ w → (s'.Inside v ↔ s.Inside v) := by
      intro v hv
      unfold Inside
      rw [hsession, Function.update_of_ne hv]
    rcases hs w with ⟨hall, -⟩ | hnot
    · -- the statement that takes the lock
      have hbefore : ¬ s.Inside w := fun hinside => hinside.1 (hall ▸ List.mem_cons_self ..)
      have hafter : s'.Inside w := by
        refine (hs.step h).inside_of_running ?_
        rw [hsession, Function.update_self]
        rfl
      constructor
      · intro hone _ v hv
        have hne : v ≠ w := fun heq => hbefore (heq ▸ hv)
        exact hne (hone v w ((hother v hne).mpr hv) hafter)
      · intro hunshared v v' hv hv'
        have hself : ∀ u, s'.Inside u → u = w := by
          intro u hu
          by_contra hne
          exact hunshared hall u ((hother u hne).mp hu)
        rw [hself v hv, hself v' hv']
    · -- a later statement: the worker was at its setup before
      have hbefore : s.Inside w := ⟨hnot, .inl (by simp [htodo])⟩
      have hsame : ∀ v, s'.Inside v → s.Inside v := by
        intro v hv
        by_cases heq : v = w
        · exact heq ▸ hbefore
        · exact (hother v heq).mp hv
      refine iff_of_true (fun v v' hv hv' => hI.one_inside v v' (hsame v hv) (hsame v' hv')) ?_
      intro hall
      rw [hall] at hnot
      exact absurd (List.mem_cons_self ..) hnot
  · -- a statement comes to its end: no worker comes in
    have hsame : ∀ v, s'.Inside v → s.Inside v := by
      intro v hv
      by_cases heq : v = w
      · exact heq ▸ hs.inside_of_running hrunning
      · unfold Inside at hv
        rwa [hsession, Function.update_of_ne heq] at hv
    refine iff_of_true (fun v v' hv hv' => hI.one_inside v v' (hsame v hv) (hsame v' hv')) ?_
    cases a with
    | issue w' => exact absurd rfl (ha w')
    | finish | fail => trivial

/-! ### Runs -/

omit [DecidableEq ω] in
theorem placed_init : Placed (init : Startup ω) := fun _ => .inl ⟨rfl, rfl⟩

omit [DecidableEq ω] in
theorem exclusive_init : (init : Startup ω).Exclusive := by
  refine placed_init.exclusive_iff.mpr fun w _ hinside _ => ?_
  exact absurd (List.mem_cons_self ..) hinside.1

def Autocommit (s : Startup ω) : Prop := ∀ w,
  .begin ∉ (s.session w).todo ∧ (s.session w).running ≠ some .begin ∧
    (s.session w).inTransaction = false

theorem Autocommit.step (hs : Autocommit s) (h : s.step a = some s') : Autocommit s' := by
  intro v
  obtain ⟨htodo, hrunning, hin⟩ := hs v
  cases a with
  | issue w =>
    obtain ⟨c, session, holder, hissue, -, rfl⟩ := Server.step_issue h
    obtain ⟨-, todo, hcons, rfl⟩ := Session.issue_eq_some hissue
    by_cases hv : v = w
    · subst hv
      rw [hcons, List.mem_cons, not_or] at htodo
      obtain ⟨hc, hrest⟩ := htodo
      simp only [Function.update_self]
      exact ⟨hrest, fun heq => hc (Option.some.inj heq).symm, hin⟩
    · simp only [Function.update_of_ne hv]
      exact ⟨htodo, hrunning, hin⟩
  | finish w =>
    obtain ⟨session, hfinish, rfl⟩ := Option.map_eq_some_iff.mp h
    obtain ⟨c, hc, rfl⟩ := Option.map_eq_some_iff.mp hfinish
    by_cases hv : v = w
    · subst hv
      simp only [Function.update_self]
      refine ⟨htodo, nofun, ?_⟩
      cases c with
      | begin => exact absurd hc hrunning
      | commit => rfl
      | execute => exact hin
    · simp only [Function.update_of_ne hv]
      exact ⟨htodo, hrunning, hin⟩
  | fail w =>
    obtain ⟨session, hfail, rfl⟩ := Option.map_eq_some_iff.mp h
    obtain ⟨c, -, rfl⟩ := Option.map_eq_some_iff.mp hfail
    by_cases hv : v = w
    · subst hv
      simp only [Function.update_self]
      exact ⟨List.not_mem_nil, nofun, trivial⟩
    · simp only [Function.update_of_ne hv]
      exact ⟨htodo, hrunning, hin⟩

/-- The lock is held no longer than the statement that takes it is executed. -/
theorem lock_lifetime {acts : List (Act ω)} {k : String} (h : run step init acts = some s)
    (hk : s.holder k = some w) :
    (s.session w).running = some (.execute (.advisoryXactLock k)) := by
  have hbegin : .begin ∉ lifespanSetup := by decide
  have hauto : s.Autocommit :=
    run_induction (fun _ _ _ => Autocommit.step) h fun _ => ⟨hbegin, nofun, rfl⟩
  have hheld : Server.Held SchemaStatement.lock s :=
    run_induction (fun _ _ _ => Server.Held.step) h fun _ _ => nofun
  rcases hheld k w hk with hin | ⟨statement, hrunning, hlock⟩
  · -- a lock outlives its statement only where a transaction was begun
    rw [(hauto w).2.2] at hin
    cases hin
  · cases statement with
    | advisoryXactLock key =>
      obtain rfl := Option.some.inj hlock
      exact hrunning
    | createTable | createIndex => cases hlock

def twoWorkers (w w' : ω) : List (Act ω) := [.issue w, .finish w, .issue w']

theorem inside_twoWorkers (hne : w ≠ w') : ∃ s : Startup ω,
    run step init (twoWorkers w w') = some s ∧ s.Inside w ∧ s.Inside w' := by
  have hrun : ∃ s : Startup ω, run step init (twoWorkers w w') = some s ∧
      s.session w = { todo := ensureTablesExist ++ ensureIndexesExist } ∧
      s.session w' =
        { todo := ensureTablesExist ++ ensureIndexesExist, running := some lockCommand } := by
    simp [twoWorkers, run, step, Server.step, init, lifespanSetup, connectionCommands, Session.issue,
      Session.finish, Server.acquire, lockCommand, SchemaStatement.lock, Server.release, hne, hne.symm]
  obtain ⟨s, hs, hw, hw'⟩ := hrun
  refine ⟨s, hs, ?_, ?_⟩
  · rw [Inside, hw]
    exact ⟨lockCommand_not_mem_ddl, .inl (by decide)⟩
  · rw [Inside, hw']
    exact ⟨lockCommand_not_mem_ddl, .inr rfl⟩

/-- The setups are kept apart in every run exactly if at most one worker starts, and in a run of many
workers exactly if each takes the lock when no other is at its setup. -/
theorem schema_setup_exclusive_iff (ω : Type) [DecidableEq ω] :
    ((∀ acts s, run step (init : Startup ω) acts = some s → s.Exclusive) ↔ Subsingleton ω) ∧
      ∀ acts s, run step (init : Startup ω) acts = some s →
        (Guarded step Unshared init acts ↔
          ∀ pre, pre <+: acts → ∀ m, run step init pre = some m → m.Exclusive) := by
  refine ⟨⟨fun hall => ⟨fun w w' => ?_⟩, fun _ acts s hs => ?_⟩, fun acts s hs => ?_⟩
  · by_contra hne
    obtain ⟨s, hs, hw, hw'⟩ := inside_twoWorkers hne
    exact hne ((hall _ s hs).one_inside w w' hw hw')
  · have hplaced : s.Placed := run_induction (fun _ _ _ => Placed.step) hs placed_init
    exact hplaced.exclusive_iff.mpr fun w w' _ _ => Subsingleton.elim w w'
  · exact guarded_iff_along_prefixes (fun _ _ _ => Placed.step) (fun _ _ _ => exclusive_step_iff)
      placed_init exclusive_init hs

theorem schema_setup_exclusive_one : ∀ acts s,
    run step (init : Startup Unit) acts = some s → s.Exclusive :=
  (schema_setup_exclusive_iff Unit).1.mpr inferInstance

/-- The second of two workers takes the lock while the first one creates its tables. -/
theorem not_exclusive_two : ¬ ∀ acts s,
    run step (init : Startup Bool) acts = some s → s.Exclusive := by
  intro hall
  obtain ⟨s, hs, hfirst, hsecond⟩ :
      ∃ s ∈ run step (init : Startup Bool) [.issue false, .finish false, .issue false, .issue true],
        s.Inside false ∧ s.Inside true := by decide
  cases (hall _ s hs).one_inside false true hfirst hsecond

end Startup
end Messenger
