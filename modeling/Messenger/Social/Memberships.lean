import Mathlib.Data.List.Count
import Messenger.Lib.RowVersions
import Messenger.Services.GroupTasks

/-! `GroupService.add_member` and `remove_member`, one statement at a time and any number of them side by
side. Neither the group nor the user is deleted meanwhile, so that the rows to which the foreign keys of
a membership point are not written, and nobody waits for them. -/

namespace Messenger
open RowVersions Transactional

inductive MembershipCall where
  | addMember (actorId groupId targetUserId : UUID) (now : Timestamp)
  | removeMember (actorId groupId targetUserId : UUID)
  deriving DecidableEq

namespace MembershipCall

def op : MembershipCall → GroupOperation
  | addMember actor g target now => .addMember actor g target now
  | removeMember actor g target => .removeMember actor g target

def pk : MembershipCall → UUID × UUID
  | addMember _ g target _ | removeMember _ g target => (g, target)

def action : MembershipCall → MembershipAction
  | addMember .. => .join
  | removeMember .. => .leave

def change : MembershipCall → Change Membership (UUID × UUID)
  | addMember _ g target now => .insert ⟨g, target, now⟩
  | removeMember _ g target => .delete (g, target)

/-- The call from the commit of its transaction on. -/
def rest : MembershipCall → GroupOp Unit
  | addMember _ g target _ => GroupService.spawn (.pushGroupMembershipChange target g .join)
  | removeMember _ g target => GroupService.spawn (.pushGroupMembershipChange target g .leave)

/-- The tasks that the rest of the call spawns; nothing is awaited there that could fail. -/
def spawns (c : MembershipCall) : List GroupTask := (c.rest (fun _ => none) { db := {} }).2.spawned

end MembershipCall

/-- Each but the last two has a statement to run. -/
inductive MembershipPc where
  | addMember (actorId groupId targetUserId : UUID) (now : Timestamp)
  | addGroupMember (actorId groupId targetUserId : UUID) (now : Timestamp)
  | removeMember (actorId groupId targetUserId : UUID)
  | removeGroupMember (actorId groupId targetUserId : UUID)
  | completed (c : MembershipCall)
  | raised (e : Error)
  deriving DecidableEq

def membershipStore : Store Db Membership (UUID × UUID) where
  key := Membership.pk
  present d pk := (d.memberships.get? pk).isSome
  insert m d := { d with memberships := d.memberships.insertNew m }
  delete pk d := { d with memberships := d.memberships.deleteWhere (·.pk = pk) }
  present_insert m d pk := by
    rw [Table.get?_insertNew, Option.isSome_or, Bool.or_eq_true, or_comm, Option.isSome_ite]
  present_delete pk d pk' := by
    rw [Table.get?_deleteWhere]
    cases hm : d.memberships.get? pk' with
    | none => simp
    | some m =>
      have hpk : m.pk = pk' := Table.key_of_get? hm
      simp only [Option.isSome_filter, hpk, Option.any_some, Option.isSome_some, and_true, Bool.not_eq_true',
        decide_eq_false_iff_not]
      exact ne_comm

namespace MembershipPc
open GroupService

def entry : MembershipCall → MembershipPc
  | .addMember actor g target now => addMember actor g target now
  | .removeMember actor g target => removeMember actor g target

def cmd : MembershipPc → Cmd Db Membership (UUID × UUID) MembershipPc
  | addMember actor g target now => .select fun d =>
    match GroupQueries.getGroupById g d with
    | .ok group =>
      if group.createdBy ≠ actor then
        raised (insufficient "Only the group creator can add new members.")
      else addGroupMember actor g target now
    | .error e => raised e
  | addGroupMember actor g target now => .insert ⟨g, target, now⟩ fun d =>
    match GroupQueries.addGroupMember ⟨g, target, now⟩ d with
    | .ok _ => .ok (completed (.addMember actor g target now))
    | .error e => .error (raised e)
  | removeMember actor g target => .select fun d =>
    match GroupQueries.getGroupById g d with
    | .ok group =>
      if target = group.createdBy then
        raised (insufficient "Group creator cannot leave the group. Delete the group instead.")
      else if !(decide (actor = target) || decide (group.createdBy = actor)) then
        raised (insufficient "Only the group creator can remove other members.")
      else removeGroupMember actor g target
    | .error e => raised e
  | removeGroupMember actor g target =>
    .delete (g, target) (completed (.removeMember actor g target))
      (raised (.db (.notFound .membership ("Group:" ++ g.str ++ " User:" ++ target.str))))
  | completed _ => .commit
  | raised _ => .rollback

def writes : MembershipPc → List (Change Membership (UUID × UUID))
  | completed c => [c.change]
  | _ => []

end MembershipPc

def memberships : Program Db Membership (UUID × UUID) MembershipCall MembershipPc where
  store := membershipStore
  entry := MembershipPc.entry
  cmd := MembershipPc.cmd
  unique pc m q d p hq hok := by
    cases pc with
    | addGroupMember actor g target now =>
      obtain ⟨rfl, rfl⟩ := Cmd.insert.inj hq
      dsimp only at hok
      split at hok
      · next d' hadd =>
        have habsent : ¬ d.Member g target := GroupOperation.not_member_of_addGroupMember hadd
        exact Bool.eq_false_iff.mpr habsent
      · cases hok
    | _ => cases hq

abbrev MembershipTxns (τ : Type) := Sys Db Membership (UUID × UUID) τ MembershipPc

/-- The transactions, the calls that have returned, and the tasks that they have spawned before that. -/
structure MembershipSys (τ : Type) where
  txns : MembershipTxns τ
  returned : List τ := []
  spawned : List (τ × GroupTask) := []

inductive MembershipAct (τ : Type) where
  | server (a : Act τ MembershipCall)
  | resume (t : τ) (c : MembershipCall)

namespace MembershipSys

variable {τ : Type}

def success? (e : Commit Membership (UUID × UUID) τ MembershipPc) : Option (τ × MembershipCall) :=
  match e.pc with
  | .completed c => some (e.txn, c)
  | _ => none

def succeeded (s : MembershipSys τ) : List (τ × MembershipCall) := s.txns.log.filterMap success?

def actions (s : MembershipSys τ) (g u : UUID) : List MembershipAction :=
  (s.succeeded.filter fun e => e.2.pk = (g, u)).map fun e => e.2.action

variable [DecidableEq τ]

def spawnedBy (s : MembershipSys τ) (t : τ) : List GroupTask :=
  (s.spawned.filter fun e => e.1 = t).map Prod.snd

/-- A call whose transaction has committed runs the rest of its body and returns. One whose transaction
has been rolled back only raises. -/
def step (s : MembershipSys τ) : MembershipAct τ → Option (MembershipSys τ)
  | .server a => (memberships.step s.txns a).map fun txns => { s with txns }
  | .resume t c =>
    if (t, c) ∈ s.succeeded ∧ t ∉ s.returned then
      some { s with returned := t :: s.returned, spawned := s.spawned ++ c.spawns.map fun task => (t, task) }
    else none

end MembershipSys

/-! ### What the service spawns -/

namespace GroupService

/-- A call that answers has spawned this task and no other, and one that raises has spawned none. -/
def Spawns {α : Type} (m : GroupOp α) (task : GroupTask) : Prop :=
  ∀ f w, match m f w with
    | (.ok _, w') => w'.spawned = w.spawned ++ [task]
    | (.error _, w') => w' = w

theorem decorated_ne_ok {α : Type} {kwargs : Kwargs} {e : Error} {a : α} :
    handleDbNotFoundError (fun _ => none) (fun _ => none) kwargs e ≠ .ok a ∧
      handleDbConstraintError (fun _ => none) kwargs e ≠ .ok a := by
  refine ⟨fun h => ?_, handleDbConstraintError_ne_ok⟩
  obtain ⟨_, _, -, hsome⟩ := handleDbNotFoundError_eq_ok h
  cases hsome

theorem Spawns.decorated {α : Type} {m : GroupOp α} {task : GroupTask} (hm : Spawns m task)
    (kwargs : Kwargs) : Spawns (GroupService.decorated kwargs m) task := by
  intro f w
  have hrun := hm f w
  unfold GroupService.decorated
  cases hmw : m f w with
  | mk r w' =>
    rw [hmw] at hrun
    cases r with
    | ok a =>
      rw [Op.handle_of_ok (Op.handle_of_ok hmw)]
      exact hrun
    | error e =>
      -- no handler answers an error
      rw [Op.handle, Op.handle_of_error hmw]
      cases hnotFound : handleDbNotFoundError (fun _ => none) (fun _ => none) kwargs e with
      | ok a => exact absurd hnotFound decorated_ne_ok.1
      | error e' =>
        dsimp only
        cases hconstraint : handleDbConstraintError (fun _ => none) kwargs e' with
        | ok a => exact absurd hconstraint decorated_ne_ok.2
        | error e'' => exact hrun

theorem spawns_transaction {α β : Type} {body : GroupStmts α} {task : GroupTask} {k : α → GroupOp β}
    (hk : ∀ a f w, ∃ b, k a f w = (.ok b, { w with spawned := w.spawned ++ [task] })) :
    Spawns (GroupService.transaction body >>= k) task := by
  intro f w
  have hcases : (∃ a d, Op.committed .begin .commit body (fun _ => [task]) f w.db = some (d, [task]) ∧
      (GroupService.transaction body >>= k) f w = k a f { w with db := d }) ∨
        _ ∧ ∃ e, (GroupService.transaction body >>= k) f w = (.error e, w) :=
    Op.transaction_bind_cases _ k f w
  rcases hcases with ⟨a, d, -, hrun⟩ | ⟨-, e, hrun⟩
  · obtain ⟨b, hb⟩ := hk a f { w with db := d }
    rw [hrun, hb]
  · rw [hrun]

theorem spawns_addMember (actor g u : UUID) (now : Timestamp) :
    Spawns (addMember actor g u now) (.pushGroupMembershipChange u g .join) :=
  (spawns_transaction fun m _ _ => ⟨m, rfl⟩).decorated _

theorem spawns_removeMember (actor g u : UUID) :
    Spawns (removeMember actor g u) (.pushGroupMembershipChange u g .leave) :=
  (spawns_transaction fun _ _ _ => ⟨(), rfl⟩).decorated _

end GroupService

/-! ### A call by itself -/

namespace MembershipCall

theorem run_eq (c : MembershipCall) (f : Faults GroupAwait Error) (w : GroupState) :
    c.op.run f w = (c.op.transact f w.db).elim w fun r => (c.rest f { w with db := r.1 }).2 := by
  rw [GroupOperation.run_eq]
  cases htx : c.op.transact f w.db with
  | none => rfl
  | some r =>
    cases c with
    | addMember actor g target now =>
      obtain ⟨-, -, _, -, htasks⟩ := Op.committed_eq_some.mp htx
      rw [Option.elim_some, Option.elim_some, htasks]
      rfl
    | removeMember actor g target =>
      obtain ⟨-, -, _, -, htasks⟩ := Op.committed_eq_some.mp htx
      rw [Option.elim_some, Option.elim_some, htasks]
      rfl

def ends (c : MembershipCall) : Except Error Db → Txn Membership (UUID × UUID) MembershipPc
  | .ok _ => ⟨.completed c, .ready, [c.change]⟩
  | .error e => ⟨.raised e, .ready, []⟩

variable {c : MembershipCall} {d d' : Db} {actor g target : UUID} {now : Timestamp}

theorem alone_addGroupMember :
    memberships.alone 2 { pc := .addGroupMember actor g target now } d =
      some ((addMember actor g target now).ends (GroupQueries.addGroupMember ⟨g, target, now⟩ d)) := by
  simp only [Program.alone, memberships, MembershipPc.cmd, Store.applyAll, List.foldl_nil]
  cases GroupQueries.addGroupMember ⟨g, target, now⟩ d with
  | ok d' => rfl
  | error e => rfl

theorem alone_removeGroupMember :
    memberships.alone 2 { pc := .removeGroupMember actor g target } d =
      some ((removeMember actor g target).ends (GroupQueries.removeGroupMember g target d)) := by
  simp only [Program.alone, memberships, MembershipPc.cmd, Store.applyAll, List.foldl_nil]
  unfold GroupQueries.removeGroupMember
  show (if (d.memberships.get? (g, target)).isSome then _ else _) = _
  cases hm : d.memberships.get? (g, target) with
  | none => rfl
  | some m => rfl

/-- Every call runs the transaction of the service. -/
theorem alone_entry (c : MembershipCall) (d : Db) :
    memberships.alone 3 { pc := MembershipPc.entry c } d = some (c.ends (c.op.tx d)) := by
  cases c with
  | addMember actor g target now =>
    refine (Program.alone_select rfl).trans ?_
    simp only [op, GroupOperation.tx, GroupService.addMemberTx, Store.applyAll, List.foldl_nil]
    cases GroupQueries.getGroupById g d with
    | error e => rfl
    | ok group =>
      simp only [bind, Except.bind]
      by_cases hcreator : group.createdBy = actor
      · simp only [if_neg (not_not.mpr hcreator)]
        exact alone_addGroupMember
      · simp only [if_pos hcreator]
        rfl
  | removeMember actor g target =>
    refine (Program.alone_select rfl).trans ?_
    simp only [op, GroupOperation.tx, GroupService.removeMemberTx, Store.applyAll, List.foldl_nil]
    cases GroupQueries.getGroupById g d with
    | error e => rfl
    | ok group =>
      simp only [bind, Except.bind]
      by_cases hcreator : target = group.createdBy
      · simp only [if_pos hcreator]
        rfl
      · simp only [if_neg hcreator]
        split
        · rfl
        · exact alone_removeGroupMember

theorem apply_change (h : c.op.tx d = .ok d') : d' = membershipStore.apply c.change d := by
  cases c with
  | addMember actor g target now => exact (GroupOperation.addMemberTx_eq_ok h).1
  | removeMember actor g target => exact GroupOperation.removeMemberTx_eq_ok h

end MembershipCall

namespace MembershipSys

variable {τ : Type} [DecidableEq τ] {s : MembershipSys τ} {x : MembershipTxns τ} {t : τ} {c : MembershipCall}
  {d' : Db}

theorem reachable_server (h : Transition.Reachable memberships.step s.txns x) :
    Transition.Reachable step s { s with txns := x } := by
  refine h.induction (I := fun y => Transition.Reachable step s { s with txns := y })
    (fun y a y' hy hstep => hy.tail (a := .server a) ?_) (Transition.Reachable.refl s)
  show (memberships.step y a).map _ = _
  rw [hstep]
  rfl

theorem reachable_of_tx (h : c.op.tx s.txns.db = .ok d') (hfresh : t ∉ s.txns.started)
    (hreturned : t ∉ s.returned) (halone : ∀ pk, s.txns.writer pk = none) :
    ∃ s', Transition.Reachable step s s' ∧ s'.txns.db = d' ∧ t ∈ s'.returned ∧
      s'.spawned = s.spawned ++ c.spawns.map fun task => (t, task) := by
  have hends : memberships.alone 3 { pc := memberships.entry c } s.txns.db =
      some ⟨.completed c, .ready, [c.change]⟩ := by
    rw [show memberships.entry c = MembershipPc.entry c from rfl, MembershipCall.alone_entry, h]
    rfl
  obtain ⟨x, hx, hdb, hlog⟩ := Program.commit_reachable hends rfl hfresh halone
  have hsucceeded : (t, c) ∈ ({ s with txns := x } : MembershipSys τ).succeeded := by
    refine List.mem_filterMap.mpr ⟨⟨t, .completed c, [c.change]⟩, ?_, rfl⟩
    show _ ∈ x.log
    rw [hlog]
    exact List.mem_concat_self
  have hresume : step { s with txns := x } (.resume t c) = some { s with
      txns := x
      returned := t :: s.returned
      spawned := s.spawned ++ c.spawns.map fun task => (t, task) } := if_pos ⟨hsucceeded, hreturned⟩
  refine ⟨_, (reachable_server hx).tail hresume, ?_, List.mem_cons_self .., rfl⟩
  exact hdb.trans (MembershipCall.apply_change h).symm

end MembershipSys

/-! ### Any number of calls -/

namespace MembershipPc

variable {pc p deleted missing : MembershipPc} {pk : UUID × UUID} {m : Membership} {d : Db}

theorem writes_select {q : Db → MembershipPc} (h : pc.cmd = .select q) (d : Db) :
    (q d).writes = pc.writes := by
  cases pc with
  | addMember actor g target now =>
    cases h
    dsimp only
    split
    · split <;> rfl
    · rfl
  | removeMember actor g target =>
    cases h
    dsimp only
    split
    · split
      · rfl
      · split <;> rfl
    · rfl
  | _ => cases h

theorem writes_insert {q : Db → Except MembershipPc MembershipPc} (h : pc.cmd = .insert m q) :
    (q d = .ok p → p.writes = pc.writes ++ [.insert m]) ∧ (q d = .error p → p.writes = pc.writes) := by
  cases pc with
  | addGroupMember actor g target now =>
    cases h
    dsimp only
    split
    · exact ⟨fun hok => Except.ok.inj hok ▸ rfl, nofun⟩
    · exact ⟨nofun, fun herror => Except.error.inj herror ▸ rfl⟩
  | _ => cases h

theorem writes_delete (h : pc.cmd = .delete pk deleted missing) :
    deleted.writes = pc.writes ++ [.delete pk] ∧ missing.writes = pc.writes := by
  cases pc with
  | removeGroupMember actor g target =>
    cases h
    exact ⟨rfl, rfl⟩
  | _ => cases h

theorem completed_of_commit (h : pc.cmd = .commit) : ∃ c, pc = completed c := by
  cases pc with
  | completed c => exact ⟨c, rfl⟩
  | _ => cases h

end MembershipPc

section

variable {τ : Type} [DecidableEq τ]

structure MembershipWrites (s : MembershipTxns τ) : Prop where
  wrote : ∀ t x, s.txn t = some x → x.writes = x.pc.writes
  completed : ∀ e ∈ s.log, ∃ c, e.pc = .completed c ∧ e.writes = [c.change]

variable {s : MembershipTxns τ} {t : τ} {x : Txn Membership (UUID × UUID) MembershipPc}

theorem MembershipWrites.setTxn (h : MembershipWrites s) (hx : x.writes = x.pc.writes) :
    MembershipWrites (s.setTxn t x) where
  wrote u y hy := by
    rcases Sys.setTxn_txn_eq_some hy with ⟨-, rfl⟩ | ⟨-, hold⟩
    · exact hx
    · exact h.wrote u y hold
  completed := h.completed

theorem MembershipWrites.close (h : MembershipWrites s) (t : τ) : MembershipWrites (s.close t) where
  wrote u y hy := h.wrote u y (Sys.close_txn_eq_some hy).2
  completed := h.completed

theorem preserves_membershipWrites :
    memberships.Preserves (MembershipWrites : MembershipTxns τ → Prop) where
  begin s t c h _ := by
    have hentry : (MembershipPc.entry c).writes = [] := by cases c <;> rfl
    have h' := h.setTxn (t := t) (x := { pc := MembershipPc.entry c }) hentry.symm
    exact ⟨h'.wrote, h'.completed⟩
  select s t pc ws q h hx hq := by
    refine h.setTxn ?_
    have hws : ws = pc.writes := h.wrote t _ hx
    exact hws.trans (MembershipPc.writes_select hq _).symm
  insert s t pc ws r q p h hx hq _ hok := by
    have hws : ws = pc.writes := h.wrote t _ hx
    have hp : p.writes = pc.writes ++ [.insert r] := (MembershipPc.writes_insert hq).1 hok
    have h' := h.setTxn (t := t) (x := ⟨p, .ready, ws ++ [.insert r]⟩) (by rw [hws, hp])
    exact ⟨h'.wrote, h'.completed⟩
  refuse s t pc ws r q p h hx hq herror := by
    have hws : ws = pc.writes := h.wrote t _ hx
    exact h.setTxn (hws.trans ((MembershipPc.writes_insert hq).2 herror).symm)
  find s t pc ws k deleted missing h hx _ _ := by
    have hws : ws = pc.writes := h.wrote t _ hx
    exact h.setTxn hws
  miss s t x k deleted missing h hx hq := by
    have hws : x.writes = x.pc.writes := h.wrote t x hx
    exact h.setTxn (hws.trans (MembershipPc.writes_delete hq).2.symm)
  delete s t pc ws k deleted missing h hx hq _ := by
    have hws : ws = pc.writes := h.wrote t _ hx
    have hp : deleted.writes = pc.writes ++ [.delete k] := (MembershipPc.writes_delete hq).1
    have h' := h.setTxn (t := t) (x := ⟨deleted, .ready, ws ++ [.delete k]⟩) (by rw [hws, hp])
    exact ⟨h'.wrote, h'.completed⟩
  commit s t pc ws h hx hq :=
    { wrote := (h.close t).wrote
      completed := fun e he => by
        rcases List.mem_append.mp he with hold | hnew
        · exact h.completed e hold
        · obtain rfl := List.mem_singleton.mp hnew
          obtain ⟨c, rfl⟩ := MembershipPc.completed_of_commit hq
          exact ⟨c, rfl, h.wrote t _ hx⟩ }
  abort s t _ h _ := h.close t

end

namespace MembershipSys

variable {τ : Type} [DecidableEq τ] {s s' : MembershipSys τ} {t : τ} {c : MembershipCall} {d : Db}
  {g u : UUID}

omit [DecidableEq τ] in
theorem changes_eq (h : MembershipWrites s.txns) :
    s.txns.changes = s.succeeded.map fun e => e.2.change := by
  have hlog : ∀ l : List (Commit Membership (UUID × UUID) τ MembershipPc),
      (∀ e ∈ l, ∃ c, e.pc = .completed c ∧ e.writes = [c.change]) →
      l.flatMap Commit.writes = (l.filterMap success?).map fun e => e.2.change := by
    intro l
    induction l with
    | nil => exact fun _ => rfl
    | cons e l ih =>
      intro hl
      obtain ⟨c, hpc, hwrites⟩ := hl e (List.mem_cons_self ..)
      have hsuccess : success? e = some (e.txn, c) := by simp only [success?, hpc]
      rw [List.flatMap_cons, List.filterMap_cons_some hsuccess, List.map_cons, hwrites,
        ih fun e he => hl e (List.mem_cons_of_mem _ he)]
      rfl
  exact hlog s.txns.log h.completed

def isJoin (a : MembershipAction) : Bool := a = .join

theorem isJoin_injective : Function.Injective isJoin := by
  intro a b h
  cases a <;> cases b <;> first | rfl | cases h

omit [DecidableEq τ] in
theorem changesOf_eq (h : MembershipWrites s.txns) :
    (membershipStore.changesOf (g, u) s.txns.changes).map Change.adds = (s.actions g u).map isJoin := by
  have hkey : ∀ c : MembershipCall, membershipStore.keyOf c.change = c.pk := by
    intro c
    cases c <;> rfl
  have hadds : ∀ c : MembershipCall, c.change.adds = isJoin c.action := by
    intro c
    cases c <;> rfl
  rw [changes_eq h, Store.changesOf, List.filter_map, List.map_map, actions, List.map_map]
  simp only [Function.comp_def, hkey, hadds]

structure Spawned (s : MembershipSys τ) : Prop where
  waiting : ∀ t, t ∉ s.returned → s.spawnedBy t = []
  returned : ∀ t ∈ s.returned, ∃ c, (t, c) ∈ s.succeeded ∧ s.spawnedBy t = c.spawns

def start (d : Db) : MembershipSys τ := { txns := { db := d } }

theorem succeeded_mono {a : Act τ MembershipCall} {x : MembershipTxns τ}
    (h : memberships.step s.txns a = some x) :
    s.succeeded ⊆ ({ s with txns := x } : MembershipSys τ).succeeded :=
  ((log_prefix_of_step h).filterMap success?).subset

def resumed (s : MembershipSys τ) (t : τ) (c : MembershipCall) : MembershipSys τ :=
  { s with returned := t :: s.returned, spawned := s.spawned ++ c.spawns.map fun task => (t, task) }

theorem step_resume (hc : (t, c) ∈ s.succeeded) (ht : t ∉ s.returned) :
    s.step (.resume t c) = some (s.resumed t c) := if_pos ⟨hc, ht⟩

theorem spawnedBy_resumed (s : MembershipSys τ) (t : τ) (c : MembershipCall) (t' : τ) :
    (s.resumed t c).spawnedBy t' = s.spawnedBy t' ++ if t = t' then c.spawns else [] := by
  show ((s.spawned ++ c.spawns.map fun task => (t, task)).filter fun e => e.1 = t').map Prod.snd = _
  rw [List.filter_append, List.map_append]
  congr 1
  have htag : ((c.spawns.map fun task => (t, task)).filter fun e => e.1 = t') =
      if t = t' then c.spawns.map fun task => (t, task) else [] := by
    by_cases ht : t = t' <;> simp [ht]
  rw [htag]
  split
  · rw [List.map_map]
    exact List.map_id _
  · rfl

theorem Spawned.resume (h : Spawned s) (hc : (t, c) ∈ s.succeeded) (ht : t ∉ s.returned) :
    Spawned (s.resumed t c) where
  waiting t' ht' := by
    have hne : t ≠ t' := fun heq => ht' (heq ▸ List.mem_cons_self ..)
    rw [spawnedBy_resumed, if_neg hne, List.append_nil]
    exact h.waiting t' fun hold => ht' (List.mem_cons_of_mem _ hold)
  returned t' ht' := by
    rw [spawnedBy_resumed]
    rcases List.mem_cons.mp ht' with rfl | hold
    · refine ⟨c, hc, ?_⟩
      rw [h.waiting t' ht, if_pos rfl, List.nil_append]
    · have hne : t ≠ t' := fun heq => ht (heq ▸ hold)
      obtain ⟨c', hc', hspawned⟩ := h.returned t' hold
      refine ⟨c', hc', ?_⟩
      rw [hspawned, if_neg hne, List.append_nil]

theorem Spawned.step {a : MembershipAct τ} (h : Spawned s) (hs : s.step a = some s') : Spawned s' := by
  cases a with
  | server a =>
    obtain ⟨x, hx, rfl⟩ := Option.map_eq_some_iff.mp hs
    refine ⟨h.waiting, fun t ht => ?_⟩
    obtain ⟨c, hc, hspawned⟩ := h.returned t ht
    exact ⟨c, succeeded_mono hx hc, hspawned⟩
  | resume t c =>
    simp only [MembershipSys.step] at hs
    split at hs
    · next hresume =>
      obtain rfl := Option.some.inj hs
      exact h.resume hresume.1 hresume.2
    · cases hs

theorem spawned_of_reachable (hs : Transition.Reachable step (start d) s) : Spawned s :=
  hs.induction (fun _ _ _ h hstep => h.step hstep) ⟨fun _ _ => rfl, fun _ h => nomatch h⟩

theorem txns_of_reachable (hs : Transition.Reachable step (start d) s) :
    Transition.Reachable memberships.step { db := d } s.txns := by
  refine hs.induction (I := fun s => Transition.Reachable memberships.step { db := d } s.txns)
    (fun s a s' h hstep => ?_) (Transition.Reachable.refl _)
  cases a with
  | server a =>
    obtain ⟨x, hx, rfl⟩ := Option.map_eq_some_iff.mp hstep
    exact h.tail hx
  | resume t c =>
    simp only [MembershipSys.step] at hstep
    split at hstep
    · exact Option.some.inj hstep ▸ h
    · cases hstep

theorem writes_of_reachable (hs : Transition.Reachable step (start d) s) : MembershipWrites s.txns := by
  have hinit : MembershipWrites ({ db := d } : MembershipTxns τ) :=
    { wrote := fun _ _ h => nomatch h
      completed := fun _ h => nomatch h }
  exact preserves_membershipWrites.reachable hinit (txns_of_reachable hs)

theorem isChain_actions (hs : Transition.Reachable step (start d) s) (habsent : ¬ d.Member g u) :
    List.IsChain (· ≠ ·) (.leave :: s.actions g u) := by
  have hchain := isChain_of_reachable (txns_of_reachable hs) (g, u)
  have hbefore : memberships.store.present d (g, u) = isJoin .leave := Bool.eq_false_iff.mpr habsent
  rw [hbefore] at hchain
  have hmap : List.IsChain (· ≠ ·) ((MembershipAction.leave :: s.actions g u).map isJoin) := by
    rw [List.map_cons, ← changesOf_eq (writes_of_reachable hs)]
    exact hchain
  exact ((List.isChain_map isJoin).mp hmap).imp fun a b hne heq => hne (congrArg isJoin heq)

theorem count_actions (hs : Transition.Reachable step (start d) s) (habsent : ¬ d.Member g u) :
    (s.actions g u).count .join =
      (s.actions g u).count .leave + if s.txns.db.Member g u then 1 else 0 := by
  have hcount := count_of_reachable (txns_of_reachable hs) (g, u)
  have hbefore : memberships.store.present d (g, u) = false := Bool.eq_false_iff.mpr habsent
  have hmap : (memberships.store.changesOf (g, u) s.txns.changes).map Change.adds =
      (s.actions g u).map isJoin := changesOf_eq (writes_of_reachable hs)
  have hjoin : ((s.actions g u).map isJoin).count true = (s.actions g u).count .join :=
    List.count_map_of_injective _ isJoin isJoin_injective .join
  have hleave : ((s.actions g u).map isJoin).count false = (s.actions g u).count .leave :=
    List.count_map_of_injective _ isJoin isJoin_injective .leave
  have hafter : (memberships.store.present s.txns.db (g, u)).toNat =
      if s.txns.db.Member g u then 1 else 0 := by
    by_cases hm : s.txns.db.Member g u
    · rw [if_pos hm]
      exact congrArg Bool.toNat hm
    · rw [if_neg hm]
      exact congrArg Bool.toNat (Bool.eq_false_iff.mpr hm)
  rw [hmap, hjoin, hleave, hbefore, hafter] at hcount
  exact hcount

theorem nodup_succeeded (hs : Transition.Reachable step (start d) s) :
    (s.succeeded.map Prod.fst).Nodup := by
  have honce : (s.txns.log.map Commit.txn).Nodup := (ended_of_reachable (txns_of_reachable hs)).once
  refine honce.sublist ?_
  have hsub : ∀ l : List (Commit Membership (UUID × UUID) τ MembershipPc),
      ((l.filterMap success?).map Prod.fst).Sublist (l.map Commit.txn) := by
    intro l
    induction l with
    | nil => exact .slnil
    | cons e l ih =>
      rw [List.map_cons]
      cases hsuccess : success? e with
      | none =>
        rw [List.filterMap_cons_none hsuccess]
        exact ih.cons _
      | some r =>
        have htxn : r.1 = e.txn := by
          unfold success? at hsuccess
          split at hsuccess
          · exact congrArg Prod.fst (Option.some.inj hsuccess).symm
          · cases hsuccess
        rw [List.filterMap_cons_some hsuccess, List.map_cons, htxn]
        exact ih.cons_cons _
  exact hsub s.txns.log

end MembershipSys

namespace MembershipSys

variable {τ : Type} [DecidableEq τ]

/-- The call that has committed as `t` has spawned this task alone, or will have when it goes on. -/
def Pushes (s : MembershipSys τ) (t : τ) (c : MembershipCall) (task : GroupTask) : Prop :=
  t ∈ s.returned ∧ s.spawnedBy t = [task] ∨
    t ∉ s.returned ∧ s.spawnedBy t = [] ∧ ∃ s', s.step (.resume t c) = some s' ∧ s'.spawnedBy t = [task]

theorem pushes_of_reachable {d : Db} {s : MembershipSys τ} {t : τ} {c : MembershipCall} {task : GroupTask}
    (hs : Transition.Reachable step (start d) s) (hc : (t, c) ∈ s.succeeded) (htask : c.spawns = [task]) :
    s.Pushes t c task := by
  have hspawned : s.Spawned := spawned_of_reachable hs
  by_cases ht : t ∈ s.returned
  · obtain ⟨c', hc', htasks⟩ := hspawned.returned t ht
    -- the call that has returned is the one that has committed
    have hsame : ((t, c) : τ × MembershipCall) = (t, c') :=
      List.inj_on_of_nodup_map (nodup_succeeded hs) hc hc' rfl
    obtain rfl : c = c' := congrArg Prod.snd hsame
    exact .inl ⟨ht, htasks.trans htask⟩
  · refine .inr ⟨ht, hspawned.waiting t ht, s.resumed t c, step_resume hc ht, ?_⟩
    rw [spawnedBy_resumed, hspawned.waiting t ht, if_pos rfl, List.nil_append, htask]

end MembershipSys

/-- Whatever calls of `add_member` and `remove_member` run, and in whatever order their statements come:
the joins of a user less the leaves are one while the row is there and none while it is not, and the two
take turns. Each addition pushes one `JOIN` and each removal one `LEAVE` when it goes on after its commit,
and a call that has not committed pushes nothing. So do the operations of the service themselves, whatever
fails in them. -/
theorem joins_and_leaves_accounted {τ : Type} [DecidableEq τ] {d : Db} {g u : UUID}
    (habsent : ¬ d.Member g u) {s : MembershipSys τ}
    (hs : Transition.Reachable MembershipSys.step (.start d) s) :
    ((s.actions g u).count .join : ℤ) - (s.actions g u).count .leave =
        (if s.txns.db.Member g u then 1 else 0) ∧
      List.IsChain (· ≠ ·) (.leave :: s.actions g u) ∧
      (s.succeeded.map Prod.fst).Nodup ∧
      (∀ t actor now, (t, .addMember actor g u now) ∈ s.succeeded →
        s.Pushes t (.addMember actor g u now) (.pushGroupMembershipChange u g .join)) ∧
      (∀ t actor, (t, .removeMember actor g u) ∈ s.succeeded →
        s.Pushes t (.removeMember actor g u) (.pushGroupMembershipChange u g .leave)) ∧
      (∀ t, (∀ c, (t, c) ∉ s.succeeded) → t ∉ s.returned ∧ s.spawnedBy t = []) ∧
      (∀ actor now, GroupService.Spawns (GroupService.addMember actor g u now)
        (.pushGroupMembershipChange u g .join)) ∧
      ∀ actor, GroupService.Spawns (GroupService.removeMember actor g u)
        (.pushGroupMembershipChange u g .leave) := by
  have hspawned : s.Spawned := MembershipSys.spawned_of_reachable hs
  refine ⟨?_, MembershipSys.isChain_actions hs habsent, MembershipSys.nodup_succeeded hs,
    fun t actor now hc => MembershipSys.pushes_of_reachable hs hc rfl,
    fun t actor hc => MembershipSys.pushes_of_reachable hs hc rfl, fun t hnone => ?_,
    fun actor now => GroupService.spawns_addMember actor g u now,
    fun actor => GroupService.spawns_removeMember actor g u⟩
  · have hcount := MembershipSys.count_actions hs habsent
    by_cases hm : s.txns.db.Member g u
    · rw [if_pos hm] at hcount ⊢
      omega
    · rw [if_neg hm] at hcount ⊢
      omega
  · have ht : t ∉ s.returned := fun hmem => by
      obtain ⟨c, hc, -⟩ := hspawned.returned t hmem
      exact hnone c hc
    exact ⟨ht, hspawned.waiting t ht⟩

namespace Sample

def goClub : Db :=
  { users := ⟨[⟨⟨1⟩, "ada", "secret", false, 0⟩, ⟨⟨2⟩, "bob", "secret", false, 0⟩], by decide⟩
    groups := ⟨[⟨⟨4⟩, "go", ⟨1⟩, 0⟩], by decide⟩ }

/-- Ada adds Bob twice at once, and both remove him before he is added again. The second removal has seen
the row that the first one deletes. -/
def joinsAndLeaves : List (MembershipAct ℕ) :=
  [.server (.begin 0 (.addMember ⟨1⟩ ⟨4⟩ ⟨2⟩ 5)), .server (.begin 1 (.addMember ⟨1⟩ ⟨4⟩ ⟨2⟩ 6)),
    .server (.exec 0), .server (.exec 1), .server (.exec 0), .server (.commit 0), .server (.exec 1),
    .server (.abort 1), .server (.begin 2 (.removeMember ⟨1⟩ ⟨4⟩ ⟨2⟩)),
    .server (.begin 3 (.removeMember ⟨2⟩ ⟨4⟩ ⟨2⟩)), .server (.exec 2), .server (.exec 3),
    .server (.exec 2), .server (.exec 3), .server (.delete 2), .server (.commit 2),
    .server (.begin 4 (.addMember ⟨1⟩ ⟨4⟩ ⟨2⟩ 7)), .server (.exec 4), .server (.exec 4),
    .server (.commit 4), .server (.delete 3), .server (.abort 3),
    .resume 2 (.removeMember ⟨1⟩ ⟨4⟩ ⟨2⟩), .resume 0 (.addMember ⟨1⟩ ⟨4⟩ ⟨2⟩ 5)]

end Sample

theorem joins_and_leaves_accounted_racing :
    ∃ s : MembershipSys ℕ,
      Transition.run MembershipSys.step (.start Sample.goClub) Sample.joinsAndLeaves = some s ∧
        s.actions ⟨4⟩ ⟨2⟩ = [.join, .leave, .join] ∧
        ((s.actions ⟨4⟩ ⟨2⟩).count .join : ℤ) - (s.actions ⟨4⟩ ⟨2⟩).count .leave =
          (if s.txns.db.Member ⟨4⟩ ⟨2⟩ then 1 else 0) ∧
        s.Pushes 2 (.removeMember ⟨1⟩ ⟨4⟩ ⟨2⟩) (.pushGroupMembershipChange ⟨2⟩ ⟨4⟩ .leave) ∧
        s.Pushes 4 (.addMember ⟨1⟩ ⟨4⟩ ⟨2⟩ 7) (.pushGroupMembershipChange ⟨2⟩ ⟨4⟩ .join) := by
  obtain ⟨s, hs, hactions, hremoved, hadded⟩ :
      ∃ s ∈ Transition.run MembershipSys.step (.start Sample.goClub) Sample.joinsAndLeaves,
        s.actions ⟨4⟩ ⟨2⟩ = [.join, .leave, .join] ∧ (2, .removeMember ⟨1⟩ ⟨4⟩ ⟨2⟩) ∈ s.succeeded ∧
          (4, .addMember ⟨1⟩ ⟨4⟩ ⟨2⟩ 7) ∈ s.succeeded := by decide
  obtain ⟨hcount, -, -, hjoin, hleave, -⟩ :=
    joins_and_leaves_accounted (d := Sample.goClub) (g := ⟨4⟩) (u := ⟨2⟩) (by decide) ⟨_, hs⟩
  exact ⟨s, hs, hactions, hcount, hleave 2 ⟨1⟩ hremoved, hjoin 4 ⟨1⟩ 7 hadded⟩

end Messenger
