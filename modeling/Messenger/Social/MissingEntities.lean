import Messenger.Social.Administration

/-! Which entity `add_member` reports to be missing while other calls delete groups and accounts.
`add_group_member` takes every violated foreign key for a missing user, so that a group which is deleted
between the read and the insertion is reported as a missing user. -/

namespace Messenger
open SharedLocks Transition

namespace RosterPc

def addMemberCall : RosterPc → Option GroupOperation
  | addMember actor g target now => some (.addMember actor g target now)
  | addGroupMember actor g target now => some (.addMember actor g target now)
  | _ => none

def MissesGroup (d : Db) : RosterPc → Prop
  | addMember _ g _ _ => d.groups.get? g = none
  | addGroupMember _ g target _ => ¬ d.Member g target ∧ d.groups.get? g = none
  | _ => False

def Reports (d : Db) (e : Error) (pc : RosterPc) : Prop :=
  ∀ actor g target now, pc.addMemberCall = some (.addMember actor g target now) →
    ∀ e', (GroupOperation.addMember actor g target now).raised e = .error e' →
      (∀ id, e' = .service (.userNotFound id) → d.users.get? target = none) ∧
        (pc.MissesGroup d → e' = .service (.groupNotFound g.str))

/-- The group is still there when its foreign key is checked. -/
def GroupStands (d : Db) : RosterPc → Prop
  | addGroupMember _ g target _ => d.Member g target ∨ (d.groups.get? g).isSome
  | _ => True

instance (d : Db) : ∀ pc : RosterPc, Decidable (pc.GroupStands d)
  | addGroupMember .. => by unfold GroupStands; infer_instance
  | createGroup _ | addCreator _ | addMember .. | removeMember .. | removeGroupMember ..
  | deleteGroup .. | listGroupMemberships .. | deleteGroupRow .. | deleteUser _ | other _ | completed _
  | raised _ => instDecidableTrue

/-! ### The two statements -/

variable {actor g target : UUID} {now : Timestamp} {d : Db} {e : Error}

theorem lookup_identifier {i : String} :
    ((GroupOperation.addMember actor g target now).kwargs ++ [("identifier", i)]).lookup "identifier" =
      some i := rfl

theorem raised_of_groupMissing :
    (GroupOperation.addMember actor g target now).raised (.db (.notFound .group g.str)) =
      .error (.service (.groupNotFound g.str)) := by
  have hname : Kwargs.getOr ((GroupOperation.addMember actor g target now).kwargs ++
      [("identifier", g.str)]) "identifier" "group_id" = g.str := by
    simp only [Kwargs.getOr, lookup_identifier]
    split
    · rfl
    · rfl
  show (.error (.service (.groupNotFound (Kwargs.getOr _ _ _))) : Except Error Db) = _
  rw [hname]

theorem raised_of_userMissing (actor g target : UUID) (now : Timestamp) (i : String) :
    ∃ id, (GroupOperation.addMember actor g target now).raised (.db (.notFound .user i)) =
      .error (.service (.userNotFound id)) := ⟨_, rfl⟩

theorem raised_of_taken (actor g target : UUID) (now : Timestamp) :
    ∃ user group, (GroupOperation.addMember actor g target now).raised
      (.db (.constraintViolation "memberships" .pkMemberships)) =
        .error (.service (.alreadyGroupMember user group)) := ⟨_, _, rfl⟩

theorem raised_of_insufficient (message : String) :
    (GroupOperation.addMember actor g target now).raised (GroupService.insufficient message) =
      .error (GroupService.insufficient message) := rfl

theorem reports_addMember (h : ((select (GroupQueries.getGroupById g) fun group =>
    if group.createdBy ≠ actor then
      raised (GroupService.insufficient "Only the group creator can add new members.")
    else addGroupMember actor g target now).run d).1 = raised e) :
    (addMember actor g target now).Reports d e := by
  rintro _ _ _ _ ⟨⟩ e' he'
  cases hgroup : d.groups.get? g with
  | none =>
    have hread : GroupQueries.getGroupById g d = .error (.db (.notFound .group g.str)) := by
      simp only [GroupQueries.getGroupById, hgroup]
    simp only [select, hread, raised.injEq] at h
    subst h
    rw [raised_of_groupMissing] at he'
    cases he'
    constructor
    · intro id huser
      cases huser
    · exact fun _ => rfl
  | some row =>
    rw [run_select (GroupOperation.getGroupById_eq_ok.mpr hgroup)] at h
    dsimp only at h
    split at h
    · cases h
      rw [raised_of_insufficient] at he'
      cases he'
      constructor
      · intro id huser
        cases huser
      · intro hmissing
        have hnone : d.groups.get? g = none := hmissing
        rw [hgroup] at hnone
        cases hnone
    · cases h

theorem addGroupMember_eq_error {m : Membership} (h : GroupQueries.addGroupMember m d = .error e) :
    d.Member m.groupId m.userId ∧ e = .db (.constraintViolation "memberships" .pkMemberships) ∨
      ¬ d.Member m.groupId m.userId ∧ e = .db (.notFound .user m.userId.str) ∧
        (d.groups.get? m.groupId = none ∨ d.users.get? m.userId = none) := by
  unfold GroupQueries.addGroupMember at h
  split at h
  · next htaken => exact .inl ⟨htaken, (Except.error.inj h).symm⟩
  · next hfree =>
    split at h
    · next hmissing =>
      rw [Bool.or_eq_true, Option.isNone_iff_eq_none, Option.isNone_iff_eq_none] at hmissing
      exact .inr ⟨hfree, (Except.error.inj h).symm, hmissing⟩
    · cases h

theorem reports_addGroupMember (actor : UUID) {next : RosterPc} (hnext : next ≠ raised e)
    (h : ((insertMembership ⟨g, target, now⟩ next).run d).1 = raised e) :
    (addGroupMember actor g target now).Reports d e ↔
      (addGroupMember actor g target now).GroupStands d := by
  cases hadd : GroupQueries.addGroupMember ⟨g, target, now⟩ d with
  | ok d' =>
    rw [insertMembership, run_write hadd] at h
    exact absurd h hnext
  | error e₁ =>
    simp only [insertMembership, write, hadd, raised.injEq] at h
    subst h
    rcases addGroupMember_eq_error hadd with ⟨htaken, rfl⟩ | ⟨hfree, rfl, hmissing⟩
    · refine iff_of_true ?_ (.inl htaken)
      rintro _ _ _ _ ⟨⟩ e' he'
      obtain ⟨user, group, htranslated⟩ := raised_of_taken actor g target now
      rw [htranslated] at he'
      cases he'
      exact ⟨nofun, fun hmisses => absurd htaken hmisses.1⟩
    · obtain ⟨id, htranslated⟩ := raised_of_userMissing actor g target now target.str
      constructor
      · intro hreports
        have hnamed := (hreports actor g target now rfl _ htranslated).2
        refine .inr (Option.isSome_iff_ne_none.mpr fun hnone => ?_)
        cases hnamed ⟨hfree, hnone⟩
      · intro hstands
        have hgroup : (d.groups.get? g).isSome := hstands.resolve_left hfree
        have hsome : d.groups.get? g ≠ none := Option.isSome_iff_ne_none.mp hgroup
        rintro _ _ _ _ ⟨⟩ e' he'
        rw [htranslated] at he'
        cases he'
        exact ⟨fun _ _ => hmissing.resolve_left hsome, fun hmisses => absurd hmisses.2 hsome⟩

theorem groupStands_of_inserted {next : RosterPc}
    (h : ∀ e, ((insertMembership ⟨g, target, now⟩ next).run d).1 ≠ raised e) :
    (addGroupMember actor g target now).GroupStands d := by
  cases hadd : GroupQueries.addGroupMember ⟨g, target, now⟩ d with
  | ok d' => exact .inr (GroupOperation.addGroupMember_eq_ok hadd).2
  | error e => exact absurd (by simp only [insertMembership, write, hadd]) (h e)

theorem Advance.wrote {ls : List (RosterKey × Mode)} {pc pc' : RosterPc} {ws : List RosterWrite}
    (h : Advance d ls pc pc' ws) (hne : ∀ e, pc' ≠ RosterPc.raised e) : pc.wrote ++ ws = pc'.wrote := by
  cases h with
  | raised e => exact absurd rfl (hne e)
  | createGroup | addCreator | addMember | addGroupMember | removeMember | removeGroupMember
  | deleteGroup | listGroupMemberships | deleteGroupRow | deleteUser | other => rfl

end RosterPc

/-! ### Runs -/

namespace RosterSys

variable {τ : Type}

def Wrote (s : RosterSys τ) : Prop :=
  ∀ t x, s.txn t = some x → (∀ e, x.pc ≠ .raised e) → x.writes = x.pc.wrote

/-- The next statement, if one of `add_member` is next, finds the group that it refers to. -/
def GroupStands (s : RosterSys τ) : RosterAct τ → Prop
  | .exec t => ∀ x ∈ s.txn t, x.pc.GroupStands s.db
  | _ => True

instance (s : RosterSys τ) : ∀ a : RosterAct τ, Decidable (s.GroupStands a)
  | .exec t =>
    match h : s.txn t with
    | some x => decidable_of_iff (x.pc.GroupStands s.db) (by simp [GroupStands, h])
    | none => isTrue (by simp [GroupStands, h])
  | .begin .. | .commit _ | .abort _ => instDecidableTrue

/-- A statement of `add_member` that fails names what is missing. -/
def Reports (s s' : RosterSys τ) : RosterAct τ → Prop
  | .exec t => ∀ x ∈ s.txn t, ∀ x' ∈ s'.txn t, ∀ e, x'.pc = .raised e → x.pc.Reports s.db e
  | _ => True

/-- The rows change only by the commit of a call that has not raised. -/
def Spares (s s' : RosterSys τ) (a : RosterAct τ) : Prop :=
  s'.db.memberships = s.db.memberships ∨
    ∃ t x c, a = .commit t ∧ s.txn t = some x ∧ x.pc = .completed c

variable [DecidableEq τ] {s s' : RosterSys τ} {t : τ} {a : RosterAct τ}

theorem preserves_wrote : rosterTransactions.Preserves (Wrote : RosterSys τ → Prop) where
  begin s t c h _ _ := by
    intro u y hy hraised
    rcases Sys.opened_txn_eq_some hy with ⟨rfl, rfl⟩ | ⟨-, hy⟩
    · cases c with
      | group op => cases op <;> rfl
      | deleteAccount | other => rfl
    · exact h u y hy hraised
  exec s t x q h hx hq _ := by
    intro u y hy hraised
    rcases Sys.executed_txn_eq_some hy with ⟨rfl, rfl⟩ | ⟨-, hy⟩
    · have hwrote : x.writes = x.pc.wrote := by
        refine h u x hx fun e he => ?_
        have hcmd : RosterPc.cmd x.pc = .exec q := hq
        rw [he] at hcmd
        cases hcmd
      have hadvance := RosterPc.advance_of_cmd hq (rosterTransactions.applyAll x.writes s.db)
      exact (congrArg (· ++ _) hwrote).trans (hadvance.wrote hraised)
    · exact h u y hy hraised
  commit s t x h _ _ _ := fun u y hy => h u y (Sys.close_txn_eq_some hy).2
  abort s t h := fun u y hy => h u y (Sys.close_txn_eq_some hy).2

theorem spares_step (hs : rosterTransactions.step s a = some s') : s.Spares s' a := by
  rcases Program.step_db hs with hdb | ⟨t, x, rfl, hx, hcommit⟩
  · exact .inl (by rw [hdb])
  · refine .inr ⟨t, x, ?_⟩
    have hcmd : x.pc.cmd = .commit := hcommit
    cases hpc : x.pc with
    | completed c => exact ⟨c, rfl, hx, rfl⟩
    | _ =>
      rw [hpc] at hcmd
      cases hcmd

theorem reports_iff_groupStands (hI : s.Wrote) (hs : rosterTransactions.step s a = some s') :
    s.Reports s' a ↔ s.GroupStands a := by
  cases a with
  | begin | commit | abort => exact Iff.rfl
  | exec t =>
    obtain ⟨⟨pc, ws⟩, q, hx, hq, rfl⟩ := Program.step_exec_eq_some hs
    have hcmd : pc.cmd = .exec q := hq
    have hreports : s.Reports (s.executed t (q.locks (rosterTransactions.applyAll ws s.db))
        ⟨(q.run (rosterTransactions.applyAll ws s.db)).1,
          ws ++ (q.run (rosterTransactions.applyAll ws s.db)).2⟩) (.exec t) ↔
        ∀ e, (q.run (rosterTransactions.applyAll ws s.db)).1 = .raised e → pc.Reports s.db e := by
      have hnext := Function.update_self t (some (⟨(q.run (rosterTransactions.applyAll ws s.db)).1,
        ws ++ (q.run (rosterTransactions.applyAll ws s.db)).2⟩ : Txn RosterWrite RosterPc)) s.txn
      constructor
      · exact fun h e he => h _ hx _ hnext e he
      · intro h x hx' x' hx'' e he
        cases Option.some.inj (hx.symm.trans hx')
        cases Option.some.inj (hnext.symm.trans hx'')
        exact h e he
    have hstands : s.GroupStands (.exec t) ↔ pc.GroupStands s.db := by
      constructor
      · exact fun h => h _ hx
      · intro h x hx'
        cases Option.some.inj (hx.symm.trans hx')
        exact h
    rw [hreports, hstands]
    cases pc with
    | addMember actor g target now =>
      obtain rfl : ws = [] := hI t _ hx nofun
      cases hcmd
      exact iff_of_true (fun e he => RosterPc.reports_addMember he) trivial
    | addGroupMember actor g target now =>
      obtain rfl : ws = [] := hI t _ hx nofun
      cases hcmd
      by_cases hraised : ∃ e, ((RosterPc.insertMembership ⟨g, target, now⟩
          (.completed (.group (.addMember actor g target now)))).run s.db).1 = .raised e
      · obtain ⟨e, he⟩ := hraised
        have hnext : RosterPc.completed (.group (.addMember actor g target now)) ≠ .raised e := nofun
        have hiff := RosterPc.reports_addGroupMember actor hnext he
        refine ⟨fun h => hiff.mp (h e he), fun h e' he' => ?_⟩
        cases he.symm.trans he'
        exact hiff.mpr h
      · have hcompleted := not_exists.mp hraised
        exact iff_of_true (fun e he => absurd he (hcompleted e))
          (RosterPc.groupStands_of_inserted hcompleted)
    | _ => exact iff_of_true (fun _ _ _ _ _ _ hcall => by cases hcall) trivial

omit [DecidableEq τ] in
theorem wrote_init (d : Db) : Wrote ({ db := d } : RosterSys τ) := by
  intro t x hx
  cases hx

/-- In every run, failing calls of `add_member` name what is missing if and only if the group is still
there whenever an insertion checks its foreign keys; and none of them has changed the memberships. -/
theorem add_member_reports_iff (d : Db) (acts : List (RosterAct τ)) (s : RosterSys τ)
    (hrun : run rosterTransactions.step { db := d } acts = some s) :
    (Guarded rosterTransactions.step GroupStands { db := d } acts ↔
      ∀ pre a post (m m' : RosterSys τ), acts = pre ++ a :: post →
        run rosterTransactions.step { db := d } pre = some m →
        rosterTransactions.step m a = some m' → m.Reports m' a) ∧
    ∀ pre a post (m m' : RosterSys τ), acts = pre ++ a :: post →
      run rosterTransactions.step { db := d } pre = some m →
      rosterTransactions.step m a = some m' → m.Spares m' a := by
  have hwrote {pre : List (RosterAct τ)} {m : RosterSys τ}
      (hpre : run rosterTransactions.step { db := d } pre = some m) : m.Wrote :=
    (preserves_wrote.reachable (wrote_init d) ⟨pre, hpre⟩).1
  refine ⟨guarded_iff_forall_split.trans ⟨fun hG pre a post m m' hsplit hpre hs => ?_,
    fun hall pre a post hsplit m hpre => ?_⟩, fun pre a post m m' _ _ hs => spares_step hs⟩
  · exact (reports_iff_groupStands (hwrote hpre) hs).mpr (hG pre a post hsplit m hpre)
  · subst hsplit
    obtain ⟨m₀, hpre₀, hrest⟩ := run_append_eq_some.mp hrun
    obtain rfl := run_det hpre hpre₀
    obtain ⟨m', hs, -⟩ := run_cons_eq_some.mp hrest
    exact (reports_iff_groupStands (hwrote hpre) hs).mp (hall pre a post m m' rfl hpre hs)

end RosterSys

namespace Sample

def circle : Db where
  users := ⟨[⟨⟨1⟩, "ada", "secret", false, 0⟩, ⟨⟨2⟩, "bob", "secret", false, 0⟩],
    show ([⟨1⟩, ⟨2⟩] : List UUID).Nodup by decide⟩
  groups := ⟨[⟨⟨4⟩, "go", ⟨1⟩, 0⟩], List.nodup_singleton _⟩
  memberships := ⟨[⟨⟨4⟩, ⟨1⟩, 0⟩], List.nodup_singleton _⟩

def overtaken (c : TableCall) (statements : ℕ) : List (RosterAct ℕ) :=
  [.begin 0 (.group (.addMember ⟨1⟩ ⟨4⟩ ⟨2⟩ 5)), .exec 0, .begin 1 c] ++
    List.replicate statements (.exec 1) ++ [.commit 1]

end Sample

open RosterSys in
theorem add_member_reports_deleted_account :
    ∃ m m' : RosterSys ℕ,
      run rosterTransactions.step { db := Sample.circle } (Sample.overtaken (.deleteAccount ⟨2⟩) 1) =
        some m ∧
      rosterTransactions.step m (.exec 0) = some m' ∧ m.Reports m' (.exec 0) ∧
      m.Spares m' (.exec 0) := by
  obtain ⟨s, hs⟩ := Option.isSome_iff_exists.mp (show (run rosterTransactions.step
    ({ db := Sample.circle } : RosterSys ℕ)
    (Sample.overtaken (.deleteAccount ⟨2⟩) 1 ++ [.exec 0])).isSome by decide)
  obtain ⟨m, hm, hlast⟩ := run_append_eq_some.mp hs
  have hstep : rosterTransactions.step m (.exec 0) = some s := run_singleton.symm.trans hlast
  obtain ⟨hiff, hspares⟩ := add_member_reports_iff _ _ s hs
  exact ⟨m, s, hm, hstep, hiff.mp (by decide) _ _ [] m s rfl hm hstep, hspares _ _ [] m s rfl hm hstep⟩

/-- The group is deleted, and Bob is reported to be missing. -/
theorem add_member_misreports_deleted_group :
    ∃ m m' : RosterSys ℕ,
      run rosterTransactions.step { db := Sample.circle }
        (Sample.overtaken (.group (.deleteGroup ⟨1⟩ ⟨4⟩)) 3) = some m ∧
      rosterTransactions.step m (.exec 0) = some m' ∧ (m.db.users.get? ⟨2⟩).isSome ∧
      ∃ e id, (m'.txn 0).map (·.pc) = some (.raised e) ∧
        (GroupOperation.addMember ⟨1⟩ ⟨4⟩ ⟨2⟩ 5).raised e = .error (.service (.userNotFound id)) := by
  obtain ⟨m, hm, m', hm', huser, hraised⟩ :
      ∃ m ∈ run rosterTransactions.step ({ db := Sample.circle } : RosterSys ℕ)
          (Sample.overtaken (.group (.deleteGroup ⟨1⟩ ⟨4⟩)) 3),
        ∃ m' ∈ rosterTransactions.step m (.exec 0), (m.db.users.get? ⟨2⟩).isSome ∧
          (m'.txn 0).map (·.pc) = some (.raised (.db (.notFound .user (UUID.str ⟨2⟩)))) := by decide
  exact ⟨m, m', hm, hm', huser, _, _, hraised, rfl⟩

end Messenger
