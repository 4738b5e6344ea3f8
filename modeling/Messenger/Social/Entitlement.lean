import Messenger.Lib.Past
import Messenger.Realtime.Departures
import Messenger.Services.Roster
import Messenger.Social.Confidentiality

/-! Who changes the members of a group: its creator, and each member for themselves. -/

namespace Messenger
open Transition

namespace RosterCall

/-- A call that raises is a step as well. -/
def step (d : Db) (c : RosterCall) : Option Db := some (c.run d).2

def CreatesGroup (a g : UUID) : RosterCall → Prop
  | group (.createGroup a' _ g' _) _ => a' = a ∧ g' = g
  | _ => False

def AddsMember (a g u : UUID) : RosterCall → Prop
  | group (.addMember a' g' u' _) _ => a' = a ∧ g' = g ∧ u' = u
  | _ => False

def RemovesMember (a g u : UUID) : RosterCall → Prop
  | group (.removeMember a' g' u') _ => a' = a ∧ g' = g ∧ u' = u
  | _ => False

def DeletesGroup (a g : UUID) : RosterCall → Prop
  | group (.deleteGroup a' g') _ => a' = a ∧ g' = g
  | _ => False

def DeletesAccount (u : UUID) : RosterCall → Prop
  | deleteAccount id _ => id = u
  | _ => False

end RosterCall

def Db.HasGroup (g : UUID) (d : Db) : Prop := (d.groups.get? g).isSome

/-- The group was made by a call of `a`, or was theirs before the first call, and has existed since. -/
def CreatorOf (d₀ : Db) (calls : List RosterCall) (g a : UUID) : Prop :=
  Since RosterCall.step d₀ calls (fun _ d c => c.CreatesGroup a g ∧ (c.run d).1 = .ok ())
      (Db.HasGroup g) ∨
    (∃ row, d₀.groups.get? g = some row ∧ row.createdBy = a) ∧
      Throughout RosterCall.step d₀ calls (Db.HasGroup g)

structure Creator (d₀ : Db) (calls : List RosterCall) (d : Db) (g a : UUID) : Prop where
  row : ∃ row, d.groups.get? g = some row ∧ row.createdBy = a
  history : CreatorOf d₀ calls g a

structure Entitled (creator : UUID → UUID → Prop) (c : RosterCall) (d : Db)
    (answer : Except Error Unit) (d' : Db) : Prop where
  joined : ∀ g u, ¬ d.Member g u → d'.Member g u →
    c.CreatesGroup u g ∨ ∃ a, creator g a ∧ c.AddsMember a g u
  left : ∀ g u, d.Member g u → ¬ d'.Member g u →
    c.RemovesMember u g u ∨ (∃ a, creator g a ∧ (c.RemovesMember a g u ∨ c.DeletesGroup a g)) ∨
      c.DeletesAccount u
  kept : ∀ g u, d.Member g u → d'.Member g u →
    d'.memberships.get? (g, u) = d.memberships.get? (g, u)
  only : answer = .ok () → ∀ a g u, c.AddsMember a g u ∨ c.RemovesMember a g u →
    ∀ r, (∀ m, r = .membership m → m.pk ≠ (g, u)) → (d'.Has r ↔ d.Has r)
  raised : ∀ e, answer = .error e → d' = d

theorem Reading.getGroupDetails_of_no_fault (a g : UUID) (d : Db) :
    Reading.getGroupDetails a g (fun _ => none) d = GroupService.getGroupDetails a g d := by
  have hreading : Reading.getGroupDetails a g (fun _ => none) d =
      ((GroupQueries.getGroupById g d >>= fun group =>
        (MessageQueries.getMembership g a d).mapError .db >>= fun _ => .ok group).tryCatch
          (handleDbNotFoundError (fun _ => none) (fun _ => none)
            [("actor_id", a.str), ("group_id", g.str)])).tryCatch
        (handleDbConstraintError (fun _ => none) [("actor_id", a.str), ("group_id", g.str)]) := rfl
  rw [hreading]
  unfold GroupService.getGroupDetails
  cases GroupQueries.getGroupById g d with
  | error e =>
    simp only [bind, Except.bind, Except.tryCatch]
    cases (handleDbNotFoundError _ _ _ e : Except Error Group) <;> rfl
  | ok row =>
    cases MessageQueries.getMembership g a d with
    | ok m => rfl
    | error e =>
      simp only [bind, Except.bind, Except.mapError, Except.tryCatch]
      cases (handleDbNotFoundError _ _ _ (.db e) : Except Error Group) <;> rfl

/-! ### What one call does -/

section

variable {c : RosterCall} {d d' : Db} {g u : UUID}

namespace RosterCall

theorem step_of_run {r : Except Error Unit × Db} (h : c.run d = r) : step d c = some r.2 := by
  rw [step, h]

theorem Does.roster_cases (h : c.Does d d') :
    (∃ op f, c = group op f ∧ op.tx d = .ok d') ∨
      (∃ id f, c = deleteAccount id f ∧ d.deleteUser id = .ok d') ∨
      d'.groups = d.groups ∧ d'.memberships = d.memberships := by
  cases c with
  | group op f => exact .inl ⟨op, f, rfl, h⟩
  | deleteAccount id f => exact .inr (.inl ⟨id, f, rfl, h⟩)
  | deactivateAccount id f | reactivateAccount id f =>
    obtain ⟨ws, rfl⟩ := h
    exact .inr (.inr ⟨Write.groups_applyAll ws d, Write.memberships_applyAll ws d⟩)
  | friendship c f =>
    obtain ⟨friendships, rfl⟩ := FriendshipCall.run_frame h
    exact .inr (.inr ⟨rfl, rfl⟩)
  | read c f =>
    obtain rfl := h
    exact .inr (.inr ⟨rfl, rfl⟩)

theorem Does.group_cases {row : Group} (h : c.Does d d') (hrow : d'.groups.get? g = some row) :
    d.groups.get? g = some row ∨ c.CreatesGroup row.createdBy g := by
  rcases h.roster_cases with ⟨op, f, rfl, htx⟩ | ⟨id, f, rfl, hdelete⟩ | ⟨hgroups, -⟩
  · cases op with
    | createGroup creator name g' now =>
      obtain ⟨rfl, -⟩ := GroupOperation.createGroupTx_eq_ok htx
      rw [Table.get?_insertNew, Option.or_eq_some_iff] at hrow
      rcases hrow with hold | ⟨-, hnew⟩
      · exact .inl hold
      · split at hnew
        · next hg =>
          obtain rfl := Option.some.inj hnew
          exact .inr ⟨rfl, hg⟩
        · cases hnew
    | addMember actor g' target now =>
      obtain ⟨rfl, -⟩ := GroupOperation.addMemberTx_eq_ok htx
      exact .inl hrow
    | removeMember actor g' target =>
      obtain rfl := GroupOperation.removeMemberTx_eq_ok htx
      exact .inl hrow
    | deleteGroup actor g' =>
      obtain rfl := GroupOperation.deleteGroupTx_eq_ok htx
      rw [Table.get?_deleteWhere] at hrow
      exact .inl (Option.filter_eq_some_iff.mp hrow).1
  · obtain ⟨-, -, rfl⟩ := Db.deleteUser_eq_ok hdelete
    exact .inl hrow
  · rw [hgroups] at hrow
    exact .inl hrow

theorem Does.only {a : UUID} {r : Row} (h : c.Does d d')
    (hc : c.AddsMember a g u ∨ c.RemovesMember a g u)
    (hr : ∀ m, r = .membership m → m.pk ≠ (g, u)) : d'.Has r ↔ d.Has r := by
  cases c with
  | group op f =>
    cases op with
    | addMember actor g' target now =>
      obtain ⟨-, rfl, rfl⟩ := hc.resolve_right id
      obtain ⟨rfl, -⟩ := GroupOperation.addMemberTx_eq_ok h
      cases r with
      | membership m => exact Table.mem_insertNew_of_ne fun hkey => hr m rfl hkey.symm
      | _ => exact Iff.rfl
    | removeMember actor g' target =>
      obtain ⟨-, rfl, rfl⟩ := hc.resolve_left id
      obtain rfl := GroupOperation.removeMemberTx_eq_ok h
      cases r with
      | membership m =>
        have hkey : decide (m.pk = (g', target)) = false := decide_eq_false (hr m rfl)
        exact Db.mem_deleteWhere.trans (and_iff_left hkey)
      | _ => exact Iff.rfl
    | createGroup | deleteGroup => exact (hc.elim id id).elim
  | deactivateAccount | reactivateAccount | deleteAccount | friendship | read =>
    exact (hc.elim id id).elim

theorem Does.kept (h : c.Does d d') (hold : d.Member g u) (hnew : d'.Member g u) :
    d'.memberships.get? (g, u) = d.memberships.get? (g, u) := by
  obtain ⟨m, hm⟩ := Option.isSome_iff_exists.mp hold
  have hinsert (m' : Membership) : (d.memberships.insertNew m').get? (g, u) = some m := by
    rw [Table.get?_insertNew, hm, Option.some_or]
  have hdelete {p : Membership → Bool} (hstays : ((d.memberships.deleteWhere p).get? (g, u)).isSome) :
      (d.memberships.deleteWhere p).get? (g, u) = some m := by
    obtain ⟨m', hm'⟩ := Option.isSome_iff_exists.mp hstays
    have hstored := (Option.filter_eq_some_iff.mp ((Table.get?_deleteWhere ..).symm.trans hm')).1
    rw [hm', ← hstored, hm]
  rw [hm]
  rcases h.roster_cases with ⟨op, f, rfl, htx⟩ | ⟨id, f, rfl, hdeleted⟩ | ⟨-, hmemberships⟩
  · cases op with
    | createGroup creator name g' now =>
      obtain ⟨rfl, -⟩ := GroupOperation.createGroupTx_eq_ok htx
      exact hinsert _
    | addMember actor g' target now =>
      obtain ⟨rfl, -⟩ := GroupOperation.addMemberTx_eq_ok htx
      exact hinsert _
    | removeMember actor g' target =>
      obtain rfl := GroupOperation.removeMemberTx_eq_ok htx
      exact hdelete hnew
    | deleteGroup actor g' =>
      obtain rfl := GroupOperation.deleteGroupTx_eq_ok htx
      exact hdelete hnew
  · obtain ⟨-, -, rfl⟩ := Db.deleteUser_eq_ok hdeleted
    exact hdelete hnew
  · rw [hmemberships, hm]

theorem Does.joined (h : c.Does d d') (hold : ¬ d.Member g u) (hnew : d'.Member g u) :
    c.CreatesGroup u g ∨
      ∃ row, d.groups.get? g = some row ∧ c.AddsMember row.createdBy g u := by
  rcases h.roster_cases with ⟨op, f, rfl, htx⟩ | ⟨id, f, rfl, hdelete⟩ | ⟨-, hmemberships⟩
  · rcases (GroupOperation.member_iff htx).mp hnew with ⟨hmember, -⟩ | hadds
    · exact absurd hmember hold
    · cases op with
      | createGroup creator name g' now => exact .inl hadds
      | addMember actor g' target now =>
        obtain ⟨rfl, rfl⟩ := hadds
        -- the row of the group is the one that the actor was checked against
        obtain ⟨row, hrow, rfl⟩ := GroupOperation.creator_of_addMemberTx htx
        exact .inr ⟨row, hrow, rfl, rfl, rfl⟩
      | removeMember | deleteGroup => exact hadds.elim
  · exact absurd ((Hub.member_deleteUser hdelete).mp hnew).1 hold
  · rw [Db.Member, hmemberships] at hnew
    exact absurd hnew hold

theorem Does.left (h : c.Does d d') (hold : d.Member g u) (hnew : ¬ d'.Member g u) :
    c.RemovesMember u g u ∨
      (∃ row, d.groups.get? g = some row ∧
        (c.RemovesMember row.createdBy g u ∨ c.DeletesGroup row.createdBy g)) ∨
      c.DeletesAccount u := by
  rcases h.roster_cases with ⟨op, f, rfl, htx⟩ | ⟨id, f, rfl, hdelete⟩ | ⟨-, hmemberships⟩
  · have hremoves : op.Removes u g := by
      by_contra hkept
      exact hnew ((GroupOperation.member_iff htx).mpr (.inl ⟨hold, hkept⟩))
    cases op with
    | removeMember actor g' target =>
      obtain ⟨rfl, rfl⟩ := hremoves
      obtain ⟨row, hrow, -, hactor⟩ := GroupOperation.actor_of_removeMemberTx htx
      rcases hactor with rfl | rfl
      · -- a member who leaves
        exact .inl ⟨rfl, rfl, rfl⟩
      · exact .inr (.inl ⟨row, hrow, .inl ⟨rfl, rfl, rfl⟩⟩)
    | deleteGroup actor g' =>
      obtain rfl : g' = g := hremoves
      obtain ⟨row, hrow, rfl⟩ := GroupOperation.creator_of_deleteGroupTx htx
      exact .inr (.inl ⟨row, hrow, .inr ⟨rfl, rfl⟩⟩)
    | createGroup | addMember => exact hremoves.elim
  · refine .inr (.inr (not_not.mp fun hne => hnew ?_))
    exact (Hub.member_deleteUser hdelete).mpr ⟨hold, fun heq => hne heq.symm⟩
  · rw [Db.Member, hmemberships] at hnew
    exact absurd hold hnew

end RosterCall
end

/-! ### Runs -/

section

variable {d₀ d d' : Db} {calls : List RosterCall} {c : RosterCall} {g a : UUID}

theorem CreatorOf.snoc (h : CreatorOf d₀ calls g a) (hr : run RosterCall.step d₀ calls = some d)
    (hs : RosterCall.step d c = some d') (hg : d'.HasGroup g) : CreatorOf d₀ (calls ++ [c]) g a := by
  rcases h with hsince | ⟨hrow, hall⟩
  · exact .inl (hsince.snoc hr hs hg)
  · exact .inr ⟨hrow, hall.snoc hr hs hg⟩

theorem creatorOf_of_run (h : run RosterCall.step d₀ calls = some d) :
    ∀ g row, d.groups.get? g = some row → CreatorOf d₀ calls g row.createdBy := by
  refine run_history (I := fun calls d => ∀ g row, d.groups.get? g = some row →
    CreatorOf d₀ calls g row.createdBy) ?_ ?_ h
  · intro g row hrow
    exact .inr ⟨⟨row, hrow, rfl⟩, throughout_nil (Option.isSome_of_eq_some hrow)⟩
  · intro calls d c d' hr hinv hs g row hrow
    have hg : d'.HasGroup g := Option.isSome_of_eq_some hrow
    have hsnoc (hold : d.groups.get? g = some row) : CreatorOf d₀ (calls ++ [c]) g row.createdBy :=
      (hinv g row hold).snoc hr hs hg
    rcases c.run_cases d with ⟨d₁, hrun, hdoes⟩ | ⟨e, hrun⟩
    · obtain rfl := Option.some.inj ((RosterCall.step_of_run hrun).symm.trans hs)
      rcases hdoes.group_cases hrow with hold | hcreates
      · exact hsnoc hold
      · exact .inl (since_of_step hr hs ⟨hcreates, congrArg Prod.fst hrun⟩ hg)
    · obtain rfl := Option.some.inj ((RosterCall.step_of_run hrun).symm.trans hs)
      exact hsnoc hrow

/-- Only the entitled change who belongs to a group. -/
theorem only_entitled_change_groups (d₀ : Db) (calls : List RosterCall) (d : Db)
    (h : run RosterCall.step d₀ calls = some d) (c : RosterCall) :
    Entitled (Creator d₀ calls d) c d (c.run d).1 (c.run d).2 := by
  have hcreator {g : UUID} {row : Group} (hrow : d.groups.get? g = some row) :
      Creator d₀ calls d g row.createdBy :=
    ⟨⟨row, hrow, rfl⟩, creatorOf_of_run h g row hrow⟩
  rcases c.run_cases d with ⟨d', hrun, hdoes⟩ | ⟨e, hrun⟩
  · rw [hrun]
    have hanswers (e : Error) : ¬ (Except.ok () : Except Error Unit) = .error e := by simp
    refine ⟨fun g u hold hnew => ?_, fun g u hold hnew => ?_, fun g u => hdoes.kept,
      fun _ a g u hc r hr => hdoes.only hc hr, fun e he => absurd he (hanswers e)⟩
    · exact (hdoes.joined hold hnew).imp_right fun ⟨row, hrow, hadds⟩ => ⟨_, hcreator hrow, hadds⟩
    · exact (hdoes.left hold hnew).imp_right <| Or.imp_left fun ⟨row, hrow, hremoves⟩ =>
        ⟨_, hcreator hrow, hremoves⟩
  · rw [hrun]
    have hraises : ¬ (Except.error e : Except Error Unit) = .ok () := by simp
    exact ⟨fun g u hold hnew => absurd hnew hold, fun g u hold hnew => absurd hold hnew,
      fun _ _ _ _ => rfl, fun hok => absurd hok hraises, fun _ _ => rfl⟩

end

namespace Sample

def founding : List RosterCall :=
  [.group (.createGroup ada "go" ⟨4⟩ 0) fun _ => none, .group (.addMember ada ⟨4⟩ ben 0) fun _ => none]

end Sample
open Sample

theorem only_entitled_change_groups_leave :
    ∃ d, run RosterCall.step club founding = some d ∧ d.Member ⟨4⟩ ben ∧
      Entitled (Creator club founding d) (.group (.removeMember ben ⟨4⟩ ben) fun _ => none) d
        (RosterCall.run d (.group (.removeMember ben ⟨4⟩ ben) fun _ => none)).1
        (RosterCall.run d (.group (.removeMember ben ⟨4⟩ ben) fun _ => none)).2 := by
  obtain ⟨d, hd, hmember⟩ : ∃ d ∈ run RosterCall.step club founding, d.Member ⟨4⟩ ben := by decide
  exact ⟨d, hd, hmember, only_entitled_change_groups club founding d hd _⟩

end Messenger
