import Messenger.Services.Governance

/-! Every group keeps its creator as a member. The creator cannot leave, the row of a user who has created
a group cannot be deleted, and no id of a group is drawn a second time, so that the creator a call has
read is the creator still when it commits. -/

namespace Messenger
open SharedLocks

/-- The creator of the group is an existing user and a member, and may administer and delete it. -/
structure Db.Administered (d : Db) (row : Group) : Prop where
  creator : (d.users.get? row.createdBy).isSome
  member : d.Member row.groupId row.createdBy
  admits : ∀ u now, (d.users.get? u).isSome → ¬ d.Member row.groupId u →
    ∃ d', (GroupOperation.addMember row.createdBy row.groupId u now).tx d = .ok d'
  deletable : ∃ d', (GroupOperation.deleteGroup row.createdBy row.groupId).tx d = .ok d'

def Drawn (begun : List TableCall) (g a : UUID) : Prop :=
  ∃ name now, .group (.createGroup a name g now) ∈ begun

namespace RosterPc

inductive Advance (d : Db) (ls : List (RosterKey × Mode)) :
    RosterPc → RosterPc → List RosterWrite → Prop where
  | raised {pc : RosterPc} (e : Error) : Advance d ls pc (.raised e) []
  | createGroup {group : Group} (hcreator : (d.users.get? group.createdBy).isSome)
      (hlock : (.user group.createdBy, .shared) ∈ ls) :
    Advance d ls (.createGroup group) (.addCreator group) [.insertGroup group]
  | addCreator {group : Group} :
    Advance d ls (.addCreator group)
      (.completed (.group (.createGroup group.createdBy group.name group.groupId group.createdAt)))
      [.insertMembership ⟨group.groupId, group.createdBy, group.createdAt⟩]
  | addMember {actor g target : UUID} {now : Timestamp} :
    Advance d ls (.addMember actor g target now) (.addGroupMember actor g target now) []
  | addGroupMember {actor g target : UUID} {now : Timestamp} :
    Advance d ls (.addGroupMember actor g target now)
      (.completed (.group (.addMember actor g target now))) [.insertMembership ⟨g, target, now⟩]
  | removeMember {actor g target : UUID} {row : Group} (hrow : d.groups.get? g = some row)
      (hcreator : target ≠ row.createdBy) :
    Advance d ls (.removeMember actor g target) (.removeGroupMember actor g target) []
  | removeGroupMember {actor g target : UUID} :
    Advance d ls (.removeGroupMember actor g target)
      (.completed (.group (.removeMember actor g target))) [.deleteMembership (g, target)]
  | deleteGroup {actor g : UUID} :
    Advance d ls (.deleteGroup actor g) (.listGroupMemberships actor g) []
  | listGroupMemberships {actor g : UUID} :
    Advance d ls (.listGroupMemberships actor g) (.deleteGroupRow actor g) []
  | deleteGroupRow {actor g : UUID} :
    Advance d ls (.deleteGroupRow actor g) (.completed (.group (.deleteGroup actor g)))
      [.deleteGroup g]
  | deleteUser {id : UUID} (hgroups : ∀ row ∈ d.groups.rows, row.createdBy ≠ id)
      (hlock : (.user id, .exclusive) ∈ ls) :
    Advance d ls (.deleteUser id) (.completed (.deleteAccount id)) [.deleteUser id]
  | other {ws : List OtherWrite} :
    Advance d ls (.other ws) (.completed (.other ws)) (ws.map .other)

variable {pc : RosterPc} {q : RosterStmt} {d : Db}

theorem advance_write {q : Db → Except Error Db} {locks : Db → List (RosterKey × Mode)}
    {w : RosterWrite} {next : RosterPc} (d : Db)
    (h : ∀ d', q d = .ok d' → Advance d (locks d) pc next [w]) :
    Advance d (locks d) pc ((write q locks w next).run d).1 ((write q locks w next).run d).2 := by
  cases hq : q d with
  | ok d' =>
    rw [run_write hq]
    exact h d' hq
  | error e =>
    have hrun : (write q locks w next).run d = (.raised e, []) := by simp only [write, hq]
    rw [hrun]
    exact .raised e

theorem advance_select {α : Type} {q : Db → Except Error α} {next : α → RosterPc} (d : Db)
    (h : ∀ a, q d = .ok a → Advance d [] pc (next a) []) :
    Advance d [] pc ((select q next).run d).1 ((select q next).run d).2 := by
  cases hq : q d with
  | ok a =>
    rw [run_select hq]
    exact h a hq
  | error e =>
    have hrun : (select q next).run d = (.raised e, []) := by simp only [select, hq]
    rw [hrun]
    exact .raised e

theorem advance_of_cmd (h : pc.cmd = .exec q) (d : Db) :
    Advance d (q.locks d) pc (q.run d).1 (q.run d).2 := by
  cases pc with
  | createGroup group =>
    cases h
    exact advance_write d fun d' hok =>
      .createGroup (GroupOperation.createGroup_eq_ok hok).1
        (List.mem_cons_of_mem _ (List.mem_cons_self ..))
  | addCreator group =>
    cases h
    exact advance_write d fun _ _ => .addCreator
  | addMember actor g target now =>
    cases h
    refine advance_select d fun row _ => ?_
    split
    · exact .raised _
    · exact .addMember
  | addGroupMember actor g target now =>
    cases h
    exact advance_write d fun _ _ => .addGroupMember
  | removeMember actor g target =>
    cases h
    refine advance_select d fun row hrow => ?_
    split
    · exact .raised _
    · next hcreator =>
      split
      · exact .raised _
      · exact .removeMember (GroupOperation.getGroupById_eq_ok.mp hrow) hcreator
  | removeGroupMember actor g target =>
    cases h
    exact advance_write d fun _ _ => .removeGroupMember
  | deleteGroup actor g =>
    cases h
    refine advance_select d fun row _ => ?_
    split
    · exact .raised _
    · exact .deleteGroup
  | listGroupMemberships actor g =>
    cases h
    exact advance_select d fun _ _ => .listGroupMemberships
  | deleteGroupRow actor g =>
    cases h
    exact advance_write d fun _ _ => .deleteGroupRow
  | deleteUser id =>
    cases h
    refine advance_write d fun d' hok => .deleteUser ?_ (List.mem_cons_self ..)
    cases hdelete : d.deleteUser id with
    | ok d₁ => exact (Db.deleteUser_eq_ok hdelete).2.1
    | error e =>
      rw [hdelete] at hok
      cases hok
  | other ws =>
    cases h
    exact .other
  | completed c => cases h
  | raised e => cases h

end RosterPc

/-! ### The invariant -/

variable {τ : Type}

namespace RosterSys

def Shares (s : RosterSys τ) (t : τ) (id : UUID) : Prop :=
  (t, .shared) ∈ s.holders (.user id) ∧ (s.db.users.get? id).isSome

def Excludes (s : RosterSys τ) (t : τ) (id : UUID) : Prop :=
  (t, .exclusive) ∈ s.holders (.user id) ∧ ∀ row ∈ s.db.groups.rows, row.createdBy ≠ id

def Stands (s : RosterSys τ) (t : τ) : RosterPc → Prop
  | .createGroup group => Drawn s.begun group.groupId group.createdBy
  | .addCreator group => Drawn s.begun group.groupId group.createdBy ∧ s.Shares t group.createdBy
  | .removeGroupMember _ g target => ∃ a, Drawn s.begun g a ∧ target ≠ a
  | .completed (.group (.createGroup a _ g _)) => Drawn s.begun g a ∧ s.Shares t a
  | .completed (.group (.removeMember _ g target)) => ∃ a, Drawn s.begun g a ∧ target ≠ a
  | .completed (.deleteAccount id) => s.Excludes t id
  | _ => True

end RosterSys

structure AdminInv (s : RosterSys τ) : Prop where
  drawn : ∀ g a a', Drawn s.begun g a → Drawn s.begun g a' → a = a'
  groups : ∀ g row, s.db.groups.get? g = some row → Drawn s.begun g row.createdBy ∧
    (s.db.users.get? row.createdBy).isSome ∧ s.db.Member g row.createdBy
  stands : ∀ t x, s.txn t = some x → s.Stands t x.pc
  wrote : ∀ t x, s.txn t = some x → (∀ e, x.pc ≠ .raised e) → x.writes = x.pc.wrote

variable {s s' : RosterSys τ} {t : τ} {pc : RosterPc}

theorem RosterSys.Stands.frame (h : s.Stands t pc)
    (hbegun : ∀ g a, Drawn s.begun g a → Drawn s'.begun g a)
    (hshares : ∀ id, s.Shares t id → s'.Shares t id)
    (hexcludes : ∀ id, s.Excludes t id → s'.Excludes t id) : s'.Stands t pc := by
  cases pc with
  | createGroup group => exact hbegun _ _ h
  | addCreator group => exact ⟨hbegun _ _ h.1, hshares _ h.2⟩
  | removeGroupMember actor g target =>
    obtain ⟨a, ha, hne⟩ := h
    exact ⟨a, hbegun _ _ ha, hne⟩
  | completed c =>
    cases c with
    | group op =>
      cases op with
      | createGroup a name g now => exact ⟨hbegun _ _ h.1, hshares _ h.2⟩
      | removeMember actor g target =>
        obtain ⟨a, ha, hne⟩ := h
        exact ⟨a, hbegun _ _ ha, hne⟩
      | addMember | deleteGroup => trivial
    | deleteAccount id => exact hexcludes _ h
    | other ws => trivial
  | _ => trivial

variable [DecidableEq τ]

theorem drawn_cons {begun : List TableCall} {c : TableCall} {g a : UUID} :
    Drawn (c :: begun) g a ↔ (∃ name now, c = .group (.createGroup a name g now)) ∨ Drawn begun g a := by
  constructor
  · rintro ⟨name, now, hmem⟩
    rcases List.mem_cons.mp hmem with rfl | hold
    · exact .inl ⟨name, now, rfl⟩
    · exact .inr ⟨name, now, hold⟩
  · rintro (⟨name, now, rfl⟩ | ⟨name, now, hold⟩)
    · exact ⟨name, now, List.mem_cons_self ..⟩
    · exact ⟨name, now, List.mem_cons_of_mem _ hold⟩

theorem not_drawn_of_fresh {begun : List TableCall} {g a a' : UUID} {name : String} {now : Timestamp}
    (h : TableCall.fresh begun (.group (.createGroup a name g now)) = true) : ¬ Drawn begun g a' := by
  rintro ⟨name', now', hmem⟩
  have hnot := List.all_eq_true.mp h _ hmem
  simp [TableCall.draws] at hnot

theorem AdminInv.begin {c : TableCall} (h : AdminInv s) (hfresh : TableCall.fresh s.begun c = true) :
    AdminInv (s.opened t c (RosterPc.entry c)) := by
  have hbegun {g a : UUID} (hdrawn : Drawn s.begun g a) : Drawn (c :: s.begun) g a :=
    drawn_cons.mpr (.inr hdrawn)
  refine ⟨fun g a a' ha ha' => ?_, fun g row hrow => ?_, fun u y hy => ?_, fun u y hy hraised => ?_⟩
  · rcases drawn_cons.mp ha with ⟨name, now, rfl⟩ | hold
    · rcases drawn_cons.mp ha' with ⟨name', now', heq⟩ | hold'
      · cases heq
        rfl
      · exact absurd hold' (not_drawn_of_fresh hfresh)
    · rcases drawn_cons.mp ha' with ⟨name', now', rfl⟩ | hold'
      · exact absurd hold (not_drawn_of_fresh hfresh)
      · exact h.drawn g a a' hold hold'
  · exact (h.groups g row hrow).imp_left hbegun
  · rcases Sys.opened_txn_eq_some hy with ⟨rfl, rfl⟩ | ⟨-, hy⟩
    · cases c with
      | group op =>
        cases op with
        | createGroup a name g now => exact drawn_cons.mpr (.inl ⟨name, now, rfl⟩)
        | addMember | removeMember | deleteGroup => trivial
      | deleteAccount | other => trivial
    · exact (h.stands u y hy).frame (fun _ _ => hbegun) (fun _ => id) (fun _ => id)
  · rcases Sys.opened_txn_eq_some hy with ⟨rfl, rfl⟩ | ⟨-, hy⟩
    · cases c with
      | group op => cases op <;> rfl
      | deleteAccount | other => rfl
    · exact h.wrote u y hy hraised

theorem AdminInv.exec {x : Txn RosterWrite RosterPc} {q : RosterStmt} (h : AdminInv s)
    (hx : s.txn t = some x) (hq : x.pc.cmd = .exec q) :
    AdminInv (s.executed t (q.locks (rosterTransactions.applyAll x.writes s.db))
      ⟨(q.run (rosterTransactions.applyAll x.writes s.db)).1,
        x.writes ++ (q.run (rosterTransactions.applyAll x.writes s.db)).2⟩) := by
  obtain ⟨pc, ws⟩ := x
  have hstands := h.stands t _ hx
  have hwrote : ws = pc.wrote := by
    refine h.wrote t _ hx fun e he => ?_
    obtain rfl : pc = .raised e := he
    cases hq
  have hadvance := RosterPc.advance_of_cmd hq (rosterTransactions.applyAll ws s.db)
  dsimp only at hstands hadvance ⊢
  generalize q.locks (rosterTransactions.applyAll ws s.db) = ls at hadvance ⊢
  generalize (q.run (rosterTransactions.applyAll ws s.db)).1 = pc' at hadvance ⊢
  generalize (q.run (rosterTransactions.applyAll ws s.db)).2 = ws' at hadvance ⊢
  subst hwrote
  have hheld {u : τ} {k : RosterKey} {m : Mode} (hold : (u, m) ∈ s.holders k) :
      (u, m) ∈ (s.executed t ls ⟨pc', pc.wrote ++ ws'⟩).holders k :=
    Sys.mem_holders_executed.mpr (.inr hold)
  have hshares {u : τ} {id : UUID} (hs : s.Shares u id) :
      RosterSys.Shares (s.executed t ls ⟨pc', pc.wrote ++ ws'⟩) u id := ⟨hheld hs.1, hs.2⟩
  have hexcludes {u : τ} {id : UUID} (hs : s.Excludes u id) :
      RosterSys.Excludes (s.executed t ls ⟨pc', pc.wrote ++ ws'⟩) u id := ⟨hheld hs.1, hs.2⟩
  have hnew : RosterSys.Stands (s.executed t ls ⟨pc', pc.wrote ++ ws'⟩) t pc' ∧
      ((∀ e, pc' ≠ .raised e) → pc.wrote ++ ws' = pc'.wrote) := by
    cases hadvance with
    | raised e => exact ⟨trivial, fun hne => absurd rfl (hne e)⟩
    | createGroup hcreator hlock =>
      exact ⟨⟨hstands, Sys.mem_holders_executed.mpr (.inl ⟨.shared, hlock, rfl⟩), hcreator⟩,
        fun _ => rfl⟩
    | addCreator => exact ⟨⟨hstands.1, hshares hstands.2⟩, fun _ => rfl⟩
    | removeMember hrow hcreator =>
      exact ⟨⟨_, (h.groups _ _ hrow).1, hcreator⟩, fun _ => rfl⟩
    | removeGroupMember => exact ⟨hstands, fun _ => rfl⟩
    | deleteUser hgroups hlock =>
      exact ⟨⟨Sys.mem_holders_executed.mpr (.inl ⟨.exclusive, hlock, rfl⟩), hgroups⟩, fun _ => rfl⟩
    | addMember | addGroupMember | deleteGroup | listGroupMemberships | deleteGroupRow | other =>
      exact ⟨trivial, fun _ => rfl⟩
  refine ⟨h.drawn, h.groups, fun u y hy => ?_, fun u y hy hraised => ?_⟩
  · rcases Sys.executed_txn_eq_some hy with ⟨rfl, rfl⟩ | ⟨-, hy⟩
    · exact hnew.1
    · exact (h.stands u y hy).frame (fun _ _ => id) (fun _ => hshares) (fun _ => hexcludes)
  · rcases Sys.executed_txn_eq_some hy with ⟨rfl, rfl⟩ | ⟨-, hy⟩
    · exact hnew.2 hraised
    · exact h.wrote u y hy hraised

theorem AdminInv.abort (h : AdminInv s) : AdminInv (s.close t s.db) := by
  refine ⟨h.drawn, h.groups, fun u y hy => ?_, fun u y hy => ?_⟩
  · obtain ⟨hne, hy⟩ := Sys.close_txn_eq_some hy
    have hheld {k : RosterKey} {m : Mode} (hold : (u, m) ∈ s.holders k) :
        (u, m) ∈ (s.close t s.db).holders k := Sys.mem_holders_close.mpr ⟨hold, hne⟩
    exact (h.stands u y hy).frame (fun _ _ => id) (fun _ hs => ⟨hheld hs.1, hs.2⟩)
      fun _ hs => ⟨hheld hs.1, hs.2⟩
  · exact h.wrote u y (Sys.close_txn_eq_some hy).2

/-! ### Commits -/

section

variable {d : Db}

theorem OtherWrite.apply_frame (w : OtherWrite) (d : Db) :
    (w.apply d).groups = d.groups ∧ (w.apply d).memberships = d.memberships ∧
      ∀ id, (d.users.get? id).isSome → ((w.apply d).users.get? id).isSome := by
  cases w with
  | auth w =>
    exact ⟨Write.groups_applyAll [w] d, Write.memberships_applyAll [w] d,
      fun _ => Write.isSome_user_applyAll [w]⟩
  | friendship w =>
    obtain ⟨friendships, heq⟩ := FriendshipWrite.applyAll_eq [w] d
    have happly : (OtherWrite.friendship w).apply d = { d with friendships } := heq
    rw [happly]
    exact ⟨rfl, rfl, fun _ => id⟩
  | directMessage m | groupMessage m => exact ⟨rfl, rfl, fun _ => id⟩

theorem OtherWrite.applyAll_frame (ws : List OtherWrite) (d : Db) :
    (rosterTransactions.applyAll (ws.map .other) d).groups = d.groups ∧
      (rosterTransactions.applyAll (ws.map .other) d).memberships = d.memberships ∧
        ∀ id, (d.users.get? id).isSome →
          ((rosterTransactions.applyAll (ws.map .other) d).users.get? id).isSome := by
  induction ws generalizing d with
  | nil => exact ⟨rfl, rfl, fun _ => id⟩
  | cons w ws ih =>
    obtain ⟨hgroups, hmemberships, husers⟩ := w.apply_frame d
    obtain ⟨hgroups', hmemberships', husers'⟩ := ih (w.apply d)
    exact ⟨hgroups'.trans hgroups, hmemberships'.trans hmemberships, fun id hid => husers' id (husers id hid)⟩

theorem TableCall.users_commit {c : TableCall} {id : UUID} (h : (d.users.get? id).isSome)
    (hc : c ≠ .deleteAccount id) :
    ((rosterTransactions.applyAll c.writes d).users.get? id).isSome := by
  cases c with
  | group op => cases op <;> exact h
  | other ws => exact (OtherWrite.applyAll_frame ws d).2.2 id h
  | deleteAccount id' =>
    obtain ⟨u, hu⟩ := Option.isSome_iff_exists.mp h
    have hid : u.userId = id := Table.key_of_get? hu
    have hne : u.userId ≠ id' := fun heq =>
      hc (congrArg TableCall.deleteAccount (heq.symm.trans hid))
    show ((d.users.deleteWhere (·.userId = id')).get? id).isSome
    rw [Table.get?_deleteWhere, hu, Option.filter_some]
    simp [hne]

theorem TableCall.groups_commit {c : TableCall} {g : UUID} {row : Group}
    (h : (rosterTransactions.applyAll c.writes d).groups.get? g = some row) :
    d.groups.get? g = some row ∧ (∀ actor, c ≠ .group (.deleteGroup actor g)) ∨
      ∃ name now, c = .group (.createGroup row.createdBy name g now) := by
  cases c with
  | group op =>
    cases op with
    | createGroup creator name g' now =>
      have hinsert : (d.groups.insertNew ⟨g', name, creator, now⟩).get? g = some row := h
      rw [Table.get?_insertNew, Option.or_eq_some_iff] at hinsert
      rcases hinsert with hold | ⟨-, hnew⟩
      · exact .inl ⟨hold, by simp⟩
      · split at hnew
        · next hg =>
          obtain rfl := Option.some.inj hnew
          obtain rfl : g' = g := hg
          exact .inr ⟨name, now, rfl⟩
        · cases hnew
    | deleteGroup actor g' =>
      have hdelete : (d.groups.deleteWhere (·.groupId = g')).get? g = some row := h
      rw [Table.get?_deleteWhere, Option.filter_eq_some_iff] at hdelete
      obtain ⟨hold, hkeep⟩ := hdelete
      have hid : row.groupId = g := Table.key_of_get? hold
      refine .inl ⟨hold, fun actor' heq => ?_⟩
      cases heq
      simp [hid] at hkeep
    | addMember | removeMember => exact .inl ⟨h, by simp⟩
  | other ws =>
    rw [TableCall.writes, (OtherWrite.applyAll_frame ws d).1] at h
    exact .inl ⟨h, by simp⟩
  | deleteAccount id => exact .inl ⟨h, by simp⟩

theorem Db.Member.deleteWhere {g u : UUID} {p : Membership → Bool} (h : d.Member g u)
    (hp : ∀ m : Membership, m.pk = (g, u) → p m = false) :
    ((d.memberships.deleteWhere p).get? (g, u)).isSome := by
  obtain ⟨m, hm⟩ := Option.isSome_iff_exists.mp h
  rw [Table.get?_deleteWhere, hm, Option.filter_some, hp m (Table.key_of_get? hm)]
  rfl

theorem TableCall.member_commit {c : TableCall} {g u : UUID} (h : d.Member g u)
    (hremove : ∀ actor, c ≠ .group (.removeMember actor g u))
    (hdelete : ∀ actor, c ≠ .group (.deleteGroup actor g)) (haccount : c ≠ .deleteAccount u) :
    (rosterTransactions.applyAll c.writes d).Member g u := by
  have hinsert (m : Membership) : ((d.memberships.insertNew m).get? (g, u)).isSome :=
    GroupOperation.member_insertNew.mpr (.inl h)
  cases c with
  | group op =>
    cases op with
    | createGroup creator name g' now => exact hinsert ⟨g', creator, now⟩
    | addMember actor g' target now => exact hinsert ⟨g', target, now⟩
    | removeMember actor g' target =>
      refine h.deleteWhere fun m hm => decide_eq_false fun hpk => ?_
      obtain ⟨rfl, rfl⟩ := Prod.mk.inj (hpk.symm.trans hm)
      exact hremove actor rfl
    | deleteGroup actor g' =>
      refine h.deleteWhere fun m hm => decide_eq_false fun hg => ?_
      obtain rfl : g' = g := hg.symm.trans (Prod.mk.inj hm).1
      exact hdelete actor rfl
  | other ws =>
    rw [TableCall.writes, Db.Member, (OtherWrite.applyAll_frame ws d).2.1]
    exact h
  | deleteAccount id =>
    refine h.deleteWhere fun m hm => decide_eq_false fun hid => ?_
    obtain rfl : id = u := hid.symm.trans (Prod.mk.inj hm).2
    exact haccount rfl

end

theorem AdminInv.commit {x : Txn RosterWrite RosterPc} (h : AdminInv s) (hc : s.Compatible)
    (hx : s.txn t = some x) (hq : x.pc.cmd = .commit) :
    AdminInv (s.close t (rosterTransactions.applyAll x.writes s.db)) := by
  obtain ⟨pc, ws⟩ := x
  obtain ⟨c, rfl⟩ : ∃ c, pc = .completed c := by
    cases pc with
    | completed c => exact ⟨c, rfl⟩
    | _ => cases hq
  have hstands : s.Stands t (.completed c) := h.stands t _ hx
  obtain rfl : ws = c.writes := h.wrote t _ hx (by simp)
  refine ⟨h.drawn, fun g row hrow => ?_, fun u y hy => ?_, fun u y hy => ?_⟩
  · rcases TableCall.groups_commit hrow with ⟨hold, hkept⟩ | ⟨name, now, rfl⟩
    · obtain ⟨hdrawn, huser, hmember⟩ := h.groups g row hold
      -- the account of a creator is not deleted
      have haccount : c ≠ .deleteAccount row.createdBy := by
        rintro rfl
        exact hstands.2 row (Table.get?_eq_some.mp hold).1 rfl
      refine ⟨hdrawn, TableCall.users_commit huser haccount,
        TableCall.member_commit hmember (fun actor => ?_) hkept haccount⟩
      rintro rfl
      -- the removal has found its target not to be the creator, of whom there is one for the id
      obtain ⟨a, ha, hne⟩ := hstands
      exact hne (h.drawn g _ _ hdrawn ha)
    · obtain ⟨hdrawn, -, huser⟩ := hstands
      exact ⟨hdrawn, huser, GroupOperation.member_insertNew.mpr (.inr ⟨rfl, rfl⟩)⟩
  · obtain ⟨hne, hy⟩ := Sys.close_txn_eq_some hy
    have hheld {k : RosterKey} {m : Mode} (hold : (u, m) ∈ s.holders k) :
        (u, m) ∈ (s.close t (rosterTransactions.applyAll c.writes s.db)).holders k :=
      Sys.mem_holders_close.mpr ⟨hold, hne⟩
    refine (h.stands u y hy).frame (fun _ _ => id) (fun id hs => ⟨hheld hs.1, ?_⟩)
      fun id hs => ⟨hheld hs.1, fun row hrow hid => ?_⟩
    · -- a shared lock on the user's row keeps the deletion of the account out
      refine TableCall.users_commit hs.2 ?_
      rintro rfl
      exact hne (hc.eq_of_exclusive hstands.1 hs.1).symm
    · -- no group is made for a user whose row another transaction is about to delete
      have hget : (rosterTransactions.applyAll c.writes s.db).groups.get? row.groupId = some row :=
        Table.get?_eq_some.mpr ⟨hrow, rfl⟩
      rcases TableCall.groups_commit hget with ⟨hold, -⟩ | ⟨name, now, rfl⟩
      · exact hs.2 row (Table.get?_eq_some.mp hold).1 hid
      · subst hid
        exact hne (hc.eq_of_exclusive hs.1 hstands.2.1)
  · exact h.wrote u y (Sys.close_txn_eq_some hy).2

theorem preserves_adminInv : rosterTransactions.Preserves (AdminInv : RosterSys τ → Prop) where
  begin _ _ _ h _ hfresh := h.begin hfresh
  exec _ _ _ _ h hx hq _ := h.exec hx hq
  commit _ _ _ h hc hx hq := h.commit hc hx hq
  abort _ _ h := h.abort

omit [DecidableEq τ] in
theorem adminInv_init : AdminInv ({ db := {} } : RosterSys τ) where
  drawn _ _ _ h _ := by
    obtain ⟨_, _, hmem⟩ := h
    cases hmem
  groups _ _ h := by cases h
  stands _ _ h := by cases h
  wrote _ _ h := by cases h

/-! ### What the creator may do -/

section

variable {d : Db} {g u : UUID} {row : Group} {now : Timestamp}

theorem exists_addMember (h : d.groups.get? g = some row) (hu : (d.users.get? u).isSome)
    (hfresh : ¬ d.Member g u) :
    ∃ d', (GroupOperation.addMember row.createdBy g u now).tx d = .ok d' := by
  have hpresent : ¬ ((d.groups.get? g).isNone || (d.users.get? u).isNone) = true := by
    simp [h, Option.isSome_iff_ne_none.mp hu]
  have hinsert : GroupQueries.addGroupMember ⟨g, u, now⟩ d =
      .ok { d with memberships := d.memberships.insertNew ⟨g, u, now⟩ } :=
    (if_neg hfresh).trans (if_neg hpresent)
  exact ⟨_, GroupOperation.bind_eq_ok.mpr ⟨row, GroupOperation.getGroupById_eq_ok.mpr h,
    (if_neg (not_not.mpr rfl)).trans hinsert⟩⟩

theorem exists_deleteGroup (h : d.groups.get? g = some row) :
    ∃ d', (GroupOperation.deleteGroup row.createdBy g).tx d = .ok d' := by
  have hstored : ¬ ((d.groups.get? g).filter (·.createdBy = row.createdBy)).isNone := by simp [h]
  have hdelete : ∃ d', GroupQueries.deleteGroup g row.createdBy d = .ok d' := ⟨_, if_neg hstored⟩
  obtain ⟨d', hdelete⟩ := hdelete
  exact ⟨d', GroupOperation.bind_eq_ok.mpr ⟨row, GroupOperation.getGroupById_eq_ok.mpr h,
    (if_neg (not_not.mpr rfl)).trans hdelete⟩⟩

end

/-- In every state that any transactions lead to, whatever their order and whichever of them are rolled
back, each group has its creator among its members. -/
theorem every_group_administered (s : RosterSys τ)
    (hs : Transition.Reachable rosterTransactions.step { db := {} } s) :
    ∀ row ∈ s.db.groups.rows, s.db.Administered row := by
  intro row hrow
  have hinv : AdminInv s := (preserves_adminInv.reachable adminInv_init hs).1
  have hget : s.db.groups.get? row.groupId = some row := Table.get?_eq_some.mpr ⟨hrow, rfl⟩
  obtain ⟨-, huser, hmember⟩ := hinv.groups _ _ hget
  exact ⟨huser, hmember, fun u now => exists_addMember hget, exists_deleteGroup hget⟩

namespace Sample

/-- Ada makes a group while a deletion of her account is on its way. The deletion finds the group and is
rolled back. -/
def racing : List (RosterAct ℕ) :=
  [.begin 0 (.other [.auth (.insertUser ⟨⟨1⟩, "ada", "secret", false, 0⟩)]), .exec 0, .commit 0,
    .begin 1 (.group (.createGroup ⟨1⟩ "go" ⟨4⟩ 0)), .begin 2 (.deleteAccount ⟨1⟩), .exec 1, .exec 1,
    .commit 1, .exec 2, .abort 2]

end Sample

theorem every_group_administered_racing :
    ∃ s : RosterSys ℕ, Transition.run rosterTransactions.step { db := {} } Sample.racing = some s ∧
      ∃ row ∈ s.db.groups.rows, s.db.Administered row := by
  obtain ⟨s, hs, hstored⟩ :
      ∃ s ∈ Transition.run rosterTransactions.step ({ db := {} } : RosterSys ℕ) Sample.racing,
        s.db.groups.rows ≠ [] := by decide
  obtain ⟨row, hrow⟩ := List.exists_mem_of_ne_nil _ hstored
  exact ⟨s, hs, row, hrow, every_group_administered s ⟨_, hs⟩ row hrow⟩

end Messenger
