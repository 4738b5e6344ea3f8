import Messenger.Services.Origins

/-! Which calls take a stored row away. All others leave it stored, but for its updates. -/

namespace Messenger
open Transactional AuthService

def UserCall.Removes (r : Row) : UserCall → Prop
  | service (.auth (.deleteAccount id) _) => r.RefersTo id ∨ ∃ u, r = .user u ∧ u.userId = id
  | service (.group (.removeMember _ group target) _) =>
    ∃ m, r = .membership m ∧ m.pk = (group, target)
  | service (.group (.deleteGroup _ group) _) => r.InGroup group ∨ ∃ g, r = .group g ∧ g.groupId = group
  | friendship (.removeOrDeclineFriendship a b) =>
    ∃ f, r = .friendship f ∧ FriendshipQueries.Between a b f
  | _ => False

section

variable {d d' : Db} {r : Row} {w : Write} {ws : List Write} {c : UserCall}

theorem Row.refersTo_fixed {id : UUID} : r.fixed.RefersTo id ↔ r.RefersTo id := by
  cases r <;> exact Iff.rfl

theorem Row.inGroup_fixed {id : UUID} : r.fixed.InGroup id ↔ r.InGroup id := by
  cases r <;> exact Iff.rfl

/-- Which rows a call takes away does not depend on the columns that may be updated. -/
theorem UserCall.removes_fixed : c.Removes r.fixed ↔ c.Removes r := by
  cases c with
  | friendship c => cases c <;> cases r <;> simp [Removes, Row.fixed, FriendshipQueries.Between]
  | service c =>
    cases c with
    | auth op f => cases op <;> cases r <;> simp [Removes, Row.fixed, Row.RefersTo]
    | group op f => cases op <;> cases r <;> simp [Removes, Row.fixed, Row.InGroup]
    | message op f => exact Iff.rfl

theorem Db.stays_of_modifyUser {id : UUID} {f : User → User} {hf : ∀ x, (f x).userId = x.userId}
    (hfixed : ∀ x, (Row.user (f x)).fixed = (Row.user x).fixed) (hr : d.Has r) :
    r.StemsFrom (d.modifyUser id f hf) := by
  cases r with
  | user x =>
    obtain ⟨y, hy, rfl | rfl⟩ := Table.exists_of_updateWhere (p := (·.userId = id)) hf hr
    · exact .of_has hy
    · exact ⟨.user (f x), hy, hfixed x⟩
  | _ => exact .of_has hr

theorem Db.stays_of_modifyTokens {k : TokenKind}
    {f : Table Token Token.tokenHash → Table Token Token.tokenHash}
    (hf : ∀ table : Table Token Token.tokenHash, ∀ t ∈ table.rows, ∃ t' ∈ (f table).rows,
      (t'.asRow k).fixed = (t.asRow k).fixed) (hr : d.Has r) : r.StemsFrom (d.modifyTokens f k) := by
  cases k with
  | access =>
    cases r with
    | accessToken t =>
      obtain ⟨t', ht', hfixed⟩ := hf _ t hr
      exact ⟨.accessToken t', ht', hfixed⟩
    | _ => exact .of_has hr
  | refresh =>
    cases r with
    | refreshToken t =>
      obtain ⟨t', ht', hfixed⟩ := hf _ t hr
      exact ⟨.refreshToken t', ht', hfixed⟩
    | _ => exact .of_has hr

theorem Write.stays_apply (hr : d.Has r) : r.StemsFrom (w.apply d) := by
  cases w with
  | insertUser user =>
    cases r with
    | user x => exact .of_has (Table.mem_insertNew_of_mem hr)
    | _ => exact .of_has hr
  | setDeactivated id v | changePassword id p => exact Db.stays_of_modifyUser (fun _ => rfl) hr
  | insertToken k t =>
    exact Db.stays_of_modifyTokens (fun _ t' ht' => ⟨t', Table.mem_insertNew_of_mem ht', rfl⟩) hr
  | revokeToken k hash =>
    refine Db.stays_of_modifyTokens (fun _ t ht => ?_) hr
    have hkey : ∀ t : Token, ({ t with isRevoked := true } : Token).tokenHash = t.tokenHash := fun _ => rfl
    obtain ⟨t', ht', rfl | rfl⟩ := Table.exists_of_updateWhere (p := (·.tokenHash = hash)) hkey ht
    · exact ⟨t', ht', rfl⟩
    · refine ⟨_, ht', ?_⟩
      cases k <;> rfl

theorem Write.stays_applyAll (hr : d.Has r) : r.StemsFrom (applyAll ws d) := by
  induction ws generalizing d r with
  | nil => exact .of_has hr
  | cons w ws ih =>
    obtain ⟨r₁, hr₁, hfixed₁⟩ := stays_apply (w := w) hr
    obtain ⟨r₂, hr₂, hfixed₂⟩ := ih hr₁
    exact ⟨r₂, hr₂, hfixed₂.trans hfixed₁⟩

theorem GroupOperation.stays {op : GroupOperation} {f : Faults GroupAwait Error} (htx : op.tx d = .ok d')
    (hr : d.Has r) : d'.Has r ∨ (UserCall.service (.group op f)).Removes r := by
  cases op with
  | createGroup creator name group now =>
    obtain ⟨rfl, -⟩ := createGroupTx_eq_ok htx
    cases r with
    | group | membership => exact .inl (Table.mem_insertNew_of_mem hr)
    | _ => exact .inl hr
  | addMember actor group target now =>
    obtain ⟨rfl, -⟩ := addMemberTx_eq_ok htx
    cases r with
    | membership m => exact .inl (Table.mem_insertNew_of_mem hr)
    | _ => exact .inl hr
  | removeMember actor group target =>
    obtain rfl := removeMemberTx_eq_ok htx
    cases r with
    | membership m =>
      by_cases hm : m.pk = (group, target)
      · exact .inr ⟨m, rfl, hm⟩
      · exact .inl (Db.mem_deleteWhere.mpr ⟨hr, decide_eq_false hm⟩)
    | _ => exact .inl hr
  | deleteGroup actor group =>
    obtain rfl := deleteGroupTx_eq_ok htx
    cases r with
    | group g =>
      by_cases hg : g.groupId = group
      · exact .inr (.inr ⟨g, rfl, hg⟩)
      · exact .inl (Db.mem_deleteWhere.mpr ⟨hr, decide_eq_false hg⟩)
    | membership m =>
      by_cases hm : m.groupId = group
      · exact .inr (.inl hm)
      · exact .inl (Db.mem_deleteWhere.mpr ⟨hr, decide_eq_false hm⟩)
    | groupMessage m =>
      by_cases hm : m.groupId = group
      · exact .inr (.inl hm)
      · exact .inl (Db.mem_deleteWhere.mpr ⟨hr, decide_eq_false hm⟩)
    | _ => exact .inl hr

theorem FriendshipCall.stays {c : FriendshipCall} (hrun : c.run d = .ok d') (hr : d.Has r) :
    r.StemsFrom d' ∨ (UserCall.friendship c).Removes r := by
  cases c with
  | sendFriendRequest requester addressee now =>
    obtain ⟨-, -, -, -, rfl⟩ := run_sendFriendRequest.mp hrun
    cases r with
    | friendship f => exact .inl (.of_has (Table.mem_insertNew_of_mem hr))
    | _ => exact .inl (.of_has hr)
  | acceptFriendRequest addressee requester now =>
    obtain ⟨-, rfl⟩ := run_acceptFriendRequest.mp hrun
    cases r with
    | friendship f =>
      have hkey : ∀ f : Friendship, (f.accept now).pk = f.pk := fun _ => rfl
      obtain ⟨f', hf', rfl | rfl⟩ :=
        Table.exists_of_updateWhere (p := (·.pk = (requester, addressee))) hkey hr
      · exact .inl (.of_has hf')
      · exact .inl ⟨.friendship (f.accept now), hf', rfl⟩
    | _ => exact .inl (.of_has hr)
  | removeOrDeclineFriendship a b =>
    have hget := run_removeOrDeclineFriendship hrun
    obtain ⟨friendships, rfl⟩ := run_frame hrun
    cases r with
    | friendship f =>
      by_cases hf : f.pk = (a, b) ∨ f.pk = (b, a)
      · exact .inr ⟨f, rfl, FriendshipQueries.between_iff.mpr hf⟩
      · have hstored : friendships.get? f.pk = some f := by
          rw [hget, if_neg hf]
          exact Table.mem_rows_iff.mp hr
        exact .inl (.of_has (Table.mem_rows_iff.mpr hstored))
    | _ => exact .inl (.of_has hr)

/-- A call leaves every stored row where it is, but for updates, or it is one that takes it away. -/
theorem UserCall.stays_of_commit (hc : c.commit d = some d') (hr : d.Has r) :
    r.StemsFrom d' ∨ c.Removes r := by
  cases effect_of_commit hc with
  | writes ws hop => exact .inl (Write.stays_applyAll hr)
  | @deletes id f d' hdelete =>
    by_cases hrefers : r.RefersTo id ∨ ∃ u, r = .user u ∧ u.userId = id
    · exact .inr hrefers
    · rw [not_or, not_exists] at hrefers
      refine .inl (.of_has ((Db.has_deleteUser hdelete r).mpr ⟨hr, hrefers.1, ?_⟩))
      exact fun u hu hid => hrefers.2 u ⟨hu, hid⟩
  | group htx => exact (GroupOperation.stays htx hr).imp_left .of_has
  | directMessage =>
    cases r with
    | directMessage m => exact .inl (.of_has (Table.mem_insertNew_of_mem hr))
    | _ => exact .inl (.of_has hr)
  | groupMessage m' =>
    cases r with
    | groupMessage m => exact .inl (.of_has (Table.mem_insertNew_of_mem hr))
    | _ => exact .inl (.of_has hr)
  | friendship hrun => exact FriendshipCall.stays hrun hr

end

end Messenger
