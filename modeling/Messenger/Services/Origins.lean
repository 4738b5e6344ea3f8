import Messenger.Services.Authority

/-! Where a stored row stems from: a call creates it, and no other call changes the columns that say whose
it is, when it was created and what it contains. -/

namespace Messenger
open Transactional AuthService

def Row.fixed : Row → Row
  | user u => user { u with passwordHash := "", deactivated := false }
  | friendship f => friendship { f with accepted := false, updatedAt := f.createdAt }
  | accessToken t => accessToken { t with isRevoked := false }
  | refreshToken t => refreshToken { t with isRevoked := false }
  | r => r

def Row.StemsFrom (d : Db) (r : Row) : Prop := ∃ r₀, d.Has r₀ ∧ r₀.fixed = r.fixed

def Token.asRow (t : Token) : TokenKind → Row
  | .access => .accessToken t
  | .refresh => .refreshToken t

def Write.row? : Write → Option Row
  | insertUser u => some (.user u)
  | insertToken k t => some (t.asRow k)
  | _ => none

def UserCall.Creates (d : Db) (r : Row) : UserCall → Prop
  | service (.auth (.register env username password) _) =>
    r = .user (env.newUser username password) ∨ ∃ k, r = (env.pair.row k env.newUserId).asRow k
  | service (.auth (.login env username password) f) =>
    ∃ u k, (service (.auth (.login env username password) f)).ActsFor d u ∧
      r = (env.pair.row k u).asRow k
  | service (.auth (.refresh env raw) _) =>
    ∃ u k, d.OwnedBy .refresh (env.hashToken raw) u ∧ r = (env.pair.row k u).asRow k
  | service (.group (.createGroup creator name group now) _) =>
    r = .group ⟨group, name, creator, now⟩ ∨ r = .membership ⟨group, creator, now⟩
  | service (.group (.addMember actor group target now) _) =>
    r = .membership ⟨group, target, now⟩ ∧ ∃ row, d.groups.get? group = some row ∧ row.createdBy = actor
  | service (.message (.sendDirectMessage env sender recipient content) _) =>
    r = .directMessage (directMessage env sender recipient content)
  | service (.message (.sendGroupMessage env sender group content) _) =>
    r = .groupMessage ⟨env.messageId, group, sender, content, env.now⟩
  | friendship (.sendFriendRequest requester addressee now) =>
    r = .friendship (FriendshipCall.requestRow requester addressee now)
  | _ => False

section

variable {d d' : Db} {r : Row} {w : Write} {ws : List Write} {u : UUID}

theorem Row.StemsFrom.of_has (h : d.Has r) : r.StemsFrom d := ⟨r, h, rfl⟩

theorem Db.has_asRow {k : TokenKind} {t : Token} : d.Has (t.asRow k) ↔ t ∈ (d.tokens k).rows := by
  cases k with
  | access => exact Iff.rfl
  | refresh => exact Iff.rfl

theorem Db.has_modifyTokens_cases {k : TokenKind}
    {f : Table Token Token.tokenHash → Table Token Token.tokenHash} (h : (d.modifyTokens f k).Has r) :
    d.Has r ∨ ∃ t ∈ (f (d.tokens k)).rows, r = t.asRow k := by
  cases k with
  | access =>
    cases r with
    | accessToken t => exact .inr ⟨t, h, rfl⟩
    | _ => exact .inl h
  | refresh =>
    cases r with
    | refreshToken t => exact .inr ⟨t, h, rfl⟩
    | _ => exact .inl h

theorem Db.stemsFrom_of_modifyUser {f : User → User} {hf : ∀ x, (f x).userId = x.userId}
    (hfixed : ∀ x, (Row.user (f x)).fixed = (Row.user x).fixed) (h : (d.modifyUser u f hf).Has r) :
    r.StemsFrom d := by
  cases r with
  | user x =>
    obtain ⟨x₀, hx₀, rfl | rfl⟩ := Table.mem_updateWhere hf h
    · exact .of_has hx₀
    · exact ⟨.user x₀, hx₀, (hfixed x₀).symm⟩
  | _ => exact .of_has h

theorem Write.has_apply_cases (h : (w.apply d).Has r) : r.StemsFrom d ∨ w.row? = some r := by
  cases w with
  | insertUser user =>
    cases r with
    | user x =>
      rcases Table.mem_of_mem_insertNew h with hold | rfl
      · exact .inl (.of_has hold)
      · exact .inr rfl
    | _ => exact .inl (.of_has h)
  | setDeactivated id v | changePassword id p =>
    refine .inl (Db.stemsFrom_of_modifyUser ?_ h)
    exact fun _ => rfl
  | insertToken k t =>
    rcases Db.has_modifyTokens_cases h with hold | ⟨t', ht', rfl⟩
    · exact .inl (.of_has hold)
    · rcases Table.mem_of_mem_insertNew ht' with hstored | rfl
      · exact .inl (.of_has (Db.has_asRow.mpr hstored))
      · exact .inr rfl
  | revokeToken k hash =>
    rcases Db.has_modifyTokens_cases h with hold | ⟨t', ht', rfl⟩
    · exact .inl (.of_has hold)
    · obtain ⟨t, ht, hsame⟩ := Table.mem_updateWhere _ ht'
      refine .inl ⟨t.asRow k, Db.has_asRow.mpr ht, ?_⟩
      rcases hsame with rfl | rfl
      · rfl
      · cases k with
        | access => rfl
        | refresh => rfl

theorem Write.has_applyAll_cases (h : (applyAll ws d).Has r) :
    r.StemsFrom d ∨ ∃ w ∈ ws, ∃ r₀, w.row? = some r₀ ∧ r₀.fixed = r.fixed := by
  induction ws generalizing d with
  | nil => exact .inl (.of_has h)
  | cons w ws ih =>
    rcases ih h with ⟨r₀, hr₀, hfixed⟩ | ⟨w', hw', hrow⟩
    · rcases has_apply_cases hr₀ with ⟨r₁, hr₁, hfixed₁⟩ | hrow
      · exact .inl ⟨r₁, hr₁, hfixed₁.trans hfixed⟩
      · exact .inr ⟨w, List.mem_cons_self .., r₀, hrow, hfixed⟩
    · exact .inr ⟨w', List.mem_cons_of_mem _ hw', hrow⟩

theorem Write.stemsFrom_of_applyAll (hws : ∀ w ∈ ws, w.row? = none) (h : (applyAll ws d).Has r) :
    r.StemsFrom d := by
  rcases has_applyAll_cases h with hstems | ⟨w, hw, r₀, hrow, -⟩
  · exact hstems
  · rw [hws w hw] at hrow
    cases hrow

theorem stemsFrom_of_sweep {k : TokenKind} (h : (sweep d k u).Has r) : r.StemsFrom d := by
  refine Write.stemsFrom_of_applyAll (fun w hw => ?_) h
  obtain ⟨hash, -, rfl⟩ := List.mem_map.mp hw
  rfl

theorem Row.StemsFrom.trans {d₁ : Db} (h : r.StemsFrom d₁) (hd : ∀ r, d₁.Has r → r.StemsFrom d) :
    r.StemsFrom d := by
  obtain ⟨r₁, hr₁, hfixed⟩ := h
  obtain ⟨r₀, hr₀, hfixed₀⟩ := hd r₁ hr₁
  exact ⟨r₀, hr₀, hfixed₀.trans hfixed⟩

theorem Write.row?_of_pair {p : HashedPair} {r₀ : Row}
    (hw : w ∈ [insertToken .access (p.row .access u), insertToken .refresh (p.row .refresh u)])
    (hrow : w.row? = some r₀) : ∃ k, r₀ = (p.row k u).asRow k := by
  rcases List.mem_pair.mp hw with rfl | rfl
  · exact ⟨.access, (Option.some.inj hrow).symm⟩
  · exact ⟨.refresh, (Option.some.inj hrow).symm⟩

theorem Write.row?_of_loginWrites {env : AuthEnv} {password : String} {user : User} {r₀ : Row}
    (hw : w ∈ loginWrites env password user) (hrow : w.row? = some r₀) :
    ∃ k, r₀ = (env.pair.row k user.userId).asRow k := by
  rcases List.mem_append.mp hw with hw | hw
  · rcases List.mem_append.mp hw with hw | hw
    · split at hw
      · rw [List.mem_singleton.mp hw] at hrow
        cases hrow
      · cases hw
    · split at hw
      · rw [List.mem_singleton.mp hw] at hrow
        cases hrow
      · cases hw
  · exact row?_of_pair hw hrow

def UserCall.Explains (d : Db) (c : UserCall) (r : Row) : Prop :=
  r.StemsFrom d ∨ ∃ r₀, c.Creates d r₀ ∧ r₀.fixed = r.fixed

theorem Operation.explains {op : Operation} {f : Await → Option Fault} {es : List SystemEvent}
    (hc : op.transact f d = some (d', es)) (hr : d'.Has r) :
    (UserCall.service (.auth op f)).Explains d r := by
  cases op with
  | register env username password =>
    simp only [transact] at hc
    split at hc
    · cases hc
    · obtain ⟨-, -, _, htx, -⟩ := Op.committed_eq_some.mp hc
      obtain ⟨-, -, -, -, -, rfl⟩ := registerTx_eq_ok.mp htx
      refine (Write.has_applyAll_cases hr).imp_right ?_
      rintro ⟨w, hw, r₀, hrow, hfixed⟩
      rcases List.mem_cons.mp hw with rfl | hw
      · exact ⟨r₀, .inl (Option.some.inj hrow).symm, hfixed⟩
      · exact ⟨r₀, .inr (Write.row?_of_pair hw hrow), hfixed⟩
  | login env username password =>
    obtain ⟨-, -, ⟨user, b⟩, htx, -⟩ := Op.committed_eq_some.mp hc
    have hfound := find?_of_loginTx htx
    obtain ⟨hruns, -, rfl⟩ := (loginTx_eq_ok hfound).mp htx
    have hname : user.username = username := by simpa using List.find?_some hfound
    refine (Write.has_applyAll_cases hr).imp_right ?_
    rintro ⟨w, hw, r₀, hrow, hfixed⟩
    obtain ⟨k, rfl⟩ := Write.row?_of_loginWrites hw hrow
    exact ⟨_, ⟨user.userId, k, ⟨user, get?_of_find? hfound, hname, hruns.2.2.2.1⟩, rfl⟩, hfixed⟩
  | refresh env raw =>
    obtain ⟨-, -, ⟨b, u⟩, htx, -⟩ := Op.committed_eq_some.mp hc
    obtain ⟨-, token, htoken, -, rfl, hrest⟩ := refreshTx_eq_ok.mp htx
    split at hrest
    · obtain ⟨-, rfl⟩ := hrest
      exact .inl ((stemsFrom_of_sweep hr).trans fun _ => stemsFrom_of_sweep)
    · obtain ⟨-, -, -, -, rfl⟩ := hrest
      refine (Write.has_applyAll_cases hr).imp_right ?_
      rintro ⟨w, hw, r₀, hrow, hfixed⟩
      rcases List.mem_cons.mp hw with rfl | hw
      · cases hrow
      · obtain ⟨k, rfl⟩ := Write.row?_of_pair hw hrow
        exact ⟨_, ⟨token.userId, k, ⟨token, htoken, rfl⟩, rfl⟩, hfixed⟩
  | logout env raw access =>
    obtain ⟨-, -, _, htx, -⟩ := Op.committed_eq_some.mp hc
    obtain ⟨-, -, rfl⟩ := logoutTx_eq_ok htx
    refine .inl (Write.stemsFrom_of_applyAll (fun w hw => ?_) hr)
    rcases List.mem_cons.mp hw with rfl | hw
    · rfl
    · obtain ⟨h, -, rfl⟩ := List.mem_map.mp hw
      rfl
  | deactivateAccount id =>
    obtain ⟨-, -, _, htx, -⟩ := Op.committed_eq_some.mp hc
    obtain ⟨-, -, rfl⟩ := query_deactivateUser.mp htx
    have hnone : (Write.setDeactivated id true).row? ≠ some r := (Option.some_ne_none r).symm
    exact .inl ((Write.has_apply_cases hr).resolve_right hnone)
  | reactivateAccount id =>
    obtain ⟨-, -, _, htx, -⟩ := Op.committed_eq_some.mp hc
    obtain ⟨-, -, rfl⟩ := query_reactivateUser.mp htx
    have hnone : (Write.setDeactivated id false).row? ≠ some r := (Option.some_ne_none r).symm
    exact .inl ((Write.has_apply_cases hr).resolve_right hnone)
  | deleteAccount id =>
    obtain ⟨-, -, _, htx, -⟩ := Op.committed_eq_some.mp hc
    have hdelete := (UserService.deleteAccountTx_eq_ok.mp htx).2
    exact .inl (.of_has ((Db.has_deleteUser hdelete r).mp hr).1)

theorem GroupOperation.explains {op : GroupOperation} {f : Faults GroupAwait Error}
    (htx : op.tx d = .ok d') (hr : d'.Has r) : (UserCall.service (.group op f)).Explains d r := by
  cases op with
  | createGroup creator name group now =>
    obtain ⟨rfl, -⟩ := createGroupTx_eq_ok htx
    cases r with
    | group g =>
      rcases Table.mem_of_mem_insertNew hr with hold | rfl
      · exact .inl (.of_has hold)
      · exact .inr ⟨_, .inl rfl, rfl⟩
    | membership m =>
      rcases Table.mem_of_mem_insertNew hr with hold | rfl
      · exact .inl (.of_has hold)
      · exact .inr ⟨_, .inr rfl, rfl⟩
    | _ => exact .inl (.of_has hr)
  | addMember actor group target now =>
    have hcreator := creator_of_addMemberTx htx
    obtain ⟨rfl, -⟩ := addMemberTx_eq_ok htx
    cases r with
    | membership m =>
      rcases Table.mem_of_mem_insertNew hr with hold | rfl
      · exact .inl (.of_has hold)
      · exact .inr ⟨_, ⟨rfl, hcreator⟩, rfl⟩
    | _ => exact .inl (.of_has hr)
  | removeMember actor group target =>
    obtain rfl := removeMemberTx_eq_ok htx
    cases r with
    | membership m => exact .inl (.of_has (Db.mem_deleteWhere.mp hr).1)
    | _ => exact .inl (.of_has hr)
  | deleteGroup actor group =>
    obtain rfl := deleteGroupTx_eq_ok htx
    cases r with
    | group g => exact .inl (.of_has (Db.mem_deleteWhere.mp hr).1)
    | membership m => exact .inl (.of_has (Db.mem_deleteWhere.mp hr).1)
    | groupMessage m => exact .inl (.of_has (Db.mem_deleteWhere.mp hr).1)
    | _ => exact .inl (.of_has hr)

theorem FriendshipWrite.has_apply_cases {w : FriendshipWrite} (h : (w.apply d).Has r) :
    r.StemsFrom d ∨ ∃ f, w = .insert f ∧ r = .friendship f := by
  cases r with
  | friendship f =>
    cases w with
    | insert f' =>
      rcases Table.mem_of_mem_insertNew h with hold | rfl
      · exact .inl (.of_has hold)
      · exact .inr ⟨f, rfl, rfl⟩
    | accept pair now =>
      have hkey : ∀ f : Friendship, (f.accept now).pk = f.pk := fun _ => rfl
      obtain ⟨f₀, hf₀, rfl | rfl⟩ := Table.mem_updateWhere hkey h
      · exact .inl (.of_has hf₀)
      · exact .inl ⟨.friendship f₀, hf₀, rfl⟩
    | delete pair => exact .inl (.of_has (Db.mem_deleteWhere.mp h).1)
  | _ => cases w <;> exact .inl (.of_has h)

theorem FriendshipCall.explains {c : FriendshipCall} (hrun : c.run d = .ok d') (hr : d'.Has r) :
    (UserCall.friendship c).Explains d r := by
  cases c with
  | sendFriendRequest requester addressee now =>
    obtain ⟨-, -, -, -, rfl⟩ := run_sendFriendRequest.mp hrun
    rcases FriendshipWrite.has_apply_cases hr with hstems | ⟨f, hinsert, rfl⟩
    · exact .inl hstems
    · obtain rfl := FriendshipWrite.insert.inj hinsert
      exact .inr ⟨_, rfl, rfl⟩
  | acceptFriendRequest addressee requester now =>
    obtain ⟨-, rfl⟩ := run_acceptFriendRequest.mp hrun
    rcases FriendshipWrite.has_apply_cases hr with hstems | ⟨f, hinsert, -⟩
    · exact .inl hstems
    · cases hinsert
  | removeOrDeclineFriendship a b =>
    have hget := run_removeOrDeclineFriendship hrun
    obtain ⟨friendships, rfl⟩ := run_frame hrun
    cases r with
    | friendship f =>
      have hf : f ∈ friendships.rows := hr
      rw [Table.mem_rows_iff, hget] at hf
      split at hf
      · cases hf
      · exact .inl (.of_has (Table.mem_rows_iff.mpr hf))
    | _ => exact .inl (.of_has hr)

theorem MessageOperation.explains {op : MessageOperation} {f : Faults MessagingAwait Error}
    {pushes : List MessagePush} (hc : op.transact f d = some (d', pushes)) (hr : d'.Has r) :
    (UserCall.service (.message op f)).Explains d r := by
  cases op with
  | sendDirectMessage env sender recipient content =>
    obtain ⟨-, -, m, hbody, -⟩ := Op.committed_eq_some.mp hc
    obtain ⟨_, d₁, hfriends, hinsert⟩ := Tx.bind_eq_ok.mp hbody
    obtain ⟨rfl, -⟩ := accepted_of_requireFriendship hfriends
    obtain ⟨rfl, -, rfl⟩ := MessageQueries.sendDirectMessage_eq_ok (MessagingService.insert_eq_ok hinsert)
    cases r with
    | directMessage m =>
      rcases Table.mem_of_mem_insertNew hr with hold | rfl
      · exact .inl (.of_has hold)
      · exact .inr ⟨_, rfl, rfl⟩
    | _ => exact .inl (.of_has hr)
  | sendGroupMessage env sender group content =>
    obtain ⟨-, -, m, hbody, -⟩ := Op.committed_eq_some.mp hc
    obtain ⟨_, d₁, hfetch, hinsert⟩ := Tx.bind_eq_ok.mp hbody
    obtain ⟨-, rfl⟩ := MessagingService.fetch_eq_ok hfetch
    obtain ⟨rfl, -, rfl⟩ := MessageQueries.sendGroupMessage_eq_ok (MessagingService.insert_eq_ok hinsert)
    cases r with
    | groupMessage m =>
      rcases Table.mem_of_mem_insertNew hr with hold | rfl
      · exact .inl (.of_has hold)
      · exact .inr ⟨_, rfl, rfl⟩
    | _ => exact .inl (.of_has hr)

/-- Nothing is stored after a call that is neither stored before it nor created by it. -/
theorem UserCall.explains_of_commit {c : UserCall} (hc : c.commit d = some d') (hr : d'.Has r) :
    c.Explains d r := by
  cases c with
  | friendship c =>
    cases hrun : c.run d with
    | ok d₁ =>
      simp only [commit, hrun] at hc
      obtain rfl := Option.some.inj hc
      exact FriendshipCall.explains hrun hr
    | error e => simp [commit, hrun, Except.toOption] at hc
  | service c =>
    obtain ⟨⟨d₁, bs⟩, hservice, rfl⟩ := Option.map_eq_some_iff.mp hc
    cases c with
    | auth op f =>
      obtain ⟨⟨d₂, es⟩, htransact, heq⟩ := Option.map_eq_some_iff.mp hservice
      obtain ⟨rfl, -⟩ := Prod.mk.inj heq
      exact op.explains htransact hr
    | group op f =>
      obtain ⟨⟨d₂, tasks⟩, htransact, heq⟩ := Option.map_eq_some_iff.mp hservice
      obtain ⟨rfl, -⟩ := Prod.mk.inj heq
      exact GroupOperation.explains (GroupOperation.tx_of_transact htransact) hr
    | message op f =>
      obtain ⟨⟨d₂, pushes⟩, htransact, heq⟩ := Option.map_eq_some_iff.mp hservice
      obtain ⟨rfl, -⟩ := Prod.mk.inj heq
      exact op.explains htransact hr

end

end Messenger
