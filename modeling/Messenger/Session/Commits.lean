import Messenger.Session.Authenticate
import Messenger.Session.Operations

/-! What the commit of an operation means for the stored access tokens and for the accounts. The
rest of the session model knows the operations by these facts only. -/

namespace Messenger
open AuthService UserService

namespace Write

variable {d : Db} {k : TokenKind} {h : TokenHash} {t' : Token} {id : UUID} {ws : List Write}

theorem get?_applyAll_of_none (hnone : (d.tokens k).get? h = none)
    (hrow : ((applyAll ws d).tokens k).get? h = some t') :
    ∃ t, .insertToken k t ∈ ws ∧ t.tokenHash = h ∧ (.revokeToken k h ∉ ws → t' = t) := by
  induction ws generalizing d with
  | nil => cases hnone.symm.trans hrow
  | cons w ws ih =>
    have hrow' : ((applyAll ws (w.apply d)).tokens k).get? h = some t' := hrow
    cases hw : ((w.apply d).tokens k).get? h with
    | none =>
      obtain ⟨t, hmem, ht, heq⟩ := ih hw hrow'
      refine ⟨t, List.mem_cons_of_mem _ hmem, ht, fun hn => heq fun hr => hn ?_⟩
      exact List.mem_cons_of_mem _ hr
    | some t =>
      have hins : w = .insertToken k t ∧ t.tokenHash = h := by
        rw [get?_apply, hnone] at hw
        cases w with
        | insertToken k' t'' =>
          simp only [onToken] at hw
          split at hw
          · next hk =>
            obtain ⟨rfl, hh⟩ := hk
            obtain rfl := Option.some.inj hw
            exact ⟨rfl, hh⟩
          · cases hw
        | revokeToken k' h' =>
          simp only [onToken] at hw
          split at hw <;> cases hw
        | _ => cases hw
      obtain ⟨rfl, hh⟩ := hins
      refine ⟨t, List.mem_cons_self .., hh, fun hn => ?_⟩
      rw [get?_applyAll_of_some ws hw] at hrow'
      have hnot : .revokeToken k h ∉ ws := fun hr => hn (List.mem_cons_of_mem _ hr)
      rw [← Option.some.inj hrow', decide_eq_false hnot, Bool.or_false]

theorem locked_of_apply {w : Write} (hl : (w.apply d).Locked id) :
    d.Locked id ∨ w = .setDeactivated id true := by
  by_cases hw : w = .setDeactivated id true
  · exact .inr hw
  refine .inl fun user hu => ?_
  cases w with
  | insertUser u =>
    exact hl user (by simp [apply, Table.get?_insertNew, hu])
  | setDeactivated i v =>
    have hrow := get?_setDeactivated d i id v
    rw [hu, Option.map_some, Table.key_of_get? hu] at hrow
    by_cases hi : id = i
    · subst hi
      cases v with
      | true => exact (hw rfl).elim
      | false => exact absurd (hl _ hrow) (by simp)
    · exact hl user (hrow.trans (by rw [if_neg hi]))
  | changePassword i p =>
    have hrow := get?_changePassword d i id p
    rw [hu, Option.map_some] at hrow
    have hflag := hl _ hrow
    split at hflag
    · exact hflag
    · exact hflag
  | insertToken k t => exact hl user (by rw [apply, Db.modifyTokens_users]; exact hu)
  | revokeToken k h => exact hl user (by rw [apply, Db.modifyTokens_users]; exact hu)

theorem locked_apply {w : Write} (hl : d.Locked id) (hw : w ≠ .setDeactivated id false)
    (hins : ∀ u, w = .insertUser u → u.userId ≠ id) : (w.apply d).Locked id := by
  intro user hu
  cases w with
  | insertUser u =>
    refine hl user ?_
    rwa [apply, Table.get?_insertNew_of_ne (hins u rfl)] at hu
  | setDeactivated i v =>
    rw [get?_setDeactivated] at hu
    obtain ⟨u, hrow, rfl⟩ := Option.map_eq_some_iff.mp hu
    have hid := Table.key_of_get? hrow
    split
    · next hi =>
      cases v with
      | true => rfl
      | false => exact (hw (by rw [← hid, hi])).elim
    · exact hl u hrow
  | changePassword i p =>
    rw [get?_changePassword] at hu
    obtain ⟨u, hrow, rfl⟩ := Option.map_eq_some_iff.mp hu
    split
    · exact hl u hrow
    · exact hl u hrow
  | insertToken k t => exact hl user (by rwa [apply, Db.modifyTokens_users] at hu)
  | revokeToken k h => exact hl user (by rwa [apply, Db.modifyTokens_users] at hu)

theorem locked_of_applyAll (hl : (applyAll ws d).Locked id) :
    d.Locked id ∨ .setDeactivated id true ∈ ws := by
  induction ws generalizing d with
  | nil => exact .inl hl
  | cons w ws ih =>
    rcases ih (d := w.apply d) hl with hl' | hmem
    · rcases locked_of_apply hl' with hl'' | rfl
      · exact .inl hl''
      · exact .inr (List.mem_cons_self ..)
    · exact .inr (List.mem_cons_of_mem _ hmem)

theorem locked_applyAll (hl : d.Locked id) (hset : .setDeactivated id false ∉ ws)
    (hins : ∀ u, .insertUser u ∈ ws → u.userId ≠ id) : (applyAll ws d).Locked id := by
  induction ws generalizing d with
  | nil => exact hl
  | cons w ws ih =>
    have hhead : (w.apply d).Locked id :=
      locked_apply hl (fun hw => hset (hw ▸ List.mem_cons_self ..))
        fun u hu => hins u (hu ▸ List.mem_cons_self ..)
    exact ih hhead (fun hmem => hset (List.mem_cons_of_mem _ hmem))
      fun u hu => hins u (List.mem_cons_of_mem _ hu)

end Write

def Operation.Unlocks (d : Db) (id : UUID) : Operation → Prop
  | register env _ _ => env.newUserId = id
  | login _ username _ =>
    ∃ user, d.users.rows.find? (·.username = username) = some user ∧ user.userId = id
  | reactivateAccount id' => id' = id
  | _ => False

structure Commits (op : Operation) (d d' : Db) (es : List Effect) : Prop where
  /-- Rows keep their owner and their expiry, and a new row is unrevoked. -/
  row : ∀ h t', (d'.tokens .access).get? h = some t' →
    (∃ t, (d.tokens .access).get? h = some t ∧ t.userId = t'.userId ∧ t.expiresAt = t'.expiresAt) ∨
      op.issues = some h ∧ (d.tokens .access).get? h = none ∧ t'.isRevoked = false
  revoked : ∀ h, d.Revoked .access h →
    d'.Revoked .access h ∨ (d'.tokens .access).get? h = none
  /-- A revocation is published. -/
  named : ∀ h t', (d'.tokens .access).get? h = some t' → t'.isRevoked = true →
    d.Revoked .access h ∨ ∃ e, .publish e ∈ es ∧ e.Names h t'.userId
  locks : ∀ id, d'.Locked id →
    d.Locked id ∨ op = .deactivateAccount id ∨ op = .deleteAccount id
  unlocks : ∀ id, d.Locked id → d'.Locked id ∨ op.Unlocks d id

/-- The write revokes only what the effects name, inserts only what the operation issues, and
switches an account only as the operation says. -/
def Write.Of (op : Operation) (d : Db) (es : List Effect) : Write → Prop
  | insertUser user => op.Unlocks d user.userId
  | setDeactivated id true => op = .deactivateAccount id
  | setDeactivated id false => op.Unlocks d id
  | insertToken .access t => op.issues = some t.tokenHash ∧ t.isRevoked = false
  | revokeToken .access h =>
    ∃ t e, (d.tokens .access).get? h = some t ∧ .publish e ∈ es ∧ e.Names h t.userId
  | changePassword _ _ | insertToken .refresh _ | revokeToken .refresh _ => True

variable {op : Operation} {d d' : Db} {es : List Effect} {ws : List Write} {env : AuthEnv}
  {id : UUID}

theorem commits_of_writes (hw : ∀ w ∈ ws, w.Of op d es) : Commits op d (Write.applyAll ws d) es := by
  -- what is revoked was there before, so a new row stays as it was inserted
  have hnew {h : TokenHash} {t' : Token} (hnone : (d.tokens .access).get? h = none)
      (ht' : ((Write.applyAll ws d).tokens .access).get? h = some t') :
      op.issues = some h ∧ t'.isRevoked = false := by
    obtain ⟨t, hmem, rfl, heq⟩ := Write.get?_applyAll_of_none hnone ht'
    have hnot : .revokeToken .access t.tokenHash ∉ ws := fun hr => by
      obtain ⟨t₁, -, hsome, -⟩ := hw _ hr
      cases hnone.symm.trans hsome
    rw [heq hnot]
    exact hw _ hmem
  refine ⟨fun h t' ht' => ?_, fun h hr => .inl (Write.revoked_applyAll ws hr), fun h t' ht' hrev => ?_,
    fun id hl => ?_, fun id hl => ?_⟩
  · cases ht : (d.tokens .access).get? h with
    | some t =>
      rw [Write.get?_applyAll_of_some ws ht] at ht'
      obtain rfl := Option.some.inj ht'
      exact .inl ⟨t, rfl, rfl, rfl⟩
    | none => exact .inr ⟨(hnew ht ht').1, rfl, (hnew ht ht').2⟩
  · cases ht : (d.tokens .access).get? h with
    | some t =>
      rw [Write.get?_applyAll_of_some ws ht] at ht'
      obtain rfl := Option.some.inj ht'
      rcases Bool.or_eq_true_iff.mp hrev with hrev | hmem
      · exact .inl ⟨t, ht, hrev⟩
      · obtain ⟨t₁, e, hsome, he, hnames⟩ := hw _ (of_decide_eq_true hmem)
        obtain rfl := Option.some.inj (ht.symm.trans hsome)
        exact .inr ⟨e, he, hnames⟩
    | none =>
      rw [(hnew ht ht').2] at hrev
      cases hrev
  · exact (Write.locked_of_applyAll hl).imp_right fun hmem => .inl (hw (.setDeactivated id true) hmem)
  · by_cases hu : op.Unlocks d id
    · exact .inr hu
    · refine .inl (Write.locked_applyAll hl (fun hmem => hu (hw _ hmem)) ?_)
      rintro user hmem rfl
      exact hu (hw _ hmem)

theorem issued_of (he : op.issues = some (env.pair.hash .access)) :
    ∀ w ∈ [Write.insertToken .access (env.pair.row .access id),
      .insertToken .refresh (env.pair.row .refresh id)], w.Of op d es :=
  List.forall_mem_cons.mpr ⟨⟨he, rfl⟩, List.forall_mem_singleton.mpr trivial⟩

theorem loginWrites_of {username password : String} {user : User}
    (hu : d.users.rows.find? (·.username = username) = some user) :
    ∀ w ∈ loginWrites env password user, w.Of (.login env username password) d es := by
  intro w hw
  simp only [loginWrites, List.mem_append] at hw
  rcases hw with (hw | hw) | hw
  · split at hw
    · obtain rfl := List.mem_singleton.mp hw
      exact ⟨user, hu, rfl⟩
    · cases hw
  · split at hw
    · obtain rfl := List.mem_singleton.mp hw
      trivial
    · cases hw
  · exact issued_of rfl w hw

theorem sweepWrites_of {hs : List TokenHash} (he : .publish (.userInvalidated id) ∈ es) :
    ∀ w ∈ ((d.tokens .access).keysWhere (·.userId = id)).map (Write.revokeToken .access) ++
      hs.map (Write.revokeToken .refresh), w.Of op d es := by
  intro w hw
  rcases List.mem_append.mp hw with hw | hw
  · obtain ⟨h, hmem, rfl⟩ := List.mem_map.mp hw
    obtain ⟨t, ht, hid⟩ := Table.mem_keysWhere.mp hmem
    exact ⟨t, .userInvalidated id, ht, he, (of_decide_eq_true hid).symm⟩
  · obtain ⟨h, -, rfl⟩ := List.mem_map.mp hw
    trivial

theorem logoutWrites_of {r : TokenHash} {a : Option TokenHash}
    (ha : ∀ h, a = some h → ((d.tokens .access).get? h).isSome ∧ .publish (.tokenRevoked h) ∈ es) :
    ∀ w ∈ logoutWrites r a, w.Of op d es := by
  refine List.forall_mem_cons.mpr ⟨trivial, fun w hw => ?_⟩
  obtain ⟨h, hmem, rfl⟩ := List.mem_map.mp hw
  obtain ⟨hsome, he⟩ := ha h (Option.mem_toList.mp hmem)
  obtain ⟨t, ht⟩ := Option.isSome_iff_exists.mp hsome
  exact ⟨t, .tokenRevoked h, ht, he, rfl⟩

theorem tables_deleteUser (hd : d.deleteUser id = .ok d') :
    d'.users = d.users.deleteWhere (·.userId = id) ∧
      d'.accessTokens = d.accessTokens.deleteWhere (·.userId = id) := by
  obtain ⟨-, -, hd⟩ := Db.deleteUser_eq_ok hd
  exact ⟨congrArg Db.users hd, congrArg Db.accessTokens hd⟩

theorem commits_deleteUser (hd : d.deleteUser id = .ok d') :
    Commits (.deleteAccount id) d d' [] := by
  have htables := tables_deleteUser hd
  have hrow {h : TokenHash} {t : Token} (ht : (d'.tokens .access).get? h = some t) :
      (d.tokens .access).get? h = some t := by
    change d'.accessTokens.get? h = some t at ht
    rw [htables.2, Table.get?_deleteWhere] at ht
    exact (Option.filter_eq_some_iff.mp ht).1
  refine ⟨fun h t ht => .inl ⟨t, hrow ht, rfl, rfl⟩, fun h hr => ?_, fun h t ht hrev => .inl ⟨t, hrow ht, hrev⟩,
    fun i hl => ?_, fun i hl => .inl fun user hu => hl user ?_⟩
  · cases ht : (d'.tokens .access).get? h with
    | none => exact .inr rfl
    | some t =>
      obtain ⟨t', ht', hrev⟩ := hr
      obtain rfl := Option.some.inj ((hrow ht).symm.trans ht')
      exact .inl ⟨t, ht, hrev⟩
  · by_cases hi : i = id
    · exact .inr (.inr (by rw [hi]))
    · refine .inl fun user hu => hl user ?_
      have hid := Table.key_of_get? hu
      rw [htables.1, Table.get?_deleteWhere, hu]
      simp [Option.filter, hid, hi]
  · rw [htables.1, Table.get?_deleteWhere] at hu
    exact (Option.filter_eq_some_iff.mp hu).1

theorem Operation.commits (hc : op.commit d = some (d', es)) : Commits op d d' es := by
  cases op with
  | register env username password =>
    obtain ⟨user, htx, rfl⟩ := committed_eq_some.mp hc
    obtain ⟨-, -, rfl, -, -, rfl⟩ := registerTx_eq_ok.mp htx
    exact commits_of_writes (List.forall_mem_cons.mpr ⟨rfl, issued_of rfl⟩)
  | login env username password =>
    obtain ⟨⟨user, b⟩, htx, rfl⟩ := committed_eq_some.mp hc
    have hu := find?_of_loginTx htx
    obtain ⟨-, -, rfl⟩ := (loginTx_eq_ok hu).mp htx
    exact commits_of_writes (loginWrites_of hu)
  | refresh env raw =>
    obtain ⟨⟨b, id⟩, htx, rfl⟩ := committed_eq_some.mp hc
    obtain ⟨-, token, -, rfl, rfl, hrest⟩ := refreshTx_eq_ok.mp htx
    split at hrest
    · next hrev =>
      obtain ⟨-, rfl⟩ := hrest
      simp only [sweep, ← Write.applyAll_append]
      exact commits_of_writes (sweepWrites_of (by simp [hrev]))
    · obtain ⟨-, -, -, -, rfl⟩ := hrest
      exact commits_of_writes (List.forall_mem_cons.mpr ⟨trivial, issued_of rfl⟩)
  | logout env raw access =>
    obtain ⟨_, htx, rfl⟩ := committed_eq_some.mp hc
    obtain ⟨-, ha, rfl⟩ := logoutTx_eq_ok htx
    exact commits_of_writes (logoutWrites_of fun h hh => ⟨ha h hh, by simp [hh]⟩)
  | deactivateAccount id =>
    obtain ⟨_, htx, rfl⟩ := committed_eq_some.mp hc
    obtain ⟨-, -, rfl⟩ := query_deactivateUser.mp htx
    have hw : ∀ w ∈ [Write.setDeactivated id true], w.Of (.deactivateAccount id) d [] :=
      List.forall_mem_singleton.mpr rfl
    exact commits_of_writes hw
  | reactivateAccount id =>
    obtain ⟨_, htx, rfl⟩ := committed_eq_some.mp hc
    obtain ⟨-, -, rfl⟩ := query_reactivateUser.mp htx
    have hw : ∀ w ∈ [Write.setDeactivated id false], w.Of (.reactivateAccount id) d [] :=
      List.forall_mem_singleton.mpr rfl
    exact commits_of_writes hw
  | deleteAccount id =>
    obtain ⟨_, htx, rfl⟩ := committed_eq_some.mp hc
    exact commits_deleteUser (deleteAccountTx_eq_ok.mp htx).2

end Messenger
