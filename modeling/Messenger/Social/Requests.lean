import Messenger.Lib.ReadCommitted
import Messenger.Services.Friendship

/-! The friendship operations of any number of users at once. The primary key keeps a user from asking
twice, and nothing keeps two users from asking each other. -/

namespace Messenger
open ReadCommitted Transition FriendshipQueries

inductive FriendshipPc where
  | entered (c : FriendshipCall)
  | completed (c : FriendshipCall)
  | raised (e : Error)
  deriving DecidableEq

namespace FriendshipPc

def answered (c : FriendshipCall) : Except DbError Unit → FriendshipPc
  | .ok _ => completed c
  | .error e =>
    match c.handler (.db e) with
    | .ok _ => completed c
    | .error e => raised e

def cmd : FriendshipPc → Cmd Db (UUID × UUID) FriendshipWrite FriendshipPc
  | entered c => .exec (c.query.map (answered c))
  | completed _ => .commit
  | raised _ => .rollback

def requested : FriendshipPc → Option (UUID × UUID)
  | entered (.sendFriendRequest a b _) => some (a, b)
  | completed (.sendFriendRequest a b _) => some (a, b)
  | _ => none

end FriendshipPc

def FriendshipCall.entry (c : FriendshipCall) : FriendshipPc :=
  match c.refused with
  | some e => .raised e
  | none => .entered c

theorem FriendshipCall.writesLocked_query (c : FriendshipCall) :
    c.query.WritesLocked FriendshipWrite.target := by
  cases c with
  | sendFriendRequest a b now => exact sendFriendRequest_writesLocked a b now
  | acceptFriendRequest b a now => exact (writeFriendships_writesLocked _ fun _ => rfl).map _
  | removeOrDeclineFriendship a b => exact (writeFriendships_writesLocked _ fun _ => rfl).map _

def friendshipTransactions :
    Program Db (UUID × UUID) FriendshipWrite FriendshipCall FriendshipPc where
  apply := FriendshipWrite.apply
  target := FriendshipWrite.target
  entry := FriendshipCall.entry
  cmd := FriendshipPc.cmd
  locked pc q hq := by
    cases pc with
    | entered c =>
      cases hq
      exact c.writesLocked_query.map _
    | completed c => cases hq
    | raised e => cases hq

abbrev FriendshipSys (τ : Type) := Sys Db (UUID × UUID) FriendshipWrite τ FriendshipPc
abbrev FriendshipAct (τ : Type) := Act (UUID × UUID) τ FriendshipCall

def FriendshipSys.init {τ : Type} (d : Db) : FriendshipSys τ := { db := d }

/-- No two rows are about the same two users, and none is about one user only. -/
structure Db.OneRelationship (d : Db) : Prop where
  atMostOne : ∀ a b, (d.friendships.rows.filter (Between a b ·)).length ≤ 1
  irrefl : ∀ f ∈ d.friendships.rows, f.requesterId ≠ f.addresseeId

def Db.OneWay (d : Db) : Prop :=
  ∀ a b, (d.friendships.get? (a, b)).isSome → d.friendships.get? (b, a) = none

variable {τ : Type} [DecidableEq τ] {s s' : FriendshipSys τ} {d : Db} {t : τ} {a b : UUID}
  {now : Timestamp} {c : FriendshipCall} {ws : List FriendshipWrite}

theorem Db.OneWay.oneRelationship (h : d.OneWay) : d.OneRelationship := by
  have hirrefl : ∀ f ∈ d.friendships.rows, f.requesterId ≠ f.addresseeId := by
    intro f hf hself
    have hrow : d.friendships.get? (f.requesterId, f.addresseeId) = some f :=
      Table.get?_eq_some.mpr ⟨hf, rfl⟩
    have hback := h f.requesterId f.addresseeId (by simp [hrow])
    rw [hself] at hrow hback
    cases hrow.symm.trans hback
  refine ⟨fun a b => ?_, hirrefl⟩
  -- two rows about the pair would have the same key or crossing keys
  have hsame : ∀ f ∈ d.friendships.rows.filter (Between a b ·),
      ∀ g ∈ d.friendships.rows.filter (Between a b ·), f = g := by
    intro f hf g hg
    obtain ⟨hf, hfk⟩ := List.mem_filter.mp hf
    obtain ⟨hg, hgk⟩ := List.mem_filter.mp hg
    have hrow {f : Friendship} {k : UUID × UUID} (hf : f ∈ d.friendships.rows) (hk : f.pk = k) :
        d.friendships.get? k = some f := Table.get?_eq_some.mpr ⟨hf, hk⟩
    rcases between_iff.mp (of_decide_eq_true hfk) with hfk | hfk <;>
      rcases between_iff.mp (of_decide_eq_true hgk) with hgk | hgk
    · exact Option.some.inj ((hrow hf hfk).symm.trans (hrow hg hgk))
    · cases (hrow hg hgk).symm.trans (h a b (by simp [hrow hf hfk]))
    · cases (hrow hf hfk).symm.trans (h a b (by simp [hrow hg hgk]))
    · exact Option.some.inj ((hrow hf hfk).symm.trans (hrow hg hgk))
  have hnodup : (d.friendships.rows.filter (Between a b ·)).Nodup :=
    (d.friendships.nodup.of_map _).filter _
  rcases hrows : d.friendships.rows.filter (Between a b ·) with - | ⟨f, - | ⟨g, rest⟩⟩
  · exact Nat.zero_le 1
  · exact Nat.le_refl 1
  · rw [hrows] at hsame hnodup
    have hfg := hsame f (by simp) g (by simp)
    exact absurd (hfg ▸ List.mem_cons_self ..) (List.nodup_cons.mp hnodup).1

/-! ### What the transactions write -/

theorem query_sendFriendRequest_ok {ks : List (UUID × UUID)}
    (h : ((FriendshipQueries.sendFriendRequest a b now).run ks d).1 = .ok ()) :
    ((FriendshipQueries.sendFriendRequest a b now).run ks d).2 =
      [.insert (FriendshipCall.requestRow a b now)] := by
  simp only [FriendshipQueries.sendFriendRequest] at h ⊢
  split at h
  · cases h
  · split at h
    · cases h
    · split at h
      · cases h
      · next h₁ h₂ h₃ => simp [h₁, h₂, h₃, FriendshipCall.requestRow]

def FriendshipPc.Wrote : FriendshipPc → List FriendshipWrite → Prop
  | entered c, ws => c.refused = none ∧ ws = []
  | completed (.sendFriendRequest a b now), ws =>
    a ≠ b ∧ ws = [.insert (FriendshipCall.requestRow a b now)]
  | completed _, ws => ∀ f, .insert f ∉ ws
  | raised _, _ => True

theorem wrote_answered (hc : c.refused = none) (ks : List (UUID × UUID)) (d : Db) :
    (FriendshipPc.answered c (c.query.run ks d).1).Wrote (c.query.run ks d).2 := by
  rcases hr : (c.query.run ks d).1 with e | u
  · cases hh : c.handler (.db e) with
    | ok u => exact absurd hh FriendshipCall.handler_ne_ok
    | error e' =>
      simp only [FriendshipPc.answered, hh]
      trivial
  · cases c with
    | sendFriendRequest a b now =>
      have hne : a ≠ b := by
        rintro rfl
        simp [FriendshipCall.refused] at hc
      exact ⟨hne, query_sendFriendRequest_ok hr⟩
    | acceptFriendRequest b a now =>
      intro f hf
      obtain ⟨k, -, hk⟩ := List.mem_map.mp hf
      cases hk
    | removeOrDeclineFriendship a b =>
      intro f hf
      obtain ⟨k, -, hk⟩ := List.mem_map.mp hf
      cases hk

theorem isSome_of_applyAll {k : UUID × UUID} (hws : ∀ f, .insert f ∉ ws)
    (h : ((FriendshipWrite.applyAll ws d).friendships.get? k).isSome) :
    (d.friendships.get? k).isSome := by
  induction ws generalizing d with
  | nil => exact h
  | cons w ws ih =>
    have hrest := ih (d := w.apply d) (fun f hf => hws f (List.mem_cons_of_mem _ hf)) h
    cases w with
    | insert f => exact absurd (List.mem_cons_self ..) (hws f)
    | accept pair now => rwa [FriendshipWrite.get?_accept, Option.isSome_map] at hrest
    | delete pair =>
      rw [FriendshipWrite.get?_delete] at hrest
      split at hrest
      · cases hrest
      · exact hrest

theorem oneWay_of_subset {d' : Db} (h : d.OneWay)
    (hrows : ∀ k, (d'.friendships.get? k).isSome → (d.friendships.get? k).isSome) : d'.OneWay := by
  intro a b hab
  refine Option.not_isSome_iff_eq_none.mp fun hba => ?_
  have hnone := h a b (hrows _ hab)
  simpa [hnone] using hrows _ hba

theorem oneWay_insert (h : d.OneWay) (hne : a ≠ b) (hback : d.friendships.get? (b, a) = none) :
    ((FriendshipWrite.insert (FriendshipCall.requestRow a b now)).apply d).OneWay := by
  intro x y hxy
  rw [FriendshipWrite.get?_insert, FriendshipCall.pk_requestRow] at hxy ⊢
  by_cases hk : (a, b) = (y, x)
  · obtain ⟨rfl, rfl⟩ := Prod.mk.inj hk
    rw [hback, if_neg fun hk => hne (Prod.mk.inj hk).1] at hxy
    cases hxy
  · rw [if_neg hk, Option.or_none]
    by_cases hk' : (a, b) = (x, y)
    · obtain ⟨rfl, rfl⟩ := Prod.mk.inj hk'
      exact hback
    · rw [if_neg hk', Option.or_none] at hxy
      exact h x y hxy

/-! ### Runs -/

def FriendshipSys.request (s : FriendshipSys τ) (t : τ) : Option (UUID × UUID) :=
  (s.txn t).bind fun x => x.pc.requested

omit [DecidableEq τ] in
/-- A friend request is inserted, and is committed, only while none from the other user is stored. -/
def Uncrossed (s : FriendshipSys τ) : FriendshipAct τ → Prop
  | .lock t _ => ∀ p, s.request t = some p → s.db.friendships.get? (p.2, p.1) = none
  | .commit t => ∀ p, s.request t = some p → s.db.friendships.get? (p.2, p.1) = none
  | .begin _ _ => True
  | .start _ => True
  | .abort _ => True

instance (s : FriendshipSys τ) : ∀ act, Decidable (Uncrossed s act)
  | .lock t _ => Table.decidableOfSome (s.request t)
  | .commit t => Table.decidableOfSome (s.request t)
  | .begin _ _ => instDecidableTrue
  | .start _ => instDecidableTrue
  | .abort _ => instDecidableTrue

structure RequestsInv (s : FriendshipSys τ) : Prop where
  oneWay : s.db.OneWay
  wrote : ∀ t x, s.txn t = some x → x.pc.Wrote x.writes
  /-- An insertion locks the key it is to store. -/
  todo : ∀ t a b now n ks todo ws tr,
    s.txn t = some ⟨.entered (.sendFriendRequest a b now), .locking n ks todo, ws, tr⟩ →
      ∀ k ∈ todo, k = (a, b)

omit [DecidableEq τ] in
theorem requestsInv_init (hd : d.friendships = .empty) :
    RequestsInv (FriendshipSys.init d : FriendshipSys τ) where
  oneWay a b h := by
    change (d.friendships.get? (a, b)).isSome at h
    rw [hd] at h
    cases h
  wrote t x hx := by cases hx
  todo t a b now n ks todo ws tr hx := by cases hx

theorem RequestsInv.update (h : RequestsInv s) {x : Option (Txn (UUID × UUID) FriendshipWrite FriendshipPc)}
    (htxn : s'.txn = Function.update s.txn t x) (hdb : s'.db.OneWay)
    (hwrote : ∀ y, x = some y → y.pc.Wrote y.writes)
    (htodo : ∀ a b now n ks todo ws tr,
      x = some ⟨.entered (.sendFriendRequest a b now), .locking n ks todo, ws, tr⟩ →
        ∀ k ∈ todo, k = (a, b)) : RequestsInv s' where
  oneWay := hdb
  wrote t' y hy := by
    rw [htxn] at hy
    by_cases ht : t' = t
    · rw [ht, Function.update_self] at hy
      exact hwrote y hy
    · rw [Function.update_of_ne ht] at hy
      exact h.wrote t' y hy
  todo t' a b now n ks todo ws tr hy := by
    rw [htxn] at hy
    by_cases ht : t' = t
    · rw [ht, Function.update_self] at hy
      exact htodo a b now n ks todo ws tr hy
    · rw [Function.update_of_ne ht] at hy
      exact h.todo t' a b now n ks todo ws tr hy

theorem requestsInv_preserved : friendshipTransactions.Preserves (τ := τ)
    (fun s t => Uncrossed s (.commit t)) RequestsInv where
  begin s t c h _ := by
    refine h.update rfl h.oneWay (fun y hy => ?_) fun _ _ _ _ _ _ _ _ hx => by simp at hx
    obtain rfl := Option.some.inj hy
    change c.entry.Wrote []
    unfold FriendshipCall.entry
    split
    · trivial
    · next hc => exact ⟨hc, rfl⟩
  select s t pc ws tr q h hx hq := by
    have hwrote : pc.Wrote ws := h.wrote t _ hx
    refine h.update rfl h.oneWay (fun y hy => ?_) fun a b now n ks todo ws' tr' hy k hk => ?_
    · obtain rfl := Option.some.inj hy
      exact hwrote
    · cases hy
      cases hq
      exact List.mem_singleton.mp hk
  acquire s t k pc n ks todo ws tr h hx hk _ := by
    have hwrote : pc.Wrote ws := h.wrote t _ hx
    refine h.update rfl h.oneWay (fun y hy => ?_) fun a b now n' ks' todo' ws' tr' hy k' hk' => ?_
    · obtain rfl := Option.some.inj hy
      exact hwrote
    · cases hy
      exact h.todo t a b now n ks todo ws tr hx k' (List.mem_filter.mp hk').1
  settle s t pc n ks ws tr q h hx hq := by
    refine h.update rfl h.oneWay (fun y hy => ?_) fun _ _ _ _ _ _ _ _ hy => by simp at hy
    obtain rfl := Option.some.inj hy
    have hwrote := h.wrote t _ hx
    cases pc with
    | entered c =>
      cases hq
      obtain ⟨hc, rfl⟩ := hwrote
      exact wrote_answered hc ks _
    | completed c => cases hq
    | raised e => cases hq
  commit s t pc ws tr h hG hx hc := by
    have hwrote := h.wrote t _ hx
    refine h.update rfl ?_ (fun y hy => by cases hy) fun _ _ _ _ _ _ _ _ hy => by cases hy
    change (FriendshipWrite.applyAll ws s.db).OneWay
    cases pc with
    | entered c => cases hc
    | completed c =>
      cases c with
      | sendFriendRequest a b now =>
        -- an uncrossed commit finds no row in the other direction
        obtain ⟨hne, rfl⟩ := hwrote
        exact oneWay_insert h.oneWay hne (hG (a, b) (by simp [FriendshipSys.request, hx,
          FriendshipPc.requested]))
      | acceptFriendRequest b a now =>
        exact oneWay_of_subset h.oneWay fun k hk => isSome_of_applyAll hwrote hk
      | removeOrDeclineFriendship a b =>
        exact oneWay_of_subset h.oneWay fun k hk => isSome_of_applyAll hwrote hk
    | raised e => cases hc
  abort s t x h _ :=
    h.update rfl h.oneWay (fun _ hy => by cases hy) fun _ _ _ _ _ _ _ _ hy => by cases hy

theorem requestsInv_run {acts : List (FriendshipAct τ)} (hd : d.friendships = .empty)
    (hG : Guarded friendshipTransactions.step Uncrossed (FriendshipSys.init d) acts)
    (hr : run friendshipTransactions.step (FriendshipSys.init d) acts = some s) : RequestsInv s := by
  refine requestsInv_preserved.guarded_run (requestsInv_init hd) (hG.mono fun s act h => ?_) hr
  cases act with
  | commit t => exact h
  | _ => trivial

theorem insertion_completes {x : Txn (UUID × UUID) FriendshipWrite FriendshipPc} {k : UUID × UUID}
    (h : RequestsInv s) (hx : s.txn t = some x) (hpc : x.pc = .entered (.sendFriendRequest a b now))
    (hs : friendshipTransactions.step s (.lock t k) = some s') :
    ∃ ks x', s'.txn t = some x' ∧ x'.pc = .answered (.sendFriendRequest a b now)
      ((FriendshipQueries.sendFriendRequest a b now).run ks s.db).1 := by
  simp only [Program.step, Option.map_eq_some_iff] at hs
  obtain ⟨s₁, hs₁, rfl⟩ := hs
  obtain ⟨pc, n, ks, todo, ws, tr, hx', hk, -, rfl⟩ := Sys.acquire_eq_some hs₁
  obtain rfl := Option.some.inj (hx.symm.trans hx')
  obtain rfl : pc = .entered (.sendFriendRequest a b now) := hpc
  obtain ⟨-, rfl⟩ : _ ∧ ws = [] := h.wrote t _ hx
  have htodo := h.todo t a b now n ks todo [] tr hx
  have hlast : todo.filter (· ≠ k) = [] :=
    Sys.filter_ne_eq_nil fun k' hk' => (htodo k' hk').trans (htodo k hk).symm
  have htxn : ((s.lockRow t k).setTxn t ⟨.entered (.sendFriendRequest a b now),
      .locking n ks (todo.filter (· ≠ k)), [], tr⟩).txn t =
        some ⟨.entered (.sendFriendRequest a b now), .locking n ks [], [], tr⟩ := by
    rw [hlast]
    exact Function.update_self ..
  have hend := Program.settle_of_locked (P := friendshipTransactions) htxn rfl
  refine ⟨ks, _, (congrArg (fun s => s.txn t) hend).trans (Function.update_self ..), rfl⟩

theorem answered_sendFriendRequest (ks : List (UUID × UUID)) (ha : (d.users.get? a).isSome)
    (hb : (d.users.get? b).isSome) :
    FriendshipPc.answered (.sendFriendRequest a b now)
        ((FriendshipQueries.sendFriendRequest a b now).run ks d).1 =
      if (d.friendships.get? (a, b)).isSome then .raised (.service (.friendRequestAlreadyExists b.str))
      else .completed (.sendFriendRequest a b now) := by
  obtain ⟨u, hu⟩ := Option.isSome_iff_exists.mp ha
  obtain ⟨u', hu'⟩ := Option.isSome_iff_exists.mp hb
  cases hrow : d.friendships.get? (a, b) with
  | none => simp [FriendshipQueries.sendFriendRequest, hrow, hu, hu', FriendshipPc.answered]
  | some f =>
    simp only [FriendshipQueries.sendFriendRequest, hrow, Option.isSome_some, if_true]
    rfl

/-- In a run without crossing requests every pair of users has at most one relationship, and asking
is refused exactly when there is one. -/
theorem one_relationship_per_pair (d : Db) (hd : d.friendships = .empty) (acts : List (FriendshipAct τ))
    (s : FriendshipSys τ)
    (hG : Guarded friendshipTransactions.step Uncrossed (FriendshipSys.init d) acts)
    (hr : run friendshipTransactions.step (FriendshipSys.init d) acts = some s) :
    s.db.OneRelationship ∧
      ∀ t x a b now k s', s.txn t = some x → x.pc = .entered (.sendFriendRequest a b now) →
        Uncrossed s (.lock t k) → friendshipTransactions.step s (.lock t k) = some s' →
        (s.db.users.get? a).isSome → (s.db.users.get? b).isSome →
        ∃ x', s'.txn t = some x' ∧
          (x'.pc = .raised (.service (.friendRequestAlreadyExists b.str)) ↔
            (s.db.friendships.get? (a, b)).isSome ∨ (s.db.friendships.get? (b, a)).isSome) := by
  have hinv := requestsInv_run hd hG hr
  refine ⟨hinv.oneWay.oneRelationship, fun t x a b now k s' hx hpc huncrossed hs ha hb => ?_⟩
  obtain ⟨ks, x', hx', hpc'⟩ := insertion_completes hinv hx hpc hs
  have hback : s.db.friendships.get? (b, a) = none :=
    huncrossed (a, b) (by simp [FriendshipSys.request, hx, hpc, FriendshipPc.requested])
  refine ⟨x', hx', ?_⟩
  rw [hpc', answered_sendFriendRequest ks ha hb, hback]
  cases s.db.friendships.get? (a, b) <;> simp

namespace Sample

def twoUsers : Db :=
  Write.applyAll [.insertUser { userId := ⟨1⟩, username := "ada", passwordHash := "", createdAt := 0 },
    .insertUser { userId := ⟨2⟩, username := "bob", passwordHash := "", createdAt := 0 }] {}

def sends (t : Bool) (a b : UUID) : List (FriendshipAct Bool) :=
  [.begin t (.sendFriendRequest a b 0), .start t, .lock t (a, b), .commit t]

end Sample

theorem one_relationship_per_pair_twice :
    ∃ (s s' : FriendshipSys Bool) (x : Txn (UUID × UUID) FriendshipWrite FriendshipPc),
      run friendshipTransactions.step (FriendshipSys.init Sample.twoUsers)
        (Sample.sends false ⟨1⟩ ⟨2⟩ ++ (Sample.sends true ⟨1⟩ ⟨2⟩).take 2) = some s ∧
      s.db.OneRelationship ∧ friendshipTransactions.step s (.lock true (⟨1⟩, ⟨2⟩)) = some s' ∧
      s'.txn true = some x ∧
        (x.pc = .raised (.service (.friendRequestAlreadyExists (UUID.str ⟨2⟩))) ↔
          (s.db.friendships.get? (⟨1⟩, ⟨2⟩)).isSome ∨ (s.db.friendships.get? (⟨2⟩, ⟨1⟩)).isSome) := by
  have hguarded : Guarded friendshipTransactions.step Uncrossed
      (FriendshipSys.init (τ := Bool) Sample.twoUsers)
      (Sample.sends false ⟨1⟩ ⟨2⟩ ++ (Sample.sends true ⟨1⟩ ⟨2⟩).take 2) := by decide
  obtain ⟨s, hs, s', hs', x, hx, hpc, huncrossed, ha, hb⟩ :
      ∃ s ∈ run friendshipTransactions.step (FriendshipSys.init Sample.twoUsers)
        (Sample.sends false ⟨1⟩ ⟨2⟩ ++ (Sample.sends true ⟨1⟩ ⟨2⟩).take 2),
        ∃ _ ∈ friendshipTransactions.step s (.lock true (⟨1⟩, ⟨2⟩)), ∃ x ∈ s.txn true,
        x.pc = .entered (.sendFriendRequest ⟨1⟩ ⟨2⟩ 0) ∧ Uncrossed s (.lock true (⟨1⟩, ⟨2⟩)) ∧
        (s.db.users.get? ⟨1⟩).isSome ∧ (s.db.users.get? ⟨2⟩).isSome := by decide
  obtain ⟨hone, hasks⟩ := one_relationship_per_pair Sample.twoUsers rfl _ s hguarded hs
  obtain ⟨x', hx', hraised⟩ := hasks true x ⟨1⟩ ⟨2⟩ 0 (⟨1⟩, ⟨2⟩) s' hx hpc huncrossed hs' ha hb
  exact ⟨s, s', x', hs, hone, hs', hx', hraised⟩

/-- Two users ask each other, and both requests are stored. -/
theorem not_one_relationship_per_pair :
    ∃ s : FriendshipSys Bool, run friendshipTransactions.step (FriendshipSys.init Sample.twoUsers)
      (Sample.sends false ⟨1⟩ ⟨2⟩ ++ Sample.sends true ⟨2⟩ ⟨1⟩) = some s ∧
        ¬ s.db.OneRelationship := by
  obtain ⟨s, hs, hlength⟩ :
      ∃ s ∈ run friendshipTransactions.step (FriendshipSys.init Sample.twoUsers)
        (Sample.sends false ⟨1⟩ ⟨2⟩ ++ Sample.sends true ⟨2⟩ ⟨1⟩),
        (s.db.friendships.rows.filter (Between ⟨1⟩ ⟨2⟩ ·)).length = 2 := by decide
  refine ⟨s, hs, fun hone => ?_⟩
  have hle := hone.atMostOne ⟨1⟩ ⟨2⟩
  rw [hlength] at hle
  exact absurd hle (by decide)

end Messenger
