import Messenger.Database.AuthQueries

/-! The statements of `queries.py` over the `friendships` table. The primary key of a row is the
ordered pair of its users, while the reads and `remove_friendship` look for a pair in both orders. -/

namespace Messenger
open ReadCommitted

inductive FriendshipWrite where
  | insert (f : Friendship)
  | accept (pair : UUID × UUID) (now : Timestamp)
  | delete (pair : UUID × UUID)
  deriving DecidableEq

/-- `SET accepted = TRUE, updated_at = NOW()`. -/
def Friendship.accept (f : Friendship) (now : Timestamp) : Friendship :=
  { f with accepted := true, updatedAt := now }

namespace FriendshipWrite

def target : FriendshipWrite → UUID × UUID
  | insert f => f.pk
  | accept pair _ => pair
  | delete pair => pair

def apply : FriendshipWrite → Db → Db
  | insert f, d => { d with friendships := d.friendships.insertNew f }
  | accept pair now, d =>
    { d with friendships := d.friendships.updateWhere (·.pk = pair) (·.accept now) fun _ => rfl }
  | delete pair, d => { d with friendships := d.friendships.deleteWhere (·.pk = pair) }

def applyAll (ws : List FriendshipWrite) (d : Db) : Db := ws.foldl (fun d w => w.apply d) d

variable {d : Db} {k pair : UUID × UUID} {f : Friendship}

@[simp] theorem users_apply (w : FriendshipWrite) (d : Db) : (w.apply d).users = d.users := by
  cases w <;> rfl

@[simp] theorem users_applyAll (ws : List FriendshipWrite) (d : Db) :
    (applyAll ws d).users = d.users := by
  induction ws generalizing d with
  | nil => rfl
  | cons w ws ih => exact (ih (w.apply d)).trans (users_apply w d)

theorem applyAll_eq (ws : List FriendshipWrite) (d : Db) :
    ∃ friendships, applyAll ws d = { d with friendships } := by
  induction ws generalizing d with
  | nil => exact ⟨d.friendships, rfl⟩
  | cons w ws ih =>
    obtain ⟨first, hfirst⟩ : ∃ friendships, w.apply d = { d with friendships } := by
      cases w <;> exact ⟨_, rfl⟩
    obtain ⟨rest, hrest⟩ := ih (w.apply d)
    refine ⟨rest, ?_⟩
    show applyAll ws (w.apply d) = _
    rw [hrest, hfirst]

theorem get?_insert (d : Db) (f : Friendship) (k : UUID × UUID) :
    ((insert f).apply d).friendships.get? k =
      (d.friendships.get? k).or (if f.pk = k then some f else none) :=
  Table.get?_insertNew ..

theorem get?_accept (d : Db) (pair k : UUID × UUID) (now : Timestamp) :
    ((accept pair now).apply d).friendships.get? k =
      (d.friendships.get? k).map fun f => if k = pair then f.accept now else f := by
  refine (Table.get?_updateWhere d.friendships (·.pk = pair) (·.accept now) (fun _ => rfl) k).trans
    (Option.map_congr fun f hf => ?_)
  simp only [decide_eq_true_eq, Table.key_of_get? hf]

theorem get?_delete (d : Db) (pair k : UUID × UUID) :
    ((delete pair).apply d).friendships.get? k = if k = pair then none else d.friendships.get? k := by
  simp only [apply, Table.get?_deleteWhere]
  cases hf : d.friendships.get? k with
  | none => simp
  | some f => by_cases hk : k = pair <;> simp [Option.filter, Table.key_of_get? hf, hk]

theorem get?_applyAll_delete (pairs : List (UUID × UUID)) (d : Db) (k : UUID × UUID) :
    (applyAll (pairs.map delete) d).friendships.get? k =
      if k ∈ pairs then none else d.friendships.get? k := by
  induction pairs generalizing d with
  | nil => simp [applyAll]
  | cons pair pairs ih =>
    have hrest := ih ((delete pair).apply d)
    simp only [applyAll, List.map_cons, List.foldl_cons] at hrest ⊢
    rw [hrest, get?_delete]
    by_cases hk : k ∈ pairs <;> simp [hk]

end FriendshipWrite

abbrev FriendshipQuery (α : Type) := Stmt Db (UUID × UUID) FriendshipWrite (Except DbError α)

/-- Which of the rows that a query selects is returned for `LIMIT 1` without an `ORDER BY`. -/
structure RowChoice (ρ : Type) where
  pick : List ρ → Option ρ
  pick_mem : ∀ {rows r}, pick rows = some r → r ∈ rows
  pick_isSome : ∀ {rows r}, r ∈ rows → (pick rows).isSome

namespace RowChoice

def prefer {ρ : Type} [DecidableEq ρ] (r : ρ) : RowChoice ρ where
  pick rows := if r ∈ rows then some r else rows.head?
  pick_mem := by
    intro rows r' h
    split at h
    · next hr => exact Option.some.inj h ▸ hr
    · exact List.mem_of_mem_head? h
  pick_isSome := by
    intro rows r' h
    split
    · rfl
    · exact List.isSome_head?.mpr (List.ne_nil_of_mem h)

end RowChoice

namespace FriendshipQueries

def Between (a b : UUID) (f : Friendship) : Prop :=
  (f.requesterId = a ∧ f.addresseeId = b) ∨ (f.requesterId = b ∧ f.addresseeId = a)

instance (a b : UUID) (f : Friendship) : Decidable (Between a b f) :=
  inferInstanceAs (Decidable (_ ∨ _))

/-- `FRIENDSHIP_STATUS`: whichever row comes first, accepted or not. -/
def getFriendshipStatus (limitOne : RowChoice Friendship) (a b : UUID) (d : Db) :
    Except DbError Friendship :=
  match limitOne.pick (d.friendships.rows.filter (Between a b ·)) with
  | some f => .ok f
  | none => .error (.notFound .friendship (a.str ++ " <-> " ++ b.str))

def listAcceptedFriends (id : UUID) (d : Db) : List Friendship :=
  d.friendships.rows.filter (fun f => f.requesterId = id && f.accepted) ++
    d.friendships.rows.filter fun f => f.addresseeId = id && f.accepted

/-- The primary key is tested before the foreign keys, of which the requester's comes first. -/
def sendFriendRequest (requesterId addresseeId : UUID) (now : Timestamp) : FriendshipQuery Unit where
  rows _ := [(requesterId, addresseeId)]
  run _ d :=
    if (d.friendships.get? (requesterId, addresseeId)).isSome then
      (.error (.constraintViolation "friendships" .pkFriendships), [])
    else if (d.users.get? requesterId).isNone then
      (.error (.constraintViolation "friendships" .fkFriendshipsRequesterId), [])
    else if (d.users.get? addresseeId).isNone then
      (.error (.constraintViolation "friendships" .fkFriendshipsAddresseeId), [])
    else
      (.ok (), [.insert { requesterId, addresseeId, createdAt := now, updatedAt := now }])

/-- An `UPDATE` or `DELETE` of friendships. A row that was waited for is tested again. -/
def writeFriendships (p : Friendship → Bool) (write : UUID × UUID → FriendshipWrite) :
    Stmt Db (UUID × UUID) FriendshipWrite ℕ where
  rows d := d.friendships.keysWhere p
  run ks d :=
    let hit := (d.friendships.keysWhere p).filter (· ∈ ks)
    (hit.length, hit.map write)

def acceptFriendRequest (requesterId addresseeId : UUID) (now : Timestamp) : FriendshipQuery Unit :=
  (writeFriendships (·.pk = (requesterId, addresseeId)) (.accept · now)).map
    (Queries.requireRows .friendship (requesterId.str ++ ", " ++ addresseeId.str))

def removeFriendship (a b : UUID) : FriendshipQuery Unit :=
  (writeFriendships (Between a b ·) .delete).map
    (Queries.requireRows .friendship (a.str ++ ", " ++ b.str))

theorem sendFriendRequest_writesLocked (r a : UUID) (now : Timestamp) :
    (sendFriendRequest r a now).WritesLocked FriendshipWrite.target := by
  intro d₀ d w hw
  simp only [sendFriendRequest] at hw
  split at hw
  · cases hw
  · split at hw
    · cases hw
    · split at hw
      · cases hw
      · obtain rfl := List.mem_singleton.mp hw
        exact List.mem_cons_self ..

theorem writeFriendships_writesLocked (p : Friendship → Bool)
    {write : UUID × UUID → FriendshipWrite} (hwrite : ∀ pair, (write pair).target = pair) :
    (writeFriendships p write).WritesLocked FriendshipWrite.target := by
  intro d₀ d w hw
  obtain ⟨pair, hpair, rfl⟩ := List.mem_map.mp hw
  rw [hwrite]
  exact of_decide_eq_true (List.mem_filter.mp hpair).2

variable {d : Db} {a b : UUID} {f : Friendship}

theorem between_iff : Between a b f ↔ f.pk = (a, b) ∨ f.pk = (b, a) := by
  simp only [Between, Friendship.pk, Prod.mk.injEq]

theorem mem_keysWhere_between {k : UUID × UUID} :
    k ∈ d.friendships.keysWhere (Between a b ·) ↔
      (k = (a, b) ∨ k = (b, a)) ∧ (d.friendships.get? k).isSome := by
  simp only [Table.mem_keysWhere, decide_eq_true_eq, between_iff]
  constructor
  · rintro ⟨f, hf, hk⟩
    rw [Table.key_of_get? hf] at hk
    exact ⟨hk, Option.isSome_iff_exists.mpr ⟨f, hf⟩⟩
  · rintro ⟨hk, hf⟩
    obtain ⟨f, hf⟩ := Option.isSome_iff_exists.mp hf
    exact ⟨f, hf, by rwa [Table.key_of_get? hf]⟩

theorem mem_filter_between : f ∈ d.friendships.rows.filter (Between a b ·) ↔
    d.friendships.get? (a, b) = some f ∨ d.friendships.get? (b, a) = some f := by
  rw [List.mem_filter, decide_eq_true_eq, between_iff, Table.get?_eq_some, Table.get?_eq_some,
    and_or_left]

theorem getFriendshipStatus_eq_ok {limitOne : RowChoice Friendship}
    (h : getFriendshipStatus limitOne a b d = .ok f) :
    d.friendships.get? (a, b) = some f ∨ d.friendships.get? (b, a) = some f := by
  unfold getFriendshipStatus at h
  split at h
  · next f' hpick =>
    obtain rfl := Except.ok.inj h
    exact mem_filter_between.mp (limitOne.pick_mem hpick)
  · cases h

theorem getFriendshipStatus_of_some (limitOne : RowChoice Friendship)
    (h : d.friendships.get? (a, b) = some f ∨ d.friendships.get? (b, a) = some f) :
    ∃ f', getFriendshipStatus limitOne a b d = .ok f' := by
  obtain ⟨f', hf'⟩ := Option.isSome_iff_exists.mp (limitOne.pick_isSome (mem_filter_between.mpr h))
  exact ⟨f', by simp only [getFriendshipStatus, hf']⟩

theorem getFriendshipStatus_prefer
    (h : d.friendships.get? (a, b) = some f ∨ d.friendships.get? (b, a) = some f) :
    getFriendshipStatus (.prefer f) a b d = .ok f := by
  simp only [getFriendshipStatus, RowChoice.prefer, if_pos (mem_filter_between.mpr h)]

theorem getFriendshipStatus_eq_error {limitOne : RowChoice Friendship} {e : DbError}
    (h : getFriendshipStatus limitOne a b d = .error e) :
    e = .notFound .friendship (a.str ++ " <-> " ++ b.str) := by
  unfold getFriendshipStatus at h
  split at h
  · cases h
  · exact (Except.error.inj h).symm

end FriendshipQueries
end Messenger
