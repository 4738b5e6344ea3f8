import Messenger.Redis.Events

/-! What the events of the stream evict from the cache of a worker, from the texts that are published
to the entries that are left. -/

namespace Messenger

/-- `TokenCache._cache`: the users that are cached under the texts of token hashes. -/
abbrev CachedUsers := Table (String × User) Prod.fst

namespace CachedUsers

def evict (c : CachedUsers) (tokenHash : String) : CachedUsers := c.deleteWhere (·.1 = tokenHash)

/-- The hashes are collected before the first is dropped. -/
def evictUser (c : CachedUsers) (userId : String) : CachedUsers :=
  (c.keysWhere fun entry => entry.2.userId.str = userId).foldl evict c

/-- `handle_invalidation_event`, which raises where the event is no dictionary, or where the hash is
one that no dictionary has as a key. -/
def handleInvalidationEvent (c : CachedUsers) (eventDict : Json) : Option CachedUsers :=
  if !eventDict.isObj then none
  else if eventDict.strAt "event" = some EventType.tokenRevoked.value then
    match eventDict.get? "token_hash" with
    | some (.str tokenHash) => if tokenHash = "" then some c else some (c.evict tokenHash)
    | some (.arr (_ :: _)) | some (.obj (_ :: _)) => none
    | _ => some c
  else if eventDict.strAt "event" = some EventType.userInvalidated.value then
    match eventDict.get? "user_id" with
    | some (.str userId) => if userId = "" then some c else some (c.evictUser userId)
    -- the text of nothing else is that of an id
    | _ => some c
  else some c

/-- `publish_stream_event` on one side, and the listener with its handler on the other. -/
def receive (c : CachedUsers) (e : RedisEvent) : Option CachedUsers :=
  (Json.loads (Json.dumps e.toDict)).bind c.handleInvalidationEvent

end CachedUsers

namespace RedisEvent

def Invalidates : RedisEvent → Prop
  | tokenRevoked tokenHash => tokenHash ≠ ""
  | userInvalidated _ => True
  | _ => False

instance : DecidablePred Invalidates
  | tokenRevoked tokenHash => inferInstanceAs (Decidable (¬ tokenHash = ""))
  | userInvalidated _ => isTrue trivial
  | directMessage _ | groupMessage _ | groupMembership .. | groupDeleted _ => isFalse id

def Names (entry : String × User) : RedisEvent → Bool
  | tokenRevoked tokenHash => entry.1 = tokenHash
  | userInvalidated userId => entry.2.userId = userId
  | _ => false

end RedisEvent

namespace CachedUsers

variable {c c' : CachedUsers} {e : RedisEvent} {es : List RedisEvent}

theorem evictUser_str (c : CachedUsers) (userId : UUID) :
    c.evictUser userId.str = c.deleteWhere (·.2.userId = userId) := by
  have hfold : c.evictUser userId.str = c.deleteWhere (·.2.userId.str = userId.str) :=
    Table.foldl_deleteWhere c _
  rw [hfold]
  refine Table.deleteWhere_congr fun entry _ => decide_eq_decide.mpr ?_
  exact UUID.str_injective.eq_iff

theorem receive_eq (h : e.Invalidates) : c.receive e = some (c.deleteWhere (e.Names ·)) := by
  unfold receive
  rw [Json.loads_dumps, Option.bind_some, handleInvalidationEvent, e.isObj_toDict, e.strAt_event]
  cases e with
  | tokenRevoked tokenHash =>
    have hhash : (RedisEvent.tokenRevoked tokenHash).toDict.get? "token_hash" =
        some (.str tokenHash) := rfl
    have hne : tokenHash ≠ "" := h
    simp only [hhash, RedisEvent.event, Bool.not_true, Bool.false_eq_true, if_false, if_true, hne]
    rfl
  | userInvalidated userId =>
    have huser : (RedisEvent.userInvalidated userId).toDict.get? "user_id" =
        some (.str userId.str) := rfl
    have hother : ¬ some EventType.userInvalidated.value = some EventType.tokenRevoked.value := by
      decide
    simp only [huser, RedisEvent.event, Bool.not_true, Bool.false_eq_true, if_false, if_true, hother,
      userId.str_ne_empty, evictUser_str]
    rfl
  | directMessage | groupMessage | groupMembership | groupDeleted => exact h.elim

theorem receiveAll_eq (h : ∀ e ∈ es, e.Invalidates) :
    es.foldlM receive c = some (c.deleteWhere fun entry => es.any (·.Names entry)) := by
  induction es generalizing c with
  | nil =>
    have hnone : c.deleteWhere (fun _ => false) = c := Table.ext (by simp [Table.deleteWhere])
    exact congrArg some hnone.symm
  | cons e es ih =>
    have hfirst : c.receive e = some (c.deleteWhere (e.Names ·)) := receive_eq (h e (List.mem_cons_self ..))
    have hrest := ih (c := c.deleteWhere (e.Names ·)) fun e' he' => h e' (List.mem_cons_of_mem _ he')
    rw [List.foldlM_cons, hfirst]
    show es.foldlM receive _ = _
    rw [hrest, Table.deleteWhere_deleteWhere]
    rfl

/-- The events evict the entries that one of them names, and no others, in any order and however often
each comes. -/
theorem events_evict_what_they_name (c : CachedUsers) (es : List RedisEvent)
    (h : ∀ e ∈ es, e.Invalidates) :
    ∃ left, es.foldlM receive c = some left ∧
      (∀ entry, entry ∈ left.rows ↔ entry ∈ c.rows ∧
        (∀ tokenHash, .tokenRevoked tokenHash ∈ es → entry.1 ≠ tokenHash) ∧
        ∀ userId, .userInvalidated userId ∈ es → entry.2.userId ≠ userId) ∧
      ∀ es' : List RedisEvent, (∀ e, e ∈ es' ↔ e ∈ es) → es'.foldlM receive c = some left := by
  refine ⟨_, receiveAll_eq h, fun entry => ?_, fun es' hsame => ?_⟩
  · have hnamed : es.any (·.Names entry) = false ↔
        (∀ tokenHash, .tokenRevoked tokenHash ∈ es → entry.1 ≠ tokenHash) ∧
        ∀ userId, .userInvalidated userId ∈ es → entry.2.userId ≠ userId := by
      rw [List.any_eq_false]
      constructor
      · intro hnone
        refine ⟨fun tokenHash he hsame => hnone _ he (decide_eq_true hsame), fun userId he hsame => ?_⟩
        exact hnone _ he (decide_eq_true hsame)
      · rintro ⟨hhashes, husers⟩ e he
        cases e with
        | tokenRevoked tokenHash => simpa [RedisEvent.Names] using hhashes tokenHash he
        | userInvalidated userId => simpa [RedisEvent.Names] using husers userId he
        | directMessage | groupMessage | groupMembership | groupDeleted => exact Bool.false_ne_true
    show entry ∈ c.rows.filter _ ↔ _
    rw [List.mem_filter, Bool.not_eq_true', hnamed]
  · have hall : ∀ e ∈ es', e.Invalidates := fun e he => h e ((hsame e).mp he)
    rw [receiveAll_eq hall]
    have hany : (fun entry => es'.any (·.Names entry)) = fun entry => es.any (·.Names entry) := by
      funext entry
      rw [Bool.eq_iff_iff, List.any_eq_true, List.any_eq_true]
      exact exists_congr fun e => and_congr_left fun _ => hsame e
    rw [hany]

/-! ### The cache as a map from hashes -/

def Represents (c : CachedUsers) (cache : TokenCache) : Prop :=
  ∀ h : TokenHash, cache h = (c.get? h.str).map (·.2)

/-- What is received takes from the map what `TokenCache.handleInvalidationEvent` takes from it. -/
theorem Represents.receive {cache : TokenCache} (h : c.Represents cache) (e : SystemEvent) :
    ∃ c', c.receive e.redis = some c' ∧ c'.Represents (cache.handleInvalidationEvent e) := by
  have hinvalidates : e.redis.Invalidates := by
    cases e with
    | userInvalidated => exact trivial
    | tokenRevoked tokenHash => exact tokenHash.str_ne_empty
  refine ⟨_, receive_eq hinvalidates, fun tokenHash => ?_⟩
  rw [Table.get?_deleteWhere]
  cases hentry : c.get? tokenHash.str with
  | none =>
    have hnone : cache tokenHash = none := by rw [h, hentry, Option.map_none]
    cases e with
    | userInvalidated userId =>
      show (cache tokenHash).filter _ = none
      rw [hnone, Option.filter_none]
    | tokenRevoked tokenHash' =>
      show cache.evict tokenHash' tokenHash = none
      refine Option.eq_none_iff_forall_not_mem.mpr fun user huser => ?_
      have hkept := TokenCache.of_evict huser
      rw [hnone] at hkept
      cases hkept
  | some entry =>
    have hsome : cache tokenHash = some entry.2 := by rw [h, hentry, Option.map_some]
    have hkey : entry.1 = tokenHash.str := Table.key_of_get? hentry
    cases e with
    | userInvalidated userId =>
      show (cache tokenHash).filter _ = _
      rw [hsome]
      by_cases huser : entry.2.userId = userId <;>
        simp [SystemEvent.redis, RedisEvent.Names, Option.filter, huser]
    | tokenRevoked tokenHash' =>
      show cache.evict tokenHash' tokenHash = _
      by_cases hsame : tokenHash = tokenHash'
      · subst hsame
        simp [SystemEvent.redis, RedisEvent.Names, Option.filter, hkey]
      · have hne : tokenHash.str ≠ tokenHash'.str := TokenHash.str_injective.ne hsame
        rw [TokenCache.evict, Function.update_of_ne hsame, hsome]
        simp [SystemEvent.redis, RedisEvent.Names, Option.filter, hkey, hne]

end CachedUsers

namespace Sample

def cached : CachedUsers :=
  ⟨[("a", ⟨⟨1⟩, "ada", "secret", false, 0⟩), ("b", ⟨⟨1⟩, "ada", "secret", false, 0⟩),
    ("c", ⟨⟨2⟩, "bob", "secret", false, 0⟩)], by decide⟩

end Sample

theorem events_evict_what_they_name_twice :
    ∃ left, [.userInvalidated ⟨2⟩, .tokenRevoked "a", .userInvalidated ⟨2⟩].foldlM
        CachedUsers.receive Sample.cached = some left ∧
      ("b", ⟨⟨1⟩, "ada", "secret", false, 0⟩) ∈ left.rows ∧
      [.tokenRevoked "a", .userInvalidated ⟨2⟩].foldlM CachedUsers.receive Sample.cached =
        some left := by
  obtain ⟨left, hleft, hmem, hsame⟩ := CachedUsers.events_evict_what_they_name Sample.cached
    [.userInvalidated ⟨2⟩, .tokenRevoked "a", .userInvalidated ⟨2⟩]
    (by simp [RedisEvent.Invalidates])
  have hkept := (hmem ("b", ⟨⟨1⟩, "ada", "secret", false, 0⟩)).mpr
    ⟨.tail _ (.head _), by simp, by simp⟩
  refine ⟨left, hleft, hkept, hsame _ fun e => ?_⟩
  simp only [List.mem_cons, List.not_mem_nil, or_false]
  constructor
  · rintro (rfl | rfl)
    · exact .inr (.inl rfl)
    · exact .inl rfl
  · rintro (rfl | rfl | rfl)
    · exact .inr rfl
    · exact .inl rfl
    · exact .inr rfl

end Messenger
