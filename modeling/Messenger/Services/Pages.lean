import Messenger.Lib.Paging
import Messenger.Realtime.Ordering
import Messenger.Services.Messaging

/-! Reading a whole conversation page by page with `get_dm_history` or `get_group_history`, each page
asked for with the time of the last message of the page before. -/

namespace Messenger
open Paging Transactional

namespace MessagingService

section

variable {α : Type} {overrides : Entity → Option Handler} {kwargs : Kwargs} {m : MessagingOp α}
  {body : MessagingTx α} {f : Faults MessagingAwait Error} {w : MessagingState} {a : α}

theorem decorated_eq_ok (h : (decorated overrides kwargs m f w).1 = .ok a) : (m f w).1 = .ok a := by
  rcases hm : m f w with ⟨e | a', w'⟩
  · have hinner : Op.handle (handleDbNotFoundError overrides (fun _ => none) kwargs) m f w =
        (handleDbNotFoundError overrides (fun _ => none) kwargs e, w') := Op.handle_of_error hm
    cases hhandled : (handleDbNotFoundError overrides (fun _ => none) kwargs e : Except Error α) with
    | error e' =>
      rw [decorated_of_error hm hhandled] at h
      exact absurd h handleDbConstraintError_ne_ok
    | ok a' =>
      obtain ⟨_, _, _, hsuppressed⟩ := handleDbNotFoundError_eq_ok hhandled
      cases hsuppressed
  · rw [decorated_of_ok hm] at h
    exact h

theorem connection_eq_ok (h : (connection body f w).1 = .ok a) : ∃ d, body f w.db = .ok (a, d) := by
  unfold connection at h
  split at h
  · next a' d hrun =>
    obtain rfl := Except.ok.inj h
    obtain ⟨_, d₁, hacquire, hbody⟩ := Tx.bind_eq_ok.mp hrun
    obtain ⟨-, rfl⟩ := Tx.await_eq_ok.mp hacquire
    exact ⟨d, hbody⟩
  · cases h

end

variable {env : MessagingEnv} {actor other group : UUID} {before : Option Timestamp} {limit : ℕ}
  {f : Faults MessagingAwait Error} {w : MessagingState}

theorem getDmHistory_eq_ok {page : List DirectMessage}
    (h : (getDmHistory env actor other before limit f w).1 = .ok page) :
    page = MessageQueries.getDmConversationHistory env.conversation actor other
      (before.getD env.now) limit w.db := by
  obtain ⟨d, hbody⟩ := connection_eq_ok (decorated_eq_ok h)
  obtain ⟨_, d₁, hfriends, hfetch⟩ := Tx.bind_eq_ok.mp hbody
  obtain ⟨friendship, d₂, hstatus, hrest⟩ := Tx.bind_eq_ok.mp hfriends
  obtain ⟨-, rfl⟩ := fetch_eq_ok hstatus
  obtain ⟨hpage, rfl⟩ := fetch_eq_ok hfetch
  -- the friendship is only read
  have hd : d = w.db := by
    split at hrest
    · exact absurd hrest Tx.throw_eq_ok
    · exact (Tx.pure_eq_ok.mp hrest).2.symm
  rw [← hd]
  exact (Except.ok.inj hpage).symm

theorem getGroupHistory_eq_ok {page : List GroupMessage}
    (h : (getGroupHistory env actor group before limit f w).1 = .ok page) :
    page = MessageQueries.getGroupMessagesTimeline env.timeline group (before.getD env.now) limit w.db := by
  obtain ⟨d, hbody⟩ := connection_eq_ok (decorated_eq_ok h)
  obtain ⟨_, d₁, hmember, hfetch⟩ := Tx.bind_eq_ok.mp hbody
  obtain ⟨-, rfl⟩ := fetch_eq_ok hmember
  obtain ⟨hpage, -⟩ := fetch_eq_ok hfetch
  exact (Except.ok.inj hpage).symm

end MessagingService

namespace NewestFirst

variable {ρ : Type} {createdAt : ρ → Timestamp} (order : NewestFirst ρ createdAt)

theorem page (rows : List ρ) (limit : ℕ) : Page createdAt limit rows ((order.sort rows).take limit)
    ((order.sort rows).drop limit) :=
  .of_descending (order.perm rows) (order.sorted rows)

end NewestFirst

def directConversation (a b : UUID) (d : Db) : List DirectMessage :=
  d.directMessages.rows.filter fun m =>
    (m.senderId = a && m.recipientId = b) || (m.senderId = b && m.recipientId = a)

def groupConversation (groupId : UUID) (d : Db) : List GroupMessage :=
  d.groupMessages.rows.filter fun m => m.groupId = groupId

/-- What a client asks for, and what each of the calls finds: `Query(ge=1, le=100)` is the check of the
router. -/
structure Fetches where
  first : Option Timestamp
  limit : ℕ
  limit_ge : 1 ≤ limit
  limit_le : limit ≤ 100
  env : ℕ → MessagingEnv
  db : ℕ → Db
  faults : ℕ → Faults MessagingAwait Error

namespace Fetches
open MessagingService

variable {ρ : Type} (p : Fetches)

def direct (actorId recipientId : UUID) (i : ℕ) (before : Option Timestamp) :
    Except Error (List DirectMessage) :=
  (getDmHistory (p.env i) actorId recipientId before p.limit (p.faults i) { db := p.db i }).1

def group (actorId groupId : UUID) (i : ℕ) (before : Option Timestamp) :
    Except Error (List GroupMessage) :=
  (getGroupHistory (p.env i) actorId groupId before p.limit (p.faults i) { db := p.db i }).1

/-- Paging starts after every stored message, only newer ones are stored meanwhile, and no call raises. -/
structure Proper (conversation : Db → List ρ) (createdAt : ρ → Timestamp)
    (call : ℕ → Option Timestamp → Except Error (List ρ)) : Prop where
  cutoff : ∀ m ∈ conversation (p.db 0), createdAt m < p.first.getD (p.env 0).now
  newer : ∀ i, ∃ newer, (conversation (p.db i)).Perm (conversation (p.db 0) ++ newer) ∧
    ∀ m ∈ conversation (p.db 0), ∀ m' ∈ newer, createdAt m ≤ createdAt m'
  answered : ∀ i before, ∃ page, call i before = .ok page

def GivesPages (conversation : Db → List ρ) (createdAt : ρ → Timestamp)
    (call : ℕ → Option Timestamp → Except Error (List ρ)) : Prop :=
  ∀ i before page, call i before = .ok page → ∃ rest, Page createdAt p.limit
    ((conversation (p.db i)).filter fun m => createdAt m < before.getD (p.env i).now) page rest

variable {p} {conversation : Db → List ρ} {createdAt : ρ → Timestamp}
  {call : ℕ → Option Timestamp → Except Error (List ρ)}

theorem Proper.answers (h : p.Proper conversation createdAt call)
    (hpages : p.GivesPages conversation createdAt call) :
    Answers createdAt p.limit call (conversation (p.db 0)) := by
  intro i m hm
  obtain ⟨page, hpage⟩ := h.answered (i + 1) (some (createdAt m))
  obtain ⟨rest, hrest⟩ := hpages _ _ page hpage
  obtain ⟨newer, hperm, hnewer⟩ := h.newer (i + 1)
  refine ⟨page, rest, hpage, hrest.of_perm ((hperm.filter _).trans ?_)⟩
  have hnone : newer.filter (fun m' => createdAt m' < createdAt m) = [] :=
    List.filter_eq_nil_iff.mpr fun m' hm' => by simpa using hnewer m hm m' hm'
  rw [List.filter_append, Option.getD_some, hnone, List.append_nil]

theorem Proper.showsEach_iff [DecidableEq ρ] (h : p.Proper conversation createdAt call)
    (hpages : p.GivesPages conversation createdAt call) (hnodup : (conversation (p.db 0)).Nodup) :
    ShowsEach createdAt p.limit call p.first (conversation (p.db 0)) ↔
      Aligned p.limit (keys createdAt (conversation (p.db 0))) := by
  obtain ⟨page, hpage⟩ := h.answered 0 p.first
  obtain ⟨rest, hrest⟩ := hpages _ _ page hpage
  have hall : (conversation (p.db 0)).filter (fun m => createdAt m < p.first.getD (p.env 0).now) =
      conversation (p.db 0) := List.filter_eq_self.mpr fun m hm => by simpa using h.cutoff m hm
  rw [hall] at hrest
  exact Paging.showsEach_iff hnodup p.limit_ge hpage hrest (h.answers hpages)

end Fetches

/-! ### The two queries -/

namespace MessageQueries

theorem directConversation_perm {a b : UUID} (hne : a ≠ b) (before : Timestamp) (d : Db) :
    ((d.directMessages.rows.filter fun m =>
        m.senderId = a && m.recipientId = b && decide (m.createdAt < before)) ++
      d.directMessages.rows.filter fun m =>
        m.senderId = b && m.recipientId = a && decide (m.createdAt < before)).Perm
    ((directConversation a b d).filter fun m => m.createdAt < before) := by
  have hto : ((directConversation a b d).filter fun m => m.createdAt < before).filter
        (fun m => m.senderId = a && m.recipientId = b) =
      d.directMessages.rows.filter fun m =>
        m.senderId = a && m.recipientId = b && decide (m.createdAt < before) := by
    simp only [directConversation, List.filter_filter]
    refine List.filter_congr fun m _ => ?_
    grind
  have hfrom : ((directConversation a b d).filter fun m => m.createdAt < before).filter
        (fun m => !(m.senderId = a && m.recipientId = b)) =
      d.directMessages.rows.filter fun m =>
        m.senderId = b && m.recipientId = a && decide (m.createdAt < before) := by
    simp only [directConversation, List.filter_filter]
    refine List.filter_congr fun m _ => ?_
    grind
  rw [← hto, ← hfrom]
  exact List.filter_append_perm _ _

theorem page_getDmConversationHistory (order : NewestFirst DirectMessage (·.createdAt)) {a b : UUID}
    (hne : a ≠ b) (before : Timestamp) (limit : ℕ) (d : Db) : ∃ rest,
    Page (·.createdAt) limit ((directConversation a b d).filter fun m => m.createdAt < before)
      (getDmConversationHistory order a b before limit d) rest := by
  have hto := order.page (d.directMessages.rows.filter fun m =>
    m.senderId = a && m.recipientId = b && decide (m.createdAt < before)) limit
  have hfrom := order.page (d.directMessages.rows.filter fun m =>
    m.senderId = b && m.recipientId = a && decide (m.createdAt < before)) limit
  have hmerged := hto.merge hfrom (order.page (directMessagesTo order a b before limit d ++
    directMessagesTo order b a before limit d) limit)
  exact ⟨_, hmerged.of_perm (directConversation_perm hne before d)⟩

theorem page_getGroupMessagesTimeline (order : NewestFirst GroupMessage (·.createdAt)) (group : UUID)
    (before : Timestamp) (limit : ℕ) (d : Db) : ∃ rest,
    Page (·.createdAt) limit ((groupConversation group d).filter fun m => m.createdAt < before)
      (getGroupMessagesTimeline order group before limit d) rest := by
  have hpage := order.page (d.groupMessages.rows.filter fun m =>
    m.groupId = group && decide (m.createdAt < before)) limit
  have hrows : (d.groupMessages.rows.filter fun m =>
      m.groupId = group && decide (m.createdAt < before)) =
      (groupConversation group d).filter fun m => m.createdAt < before := by
    simp only [groupConversation, List.filter_filter]
    exact List.filter_congr fun m _ => Bool.and_comm ..
  exact ⟨_, hpage.of_perm (hrows ▸ .refl _)⟩

end MessageQueries

namespace Fetches
open MessageQueries MessagingService

variable {p : Fetches}

theorem givesPages_direct {actor other : UUID} (hne : actor ≠ other) :
    p.GivesPages (directConversation actor other) (·.createdAt) (p.direct actor other) := by
  intro i before page hpage
  rw [getDmHistory_eq_ok hpage]
  exact page_getDmConversationHistory _ hne _ _ _

theorem givesPages_group {actor group : UUID} :
    p.GivesPages (groupConversation group) (·.createdAt) (p.group actor group) := by
  intro i before page hpage
  rw [getGroupHistory_eq_ok hpage]
  exact page_getGroupMessagesTimeline _ _ _ _ _

/-- Paging through a conversation shows every message that was stored at its start exactly once, and in
order, if and only if no page ends between two messages of one time. -/
theorem history_shows_each_iff (p : Fetches) (actor other group : UUID) :
    (actor ≠ other → p.Proper (directConversation actor other) (·.createdAt) (p.direct actor other) →
      (ShowsEach (·.createdAt) p.limit (p.direct actor other) p.first
          (directConversation actor other (p.db 0)) ↔
        Aligned p.limit (keys (·.createdAt) (directConversation actor other (p.db 0))))) ∧
    (p.Proper (groupConversation group) (·.createdAt) (p.group actor group) →
      (ShowsEach (·.createdAt) p.limit (p.group actor group) p.first (groupConversation group (p.db 0)) ↔
        Aligned p.limit (keys (·.createdAt) (groupConversation group (p.db 0))))) := by
  constructor
  · intro hne hproper
    exact hproper.showsEach_iff (givesPages_direct hne) ((p.db 0).directMessages.nodup.of_map.filter _)
  · intro hproper
    exact hproper.showsEach_iff givesPages_group ((p.db 0).groupMessages.nodup.of_map.filter _)

end Fetches

namespace Sample

/-- A message of user 1 to their friend, and an answer at the time `t`. -/
def conversation (t : Timestamp) : Db :=
  { friends with
    directMessages :=
      ⟨[⟨⟨3⟩, ⟨1⟩, ⟨2⟩, "hello", 1⟩, ⟨⟨4⟩, ⟨2⟩, ⟨1⟩, "hi", t⟩],
        show ([⟨3⟩, ⟨4⟩] : List UUID).Nodup by decide⟩ }

def onePerPage (t : Timestamp) : Fetches where
  first := some 3
  limit := 1
  limit_ge := by decide
  limit_le := by decide
  env := fun _ => ⟨3, ⟨5⟩, .prefer friendship, .stable _, .stable _⟩
  db := fun _ => conversation t
  faults := fun _ _ => none

theorem proper_onePerPage {t : Timestamp} (ht : t < 3) :
    (onePerPage t).Proper (directConversation ⟨1⟩ ⟨2⟩) (·.createdAt)
      ((onePerPage t).direct ⟨1⟩ ⟨2⟩) where
  cutoff := by
    show ∀ m ∈ [_, _], _
    simpa [onePerPage] using ht
  newer := fun _ => ⟨[], by rw [List.append_nil]; exact .refl _, nofun⟩
  answered := fun _ _ => ⟨_, rfl⟩

end Sample
open Sample

theorem history_shows_each_onePerPage :
    ShowsEach (·.createdAt) 1 ((onePerPage 2).direct ⟨1⟩ ⟨2⟩) (some 3)
      (directConversation ⟨1⟩ ⟨2⟩ (conversation 2)) := by
  have hkeys : keys (·.createdAt) (directConversation ⟨1⟩ ⟨2⟩ (conversation 2)) = [2, 1] := by decide
  refine ((onePerPage 2).history_shows_each_iff ⟨1⟩ ⟨2⟩ ⟨7⟩).1 (by decide)
    (proper_onePerPage (by decide)) |>.mpr ?_
  show Aligned 1 (keys (·.createdAt) (directConversation ⟨1⟩ ⟨2⟩ (conversation 2)))
  rw [hkeys]
  intro i k hfirst hsecond
  cases i with
  | zero =>
    obtain rfl := Option.some.inj hfirst
    cases Option.some.inj hsecond
  | succ i => cases hsecond

/-- Two messages of one time, of which the second page misses one. -/
theorem not_showsEach_onePerPage :
    (onePerPage 1).Proper (directConversation ⟨1⟩ ⟨2⟩) (·.createdAt) ((onePerPage 1).direct ⟨1⟩ ⟨2⟩) ∧
      ¬ ShowsEach (·.createdAt) 1 ((onePerPage 1).direct ⟨1⟩ ⟨2⟩) (some 3)
        (directConversation ⟨1⟩ ⟨2⟩ (conversation 1)) := by
  have hproper := proper_onePerPage (t := 1) (by decide)
  have hkeys : keys (·.createdAt) (directConversation ⟨1⟩ ⟨2⟩ (conversation 1)) = [1, 1] := by decide
  refine ⟨hproper, fun hshows => ?_⟩
  have haligned : Aligned 1 (keys (·.createdAt) (directConversation ⟨1⟩ ⟨2⟩ (conversation 1))) :=
    (hproper.showsEach_iff (Fetches.givesPages_direct (by decide))
      ((conversation 1).directMessages.nodup.of_map.filter _)).mp hshows
  rw [hkeys] at haligned
  exact haligned 0 1 rfl rfl (Nat.one_dvd _)

end Messenger
