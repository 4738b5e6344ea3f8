import Mathlib.Data.Prod.Lex
import Messenger.Services.Pages

/-! `DM_CONVERSATION_HISTORY` cuts each direction of a conversation to the limit before it merges the
two. What it may answer is what the plain query over the whole conversation may answer. -/

namespace Messenger
open Paging

namespace NewestFirst

variable {ρ : Type}

def rankedKey (createdAt : ρ → Timestamp) (rank : ρ → ℕ) (r : ρ) : Timestamp ×ₗ ℕᵒᵈ :=
  toLex (createdAt r, OrderDual.toDual (rank r))

def ranked (createdAt : ρ → Timestamp) (rank : ρ → ℕ) : NewestFirst ρ createdAt where
  sort := List.insertionSort fun r r' => rankedKey createdAt rank r' ≤ rankedKey createdAt rank r
  perm := List.perm_insertionSort _
  sorted := fun rows => by
    have : Std.Total fun r r' => rankedKey createdAt rank r' ≤ rankedKey createdAt rank r :=
      ⟨fun _ _ => le_total _ _⟩
    have : IsTrans ρ fun r r' => rankedKey createdAt rank r' ≤ rankedKey createdAt rank r :=
      ⟨fun _ _ _ h h' => h'.trans h⟩
    refine (List.pairwise_insertionSort _ rows).imp fun {r r'} hle => ?_
    exact Prod.Lex.monotone_fst _ _ hle

end NewestFirst

namespace NewestFirst

variable {ρ : Type} {createdAt : ρ → Timestamp} {rank : ρ → ℕ}

theorem page_ranked (rows : List ρ) (limit : ℕ) :
    Page (rankedKey createdAt rank) limit rows (((ranked createdAt rank).sort rows).take limit)
      (((ranked createdAt rank).sort rows).drop limit) := by
  have : Std.Total fun r r' => rankedKey createdAt rank r' ≤ rankedKey createdAt rank r :=
    ⟨fun _ _ => le_total _ _⟩
  have : IsTrans ρ fun r r' => rankedKey createdAt rank r' ≤ rankedKey createdAt rank r :=
    ⟨fun _ _ _ h h' => h'.trans h⟩
  exact .of_descending (List.perm_insertionSort _ rows) (List.pairwise_insertionSort _ rows)

theorem page_rankedKey {limit : ℕ} {rows page rest : List ρ} (h : Page createdAt limit rows page rest)
    (hpage : page.Pairwise fun r r' => rank r ≤ rank r')
    (hrest : ∀ r ∈ page, ∀ r' ∈ rest, rank r ≤ rank r') :
    Page (rankedKey createdAt rank) limit rows page rest := by
  have hle {r r' : ρ} (htime : createdAt r' ≤ createdAt r) (hrank : rank r ≤ rank r') :
      rankedKey createdAt rank r' ≤ rankedKey createdAt rank r :=
    Prod.Lex.toLex_mono (Prod.mk_le_mk.mpr ⟨htime, OrderDual.toDual_le_toDual.mpr hrank⟩)
  refine ⟨h.perm, ?_, fun r hr r' hr' => hle (h.above r hr r' hr') (hrest r hr r' hr'), h.length_le,
    h.full⟩
  exact (h.descending.and hpage).imp fun hboth => hle hboth.1 hboth.2

def placeIn [DecidableEq ρ] (answer rows : List ρ) (r : ρ) : ℕ := (answer ++ rows).idxOf r

variable [DecidableEq ρ] {limit : ℕ} {rows answer : List ρ} {r r' : ρ}

theorem placeIn_inj (hr : r ∈ rows) (h : placeIn answer rows r = placeIn answer rows r') : r = r' :=
  (List.idxOf_inj (List.mem_append_right answer hr)).mp h

theorem placeIn_getElem (h : answer.Nodup) {i : ℕ} (hi : i < answer.length) :
    placeIn answer rows answer[i] = i := by
  have hmem : answer[i] ∈ answer := List.getElem_mem hi
  rw [placeIn, List.idxOf_append_of_mem hmem, h.idxOf_getElem i hi]

theorem placeIn_lt (hr : r ∈ answer) (hr' : r' ∉ answer) :
    placeIn answer rows r < placeIn answer rows r' := by
  rw [placeIn, placeIn, List.idxOf_append_of_mem hr, List.idxOf_append_of_notMem hr']
  exact (List.idxOf_lt_length_of_mem hr).trans_le (Nat.le_add_right ..)

theorem page_of_answer (h : Answer createdAt limit rows answer) (hrows : rows.Nodup) :
    Page (rankedKey createdAt (placeIn answer rows)) limit rows answer
      (rows.filter fun r => r ∉ answer) := by
  refine page_rankedKey (h.page hrows) ?_ fun r hr r' hr' => ?_
  · refine List.pairwise_iff_getElem.mpr fun i j hi hj hij => ?_
    rw [placeIn_getElem h.nodup hi, placeIn_getElem h.nodup hj]
    exact hij.le
  · have hleft : r' ∉ answer := of_decide_eq_true (List.mem_filter.mp hr').2
    exact (placeIn_lt hr hleft).le

theorem rankedKey_placeIn_inj (hr : r ∈ rows)
    (h : rankedKey createdAt (placeIn answer rows) r = rankedKey createdAt (placeIn answer rows) r') :
    r = r' := by
  have hplace : placeIn answer rows r = placeIn answer rows r' :=
    congrArg (fun k => OrderDual.ofDual (ofLex k).2) h
  exact placeIn_inj hr hplace

end NewestFirst

namespace MessageQueries

/-- Each `ORDER BY` of the query breaks ties in its own way. -/
def dmConversationHistory (sent received merged : NewestFirst DirectMessage (·.createdAt))
    (a b : UUID) (before : Timestamp) (limit : ℕ) (d : Db) : List DirectMessage :=
  (merged.sort (directMessagesTo sent a b before limit d ++
    directMessagesTo received b a before limit d)).take limit

theorem getDmConversationHistory_eq (order : NewestFirst DirectMessage (·.createdAt)) (a b : UUID)
    (before : Timestamp) (limit : ℕ) (d : Db) :
    getDmConversationHistory order a b before limit d =
      dmConversationHistory order order order a b before limit d := rfl

/-- What the plain query asks for: the last messages of the conversation before the cutoff. -/
def ValidHistory (a b : UUID) (before : Timestamp) (limit : ℕ) (d : Db)
    (page : List DirectMessage) : Prop :=
  Answer (·.createdAt) limit ((directConversation a b d).filter fun m => m.createdAt < before) page

variable {a b : UUID} {before : Timestamp} {limit : ℕ} {d : Db} {page : List DirectMessage}

theorem nodup_directConversation :
    ((directConversation a b d).filter fun m => m.createdAt < before).Nodup :=
  (d.directMessages.nodup.of_map.filter _).filter _

theorem directConversation_comm : directConversation a b d = directConversation b a d :=
  List.filter_congr fun _ _ => Bool.or_comm ..

theorem page_dmConversationHistory {τ : Type} [LinearOrder τ] {key : DirectMessage → τ}
    {sent received merged : NewestFirst DirectMessage (·.createdAt)} (d : Db) (before : Timestamp)
    (hne : a ≠ b)
    (hsent : ∀ rows, Page key limit rows ((sent.sort rows).take limit) ((sent.sort rows).drop limit))
    (hreceived : ∀ rows,
      Page key limit rows ((received.sort rows).take limit) ((received.sort rows).drop limit))
    (hmerged : ∀ rows,
      Page key limit rows ((merged.sort rows).take limit) ((merged.sort rows).drop limit)) :
    ∃ rest, Page key limit ((directConversation a b d).filter fun m => m.createdAt < before)
      (dmConversationHistory sent received merged a b before limit d) rest := by
  have hto := hsent (d.directMessages.rows.filter fun m =>
    m.senderId = a && m.recipientId = b && decide (m.createdAt < before))
  have hfrom := hreceived (d.directMessages.rows.filter fun m =>
    m.senderId = b && m.recipientId = a && decide (m.createdAt < before))
  have hboth := hto.merge hfrom (hmerged (directMessagesTo sent a b before limit d ++
    directMessagesTo received b a before limit d))
  exact ⟨_, hboth.of_perm (directConversation_perm hne before d)⟩

theorem validHistory_dmConversationHistory
    (sent received merged : NewestFirst DirectMessage (·.createdAt)) (hne : a ≠ b) :
    ValidHistory a b before limit d
      (dmConversationHistory sent received merged a b before limit d) := by
  obtain ⟨rest, hpage⟩ := page_dmConversationHistory d before hne
    (sent.page · limit) (received.page · limit) (merged.page · limit)
  exact hpage.answer nodup_directConversation

theorem dmConversationHistory_of_validHistory (hne : a ≠ b) (h : ValidHistory a b before limit d page) :
    ∃ order, dmConversationHistory order order order a b before limit d = page := by
  obtain ⟨rest, hpage⟩ := page_dmConversationHistory d before hne
    (NewestFirst.page_ranked · limit) (NewestFirst.page_ranked · limit)
    (NewestFirst.page_ranked · limit)
  have hanswer := NewestFirst.page_of_answer h nodup_directConversation
  exact ⟨_, hpage.unique hanswer fun m hm m' _ hkey => NewestFirst.rankedKey_placeIn_inj hm hkey⟩

/-- The query answers with what the plain query may answer with, with all of it, and for both users
with the same. -/
theorem dm_history_answers (d : Db) (a b : UUID) (hne : a ≠ b) (before : Timestamp) (limit : ℕ)
    (page : List DirectMessage) :
    ((∃ sent received merged, dmConversationHistory sent received merged a b before limit d = page) ↔
      ValidHistory a b before limit d page) ∧
    (ValidHistory a b before limit d page ↔ ValidHistory b a before limit d page) := by
  refine ⟨⟨?_, fun hvalid => ?_⟩, ?_⟩
  · rintro ⟨sent, received, merged, rfl⟩
    exact validHistory_dmConversationHistory sent received merged hne
  · obtain ⟨order, hpage⟩ := dmConversationHistory_of_validHistory hne hvalid
    exact ⟨order, order, order, hpage⟩
  · rw [ValidHistory, ValidHistory, directConversation_comm]

/-- A page of one message, where two have been sent at one time: it may be either. -/
theorem dm_history_answers_tie :
    ∃ sent received merged,
      dmConversationHistory sent received merged ⟨1⟩ ⟨2⟩ 3 1 (Sample.conversation 1) =
        [⟨⟨4⟩, ⟨2⟩, ⟨1⟩, "hi", 1⟩] := by
  refine (dm_history_answers (Sample.conversation 1) ⟨1⟩ ⟨2⟩ (by decide) 3 1 _).1.mpr ?_
  exact ⟨by decide, by decide, List.pairwise_singleton .., by decide, by decide⟩

end MessageQueries

namespace MessagingService
open MessageQueries

theorem getDmHistory_valid {env : MessagingEnv} {actor other : UUID} {before : Option Timestamp}
    {limit : ℕ} {f : Transactional.Faults MessagingAwait Error} {w : MessagingState}
    {page : List DirectMessage} (hne : actor ≠ other)
    (h : (getDmHistory env actor other before limit f w).1 = .ok page) :
    ValidHistory actor other (before.getD env.now) limit w.db page := by
  rw [getDmHistory_eq_ok h, getDmConversationHistory_eq]
  exact validHistory_dmConversationHistory _ _ _ hne

end MessagingService
end Messenger
