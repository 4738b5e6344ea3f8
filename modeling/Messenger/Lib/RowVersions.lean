import Mathlib.Data.List.Chain
import Mathlib.Data.List.Nodup
import Mathlib.Logic.Function.Basic
import Messenger.Lib.Transition

/-! Transactions under READ COMMITTED that insert and delete rows with a primary key. An INSERT waits for
the other open transactions that have written its key, and is refused if there is a row then. A DELETE
looks its row up in a snapshot, waits for whoever has deleted this row, and checks it again. A row that
has been deleted and inserted anew in between is another one, which the DELETE leaves alone. -/

namespace RowVersions

structure Store (δ ρ κ : Type*) where
  key : ρ → κ
  present : δ → κ → Bool
  insert : ρ → δ → δ
  delete : κ → δ → δ
  present_insert : ∀ r d k, present (insert r d) k = true ↔ key r = k ∨ present d k = true
  present_delete : ∀ k' d k, present (delete k' d) k = true ↔ k' ≠ k ∧ present d k = true

inductive Change (ρ κ : Type*) where
  | insert (r : ρ)
  | delete (k : κ)
  deriving DecidableEq

def Change.adds {ρ κ : Type*} : Change ρ κ → Bool
  | insert _ => true
  | delete _ => false

variable {δ ρ κ χ π τ : Type*}

/-! ### Histories of changes -/

namespace Store

variable (S : Store δ ρ κ)

def keyOf : Change ρ κ → κ
  | .insert r => S.key r
  | .delete k => k

def apply : Change ρ κ → δ → δ
  | .insert r => S.insert r
  | .delete k => S.delete k

def applyAll (cs : List (Change ρ κ)) (d : δ) : δ := cs.foldl (fun d c => S.apply c d) d

/-- Every change turns the presence of its row around. -/
def Fits : List (Change ρ κ) → δ → Prop
  | [], _ => True
  | c :: cs, d => S.present d (S.keyOf c) ≠ c.adds ∧ Fits cs (S.apply c d)

variable [DecidableEq κ]

def changesOf (k : κ) (cs : List (Change ρ κ)) : List (Change ρ κ) := cs.filter fun c => S.keyOf c = k

variable {S} {c : Change ρ κ} {cs cs' : List (Change ρ κ)} {d d' : δ} {k : κ}

omit [DecidableEq κ] in
theorem applyAll_append : S.applyAll (cs ++ cs') d = S.applyAll cs' (S.applyAll cs d) :=
  List.foldl_append ..

theorem changesOf_append : S.changesOf k (cs ++ cs') = S.changesOf k cs ++ S.changesOf k cs' :=
  List.filter_append ..

theorem changesOf_cons :
    S.changesOf k (c :: cs) = if S.keyOf c = k then c :: S.changesOf k cs else S.changesOf k cs := by
  simp only [changesOf, List.filter_cons, decide_eq_true_eq]

theorem present_apply (c : Change ρ κ) (d : δ) (k : κ) :
    S.present (S.apply c d) k = if S.keyOf c = k then c.adds else S.present d k := by
  cases c with
  | insert r =>
    have h : S.present (S.insert r d) k = true ↔ _ := S.present_insert r d k
    show S.present (S.insert r d) k = if S.key r = k then true else S.present d k
    split
    · next hk => exact h.mpr (.inl hk)
    · next hk => exact Bool.eq_iff_iff.mpr (h.trans (or_iff_right hk))
  | delete k' =>
    have h : S.present (S.delete k' d) k = true ↔ _ := S.present_delete k' d k
    show S.present (S.delete k' d) k = if k' = k then false else S.present d k
    split
    · next hk => exact Bool.eq_false_iff.mpr fun hpresent => (h.mp hpresent).1 hk
    · next hk => exact Bool.eq_iff_iff.mpr (h.trans (and_iff_right hk))

theorem present_applyAll_congr (h : S.present d k = S.present d' k) :
    S.present (S.applyAll cs d) k = S.present (S.applyAll cs d') k := by
  induction cs generalizing d d' with
  | nil => exact h
  | cons c cs ih =>
    refine ih ?_
    rw [present_apply, present_apply, h]

theorem present_applyAll_of_forall_ne (h : ∀ c ∈ cs, S.keyOf c ≠ k) :
    S.present (S.applyAll cs d) k = S.present d k := by
  induction cs generalizing d with
  | nil => rfl
  | cons c cs ih =>
    have hrest := ih (d := S.apply c d) fun c' hc' => h c' (List.mem_cons_of_mem _ hc')
    have hne : S.keyOf c ≠ k := h c (List.mem_cons_self ..)
    show S.present (S.applyAll cs (S.apply c d)) k = _
    rw [hrest, present_apply, if_neg hne]

omit [DecidableEq κ] in
theorem fits_append : S.Fits (cs ++ cs') d ↔ S.Fits cs d ∧ S.Fits cs' (S.applyAll cs d) := by
  induction cs generalizing d with
  | nil => exact ⟨fun h => ⟨trivial, h⟩, And.right⟩
  | cons c cs ih =>
    simp only [List.cons_append, Fits, ih, and_assoc]
    rfl

theorem Fits.congr (h : S.Fits cs d) (heq : ∀ c ∈ cs, S.present d (S.keyOf c) = S.present d' (S.keyOf c)) :
    S.Fits cs d' := by
  induction cs generalizing d d' with
  | nil => trivial
  | cons c cs ih =>
    refine ⟨heq c (List.mem_cons_self ..) ▸ h.1, ih h.2 fun c' hc' => ?_⟩
    rw [present_apply, present_apply, heq c' (List.mem_cons_of_mem _ hc')]

theorem Fits.isChain (h : S.Fits cs d) (k : κ) :
    List.IsChain (· ≠ ·) (S.present d k :: (S.changesOf k cs).map Change.adds) := by
  induction cs generalizing d with
  | nil => exact List.isChain_singleton _
  | cons c cs ih =>
    have hrest := ih h.2
    rw [present_apply] at hrest
    rw [changesOf_cons]
    by_cases hk : S.keyOf c = k
    · rw [if_pos hk] at hrest ⊢
      exact List.isChain_cons_cons.mpr ⟨hk ▸ h.1, hrest⟩
    · rw [if_neg hk] at hrest ⊢
      exact hrest

theorem Fits.count (h : S.Fits cs d) (k : κ) :
    ((S.changesOf k cs).map Change.adds).count true + (S.present d k).toNat =
      ((S.changesOf k cs).map Change.adds).count false + (S.present (S.applyAll cs d) k).toNat := by
  induction cs generalizing d with
  | nil => rfl
  | cons c cs ih =>
    have hrest := ih h.2
    rw [present_apply] at hrest
    rw [changesOf_cons]
    show _ = _ + (S.present (S.applyAll cs (S.apply c d)) k).toNat
    by_cases hk : S.keyOf c = k
    · have hbefore : S.present d k = !c.adds := Bool.eq_not_of_ne (hk ▸ h.1)
      rw [if_pos hk] at hrest ⊢
      simp only [List.map_cons, List.count_cons, hbefore]
      cases hadds : c.adds with
      | true | false =>
        rw [hadds] at hrest
        simp at hrest ⊢
        omega
    · rw [if_neg hk] at hrest ⊢
      exact hrest

end Store

/-! ### Transactions -/

/-- What a transaction does next. An INSERT says whether the other constraints hold. -/
inductive Cmd (δ ρ κ π : Type*) where
  | select (q : δ → π)
  | insert (r : ρ) (q : δ → Except π π)
  | delete (k : κ) (deleted missing : π)
  | commit
  | rollback

structure Program (δ ρ κ χ π : Type*) where
  store : Store δ ρ κ
  entry : χ → π
  cmd : π → Cmd δ ρ κ π
  unique : ∀ p r q d p', cmd p = .insert r q → q d = .ok p' → store.present d (store.key r) = false

/-- `deleting v`: a DELETE has seen its row when it had been changed `v` times. -/
inductive Phase where
  | ready
  | deleting (version : ℕ)
  deriving DecidableEq

structure Txn (ρ κ π : Type*) where
  pc : π
  phase : Phase := .ready
  writes : List (Change ρ κ) := []

structure Commit (ρ κ τ π : Type*) where
  txn : τ
  pc : π
  writes : List (Change ρ κ)

structure Sys (δ ρ κ τ π : Type*) where
  db : δ
  writer : κ → Option τ := fun _ => none
  txn : τ → Option (Txn ρ κ π) := fun _ => none
  started : List τ := []
  log : List (Commit ρ κ τ π) := []

inductive Act (τ χ : Type*) where
  | begin (t : τ) (c : χ)
  | exec (t : τ)
  | delete (t : τ)
  | commit (t : τ)
  | abort (t : τ)

namespace Sys

def changes (s : Sys δ ρ κ τ π) : List (Change ρ κ) := s.log.flatMap Commit.writes

variable [DecidableEq τ]

def setTxn (s : Sys δ ρ κ τ π) (t : τ) (x : Txn ρ κ π) : Sys δ ρ κ τ π :=
  { s with txn := Function.update s.txn t (some x) }

def opened (s : Sys δ ρ κ τ π) (t : τ) (p : π) : Sys δ ρ κ τ π :=
  { s.setTxn t { pc := p } with started := t :: s.started }

def close (s : Sys δ ρ κ τ π) (t : τ) : Sys δ ρ κ τ π :=
  { s with
    writer := fun k => if s.writer k = some t then none else s.writer k
    txn := Function.update s.txn t none }

def committed (s : Sys δ ρ κ τ π) (t : τ) (x : Txn ρ κ π) (d : δ) : Sys δ ρ κ τ π :=
  { s.close t with db := d, log := s.log ++ [⟨t, x.pc, x.writes⟩] }

def Available (s : Sys δ ρ κ τ π) (t : τ) (k : κ) : Prop := s.writer k = none ∨ s.writer k = some t

instance (s : Sys δ ρ κ τ π) (t : τ) (k : κ) : Decidable (s.Available t k) :=
  inferInstanceAs (Decidable (_ ∨ _))

variable [DecidableEq κ]

def wrote (s : Sys δ ρ κ τ π) (t : τ) (k : κ) (c : Change ρ κ) (p : π) (ws : List (Change ρ κ)) :
    Sys δ ρ κ τ π :=
  { s.setTxn t ⟨p, .ready, ws ++ [c]⟩ with writer := Function.update s.writer k (some t) }

end Sys

namespace Program

variable (P : Program δ ρ κ χ π)

def version [DecidableEq κ] (s : Sys δ ρ κ τ π) (k : κ) : ℕ := (P.store.changesOf k s.changes).length

variable [DecidableEq κ] [DecidableEq τ]

/-- One step of the scheduler. A statement that would have to wait is not taken yet. A transaction may
be rolled back in any state: a statement may fail, the caller may raise, and the server may pick it as a
deadlock victim. -/
def step (s : Sys δ ρ κ τ π) : Act τ χ → Option (Sys δ ρ κ τ π)
  | .begin t c => if t ∈ s.started then none else some (s.opened t (P.entry c))
  | .exec t =>
    match s.txn t with
    | some ⟨pc, .ready, ws⟩ =>
      let d := P.store.applyAll ws s.db
      match P.cmd pc with
      | .select q => some (s.setTxn t ⟨q d, .ready, ws⟩)
      | .insert r q =>
        if s.Available t (P.store.key r) then
          match q d with
          | .ok p => some (s.wrote t (P.store.key r) (.insert r) p ws)
          | .error p => some (s.setTxn t ⟨p, .ready, ws⟩)
        else none
      | .delete k _ missing =>
        if P.store.present d k then some (s.setTxn t ⟨pc, .deleting (P.version s k), ws⟩)
        else some (s.setTxn t ⟨missing, .ready, ws⟩)
      | _ => none
    | _ => none
  | .delete t =>
    match s.txn t with
    | some ⟨pc, .deleting v, ws⟩ =>
      match P.cmd pc with
      | .delete k deleted missing =>
        if P.version s k ≠ v then some (s.setTxn t ⟨missing, .ready, ws⟩)
        else if s.Available t k then some (s.wrote t k (.delete k) deleted ws)
        else none
      | _ => none
    | _ => none
  | .commit t =>
    match s.txn t with
    | some ⟨pc, .ready, ws⟩ =>
      match P.cmd pc with
      | .commit => some (s.committed t ⟨pc, .ready, ws⟩ (P.store.applyAll ws s.db))
      | _ => none
    | _ => none
  | .abort t => if (s.txn t).isSome then some (s.close t) else none

structure Preserves (I : Sys δ ρ κ τ π → Prop) : Prop where
  begin : ∀ s t c, I s → t ∉ s.started → I (s.opened t (P.entry c))
  select : ∀ s t pc ws q, I s → s.txn t = some ⟨pc, .ready, ws⟩ → P.cmd pc = .select q →
    I (s.setTxn t ⟨q (P.store.applyAll ws s.db), .ready, ws⟩)
  insert : ∀ s t pc ws r q p, I s → s.txn t = some ⟨pc, .ready, ws⟩ → P.cmd pc = .insert r q →
    s.Available t (P.store.key r) → q (P.store.applyAll ws s.db) = .ok p →
    I (s.wrote t (P.store.key r) (.insert r) p ws)
  refuse : ∀ s t pc ws r q p, I s → s.txn t = some ⟨pc, .ready, ws⟩ → P.cmd pc = .insert r q →
    q (P.store.applyAll ws s.db) = .error p → I (s.setTxn t ⟨p, .ready, ws⟩)
  find : ∀ s t pc ws k deleted missing, I s → s.txn t = some ⟨pc, .ready, ws⟩ →
    P.cmd pc = .delete k deleted missing → P.store.present (P.store.applyAll ws s.db) k = true →
    I (s.setTxn t ⟨pc, .deleting (P.version s k), ws⟩)
  miss : ∀ s t x k deleted missing, I s → s.txn t = some x → P.cmd x.pc = .delete k deleted missing →
    I (s.setTxn t ⟨missing, .ready, x.writes⟩)
  delete : ∀ s t pc ws k deleted missing, I s → s.txn t = some ⟨pc, .deleting (P.version s k), ws⟩ →
    P.cmd pc = .delete k deleted missing → s.Available t k → I (s.wrote t k (.delete k) deleted ws)
  commit : ∀ s t pc ws, I s → s.txn t = some ⟨pc, .ready, ws⟩ → P.cmd pc = .commit →
    I (s.committed t ⟨pc, .ready, ws⟩ (P.store.applyAll ws s.db))
  abort : ∀ s t x, I s → s.txn t = some x → I (s.close t)

variable {P} {I : Sys δ ρ κ τ π → Prop} {s s' : Sys δ ρ κ τ π} {a : Act τ χ}

theorem Preserves.step (hI : P.Preserves I) (h : I s) (hs : P.step s a = some s') : I s' := by
  cases a with
  | begin t c =>
    simp only [Program.step] at hs
    split at hs
    · cases hs
    · next ht => exact Option.some.inj hs ▸ hI.begin s t c h ht
  | exec t =>
    simp only [Program.step] at hs
    split at hs
    · next pc ws hx =>
      split at hs
      · next q hq => exact Option.some.inj hs ▸ hI.select s t pc ws q h hx hq
      · next r q hq =>
        split at hs
        · next hfree =>
          split at hs
          · next p hok => exact Option.some.inj hs ▸ hI.insert s t pc ws r q p h hx hq hfree hok
          · next p herror => exact Option.some.inj hs ▸ hI.refuse s t pc ws r q p h hx hq herror
        · cases hs
      · next k deleted missing hq =>
        split at hs
        · next hfound => exact Option.some.inj hs ▸ hI.find s t pc ws k deleted missing h hx hq hfound
        · exact Option.some.inj hs ▸ hI.miss s t ⟨pc, .ready, ws⟩ k deleted missing h hx hq
      · cases hs
    · cases hs
  | delete t =>
    simp only [Program.step] at hs
    split at hs
    · next pc v ws hx =>
      split at hs
      · next k deleted missing hq =>
        split at hs
        · exact Option.some.inj hs ▸ hI.miss s t ⟨pc, .deleting v, ws⟩ k deleted missing h hx hq
        · next hversion =>
          split at hs
          · next hfree =>
            obtain rfl := not_not.mp hversion
            exact Option.some.inj hs ▸ hI.delete s t pc ws k deleted missing h hx hq hfree
          · cases hs
      · cases hs
    · cases hs
  | commit t =>
    simp only [Program.step] at hs
    split at hs
    · next pc ws hx =>
      split at hs
      · next hq => exact Option.some.inj hs ▸ hI.commit s t pc ws h hx hq
      · cases hs
    · cases hs
  | abort t =>
    simp only [Program.step] at hs
    split at hs
    · next hx =>
      obtain ⟨x, hx⟩ := Option.isSome_iff_exists.mp hx
      exact Option.some.inj hs ▸ hI.abort s t x h hx
    · cases hs

theorem Preserves.reachable (hI : P.Preserves I) (h : I s) (hs : Transition.Reachable P.step s s') : I s' :=
  hs.induction (fun _ _ _ h hs => hI.step h hs) h

end Program

/-! ### What holds in every state -/

section

variable [DecidableEq τ] {s : Sys δ ρ κ τ π} {t u : τ} {x y : Txn ρ κ π} {d : δ} {k : κ}

namespace Sys

theorem setTxn_txn_eq_some (h : (s.setTxn t x).txn u = some y) :
    u = t ∧ y = x ∨ u ≠ t ∧ s.txn u = some y := by
  have hy : Function.update s.txn t (some x) u = some y := h
  rcases eq_or_ne u t with rfl | hne
  · rw [Function.update_self] at hy
    exact .inl ⟨rfl, (Option.some.inj hy).symm⟩
  · rw [Function.update_of_ne hne] at hy
    exact .inr ⟨hne, hy⟩

theorem close_txn_eq_some (h : (s.close t).txn u = some y) : u ≠ t ∧ s.txn u = some y := by
  have hy : Function.update s.txn t none u = some y := h
  rcases eq_or_ne u t with rfl | hne
  · rw [Function.update_self] at hy
    cases hy
  · rw [Function.update_of_ne hne] at hy
    exact ⟨hne, hy⟩

theorem close_writer_of_ne (hne : u ≠ t) (h : s.writer k = some u) : (s.close t).writer k = some u := by
  have hother : s.writer k ≠ some t := by
    rw [h]
    exact fun heq => hne (Option.some.inj heq)
  exact (if_neg hother).trans h

theorem changes_committed : (s.committed t x d).changes = s.changes ++ x.writes := by
  show (s.log ++ [_]).flatMap Commit.writes = _
  rw [List.flatMap_append, List.flatMap_singleton]
  rfl

end Sys

/-- A transaction commits once, and does nothing after that. -/
structure Ended (s : Sys δ ρ κ τ π) : Prop where
  opened : ∀ t x, s.txn t = some x → t ∈ s.started
  ended : ∀ e ∈ s.log, s.txn e.txn = none ∧ e.txn ∈ s.started
  once : (s.log.map Commit.txn).Nodup

theorem Ended.setTxn (h : Ended s) (hx : s.txn t = some x) (y : Txn ρ κ π) : Ended (s.setTxn t y) where
  opened u z hz := by
    rcases Sys.setTxn_txn_eq_some hz with ⟨rfl, -⟩ | ⟨-, hz⟩
    · exact h.opened u x hx
    · exact h.opened u z hz
  ended e he := by
    have hne : e.txn ≠ t := by
      rintro rfl
      exact absurd ((h.ended e he).1.symm.trans hx) (by simp)
    exact ⟨(Function.update_of_ne hne ..).trans (h.ended e he).1, (h.ended e he).2⟩
  once := h.once

theorem Ended.wrote [DecidableEq κ] {c : Change ρ κ} {p : π} {ws : List (Change ρ κ)} (h : Ended s)
    (hx : s.txn t = some x) : Ended (s.wrote t k c p ws) where
  opened := (h.setTxn hx ⟨p, .ready, ws ++ [c]⟩).opened
  ended := (h.setTxn hx ⟨p, .ready, ws ++ [c]⟩).ended
  once := h.once

theorem Ended.close (h : Ended s) (t : τ) : Ended (s.close t) where
  opened u z hz := h.opened u z (Sys.close_txn_eq_some hz).2
  ended e he := by
    refine ⟨?_, (h.ended e he).2⟩
    show Function.update s.txn t none e.txn = none
    rcases eq_or_ne e.txn t with heq | hne
    · rw [heq, Function.update_self]
    · rw [Function.update_of_ne hne]
      exact (h.ended e he).1
  once := h.once

theorem preserves_ended [DecidableEq κ] {P : Program δ ρ κ χ π} :
    P.Preserves (Ended : Sys δ ρ κ τ π → Prop) where
  begin s t c h ht :=
    { opened := fun u z hz => by
        rcases Sys.setTxn_txn_eq_some hz with ⟨rfl, -⟩ | ⟨-, hz⟩
        · exact List.mem_cons_self ..
        · exact List.mem_cons_of_mem _ (h.opened u z hz)
      ended := fun e he => by
        have hold := h.ended e he
        have hne : e.txn ≠ t := fun heq => ht (heq ▸ hold.2)
        exact ⟨(Function.update_of_ne hne ..).trans hold.1, List.mem_cons_of_mem _ hold.2⟩
      once := h.once }
  select s t _ _ _ h hx _ := h.setTxn hx _
  insert s t _ _ _ _ _ h hx _ _ _ := h.wrote hx
  refuse s t _ _ _ _ _ h hx _ _ := h.setTxn hx _
  find s t _ _ _ _ _ h hx _ _ := h.setTxn hx _
  miss s t _ _ _ _ h hx _ := h.setTxn hx _
  delete s t _ _ _ _ _ h hx _ _ := h.wrote hx
  commit s t pc ws h hx _ :=
    { opened := (h.close t).opened
      ended := fun e he => by
        rcases List.mem_append.mp he with he | he
        · exact (h.close t).ended e he
        · obtain rfl := List.mem_singleton.mp he
          exact ⟨Function.update_self .., h.opened t _ hx⟩
      once := by
        have hnew : t ∉ s.log.map Commit.txn := by
          intro hmem
          obtain ⟨e, he, rfl⟩ := List.mem_map.mp hmem
          exact absurd ((h.ended e he).1.symm.trans hx) (by simp)
        show ((s.log ++ [_]).map Commit.txn).Nodup
        rw [List.map_append, List.map_singleton, ← List.concat_eq_append]
        exact h.once.concat hnew }
  abort s t _ h _ := h.close t

variable [DecidableEq κ] {P : Program δ ρ κ χ π} {d₀ : δ}

/-- What is known of a DELETE that has seen its row: it is still there unless it has been changed. -/
def Sound (P : Program δ ρ κ χ π) (s : Sys δ ρ κ τ π) (x : Txn ρ κ π) : Prop :=
  ∀ v k deleted missing, x.phase = .deleting v → P.cmd x.pc = .delete k deleted missing →
    v ≤ P.version s k ∧ (v = P.version s k → P.store.present (P.store.applyAll x.writes s.db) k = true)

structure Inv (P : Program δ ρ κ χ π) (d₀ : δ) (s : Sys δ ρ κ τ π) : Prop where
  db : s.db = P.store.applyAll s.changes d₀
  history : P.store.Fits s.changes d₀
  fits : ∀ t x, s.txn t = some x → P.store.Fits x.writes s.db
  writer : ∀ t x, s.txn t = some x → ∀ c ∈ x.writes, s.writer (P.store.keyOf c) = some t
  sound : ∀ t x, s.txn t = some x → Sound P s x

namespace Inv

theorem setTxn (h : Inv P d₀ s) (hfits : P.store.Fits x.writes s.db)
    (hwriter : ∀ c ∈ x.writes, s.writer (P.store.keyOf c) = some t) (hsound : Sound P s x) :
    Inv P d₀ (s.setTxn t x) where
  db := h.db
  history := h.history
  fits u y hy := by
    rcases Sys.setTxn_txn_eq_some hy with ⟨-, rfl⟩ | ⟨-, hy⟩
    · exact hfits
    · exact h.fits u y hy
  writer u y hy := by
    rcases Sys.setTxn_txn_eq_some hy with ⟨rfl, rfl⟩ | ⟨-, hy⟩
    · exact hwriter
    · exact h.writer u y hy
  sound u y hy := by
    rcases Sys.setTxn_txn_eq_some hy with ⟨-, rfl⟩ | ⟨-, hy⟩
    · exact hsound
    · exact h.sound u y hy

theorem goOn (h : Inv P d₀ s) (hx : s.txn t = some x) (hwrites : y.writes = x.writes)
    (hsound : Sound P s y) : Inv P d₀ (s.setTxn t y) := by
  refine h.setTxn ?_ ?_ hsound
  · rw [hwrites]
    exact h.fits t x hx
  · rw [hwrites]
    exact h.writer t x hx

theorem wrote {c : Change ρ κ} {pc p : π} {ph : Phase} {ws : List (Change ρ κ)} (h : Inv P d₀ s)
    (hx : s.txn t = some ⟨pc, ph, ws⟩) (hfree : s.Available t (P.store.keyOf c))
    (hturn : P.store.present (P.store.applyAll ws s.db) (P.store.keyOf c) ≠ c.adds) :
    Inv P d₀ (s.wrote t (P.store.keyOf c) c p ws) where
  db := h.db
  history := h.history
  fits u y hy := by
    rcases Sys.setTxn_txn_eq_some hy with ⟨-, rfl⟩ | ⟨-, hy⟩
    · exact Store.fits_append.mpr ⟨h.fits t _ hx, hturn, trivial⟩
    · exact h.fits u y hy
  writer u y hy c' hc' := by
    show Function.update s.writer (P.store.keyOf c) (some t) (P.store.keyOf c') = some u
    rcases Sys.setTxn_txn_eq_some hy with ⟨rfl, rfl⟩ | ⟨hne, hy⟩
    · rcases eq_or_ne (P.store.keyOf c') (P.store.keyOf c) with heq | hkey
      · rw [heq, Function.update_self]
      · rw [Function.update_of_ne hkey]
        rcases List.mem_append.mp hc' with hold | hnew
        · exact h.writer u _ hx c' hold
        · exact absurd (congrArg P.store.keyOf (List.mem_singleton.mp hnew)) hkey
    · have hwriter : s.writer (P.store.keyOf c') = some u := h.writer u y hy c' hc'
      have hkey : P.store.keyOf c' ≠ P.store.keyOf c := by
        intro heq
        rw [heq] at hwriter
        rcases hfree with hnone | hmine
        · exact absurd (hnone.symm.trans hwriter) (by simp)
        · exact hne (Option.some.inj (hwriter.symm.trans hmine))
      rw [Function.update_of_ne hkey, hwriter]
  sound u y hy := by
    rcases Sys.setTxn_txn_eq_some hy with ⟨-, rfl⟩ | ⟨-, hy⟩
    · exact nofun
    · exact h.sound u y hy

theorem close (h : Inv P d₀ s) (t : τ) : Inv P d₀ (s.close t) where
  db := h.db
  history := h.history
  fits u y hy := h.fits u y (Sys.close_txn_eq_some hy).2
  writer u y hy c hc :=
    have hy := Sys.close_txn_eq_some hy
    Sys.close_writer_of_ne hy.1 (h.writer u y hy.2 c hc)
  sound u y hy := h.sound u y (Sys.close_txn_eq_some hy).2

omit [DecidableEq τ] in
theorem disjoint (h : Inv P d₀ s) (hne : u ≠ t) (hx : s.txn t = some x) (hy : s.txn u = some y)
    {c c' : Change ρ κ} (hc : c ∈ x.writes) (hc' : c' ∈ y.writes) :
    P.store.keyOf c ≠ P.store.keyOf c' := by
  intro heq
  have hwriter : s.writer (P.store.keyOf c) = some t := h.writer t x hx c hc
  rw [heq, h.writer u y hy c' hc'] at hwriter
  exact hne (Option.some.inj hwriter)

theorem commit (h : Inv P d₀ s) (hx : s.txn t = some x) :
    Inv P d₀ (s.committed t x (P.store.applyAll x.writes s.db)) where
  db := by
    rw [Sys.changes_committed, Store.applyAll_append, ← h.db]
    rfl
  history := by
    rw [Sys.changes_committed, Store.fits_append, ← h.db]
    exact ⟨h.history, h.fits t x hx⟩
  fits u y hy := by
    obtain ⟨hne, hy⟩ := Sys.close_txn_eq_some hy
    refine (h.fits u y hy).congr fun c' hc' => (Store.present_applyAll_of_forall_ne ?_).symm
    exact fun c hc => h.disjoint hne hx hy hc hc'
  writer := (h.close t).writer
  sound u y hy v k deleted missing hv hq := by
    obtain ⟨hne, hy⟩ := Sys.close_txn_eq_some hy
    obtain ⟨hle, hpresent⟩ := h.sound u y hy v k deleted missing hv hq
    have hversion : P.version (s.committed t x (P.store.applyAll x.writes s.db)) k =
        P.version s k + (P.store.changesOf k x.writes).length := by
      rw [Program.version, Sys.changes_committed, Store.changesOf_append, List.length_append]
      rfl
    rw [hversion]
    refine ⟨by omega, fun heq => ?_⟩
    -- the row has not been written by the transaction that commits
    have hnone : P.store.changesOf k x.writes = [] := List.eq_nil_of_length_eq_zero (by omega)
    have hkeys : ∀ c ∈ x.writes, P.store.keyOf c ≠ k := fun c hc hk => by
      have hmem : c ∈ P.store.changesOf k x.writes := List.mem_filter.mpr ⟨hc, decide_eq_true hk⟩
      rw [hnone] at hmem
      cases hmem
    have hsame : P.store.present (P.store.applyAll x.writes s.db) k = P.store.present s.db k :=
      Store.present_applyAll_of_forall_ne hkeys
    exact (Store.present_applyAll_congr hsame).trans (hpresent (by omega))

end Inv

theorem preserves_inv (P : Program δ ρ κ χ π) (d₀ : δ) :
    P.Preserves (Inv P d₀ : Sys δ ρ κ τ π → Prop) where
  begin s t c h _ :=
    let h' := h.setTxn (t := t) (x := { pc := P.entry c }) trivial nofun nofun
    ⟨h'.db, h'.history, h'.fits, h'.writer, h'.sound⟩
  select s t pc ws q h hx _ := h.goOn hx rfl nofun
  insert s t pc ws r q p h hx hq hfree hok :=
    h.wrote (c := .insert r) hx hfree (by
      have habsent : P.store.present (P.store.applyAll ws s.db) (P.store.key r) = false :=
        P.unique pc r q _ p hq hok
      exact ne_of_eq_of_ne habsent Bool.false_ne_true)
  refuse s t pc ws r q p h hx _ _ := h.goOn hx rfl nofun
  find s t pc ws k deleted missing h hx hq hfound :=
    h.goOn hx rfl (by
      intro v k' deleted' missing' hv hq'
      obtain rfl : P.version s k = v := Phase.deleting.inj hv
      obtain ⟨rfl, -, -⟩ := Cmd.delete.inj (hq.symm.trans hq')
      exact ⟨le_rfl, fun _ => hfound⟩)
  miss s t x k deleted missing h hx _ := h.goOn hx rfl nofun
  delete s t pc ws k deleted missing h hx hq hfree :=
    h.wrote (c := .delete k) hx hfree (by
      have hpresent : P.store.present (P.store.applyAll ws s.db) k = true :=
        (h.sound t _ hx _ k deleted missing rfl hq).2 rfl
      exact ne_of_eq_of_ne hpresent Bool.false_ne_true.symm)
  commit s t pc ws h hx _ := h.commit hx
  abort s t _ h _ := h.close t

omit [DecidableEq τ] in
theorem Inv.init (P : Program δ ρ κ χ π) (d₀ : δ) : Inv P d₀ ({ db := d₀ } : Sys δ ρ κ τ π) where
  db := rfl
  history := trivial
  fits _ _ h := nomatch h
  writer _ _ h := nomatch h
  sound _ _ h := nomatch h

theorem inv_of_reachable (hs : Transition.Reachable P.step { db := d₀ } s) : Inv P d₀ s :=
  (preserves_inv P d₀).reachable (Inv.init P d₀) hs

theorem ended_of_reachable (hs : Transition.Reachable P.step { db := d₀ } s) : Ended s := by
  have hinit : Ended ({ db := d₀ } : Sys δ ρ κ τ π) :=
    { opened := fun _ _ h => nomatch h
      ended := fun _ h => nomatch h
      once := List.nodup_nil }
  exact preserves_ended.reachable hinit hs

theorem isChain_of_reachable (hs : Transition.Reachable P.step { db := d₀ } s) (k : κ) :
    List.IsChain (· ≠ ·)
      (P.store.present d₀ k :: (P.store.changesOf k s.changes).map Change.adds) :=
  (inv_of_reachable hs).history.isChain k

theorem count_of_reachable (hs : Transition.Reachable P.step { db := d₀ } s) (k : κ) :
    ((P.store.changesOf k s.changes).map Change.adds).count true + (P.store.present d₀ k).toNat =
      ((P.store.changesOf k s.changes).map Change.adds).count false +
        (P.store.present s.db k).toNat := by
  have h := inv_of_reachable hs
  rw [h.db]
  exact h.history.count k

theorem preserves_log (l : List (Commit ρ κ τ π)) :
    P.Preserves (fun s : Sys δ ρ κ τ π => l <+: s.log) where
  begin _ _ _ h _ := h
  select _ _ _ _ _ h _ _ := h
  insert _ _ _ _ _ _ _ h _ _ _ _ := h
  refuse _ _ _ _ _ _ _ h _ _ _ := h
  find _ _ _ _ _ _ _ h _ _ _ := h
  miss _ _ _ _ _ _ h _ _ := h
  delete _ _ _ _ _ _ _ h _ _ _ := h
  commit _ _ _ _ h _ _ := h.trans (List.prefix_append ..)
  abort _ _ _ h _ := h

theorem log_prefix_of_step {s' : Sys δ ρ κ τ π} {a : Act τ χ} (hs : P.step s a = some s') :
    s.log <+: s'.log := (preserves_log s.log).step List.prefix_rfl hs

end

/-! ### A transaction by itself -/

namespace Program

variable (P : Program δ ρ κ χ π)

/-- Where a transaction ends that runs by itself, in at most `n` commands. -/
def alone : ℕ → Txn ρ κ π → δ → Option (Txn ρ κ π)
  | 0, _, _ => none
  | n + 1, x, d =>
    let view := P.store.applyAll x.writes d
    match P.cmd x.pc with
    | .select q => alone n ⟨q view, .ready, x.writes⟩ d
    | .insert r q =>
      match q view with
      | .ok p => alone n ⟨p, .ready, x.writes ++ [.insert r]⟩ d
      | .error p => alone n ⟨p, .ready, x.writes⟩ d
    | .delete k deleted missing =>
      if P.store.present view k then alone n ⟨deleted, .ready, x.writes ++ [.delete k]⟩ d
      else alone n ⟨missing, .ready, x.writes⟩ d
    | .commit | .rollback => some x

variable {P}

theorem alone_select {n : ℕ} {x : Txn ρ κ π} {d : δ} {q : δ → π} (hq : P.cmd x.pc = .select q) :
    P.alone (n + 1) x d = P.alone n ⟨q (P.store.applyAll x.writes d), .ready, x.writes⟩ d := by
  simp only [alone, hq]

variable [DecidableEq κ] [DecidableEq τ]

theorem available_wrote {s : Sys δ ρ κ τ π} {t : τ} {k : κ} {c : Change ρ κ} {p : π}
    {ws : List (Change ρ κ)} (halone : ∀ k, s.Available t k) (k' : κ) :
    (s.wrote t k c p ws).Available t k' := by
  show Function.update s.writer k (some t) k' = none ∨ Function.update s.writer k (some t) k' = some t
  rcases eq_or_ne k' k with rfl | hne
  · exact .inr (Function.update_self ..)
  · rw [Function.update_of_ne hne]
    exact halone k'

/-- From `s` on, the transaction has got to `x` while nothing else has happened. -/
structure Reaches (P : Program δ ρ κ χ π) (s : Sys δ ρ κ τ π) (t : τ) (x : Txn ρ κ π)
    (s' : Sys δ ρ κ τ π) : Prop where
  run : Transition.Reachable P.step s s'
  txn : s'.txn t = some x
  db : s'.db = s.db
  log : s'.log = s.log
  free : ∀ k, s'.Available t k

namespace Reaches

variable {s s' : Sys δ ρ κ τ π} {t : τ} {x : Txn ρ κ π} {pc p : π} {ws : List (Change ρ κ)}

theorem setTxn {a : Act τ χ} (h : P.Reaches s t x s') (y : Txn ρ κ π)
    (hstep : P.step s' a = some (s'.setTxn t y)) : P.Reaches s t y (s'.setTxn t y) where
  run := h.run.tail hstep
  txn := Function.update_self ..
  db := h.db
  log := h.log
  free := h.free

theorem wrote {a : Act τ χ} {k : κ} {c : Change ρ κ} (h : P.Reaches s t x s')
    (hstep : P.step s' a = some (s'.wrote t k c p ws)) :
    P.Reaches s t ⟨p, .ready, ws ++ [c]⟩ (s'.wrote t k c p ws) where
  run := h.run.tail hstep
  txn := Function.update_self ..
  db := h.db
  log := h.log
  free := available_wrote h.free

/-- The snapshot is still current when the DELETE comes back to its row. -/
theorem delete {k : κ} {deleted missing : π} (h : P.Reaches s t ⟨pc, .ready, ws⟩ s')
    (hq : P.cmd pc = .delete k deleted missing)
    (hfound : P.store.present (P.store.applyAll ws s'.db) k = true) :
    ∃ s₁, P.Reaches s t ⟨deleted, .ready, ws ++ [.delete k]⟩ s₁ := by
  have hfind : P.step s' (.exec t) = some (s'.setTxn t ⟨pc, .deleting (P.version s' k), ws⟩) := by
    simp only [Program.step, h.txn, hq, if_pos hfound]
  have hseen := h.setTxn ⟨pc, .deleting (P.version s' k), ws⟩ hfind
  have hsame : ¬ P.version (s'.setTxn t ⟨pc, .deleting (P.version s' k), ws⟩) k ≠ P.version s' k :=
    not_not.mpr rfl
  have hdelete : P.step (s'.setTxn t ⟨pc, .deleting (P.version s' k), ws⟩) (.delete t) =
      some ((s'.setTxn t ⟨pc, .deleting (P.version s' k), ws⟩).wrote t k (.delete k) deleted ws) := by
    simp only [Program.step, hseen.txn, hq, if_neg hsame, if_pos (hseen.free k)]
  exact ⟨_, hseen.wrote hdelete⟩

/-- What a transaction does by itself the system lets it do. -/
theorem alone {n : ℕ} {y : Txn ρ κ π} (h : P.Reaches s t ⟨pc, .ready, ws⟩ s')
    (hy : P.alone n ⟨pc, .ready, ws⟩ s'.db = some y) : ∃ s₁, P.Reaches s t y s₁ ∧ y.phase = .ready := by
  induction n generalizing s' pc ws with
  | zero => cases hy
  | succ n ih =>
    unfold Program.alone at hy
    dsimp only at hy
    split at hy
    · next q hq =>
      refine ih (h.setTxn _ (a := .exec t) ?_) hy
      simp only [Program.step, h.txn, hq]
    · next r q hq =>
      split at hy
      · next p hok =>
        refine ih (h.wrote (a := .exec t) (k := P.store.key r) ?_) hy
        simp only [Program.step, h.txn, hq, if_pos (h.free _), hok]
      · next p herror =>
        refine ih (h.setTxn _ (a := .exec t) ?_) hy
        simp only [Program.step, h.txn, hq, if_pos (h.free _), herror]
    · next k deleted missing hq =>
      split at hy
      · next hfound =>
        obtain ⟨s₁, hdeleted⟩ := h.delete hq hfound
        have hdb : s₁.db = s'.db := hdeleted.db.trans h.db.symm
        exact ih hdeleted (hdb ▸ hy)
      · next hmissing =>
        refine ih (h.setTxn _ (a := .exec t) ?_) hy
        simp only [Program.step, h.txn, hq, if_neg hmissing]
    · obtain rfl := Option.some.inj hy
      exact ⟨s', h, rfl⟩
    · obtain rfl := Option.some.inj hy
      exact ⟨s', h, rfl⟩

end Reaches

theorem commit_reachable {n : ℕ} {s : Sys δ ρ κ τ π} {t : τ} {c : χ} {p : π} {ws : List (Change ρ κ)}
    (h : P.alone n { pc := P.entry c } s.db = some ⟨p, .ready, ws⟩) (hcommit : P.cmd p = .commit)
    (hfresh : t ∉ s.started) (halone : ∀ k, s.writer k = none) :
    ∃ s', Transition.Reachable P.step s s' ∧ s'.db = P.store.applyAll ws s.db ∧
      s'.log = s.log ++ [⟨t, p, ws⟩] := by
  have hbegin : P.step s (.begin t c) = some (s.opened t (P.entry c)) := if_neg hfresh
  have hopened : P.Reaches s t { pc := P.entry c } (s.opened t (P.entry c)) :=
    { run := (Transition.Reachable.refl s).tail hbegin
      txn := Function.update_self ..
      db := rfl
      log := rfl
      free := fun k => .inl (halone k) }
  obtain ⟨s₁, hend, -⟩ := hopened.alone h
  have hlast : P.step s₁ (.commit t) =
      some (s₁.committed t ⟨p, .ready, ws⟩ (P.store.applyAll ws s₁.db)) := by
    simp only [Program.step, hend.txn, hcommit]
  refine ⟨_, hend.run.tail hlast, ?_, ?_⟩
  · exact congrArg (P.store.applyAll ws) hend.db
  · exact congrArg (· ++ [_]) hend.log

end Program
end RowVersions
