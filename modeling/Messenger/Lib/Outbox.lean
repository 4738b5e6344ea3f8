import Mathlib.Data.List.Pairwise
import Messenger.Lib.Transition

/-! Calls that announce on a channel what they have committed to a store. A call runs one transaction,
which takes effect as a whole or is rolled back, and then publishes its announcements one after the
other. Other calls and other clients of the store may come in between any two of these steps, and a
publication that fails ends the call, whether or not the channel has taken it. -/

namespace Outbox

variable {τ χ δ ε : Type*}

inductive Entry (τ χ δ ε : Type*) where
  | committed (t : τ) (c : χ) (before after : δ)
  | rolledBack (t : τ) (c : χ)
  | published (t : τ) (e : ε)

def Entry.ends? : Entry τ χ δ ε → Option τ
  | committed t _ _ _ => some t
  | rolledBack t _ => some t
  | published _ _ => none

def Entry.publishedBy? [DecidableEq τ] (t : τ) : Entry τ χ δ ε → Option ε
  | published t' e => if t' = t then some e else none
  | _ => none

def publishedBy [DecidableEq τ] (t : τ) (log : List (Entry τ χ δ ε)) : List ε :=
  log.filterMap (Entry.publishedBy? t)

structure State (τ χ δ ε : Type*) where
  db : δ
  pending : τ → List ε := fun _ => []
  log : List (Entry τ χ δ ε) := []

inductive Act (τ χ δ : Type*) where
  | transact (t : τ) (c : χ)
  | lose (t : τ) (c : χ)
  | publish (t : τ)
  | fail (t : τ) (delivered : Bool)
  | others (d : δ)

variable [DecidableEq τ]

def step (transact : χ → δ → Option (δ × List ε)) (s : State τ χ δ ε) :
    Act τ χ δ → Option (State τ χ δ ε)
  | .transact t c =>
    if t ∈ s.log.filterMap Entry.ends? then none
    else
      match transact c s.db with
      | some (d, es) =>
        some { db := d, pending := Function.update s.pending t es, log := s.log ++ [.committed t c s.db d] }
      | none => some { s with log := s.log ++ [.rolledBack t c] }
  | .lose t c =>
    -- the transaction commits, and the caller is not told
    if t ∈ s.log.filterMap Entry.ends? then none
    else (transact c s.db).map fun (d, _) => { s with db := d, log := s.log ++ [.committed t c s.db d] }
  | .publish t =>
    match s.pending t with
    | e :: es =>
      some { s with pending := Function.update s.pending t es, log := s.log ++ [.published t e] }
    | [] => none
  | .fail t delivered =>
    match s.pending t with
    | e :: _ =>
      some { s with
        pending := Function.update s.pending t []
        log := if delivered then s.log ++ [.published t e] else s.log }
    | [] => none
  -- another client of the store commits
  | .others d => some { s with db := d }

/-- The call has committed, and what it has published and will publish it has announced. -/
def Announced (transact : χ → δ → Option (δ × List ε)) (log : List (Entry τ χ δ ε)) (t : τ)
    (es : List ε) : Prop :=
  ∃ c d d' all, .committed t c d d' ∈ log ∧ transact c d = some (d', all) ∧ es <+: all

structure Inv (transact : χ → δ → Option (δ × List ε)) (s : State τ χ δ ε) : Prop where
  once : s.log.Pairwise fun a b => ∀ t, a.ends? = some t → b.ends? ≠ some t
  commits : ∀ t c d d', .committed t c d d' ∈ s.log → ∃ es, transact c d = some (d', es)
  calls : ∀ t, publishedBy t s.log ++ s.pending t ≠ [] →
    Announced transact s.log t (publishedBy t s.log ++ s.pending t)
  order : ∀ pre t e, pre ++ [.published t e] <+: s.log → ∃ c d d' es,
    .committed t c d d' ∈ pre ∧ transact c d = some (d', es) ∧ e ∈ es

variable {transact : χ → δ → Option (δ × List ε)} {s s' : State τ χ δ ε} {t t' : τ} {c : χ}
  {d d' : δ} {es es' : List ε} {e : ε} {log : List (Entry τ χ δ ε)} {x : Entry τ χ δ ε} {a : Act τ χ δ}

theorem publishedBy_concat : publishedBy t (log ++ [x]) = publishedBy t log ++ (x.publishedBy? t).toList := by
  simp only [publishedBy, List.filterMap_append]
  cases hx : x.publishedBy? t <;> simp [hx]

omit [DecidableEq τ] in
theorem Announced.mono (h : Announced transact log t es) (hes : es' <+: es) :
    Announced transact (log ++ [x]) t es' := by
  obtain ⟨c, d, d', all, hc, htx, hall⟩ := h
  exact ⟨c, d, d', all, List.mem_append_left _ hc, htx, hes.trans hall⟩

theorem Entry.publishedBy?_of_ends (hx : x.ends? = some t') : x.publishedBy? t = none := by
  cases x with
  | published t e => cases hx
  | _ => rfl

theorem Entry.publishedBy?_published :
    (published t' e : Entry τ χ δ ε).publishedBy? t = if t' = t then some e else none := rfl

omit [DecidableEq τ] in
theorem published_of_concat {pre : List (Entry τ χ δ ε)} (hx : x.ends? = some t')
    (h : pre ++ [.published t e] <+: log ++ [x]) : pre ++ [.published t e] <+: log := by
  rcases List.prefix_concat_iff.mp h with heq | hpre
  · obtain ⟨-, hlast⟩ := List.append_inj' heq rfl
    obtain rfl := (List.cons.inj hlast).1
    cases hx
  · exact hpre

namespace Inv

theorem idle (h : Inv transact s) (hfree : t ∉ s.log.filterMap Entry.ends?) :
    publishedBy t s.log ++ s.pending t = [] := by
  by_contra hne
  obtain ⟨c, d, d', es, hc, -⟩ := h.calls t hne
  exact hfree (List.mem_filterMap.mpr ⟨_, hc, rfl⟩)

/-- The transaction of a call ends, with this left to be published. -/
theorem concat_end (h : Inv transact s) (hfree : t ∉ s.log.filterMap Entry.ends?)
    (hx : x.ends? = some t)
    (hcommit : ∀ t c d d', x = .committed t c d d' → ∃ es, transact c d = some (d', es))
    (hes : es ≠ [] → Announced transact (s.log ++ [x]) t es) :
    Inv transact { db := d, pending := Function.update s.pending t es, log := s.log ++ [x] } where
  once := by
    refine List.pairwise_append.mpr ⟨h.once, List.pairwise_singleton .., fun a ha b hb t' ht' => ?_⟩
    rw [List.mem_singleton.mp hb, hx]
    -- an earlier end of `t` would have kept it from getting here
    intro heq
    rw [← Option.some.inj heq] at ht'
    exact hfree (List.mem_filterMap.mpr ⟨a, ha, ht'⟩)
  commits t' c d d' hc := by
    rcases List.mem_append.mp hc with hc | hc
    · exact h.commits t' c d d' hc
    · exact hcommit t' c d d' (List.mem_singleton.mp hc).symm
  calls t' := by
    simp only [publishedBy_concat, Entry.publishedBy?_of_ends hx, Option.toList_none, List.append_nil]
    rcases eq_or_ne t' t with rfl | hne
    · -- nothing has been published yet, so what is announced is what is pending
      rw [(List.append_eq_nil_iff.mp (h.idle hfree)).1, Function.update_self, List.nil_append]
      exact hes
    · rw [Function.update_of_ne hne]
      exact fun hnil => (h.calls t' hnil).mono List.prefix_rfl
  order pre t' e hpre := h.order pre t' e (published_of_concat hx hpre)

theorem publish (h : Inv transact s) (hp : s.pending t = e :: es) (hes : es' <+: es) :
    Inv transact { s with pending := Function.update s.pending t es', log := s.log ++ [.published t e] } where
  once := by
    refine List.pairwise_append.mpr ⟨h.once, List.pairwise_singleton .., fun a _ b hb t' _ => ?_⟩
    rw [List.mem_singleton.mp hb]
    exact nofun
  commits t' c d d' hc := by
    rcases List.mem_append.mp hc with hc | hc
    · exact h.commits t' c d d' hc
    · cases List.mem_singleton.mp hc
  calls t' := by
    simp only [publishedBy_concat, Entry.publishedBy?_published]
    rcases eq_or_ne t' t with rfl | hne
    · intro _
      rw [if_pos rfl, Function.update_self]
      -- the head of what was pending moves to what has been published
      refine (h.calls t' (by simp [hp])).mono ?_
      rw [hp, Option.toList_some, List.append_assoc, List.singleton_append]
      exact List.prefix_append_right_inj _ |>.mpr (List.cons_prefix_cons.mpr ⟨rfl, hes⟩)
    · rw [if_neg hne.symm, Option.toList_none, List.append_nil, Function.update_of_ne hne]
      exact fun hnil => (h.calls t' hnil).mono List.prefix_rfl
  order pre t' e' hpre := by
    rcases List.prefix_concat_iff.mp hpre with heq | hpre
    · obtain ⟨rfl, hlast⟩ := List.append_inj' heq rfl
      obtain ⟨rfl, rfl⟩ := Entry.published.inj (List.cons.inj hlast).1
      obtain ⟨c, d, d', all, hc, htx, hall⟩ := h.calls t' (by simp [hp])
      exact ⟨c, d, d', all, hc, htx, hall.subset (by simp [hp])⟩
    · exact h.order pre t' e' hpre

theorem drop (h : Inv transact s) :
    Inv transact { s with pending := Function.update s.pending t [] } where
  once := h.once
  commits := h.commits
  calls t' := by
    dsimp only
    rcases eq_or_ne t' t with rfl | hne
    · rw [Function.update_self, List.append_nil]
      intro hnil
      obtain ⟨c, d, d', all, hc, htx, hall⟩ := h.calls t' (by simp [hnil])
      exact ⟨c, d, d', all, hc, htx, (List.prefix_append ..).trans hall⟩
    · rw [Function.update_of_ne hne]
      exact h.calls t'
  order := h.order

theorem others (h : Inv transact s) (d : δ) : Inv transact { s with db := d } :=
  ⟨h.once, h.commits, h.calls, h.order⟩

theorem step (h : Inv transact s) (hs : Outbox.step transact s a = some s') : Inv transact s' := by
  cases a with
  | transact t c =>
    simp only [Outbox.step] at hs
    split at hs
    · cases hs
    · next hfree =>
      split at hs
      · next d es htx =>
        obtain rfl := Option.some.inj hs
        refine h.concat_end hfree rfl (fun t' c' d₁ d₂ heq => ?_) fun _ => ?_
        · obtain ⟨-, rfl, rfl, rfl⟩ := Entry.committed.inj heq
          exact ⟨es, htx⟩
        · exact ⟨c, _, _, es, List.mem_concat_self, htx, List.prefix_rfl⟩
      · -- a rollback announces nothing
        obtain rfl := Option.some.inj hs
        have hpending := (List.append_eq_nil_iff.mp (h.idle hfree)).2
        have hinv : Inv transact (.mk s.db (Function.update s.pending t [])
            (s.log ++ [.rolledBack t c])) :=
          h.concat_end hfree rfl nofun fun hne => absurd rfl hne
        rwa [← hpending, Function.update_eq_self] at hinv
  | lose t c =>
    simp only [Outbox.step] at hs
    split at hs
    · cases hs
    · next hfree =>
      obtain ⟨⟨d, es⟩, htx, rfl⟩ := Option.map_eq_some_iff.mp hs
      have hpending := (List.append_eq_nil_iff.mp (h.idle hfree)).2
      have hinv : Inv transact (.mk d (Function.update s.pending t [])
          (s.log ++ [.committed t c s.db d])) := by
        refine h.concat_end hfree rfl (fun t' c' d₁ d₂ heq => ?_) fun hne => absurd rfl hne
        obtain ⟨-, rfl, rfl, rfl⟩ := Entry.committed.inj heq
        exact ⟨es, htx⟩
      rwa [← hpending, Function.update_eq_self] at hinv
  | publish t =>
    simp only [Outbox.step] at hs
    split at hs
    · next e es hp =>
      obtain rfl := Option.some.inj hs
      exact h.publish hp List.prefix_rfl
    · cases hs
  | fail t delivered =>
    simp only [Outbox.step] at hs
    split at hs
    · next e es hp =>
      obtain rfl := Option.some.inj hs
      cases delivered with
      | true => exact h.publish hp List.nil_prefix
      | false => exact h.drop
    · cases hs
  | others d =>
    obtain rfl := Option.some.inj hs
    exact h.others d

theorem init (d : δ) : Inv transact ({ db := d } : State τ χ δ ε) where
  once := .nil
  commits _ _ _ _ hc := by cases hc
  calls _ hne := absurd rfl hne
  order pre t e hpre := by simp at hpre

end Inv

/-! ### What a step adds -/

/-- Only the end of a transaction commits to the store or is logged as such. -/
theorem log_of_step (hs : step transact s a = some s') :
    ∃ xs, s'.log = s.log ++ xs ∧ ∀ x ∈ xs, (∃ t e, x = .published t e) ∨
      ∃ t c, (a = .transact t c ∨ a = .lose t c) ∧
        ((∃ d', x = .committed t c s.db d') ∨ x = .rolledBack t c) := by
  cases a with
  | transact t c =>
    simp only [step] at hs
    split at hs
    · cases hs
    · split at hs
      · obtain rfl := Option.some.inj hs
        exact ⟨_, rfl, fun x hx => .inr ⟨t, c, .inl rfl, .inl ⟨_, List.mem_singleton.mp hx⟩⟩⟩
      · obtain rfl := Option.some.inj hs
        exact ⟨_, rfl, fun x hx => .inr ⟨t, c, .inl rfl, .inr (List.mem_singleton.mp hx)⟩⟩
  | lose t c =>
    simp only [step] at hs
    split at hs
    · cases hs
    · obtain ⟨_, -, rfl⟩ := Option.map_eq_some_iff.mp hs
      exact ⟨_, rfl, fun x hx => .inr ⟨t, c, .inr rfl, .inl ⟨_, List.mem_singleton.mp hx⟩⟩⟩
  | publish t =>
    simp only [step] at hs
    split at hs
    · obtain rfl := Option.some.inj hs
      exact ⟨_, rfl, fun x hx => .inl ⟨t, _, List.mem_singleton.mp hx⟩⟩
    · cases hs
  | fail t delivered =>
    simp only [step] at hs
    split at hs
    · obtain rfl := Option.some.inj hs
      cases delivered with
      | true => exact ⟨_, rfl, fun x hx => .inl ⟨t, _, List.mem_singleton.mp hx⟩⟩
      | false => exact ⟨[], (List.append_nil _).symm, fun _ hx => absurd hx List.not_mem_nil⟩
    · cases hs
  | others d =>
    obtain rfl := Option.some.inj hs
    exact ⟨[], (List.append_nil _).symm, fun _ hx => absurd hx List.not_mem_nil⟩

theorem db_of_transact (hs : step transact s (.transact t c) = some s') :
    s'.db = (transact c s.db).elim s.db Prod.fst := by
  simp only [step] at hs
  split at hs
  · cases hs
  · split at hs
    · next htx =>
      obtain rfl := Option.some.inj hs
      rw [htx]
      rfl
    · next htx =>
      obtain rfl := Option.some.inj hs
      rw [htx]
      rfl

theorem db_of_lose (hs : step transact s (.lose t c) = some s') :
    s'.db = (transact c s.db).elim s.db Prod.fst := by
  simp only [step] at hs
  split at hs
  · cases hs
  · obtain ⟨_, htx, rfl⟩ := Option.map_eq_some_iff.mp hs
    rw [htx]
    rfl

theorem db_of_publication (hs : step transact s a = some s') (ha : a = .publish t ∨ ∃ b, a = .fail t b) :
    s'.db = s.db := by
  rcases ha with rfl | ⟨b, rfl⟩ <;> simp only [step] at hs <;> split at hs
  · exact Option.some.inj hs ▸ rfl
  · cases hs
  · exact Option.some.inj hs ▸ rfl
  · cases hs

/-! ### Calls that nothing comes between -/

open Transition

/-- What is pending is published as far as `sent`. -/
theorem run_publish (transact : χ → δ → Option (δ × List ε)) (sent rest : List ε)
    (s : State τ χ δ ε) (hp : s.pending t = sent ++ rest) :
    run (step transact) s (List.replicate sent.length (.publish t)) =
      some { s with
        pending := Function.update s.pending t rest
        log := s.log ++ sent.map (.published t) } := by
  induction sent generalizing s with
  | nil =>
    have hsame : Function.update s.pending t rest = s.pending := by
      rw [← List.nil_append rest, ← hp, Function.update_eq_self]
    simp only [List.length_nil, List.replicate_zero, run_nil, hsame, List.map_nil, List.append_nil]
  | cons e sent ih =>
    have hstep : step transact s (.publish t) = some { s with
        pending := Function.update s.pending t (sent ++ rest)
        log := s.log ++ [.published t e] } := by
      simp only [step, hp, List.cons_append]
    have hrest := ih { s with
        pending := Function.update s.pending t (sent ++ rest)
        log := s.log ++ [.published t e] } (Function.update_self ..)
    simp only [Function.update_idem, List.append_assoc, List.singleton_append] at hrest
    show (step transact s (.publish t)).bind _ = _
    rw [hstep, Option.bind_some, hrest]
    rfl

theorem run_committed (sent rest : List ε) (hfree : t ∉ s.log.filterMap Entry.ends?)
    (htx : transact c s.db = some (d, sent ++ rest)) :
    run (step transact) s (.transact t c :: List.replicate sent.length (.publish t)) =
      some { s with
        db := d
        pending := Function.update s.pending t rest
        log := s.log ++ .committed t c s.db d :: sent.map (.published t) } := by
  have hstep : step transact s (.transact t c) = some { s with
      db := d
      pending := Function.update s.pending t (sent ++ rest)
      log := s.log ++ [.committed t c s.db d] } := by
    simp only [step, if_neg hfree, htx]
  have hrest := run_publish transact sent rest { s with
      db := d
      pending := Function.update s.pending t (sent ++ rest)
      log := s.log ++ [.committed t c s.db d] } (Function.update_self ..)
  simp only [Function.update_idem, List.append_assoc, List.singleton_append] at hrest
  show (step transact s (.transact t c)).bind _ = _
  rw [hstep, Option.bind_some, hrest]

end Outbox
