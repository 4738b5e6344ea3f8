import Mathlib.Data.List.Perm.Subperm
import Mathlib.Data.List.Sort

/-! Paging through rows by a cursor that is the key of the last row seen, where several rows may have one
key. The rows come in descending order of their keys. -/

namespace Paging

variable {ρ τ ε : Type} [LinearOrder τ] {key : ρ → τ}

def Descending (key : ρ → τ) (rows : List ρ) : Prop := rows.Pairwise fun r r' => key r' ≤ key r

/-- `ORDER BY key DESC LIMIT limit` over `rows`, which leaves `rest` out. -/
structure Page (key : ρ → τ) (limit : ℕ) (rows page rest : List ρ) : Prop where
  perm : (page ++ rest).Perm rows
  descending : Descending key page
  above : ∀ r ∈ page, ∀ r' ∈ rest, key r' ≤ key r
  length_le : page.length ≤ limit
  full : page.length < limit → rest = []

/-- A list that the query may answer with: which rows of one key it takes, and how it orders them, is
left open. -/
structure Answer (key : ρ → τ) (limit : ℕ) (rows answer : List ρ) : Prop where
  nodup : answer.Nodup
  subset : answer ⊆ rows
  descending : Descending key answer
  length_eq : answer.length = min limit rows.length
  latest : ∀ r ∈ rows, r ∉ answer → ∀ r' ∈ answer, key r ≤ key r'

structure Latest (key : ρ → τ) (limit : ℕ) (rows : Set ρ) (page : List ρ) : Prop where
  nodup : page.Nodup
  subset : ∀ r ∈ page, r ∈ rows
  descending : Descending key page
  length_le : page.length ≤ limit
  latest : ∀ r ∈ rows, r ∉ page → page.length = limit ∧ ∀ r' ∈ page, key r ≤ key r'

/-- Fetches page after page until one has fewer than `limit` rows. The fetches are numbered, since what
they find may change; the first argument bounds their number, and none of them may fail. -/
def showAll (key : ρ → τ) (limit : ℕ) (fetch : ℕ → Option τ → Except ε (List ρ)) :
    ℕ → ℕ → Option τ → Option (List ρ)
  | 0, _, _ => none
  | n + 1, i, before =>
    match fetch i before with
    | .error _ => none
    | .ok page =>
      if page.length < limit then some page
      else page.getLast?.bind fun r =>
        (showAll key limit fetch n (i + 1) (some (key r))).map (page ++ ·)

/-- Paging comes to an end and has shown each of `rows` exactly once, all in order. -/
def ShowsEach [DecidableEq ρ] (key : ρ → τ) (limit : ℕ) (fetch : ℕ → Option τ → Except ε (List ρ))
    (first : Option τ) (rows : List ρ) : Prop :=
  ∃ n all, showAll key limit fetch n 0 first = some all ∧ (∀ r ∈ rows, all.count r = 1) ∧
    Descending key all

def keys (key : ρ → τ) (rows : List ρ) : List τ := (rows.map key).insertionSort fun k k' => k' ≤ k

/-- Between two neighbours that are equal there is no end of a page. -/
def Aligned (limit : ℕ) (ks : List τ) : Prop :=
  ∀ i k, ks[i]? = some k → ks[i + 1]? = some k → ¬ limit ∣ i + 1

/-! ### Pages -/

namespace Page

variable {limit : ℕ} {rows rows' page page' rest rest' : List ρ}

theorem of_descending {sorted : List ρ} (hperm : sorted.Perm rows) (hsorted : Descending key sorted) :
    Page key limit rows (sorted.take limit) (sorted.drop limit) where
  perm := by rwa [List.take_append_drop]
  descending := hsorted.sublist (List.take_sublist ..)
  above := by
    rw [← List.take_append_drop limit sorted] at hsorted
    exact (List.pairwise_append.mp hsorted).2.2
  length_le := List.length_take_le ..
  full := by
    intro h
    rw [List.length_take] at h
    exact List.drop_eq_nil_of_le (by omega)

theorem of_perm (h : Page key limit rows page rest) (hrows : rows.Perm rows') :
    Page key limit rows' page rest :=
  { h with perm := h.perm.trans hrows }

theorem length_eq (h : Page key limit rows page rest) (hrest : rest ≠ []) : page.length = limit :=
  le_antisymm h.length_le (not_lt.mp fun hlt => hrest (h.full hlt))

/-- Where so many of the rows are no older than `k`, the whole page is. -/
theorem le_of_length {part : List ρ} {k : τ} (h : Page key limit rows page rest)
    (hpart : part.Subperm rows) (hlength : part.length = limit) (hk : ∀ r ∈ part, k ≤ key r) :
    ∀ r ∈ page, k ≤ key r := by
  intro r hr
  by_contra hlt
  have hrest : rest.countP (fun r => k ≤ key r) = 0 := by
    refine List.countP_eq_zero.mpr fun r' hr' => ?_
    simpa using (h.above r hr r' hr').trans_lt (not_le.mp hlt)
  -- the page holds all rows from `k` on, and there are as many of them as it can hold
  have hcount : limit ≤ page.countP fun r => k ≤ key r := by
    calc limit = part.countP fun r => k ≤ key r := by
          rw [← hlength]
          exact (List.countP_eq_length.mpr fun r hr => by simpa using hk r hr).symm
      _ ≤ rows.countP fun r => k ≤ key r := hpart.countP_le _
      _ = (page ++ rest).countP fun r => k ≤ key r := (h.perm.countP_eq _).symm
      _ = page.countP fun r => k ≤ key r := by rw [List.countP_append, hrest, Nat.add_zero]
  have hall := List.countP_eq_length.mp
    (le_antisymm List.countP_le_length (h.length_le.trans hcount)) r hr
  exact hlt (by simpa using hall)

/-- A page of two pages is a page of what they are pages of. -/
theorem merge (h : Page key limit rows page rest) (h' : Page key limit rows' page' rest')
    {merged left : List ρ} (hm : Page key limit (page ++ page') merged left) :
    Page key limit (rows ++ rows') merged (left ++ (rest ++ rest')) where
  perm := by
    have hinner : (merged ++ left ++ (rest ++ rest')).Perm (page ++ rest ++ (page' ++ rest')) := by
      refine (hm.perm.append_right _).trans ?_
      simp only [List.append_assoc]
      refine List.Perm.append_left page ?_
      rw [← List.append_assoc, ← List.append_assoc]
      exact List.perm_append_comm.append_right rest'
    rw [← List.append_assoc]
    exact hinner.trans (h.perm.append h'.perm)
  descending := hm.descending
  above := by
    intro r hr r' hr'
    rcases List.mem_append.mp hr' with hleft | hr'
    · exact hm.above r hr r' hleft
    · rcases List.mem_append.mp hr' with hrest | hrest
      · -- a page that leaves a row out is full of rows that are no older
        have hlength := h.length_eq (List.ne_nil_of_mem hrest)
        exact hm.le_of_length (List.sublist_append_left ..).subperm hlength
          (fun x hx => h.above x hx r' hrest) r hr
      · have hlength := h'.length_eq (List.ne_nil_of_mem hrest)
        exact hm.le_of_length (List.sublist_append_right ..).subperm hlength
          (fun x hx => h'.above x hx r' hrest) r hr
  length_le := hm.length_le
  full := by
    intro hlt
    have hlength := hm.perm.length_eq
    rw [hm.full hlt, List.append_nil, List.length_append] at hlength
    rw [hm.full hlt, h.full (by omega), h'.full (by omega)]
    rfl

theorem length_eq_min (h : Page key limit rows page rest) : page.length = min limit rows.length := by
  have hlength : page.length + rest.length = rows.length := by
    rw [← List.length_append]
    exact h.perm.length_eq
  have hle := h.length_le
  by_cases hlt : page.length < limit
  · have hrest : rest.length = 0 := by rw [h.full hlt, List.length_nil]
    omega
  · omega

theorem answer (h : Page key limit rows page rest) (hrows : rows.Nodup) :
    Answer key limit rows page where
  nodup := (List.nodup_append.mp (h.perm.nodup_iff.mpr hrows)).1
  subset := fun _ hr => h.perm.subset (List.mem_append_left rest hr)
  descending := h.descending
  length_eq := h.length_eq_min
  latest := by
    intro r hr hleft r' hr'
    have hrest : r ∈ rest := (List.mem_append.mp (h.perm.symm.subset hr)).resolve_left hleft
    exact h.above r' hr' r hrest

theorem latest (h : Page key limit rows page rest) (hrows : rows.Nodup) :
    Latest key limit {r | r ∈ rows} page where
  nodup := (List.nodup_append.mp (h.perm.nodup_iff.mpr hrows)).1
  subset r hr := h.perm.mem_iff.mp (List.mem_append_left rest hr)
  descending := h.descending
  length_le := h.length_le
  latest r hr hnot := by
    have hrest : r ∈ rest := (List.mem_append.mp (h.perm.mem_iff.mpr hr)).resolve_left hnot
    exact ⟨h.length_eq (List.ne_nil_of_mem hrest), fun r' hr' => h.above r' hr' r hrest⟩

/-- Rows of different keys have one page only. -/
theorem unique (h : Page key limit rows page rest) (h' : Page key limit rows page' rest')
    (hinj : ∀ r ∈ rows, ∀ r' ∈ rows, key r = key r' → r = r') : page = page' := by
  -- a page is continued by the rest in its order
  have hsort {page rest : List ρ} (h : Page key limit rows page rest) :
      ∃ tail, (page ++ tail).Perm rows ∧ Descending key (page ++ tail) := by
    have : Std.Total fun r r' => key r' ≤ key r := ⟨fun _ _ => le_total _ _⟩
    have : IsTrans ρ fun r r' => key r' ≤ key r := ⟨fun _ _ _ h h' => h'.trans h⟩
    have htail := List.perm_insertionSort (fun r r' => key r' ≤ key r) rest
    refine ⟨_, (htail.append_left page).trans h.perm, List.pairwise_append.mpr ?_⟩
    refine ⟨h.descending, List.pairwise_insertionSort _ rest, fun r hr r' hr' => ?_⟩
    exact h.above r hr r' (htail.subset hr')
  obtain ⟨tail, hperm, hdescending⟩ := hsort h
  obtain ⟨tail', hperm', hdescending'⟩ := hsort h'
  have hsame : page ++ tail = page' ++ tail' := by
    refine (hperm.trans hperm'.symm).eq_of_pairwise (fun r r' hr hr' hle hle' => ?_) hdescending
      hdescending'
    exact hinj r (hperm.subset hr) r' (hperm'.subset hr') (le_antisymm hle' hle)
  exact (List.append_inj hsame (h.length_eq_min.trans h'.length_eq_min.symm)).1

end Page

/-- The rows may be shown as something else that has their keys. -/
theorem Latest.map {α : Type} {f : ρ → α} {key' : α → τ} {limit : ℕ} {rows : Set ρ} {page : List ρ}
    (h : Latest key limit rows page) (hf : Function.Injective f) (hkey : ∀ r, key' (f r) = key r) :
    Latest key' limit (Set.image f rows) (page.map f) where
  nodup := h.nodup.map hf
  subset := by
    intro a ha
    obtain ⟨r, hr, rfl⟩ := List.mem_map.mp ha
    exact ⟨r, h.subset r hr, rfl⟩
  descending := by
    refine List.pairwise_map.mpr (h.descending.imp fun hle => ?_)
    rwa [hkey, hkey]
  length_le := (List.length_map f).le.trans h.length_le
  latest := by
    rintro _ ⟨r, hr, rfl⟩ hnot
    obtain ⟨hfull, hle⟩ := h.latest r hr fun hmem => hnot (List.mem_map_of_mem hmem)
    refine ⟨(List.length_map f).trans hfull, fun a ha => ?_⟩
    obtain ⟨r', hr', rfl⟩ := List.mem_map.mp ha
    rw [hkey, hkey]
    exact hle r' hr'

theorem Answer.page [DecidableEq ρ] {limit : ℕ} {rows answer : List ρ}
    (h : Answer key limit rows answer) (hrows : rows.Nodup) :
    Page key limit rows answer (rows.filter fun r => r ∉ answer) := by
  have hperm : (answer ++ rows.filter fun r => r ∉ answer).Perm rows := by
    have hdisjoint : answer.Disjoint (rows.filter fun r => r ∉ answer) := fun r hr hr' => by
      simpa [hr] using List.of_mem_filter hr'
    refine (List.perm_ext_iff_of_nodup (h.nodup.append (hrows.filter _) hdisjoint) hrows).mpr ?_
    intro r
    have hsubset : r ∈ answer → r ∈ rows := fun hr => h.subset hr
    rw [List.mem_append, List.mem_filter, decide_eq_true_eq]
    tauto
  refine ⟨hperm, h.descending, fun r hr r' hr' => ?_, ?_, fun hlt => ?_⟩
  · obtain ⟨hstored, hleft⟩ := List.mem_filter.mp hr'
    exact h.latest r' hstored (of_decide_eq_true hleft) r hr
  · rw [h.length_eq]
    exact Nat.min_le_left ..
  · have hlength := hperm.length_eq
    rw [List.length_append] at hlength
    have hmin := h.length_eq
    refine List.eq_nil_of_length_eq_zero ?_
    omega

/-! ### Keys -/

section

variable {limit : ℕ} {rows page rest : List ρ} {ks ks' : List τ} {k : τ}

theorem perm_keys : (keys key rows).Perm (rows.map key) := List.perm_insertionSort ..

theorem mem_keys : k ∈ keys key rows ↔ ∃ r ∈ rows, key r = k := by
  rw [perm_keys.mem_iff, List.mem_map]

theorem length_keys : (keys key rows).length = rows.length := by
  rw [perm_keys.length_eq, List.length_map]

theorem pairwise_keys : (keys key rows).Pairwise fun k k' => k' ≤ k := by
  have : Std.Total fun k k' : τ => k' ≤ k := ⟨fun k k' => le_total k' k⟩
  have : IsTrans τ fun k k' => k' ≤ k := ⟨fun _ _ _ h h' => h'.trans h⟩
  exact List.pairwise_insertionSort _ _

theorem head_keys {r : ρ} (hr : r ∈ rows) (hmax : ∀ r' ∈ rows, key r' ≤ key r) :
    (keys key rows).head? = some (key r) := by
  have hmem : key r ∈ keys key rows := mem_keys.mpr ⟨r, hr, rfl⟩
  have hsorted : (keys key rows).Pairwise fun k k' => k' ≤ k := pairwise_keys
  cases hks : keys key rows with
  | nil =>
    rw [hks] at hmem
    cases hmem
  | cons k ks =>
    obtain ⟨r', hr', rfl⟩ := mem_keys.mp (hks ▸ List.mem_cons_self .. : k ∈ keys key rows)
    rw [hks] at hmem hsorted
    rcases List.mem_cons.mp hmem with heq | htail
    · rw [heq]
      rfl
    · have hle := (List.pairwise_cons.mp hsorted).1 (key r) htail
      rw [le_antisymm hle (hmax r' hr')]
      rfl

/-- There is one way to put keys in order. -/
theorem keys_eq (hperm : ks.Perm (rows.map key)) (hks : ks.Pairwise fun k k' => k' ≤ k) :
    keys key rows = ks :=
  (perm_keys.trans hperm.symm).eq_of_pairwise (fun _ _ _ _ h h' => le_antisymm h' h) pairwise_keys hks

theorem Page.keys_eq (h : Page key limit rows page rest) :
    keys key rows = page.map key ++ keys key rest := by
  refine Paging.keys_eq ?_ (List.pairwise_append.mpr ⟨?_, pairwise_keys, ?_⟩)
  · refine (perm_keys.append_left _).trans ?_
    rw [← List.map_append]
    exact h.perm.map key
  · exact List.pairwise_map.mpr h.descending
  · intro k hk k' hk'
    obtain ⟨r, hr, rfl⟩ := List.mem_map.mp hk
    obtain ⟨r', hr', rfl⟩ := mem_keys.mp hk'
    exact h.above r hr r' hr'

omit [LinearOrder τ] in
theorem aligned_of_length_le (h : ks.length ≤ limit) : Aligned limit ks := by
  intro i k _ hsecond hdvd
  have hlt := (List.getElem?_eq_some_iff.mp hsecond).1
  exact absurd (Nat.le_of_dvd (Nat.succ_pos i) hdvd) (by omega)

omit [LinearOrder τ] in
/-- The first page ends where its keys end. -/
theorem aligned_append (hlength : ks.length = limit) (hlimit : 0 < limit) :
    Aligned limit (ks ++ ks') ↔ (∀ k, ks.getLast? = some k → ks'.head? ≠ some k) ∧ Aligned limit ks' := by
  have hlast : (ks ++ ks')[limit - 1]? = ks.getLast? := by
    rw [List.getElem?_append_left (by omega), List.getLast?_eq_getElem?, hlength]
  have hright (i : ℕ) : (ks ++ ks')[limit + i]? = ks'[i]? := by
    rw [List.getElem?_append_right (by omega), hlength, Nat.add_sub_cancel_left]
  constructor
  · intro h
    refine ⟨fun k hk hhead => ?_, fun i k hfirst hsecond hdvd => ?_⟩
    · refine h (limit - 1) k (hlast.trans hk) ?_ (Nat.sub_add_cancel hlimit ▸ Nat.dvd_refl limit)
      rw [Nat.sub_add_cancel hlimit, ← Nat.add_zero limit, hright, ← List.head?_eq_getElem?]
      exact hhead
    · refine h (limit + i) k ((hright i).trans hfirst) ((hright (i + 1)).trans hsecond) ?_
      exact (Nat.dvd_add_right (Nat.dvd_refl limit)).mpr hdvd
  · rintro ⟨hboundary, h⟩ i k hfirst hsecond hdvd
    -- the end of a page is within `ks`, between the two lists, or within `ks'`
    rcases Nat.lt_trichotomy (i + 1) limit with hlt | heq | hgt
    · exact absurd (Nat.le_of_dvd (Nat.succ_pos i) hdvd) (Nat.not_le.mpr hlt)
    · refine hboundary k ?_ ?_
      · rw [← hlast, ← heq, Nat.add_sub_cancel]
        exact hfirst
      · rw [List.head?_eq_getElem?, ← hright 0, ← heq]
        exact hsecond
    · obtain ⟨j, rfl⟩ := Nat.exists_eq_add_of_le (Nat.lt_succ_iff.mp hgt)
      rw [hright] at hfirst
      rw [Nat.add_assoc, hright] at hsecond
      rw [Nat.add_assoc, Nat.dvd_add_right (Nat.dvd_refl limit)] at hdvd
      exact h j k hfirst hsecond hdvd

end

/-! ### Paging -/

section

variable {limit : ℕ} {fetch : ℕ → Option τ → Except ε (List ρ)} {rows stored page rest all : List ρ}

/-- Every fetch finds a page of what is stored and older than its cursor, which is a key of it. -/
def Answers (key : ρ → τ) (limit : ℕ) (fetch : ℕ → Option τ → Except ε (List ρ))
    (stored : List ρ) : Prop :=
  ∀ i, ∀ r ∈ stored, ∃ page rest, fetch (i + 1) (some (key r)) = .ok page ∧
    Page key limit (stored.filter fun r' => key r' < key r) page rest

theorem Page.key_le (h : Page key limit rows page rest) {r : ρ} (hr : page.getLast? = some r) :
    ∀ r' ∈ page, key r ≤ key r' := by
  obtain ⟨init, rfl⟩ := List.getLast?_eq_some_iff.mp hr
  intro r' hr'
  rcases List.mem_append.mp hr' with hinit | hlast
  · exact (List.pairwise_append.mp h.descending).2.2 r' hinit r (List.mem_singleton_self r)
  · rw [List.mem_singleton.mp hlast]

/-- What is older than the last row of a page has been left out of it. -/
theorem Page.filter_perm (h : Page key limit rows page rest) {r : ρ} (hr : page.getLast? = some r) :
    (rows.filter fun r' => key r' < key r).Perm (rest.filter fun r' => key r' < key r) := by
  refine (h.perm.symm.filter _).trans ?_
  have hpage : page.filter (fun r' => key r' < key r) = [] :=
    List.filter_eq_nil_iff.mpr fun r' hr' => by simpa using h.key_le hr r' hr'
  rw [List.filter_append, hpage, List.nil_append]

structure Shown (key : ρ → τ) (limit : ℕ) (rows all : List ρ) : Prop where
  descending : Descending key all
  subperm : all.Subperm rows
  perm_iff : all.Perm rows ↔ Aligned limit (keys key rows)

theorem Page.shown (h : Page key limit rows page rest) (hlt : page.length < limit) :
    Shown key limit rows page := by
  have hperm := h.perm
  rw [h.full hlt, List.append_nil] at hperm
  refine ⟨h.descending, hperm.subperm, iff_of_true hperm (aligned_of_length_le ?_)⟩
  rw [length_keys, ← hperm.length_eq]
  exact Nat.le_of_lt hlt

/-- A page is followed by a paging through what is older than its last row. -/
theorem Page.shown_append (h : Page key limit rows page rest) (hlimit : 0 < limit)
    (hlength : page.length = limit) {r : ρ} (hr : page.getLast? = some r)
    (hall : Shown key limit (rows.filter fun r' => key r' < key r) all) :
    Shown key limit rows (page ++ all) := by
  have hrest := h.filter_perm hr
  have hsub : all.Subperm rest := (hall.subperm.trans hrest.subperm).trans List.filter_sublist.subperm
  have holder : ∀ r' ∈ all, key r' < key r := fun r' hr' => by
    simpa using (List.mem_filter.mp (hall.subperm.subset hr')).2
  refine ⟨List.pairwise_append.mpr ⟨h.descending, hall.descending, fun x hx y hy => ?_⟩, ?_, ?_⟩
  · exact (holder y hy).le.trans (h.key_le hr x hx)
  · exact ((List.subperm_append_left page).mpr hsub).trans h.perm.subperm
  · rw [h.keys_eq, aligned_append (by rw [List.length_map, hlength]) hlimit]
    have hlast : (page.map key).getLast? = some (key r) := by rw [List.getLast?_map, hr]; rfl
    by_cases hties : ∀ r' ∈ rest, key r' < key r
    · -- no row of the last row's time is left out
      have hfilter : rest.filter (fun r' => key r' < key r) = rest :=
        List.filter_eq_self.mpr fun r' hr' => by simpa using hties r' hr'
      rw [hfilter] at hrest
      have hkeys : keys key (rows.filter fun r' => key r' < key r) = keys key rest :=
        Paging.keys_eq (perm_keys.trans (hrest.symm.map key)) pairwise_keys
      have hperm : (page ++ all).Perm rows ↔ all.Perm (rows.filter fun r' => key r' < key r) := by
        constructor
        · exact fun hp => ((List.perm_append_left_iff page).mp (hp.trans h.perm.symm)).trans hrest.symm
        · exact fun hp => ((hp.trans hrest).append_left page).trans h.perm
      rw [hperm, hall.perm_iff, hkeys]
      refine ⟨fun haligned => ⟨fun k hk hhead => ?_, haligned⟩, And.right⟩
      obtain rfl := Option.some.inj (hlast.symm.trans hk)
      obtain ⟨r', hr', heq⟩ := mem_keys.mp (List.mem_of_head? hhead)
      exact absurd (hties r' hr') (not_lt.mpr heq.ge)
    · -- a row of the last row's time is left out, and the next cursor jumps over it
      push Not at hties
      obtain ⟨r', hr', hle⟩ := hties
      refine iff_of_false (fun hp => ?_) fun haligned => ?_
      · -- `r'` is never shown
        have hshorter : (rest.filter fun r' => key r' < key r).length < rest.length :=
          List.length_filter_lt_length_iff_exists.mpr ⟨r', hr', by simpa using hle⟩
        have hlen := hp.length_eq.trans h.perm.length_eq.symm
        rw [List.length_append, List.length_append] at hlen
        have := (hall.subperm.trans hrest.subperm).length_le
        omega
      · have hnext : key r' = key r :=
          le_antisymm (h.above r (List.mem_of_getLast? hr) r' hr') hle
        exact haligned.1 (key r) hlast (hnext ▸ head_keys hr' fun x hx => hnext ▸
          h.above r (List.mem_of_getLast? hr) x hx)

def Remains (key : ρ → τ) (stored rows : List ρ) : Prop := ∀ r ∈ rows, r ∈ stored ∧
  stored.filter (fun r' => key r' < key r) = rows.filter fun r' => key r' < key r

theorem Remains.filter (h : Remains key stored rows) (r : ρ) :
    Remains key stored (rows.filter fun r' => key r' < key r) := by
  intro x hx
  obtain ⟨hmem, hlt⟩ := List.mem_filter.mp hx
  obtain ⟨hstored, heq⟩ := h x hmem
  refine ⟨hstored, heq.trans ?_⟩
  rw [List.filter_filter]
  refine List.filter_congr fun y _ => ?_
  have hxr : key x < key r := by simpa using hlt
  have himp : key y < key x → key y < key r := fun hyx => hyx.trans hxr
  simpa using himp

theorem Answers.next (hfetch : Answers key limit fetch stored) (hrows : Remains key stored rows)
    (h : Page key limit rows page rest) {r : ρ} (hr : page.getLast? = some r) (i : ℕ) :
    r ∈ rows ∧ ∃ page' rest', fetch (i + 1) (some (key r)) = .ok page' ∧
      Page key limit (rows.filter fun r' => key r' < key r) page' rest' := by
  have hmem : r ∈ rows := h.perm.subset (List.mem_append_left rest (List.mem_of_getLast? hr))
  obtain ⟨hstored, heq⟩ := hrows r hmem
  exact ⟨hmem, heq ▸ hfetch i r hstored⟩

/-- Paging to its end shows nothing twice and in order, and everything where no page ends among rows of
one time. -/
theorem shown_of_showAll (hfetch : Answers key limit fetch stored) (hlimit : 0 < limit) {n i : ℕ}
    {before : Option τ} (hpage : fetch i before = .ok page) (h : Page key limit rows page rest)
    (hrows : Remains key stored rows) (hall : showAll key limit fetch n i before = some all) :
    Shown key limit rows all := by
  induction n generalizing i before rows page rest all with
  | zero => cases hall
  | succ n ih =>
    simp only [showAll, hpage] at hall
    split at hall
    · next hlt =>
      obtain rfl := Option.some.inj hall
      exact h.shown hlt
    · next hnlt =>
      have hlength := le_antisymm h.length_le (not_lt.mp hnlt)
      obtain ⟨r, hr, hmap⟩ := Option.bind_eq_some_iff.mp hall
      obtain ⟨all', hall', rfl⟩ := Option.map_eq_some_iff.mp hmap
      obtain ⟨-, page', rest', hpage', h'⟩ := hfetch.next hrows h hr i
      exact h.shown_append hlimit hlength hr (ih hpage' h' (hrows.filter r) hall')

/-- Enough fetches bring the paging to its end. -/
theorem isSome_showAll (hfetch : Answers key limit fetch stored) (hlimit : 0 < limit) {n i : ℕ}
    {before : Option τ} (hpage : fetch i before = .ok page) (h : Page key limit rows page rest)
    (hrows : Remains key stored rows) (hn : rows.length < n) :
    (showAll key limit fetch n i before).isSome := by
  induction n generalizing i before rows page rest with
  | zero => exact absurd hn (Nat.not_lt_zero _)
  | succ n ih =>
    simp only [showAll, hpage]
    split
    · rfl
    · next hnlt =>
      have hne : page ≠ [] := by
        rintro rfl
        exact hnlt hlimit
      obtain ⟨r, hr⟩ := Option.isSome_iff_exists.mp (List.getLast?_isSome.mpr hne)
      obtain ⟨hmem, page', rest', hpage', h'⟩ := hfetch.next hrows h hr i
      -- the last row of the page does not come again
      have hshorter : (rows.filter fun r' => key r' < key r).length < rows.length :=
        List.length_filter_lt_length_iff_exists.mpr ⟨r, hmem, by simp⟩
      have hrest := ih hpage' h' (hrows.filter r) (by omega)
      rw [hr, Option.bind_some, Option.isSome_map]
      exact hrest

/-- Paging shows each row exactly once, and in order, if and only if no page ends between rows of one
key. -/
theorem showsEach_iff [DecidableEq ρ] (hstored : stored.Nodup) (hlimit : 0 < limit) {first : Option τ}
    (hpage : fetch 0 first = .ok page) (h : Page key limit stored page rest)
    (hfetch : Answers key limit fetch stored) :
    ShowsEach key limit fetch first stored ↔ Aligned limit (keys key stored) := by
  have hrows : Remains key stored stored := fun r hr => ⟨hr, rfl⟩
  constructor
  · rintro ⟨n, all, hall, hcount, -⟩
    have hshown := shown_of_showAll hfetch hlimit hpage h hrows hall
    refine hshown.perm_iff.mp (hshown.subperm.antisymm (hstored.subperm fun r hr => ?_))
    exact List.count_pos_iff.mp (hcount r hr ▸ Nat.one_pos)
  · intro haligned
    obtain ⟨all, hall⟩ := Option.isSome_iff_exists.mp
      (isSome_showAll hfetch hlimit hpage h hrows (Nat.lt_succ_self _))
    have hshown := shown_of_showAll hfetch hlimit hpage h hrows hall
    have hperm := hshown.perm_iff.mpr haligned
    refine ⟨_, all, hall, fun r hr => ?_, hshown.descending⟩
    exact List.count_eq_one_of_mem (hperm.nodup_iff.mpr hstored) (hperm.mem_iff.mpr hr)

end
end Paging
