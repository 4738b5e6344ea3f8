import Messenger.Social.Network

/-! What is announced of the deeds in a network, and what can be told from the announcements alone. -/

namespace Messenger

variable {υ ν γ τ : Type*}

inductive Notice (υ γ τ : Type*) where
  | joined (u : υ) (g : γ)
  | left (u : υ) (g : γ)
  | disbanded (g : γ)
  | said (u v : υ) (t : τ)
  | posted (u : υ) (g : γ) (t : τ)

/-- Nothing is announced of accounts, and nothing of requests to be friends. -/
def Deed.notice : Deed υ ν γ τ → Option (Notice υ γ τ)
  | .found u g => some (.joined u g)
  | .invite _ g v => some (.joined v g)
  | .expel _ g v => some (.left v g)
  | .disband _ g => some (.disbanded g)
  | .say u v t => some (.said u v t)
  | .post u g t => some (.posted u g t)
  | .join .. | .leave _ | .ask .. | .accept .. | .part .. => none

namespace Network

variable {n n' m : Network υ ν γ τ} {deed : Deed υ ν γ τ} {deeds : List (Deed υ ν γ τ)} {stays : υ → Prop}

/-- The network as it looks after an announcement to someone who knows nothing else. -/
def heard (m : Network υ ν γ τ) : Notice υ γ τ → Network υ ν γ τ
  | .joined u g => { m with members := insert (g, u) m.members }
  | .left u g => { m with members := {p ∈ m.members | p ≠ (g, u)} }
  | .disbanded g =>
    { m with members := {p ∈ m.members | p.1 ≠ g}, posts := {p ∈ m.posts | p.1 ≠ g} }
  | .said u v t => { m with direct := insert (u, v, t) m.direct }
  | .posted u g t => { m with posts := insert (g, u, t) m.posts }

structure SameFor (stays : υ → Prop) (n m : Network υ ν γ τ) : Prop where
  members : ∀ g u, stays u → ((g, u) ∈ n.members ↔ (g, u) ∈ m.members)
  direct : ∀ u v t, stays u → stays v → ((u, v, t) ∈ n.direct ↔ (u, v, t) ∈ m.direct)
  posts : ∀ g u t, stays u → ((g, u, t) ∈ n.posts ↔ (g, u, t) ∈ m.posts)

theorem SameFor.refl (n : Network υ ν γ τ) : n.SameFor stays n :=
  ⟨fun _ _ _ => Iff.rfl, fun _ _ _ _ _ => Iff.rfl, fun _ _ _ _ => Iff.rfl⟩

theorem SameFor.after (h : n.SameFor stays m) (hstays : ∀ u, deed = .leave u → ¬ stays u) :
    (n.after deed).SameFor stays (deed.notice.elim m m.heard) := by
  cases deed with
  | join | ask | accept | part => exact ⟨h.members, h.direct, h.posts⟩
  | leave w =>
    have hne (u : υ) (hu : stays u) : u ≠ w := by
      rintro rfl
      exact hstays u rfl hu
    constructor
    · exact fun g u hu => (and_iff_left (hne u hu)).trans (h.members g u hu)
    · exact fun u v t hu hv => (and_iff_left ⟨hne u hu, hne v hv⟩).trans (h.direct u v t hu hv)
    · exact fun g u t hu => (and_iff_left (hne u hu)).trans (h.posts g u t hu)
  | found w g' | invite a g' w =>
    exact { h with members := fun g u hu => or_congr_right (h.members g u hu) }
  | expel a g' w =>
    exact { h with members := fun g u hu => and_congr_left' (h.members g u hu) }
  | disband a g' =>
    exact { h with
      members := fun g u hu => and_congr_left' (h.members g u hu)
      posts := fun g u t hu => and_congr_left' (h.posts g u t hu) }
  | say a b s =>
    exact { h with direct := fun u v t hu hv => or_congr_right (h.direct u v t hu hv) }
  | post a g' s =>
    exact { h with posts := fun g u t hu => or_congr_right (h.posts g u t hu) }

theorem SameFor.run (h : n.SameFor stays m) (hrun : Run n deeds n')
    (hstays : ∀ u, .leave u ∈ deeds → ¬ stays u) :
    n'.SameFor stays ((deeds.filterMap Deed.notice).foldl heard m) := by
  induction hrun generalizing m with
  | nil n => exact h
  | @cons n n' deed deeds hallowed hrest ih =>
    have hfirst : (n.after deed).SameFor stays (deed.notice.elim m m.heard) :=
      h.after fun u hu => hstays u (hu ▸ List.mem_cons_self ..)
    have hlater := ih hfirst fun u hu => hstays u (List.mem_cons_of_mem _ hu)
    cases hnotice : deed.notice with
    | none =>
      rw [hnotice] at hlater
      rw [List.filterMap_cons_none hnotice]
      exact hlater
    | some notice =>
      rw [hnotice] at hlater
      rw [List.filterMap_cons_some hnotice, List.foldl_cons]
      exact hlater

end Network

end Messenger
