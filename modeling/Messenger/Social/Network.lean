import Mathlib.Data.Set.Insert
import Mathlib.Order.SetNotation

/-! What a messenger is for, without its tables: who has an account, who has asked whom to be friends, who
are friends, who belongs to which group, and what has been said. -/

namespace Messenger

/-- The users are of type `υ`, their names of type `ν`, the groups of type `γ`, and what is said of type
`τ`. -/
@[ext] structure Network (υ ν γ τ : Type*) where
  /-- Each user with their name. -/
  accounts : Set (υ × ν) := ∅
  /-- Who has asked whom, and has got no answer yet. -/
  asked : Set (υ × υ) := ∅
  /-- Who has asked whom, and has been accepted. -/
  friends : Set (υ × υ) := ∅
  /-- Each group with who has founded it. -/
  groups : Set (γ × υ) := ∅
  members : Set (γ × υ) := ∅
  direct : Set (υ × υ × τ) := ∅
  posts : Set (γ × υ × τ) := ∅

inductive Deed (υ ν γ τ : Type*) where
  | join (u : υ) (name : ν)
  | leave (u : υ)
  | ask (u v : υ)
  /-- The user `u` accepts the request of `v`. -/
  | accept (u v : υ)
  | part (u v : υ)
  | found (u : υ) (g : γ)
  | invite (u : υ) (g : γ) (v : υ)
  | expel (u : υ) (g : γ) (v : υ)
  | disband (u : υ) (g : γ)
  | say (u v : υ) (t : τ)
  | post (u : υ) (g : γ) (t : τ)

namespace Network

variable {υ ν γ τ : Type*}

def HasUser (n : Network υ ν γ τ) (u : υ) : Prop := ∃ name, (u, name) ∈ n.accounts

def HasGroup (n : Network υ ν γ τ) (g : γ) : Prop := ∃ u, (g, u) ∈ n.groups

def relations (n : Network υ ν γ τ) : Set (υ × υ) := n.asked ∪ n.friends

def Allowed (n : Network υ ν γ τ) : Deed υ ν γ τ → Prop
  | .join u name => ¬ n.HasUser u ∧ ∀ v, (v, name) ∉ n.accounts
  | .leave u => n.HasUser u ∧ ∀ g, (g, u) ∉ n.groups
  | .ask u v => u ≠ v ∧ n.HasUser u ∧ n.HasUser v ∧ (u, v) ∉ n.relations
  | .accept u v => (v, u) ∈ n.relations
  | .part u v => (u, v) ∈ n.relations ∨ (v, u) ∈ n.relations
  | .found u g => n.HasUser u ∧ ¬ n.HasGroup g
  | .invite u g v => (g, u) ∈ n.groups ∧ n.HasUser v ∧ (g, v) ∉ n.members
  | .expel u g v => (g, v) ∈ n.members ∧ ∃ c, (g, c) ∈ n.groups ∧ v ≠ c ∧ (u = v ∨ u = c)
  | .disband u g => (g, u) ∈ n.groups
  | .say u v _ => (u, v) ∈ n.friends ∨ (v, u) ∈ n.friends
  | .post u g _ => (g, u) ∈ n.members

def after (n : Network υ ν γ τ) : Deed υ ν γ τ → Network υ ν γ τ
  | .join u name => { n with accounts := insert (u, name) n.accounts }
  | .leave u =>
    { accounts := {p ∈ n.accounts | p.1 ≠ u}
      asked := {p ∈ n.asked | p.1 ≠ u ∧ p.2 ≠ u}
      friends := {p ∈ n.friends | p.1 ≠ u ∧ p.2 ≠ u}
      groups := n.groups
      members := {p ∈ n.members | p.2 ≠ u}
      direct := {p ∈ n.direct | p.1 ≠ u ∧ p.2.1 ≠ u}
      posts := {p ∈ n.posts | p.2.1 ≠ u} }
  | .ask u v => { n with asked := insert (u, v) n.asked }
  | .accept u v =>
    { n with asked := {p ∈ n.asked | p ≠ (v, u)}, friends := insert (v, u) n.friends }
  | .part u v =>
    { n with
      asked := {p ∈ n.asked | p ≠ (u, v) ∧ p ≠ (v, u)}
      friends := {p ∈ n.friends | p ≠ (u, v) ∧ p ≠ (v, u)} }
  | .found u g => { n with groups := insert (g, u) n.groups, members := insert (g, u) n.members }
  | .invite _ g v => { n with members := insert (g, v) n.members }
  | .expel _ g v => { n with members := {p ∈ n.members | p ≠ (g, v)} }
  | .disband _ g =>
    { n with
      groups := {p ∈ n.groups | p.1 ≠ g}
      members := {p ∈ n.members | p.1 ≠ g}
      posts := {p ∈ n.posts | p.1 ≠ g} }
  | .say u v t => { n with direct := insert (u, v, t) n.direct }
  | .post u g t => { n with posts := insert (g, u, t) n.posts }

def Does (n : Network υ ν γ τ) : Option (Deed υ ν γ τ) → Network υ ν γ τ → Prop
  | some deed, n' => n.Allowed deed ∧ n' = n.after deed
  | none, n' => n' = n

inductive Run : Network υ ν γ τ → List (Deed υ ν γ τ) → Network υ ν γ τ → Prop
  | nil (n : Network υ ν γ τ) : Run n [] n
  | cons {n n' : Network υ ν γ τ} {deed : Deed υ ν γ τ} {deeds : List (Deed υ ν γ τ)}
    (h : n.Allowed deed) (hrest : Run (n.after deed) deeds n') : Run n (deed :: deeds) n'

/-- A user has one name and a name one user, nothing refers to a user or a group that is not there, and
whoever has founded a group is its member. -/
structure WellFormed (n : Network υ ν γ τ) : Prop where
  named : ∀ u name name', (u, name) ∈ n.accounts → (u, name') ∈ n.accounts → name = name'
  names : ∀ u v name, (u, name) ∈ n.accounts → (v, name) ∈ n.accounts → u = v
  relations : ∀ u v, (u, v) ∈ n.relations → u ≠ v ∧ n.HasUser u ∧ n.HasUser v
  answered : ∀ p ∈ n.asked, p ∉ n.friends
  founder : ∀ g u v, (g, u) ∈ n.groups → (g, v) ∈ n.groups → u = v
  founds : ∀ p ∈ n.groups, p ∈ n.members
  members : ∀ g u, (g, u) ∈ n.members → n.HasUser u ∧ n.HasGroup g
  direct : ∀ u v t, (u, v, t) ∈ n.direct → n.HasUser u ∧ n.HasUser v
  posts : ∀ g u t, (g, u, t) ∈ n.posts → n.HasUser u ∧ n.HasGroup g

variable {n n' : Network υ ν γ τ} {deed : Deed υ ν γ τ} {deeds : List (Deed υ ν γ τ)}

theorem WellFormed.after (h : n.WellFormed) (hallowed : n.Allowed deed) : (n.after deed).WellFormed := by
  cases deed with
  | join u name =>
    obtain ⟨huser, hname⟩ := hallowed
    have hstays {v : υ} (hv : n.HasUser v) : (n.after (.join u name)).HasUser v :=
      hv.imp fun _ => .inr
    refine { h with named := ?_, names := ?_, relations := ?_, members := ?_, direct := ?_, posts := ?_ }
    · rintro v x y (hx | hx) (hy | hy)
      · exact (Prod.mk.inj hx).2.trans (Prod.mk.inj hy).2.symm
      · obtain ⟨rfl, -⟩ := Prod.mk.inj hx
        exact absurd ⟨y, hy⟩ huser
      · obtain ⟨rfl, -⟩ := Prod.mk.inj hy
        exact absurd ⟨x, hx⟩ huser
      · exact h.named v x y hx hy
    · rintro v w x (hv | hv) (hw | hw)
      · exact (Prod.mk.inj hv).1.trans (Prod.mk.inj hw).1.symm
      · obtain ⟨-, rfl⟩ := Prod.mk.inj hv
        exact absurd hw (hname w)
      · obtain ⟨-, rfl⟩ := Prod.mk.inj hw
        exact absurd hv (hname v)
      · exact h.names v w x hv hw
    · intro a b hab
      obtain ⟨hne, ha, hb⟩ := h.relations a b hab
      exact ⟨hne, hstays ha, hstays hb⟩
    · exact fun g a ha => (h.members g a ha).imp_left hstays
    · exact fun a b t hab => (h.direct a b t hab).imp hstays hstays
    · exact fun g a t ha => (h.posts g a t ha).imp_left hstays
  | leave u =>
    -- whoever has founded a group cannot leave, so no group loses its founder
    obtain ⟨-, hgroups⟩ := hallowed
    have hstays {v : υ} (hv : n.HasUser v) (hne : v ≠ u) : (n.after (.leave u)).HasUser v :=
      hv.imp fun _ hname => ⟨hname, hne⟩
    refine ⟨?_, ?_, ?_, ?_, h.founder, ?_, ?_, ?_, ?_⟩
    · exact fun v x y hx hy => h.named v x y hx.1 hy.1
    · exact fun v w x hv hw => h.names v w x hv.1 hw.1
    · intro a b hab
      obtain ⟨hold, ha, hb⟩ : (a, b) ∈ n.relations ∧ a ≠ u ∧ b ≠ u :=
        hab.elim (fun hab => ⟨.inl hab.1, hab.2⟩) fun hab => ⟨.inr hab.1, hab.2⟩
      obtain ⟨hne, ha', hb'⟩ := h.relations a b hold
      exact ⟨hne, hstays ha' ha, hstays hb' hb⟩
    · exact fun p hp hfriends => h.answered p hp.1 hfriends.1
    · refine fun p hp => ⟨h.founds p hp, ?_⟩
      rintro rfl
      exact hgroups p.1 hp
    · exact fun g a ha => ⟨hstays (h.members g a ha.1).1 ha.2, (h.members g a ha.1).2⟩
    · intro a b t hab
      obtain ⟨ha, hb⟩ := h.direct a b t hab.1
      exact ⟨hstays ha hab.2.1, hstays hb hab.2.2⟩
    · exact fun g a t ha => ⟨hstays (h.posts g a t ha.1).1 ha.2, (h.posts g a t ha.1).2⟩
  | ask u v =>
    obtain ⟨hne, hu, hv, hnew⟩ := hallowed
    refine { h with relations := ?_, answered := ?_ }
    · rintro a b ((hab | hab) | hab)
      · obtain ⟨rfl, rfl⟩ := Prod.mk.inj hab
        exact ⟨hne, hu, hv⟩
      · exact h.relations a b (.inl hab)
      · exact h.relations a b (.inr hab)
    · rintro p (rfl | hp) hfriends
      · exact hnew (.inr hfriends)
      · exact h.answered p hp hfriends
  | accept u v =>
    refine { h with relations := ?_, answered := ?_ }
    · rintro a b (hab | hab | hab)
      · exact h.relations a b (.inl hab.1)
      · obtain ⟨rfl, rfl⟩ := Prod.mk.inj hab
        exact h.relations a b hallowed
      · exact h.relations a b (.inr hab)
    · rintro p ⟨hp, hne⟩ (rfl | hfriends)
      · exact hne rfl
      · exact h.answered p hp hfriends
  | part u v =>
    refine { h with relations := ?_, answered := ?_ }
    · intro a b hab
      exact h.relations a b (hab.imp And.left And.left)
    · exact fun p hp hfriends => h.answered p hp.1 hfriends.1
  | found u g =>
    obtain ⟨hu, hnew⟩ := hallowed
    refine { h with founder := ?_, founds := ?_, members := ?_, posts := ?_ }
    · rintro g' a b (ha | ha) (hb | hb)
      · exact (Prod.mk.inj ha).2.trans (Prod.mk.inj hb).2.symm
      · obtain ⟨rfl, -⟩ := Prod.mk.inj ha
        exact absurd ⟨b, hb⟩ hnew
      · obtain ⟨rfl, -⟩ := Prod.mk.inj hb
        exact absurd ⟨a, ha⟩ hnew
      · exact h.founder g' a b ha hb
    · exact fun p hp => hp.imp id (h.founds p)
    · rintro g' a (ha | ha)
      · obtain ⟨rfl, rfl⟩ := Prod.mk.inj ha
        exact ⟨hu, a, .inl rfl⟩
      · obtain ⟨ha', b, hb⟩ := h.members g' a ha
        exact ⟨ha', b, .inr hb⟩
    · intro g' a t ha
      obtain ⟨ha', b, hb⟩ := h.posts g' a t ha
      exact ⟨ha', b, .inr hb⟩
  | invite u g v =>
    obtain ⟨hfounder, hv, -⟩ := hallowed
    refine { h with founds := ?_, members := ?_ }
    · exact fun p hp => .inr (h.founds p hp)
    · rintro g' a (ha | ha)
      · obtain ⟨rfl, rfl⟩ := Prod.mk.inj ha
        exact ⟨hv, u, hfounder⟩
      · exact h.members g' a ha
  | expel u g v =>
    obtain ⟨-, c, hfounder, hne, -⟩ := hallowed
    refine { h with founds := ?_, members := fun g' a ha => h.members g' a ha.1 }
    rintro p hp
    refine ⟨h.founds p hp, ?_⟩
    rintro rfl
    exact hne (h.founder g v c hp hfounder)
  | disband u g =>
    refine { h with founder := ?_, founds := ?_, members := ?_, posts := ?_ }
    · exact fun g' a b ha hb => h.founder g' a b ha.1 hb.1
    · exact fun p hp => ⟨h.founds p hp.1, hp.2⟩
    · intro g' a ha
      obtain ⟨ha', b, hb⟩ := h.members g' a ha.1
      exact ⟨ha', b, hb, ha.2⟩
    · intro g' a t ha
      obtain ⟨ha', b, hb⟩ := h.posts g' a t ha.1
      exact ⟨ha', b, hb, ha.2⟩
  | say u v t =>
    refine { h with direct := ?_ }
    rintro a b t' (hab | hab)
    · obtain ⟨rfl, rfl, -⟩ : a = u ∧ b = v ∧ t' = t := by simpa using hab
      have hpair : (a, b) ∈ n.relations ∨ (b, a) ∈ n.relations := hallowed.imp .inr .inr
      rcases hpair with hpair | hpair
      · exact (h.relations a b hpair).2
      · exact (h.relations b a hpair).2.symm
    · exact h.direct a b t' hab
  | post u g t =>
    refine { h with posts := ?_ }
    rintro g' a t' (ha | ha)
    · obtain ⟨rfl, rfl, -⟩ : g' = g ∧ a = u ∧ t' = t := by simpa using ha
      exact h.members g' a hallowed
    · exact h.posts g' a t' ha

theorem WellFormed.run (h : n.WellFormed) (hrun : Run n deeds n') : n'.WellFormed := by
  induction hrun with
  | nil n => exact h
  | cons hallowed hrest ih => exact ih (h.after hallowed)

end Network

end Messenger
