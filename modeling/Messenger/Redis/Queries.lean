import Mathlib.Algebra.Ring.Int.Defs
import Mathlib.Data.Set.Defs
import Mathlib.Logic.Function.Basic
import Messenger.Database.Models

/-! The Redis hash `active_user_counts` and the queries on it. A field of the hash is the text of a
user id, which tells the ids apart, so that the fields are indexed by the ids themselves. -/

namespace Messenger

abbrev ActiveUserCounts := UUID → Option ℤ

namespace ActiveUserCounts

def empty : ActiveUserCounts := fun _ => none

/-- `HINCRBY` answers with the new value; a missing field counts as zero. -/
def hincrby (c : ActiveUserCounts) (u : UUID) (n : ℤ) : ℤ × ActiveUserCounts :=
  let value := (c u).getD 0 + n
  (value, Function.update c u (some value))

def hdel (c : ActiveUserCounts) (u : UUID) : ActiveUserCounts := Function.update c u none

end ActiveUserCounts

def addActiveUser (c : ActiveUserCounts) (u : UUID) : ActiveUserCounts := (c.hincrby u 1).2

def removeActiveUser (c : ActiveUserCounts) (u : UUID) : ActiveUserCounts :=
  let (count, c) := c.hincrby u (-1)
  if count ≤ 0 then c.hdel u else c

def getActiveUsers (c : ActiveUserCounts) : Set UUID := {u | (c u).isSome}

namespace ActiveUserCounts

variable {c : ActiveUserCounts} {u v : UUID} {n : ℤ}

theorem hincrby_self : (c.hincrby u n).2 u = some (c.hincrby u n).1 := Function.update_self ..

theorem hincrby_of_ne (h : v ≠ u) : (c.hincrby u n).2 v = c v := Function.update_of_ne h ..

@[simp] theorem hdel_self : c.hdel u u = none := Function.update_self ..

theorem hdel_of_ne (h : v ≠ u) : c.hdel u v = c v := Function.update_of_ne h ..

theorem addActiveUser_self : addActiveUser c u u = some ((c u).getD 0 + 1) := hincrby_self

theorem addActiveUser_of_ne (h : v ≠ u) : addActiveUser c u v = c v := hincrby_of_ne h

theorem removeActiveUser_eq : removeActiveUser c u =
    if (c.hincrby u (-1)).1 ≤ 0 then (c.hincrby u (-1)).2.hdel u else (c.hincrby u (-1)).2 := rfl

theorem removeActiveUser_self :
    removeActiveUser c u u = if (c u).getD 0 - 1 ≤ 0 then none else some ((c u).getD 0 - 1) := by
  have hcount : (c.hincrby u (-1)).1 = (c u).getD 0 - 1 := rfl
  rw [removeActiveUser_eq, hcount]
  by_cases hle : (c u).getD 0 - 1 ≤ 0
  · rw [if_pos hle, if_pos hle, hdel_self]
  · rw [if_neg hle, if_neg hle, hincrby_self, hcount]

theorem removeActiveUser_of_ne (h : v ≠ u) : removeActiveUser c u v = c v := by
  rw [removeActiveUser_eq]
  by_cases hle : (c.hincrby u (-1)).1 ≤ 0
  · rw [if_pos hle, hdel_of_ne h, hincrby_of_ne h]
  · rw [if_neg hle, hincrby_of_ne h]

theorem getD_addActiveUser :
    (addActiveUser c u v).getD 0 = (c v).getD 0 + if v = u then 1 else 0 := by
  by_cases hvu : v = u
  · subst hvu
    rw [addActiveUser_self, if_pos rfl, Option.getD_some]
  · rw [addActiveUser_of_ne hvu, if_neg hvu, add_zero]

theorem getD_removeActiveUser (hpos : 0 < (c u).getD 0) :
    (removeActiveUser c u v).getD 0 + (if v = u then 1 else 0) = (c v).getD 0 := by
  by_cases hvu : v = u
  · subst hvu
    rw [removeActiveUser_self, if_pos rfl]
    split
    · rw [Option.getD_none]
      omega
    · rw [Option.getD_some]
      omega
  · rw [removeActiveUser_of_ne hvu, if_neg hvu, add_zero]

def Positive (c : ActiveUserCounts) : Prop := ∀ u n, c u = some n → 0 < n

theorem Positive.nonneg (h : c.Positive) : 0 ≤ (c u).getD 0 := by
  cases hc : c u with
  | none => exact Int.le_refl 0
  | some n => exact Int.le_of_lt (h u n hc)

theorem Positive.addActiveUser (h : c.Positive) : (addActiveUser c u).Positive := by
  intro v n hv
  by_cases hvu : v = u
  · subst hvu
    rw [addActiveUser_self] at hv
    obtain rfl := Option.some.inj hv
    have hnonneg : 0 ≤ (c v).getD 0 := h.nonneg
    omega
  · rw [addActiveUser_of_ne hvu] at hv
    exact h v n hv

theorem Positive.removeActiveUser (h : c.Positive) : (removeActiveUser c u).Positive := by
  intro v n hv
  by_cases hvu : v = u
  · subst hvu
    rw [removeActiveUser_self] at hv
    split at hv
    · cases hv
    · obtain rfl := Option.some.inj hv
      omega
  · rw [removeActiveUser_of_ne hvu] at hv
    exact h v n hv

end ActiveUserCounts
end Messenger
