import Mathlib.Data.Int.Notation
import Messenger.Database.Models

/-! The bounds that `schemas.py` and the query parameters put on a request, and the public part of the
models that a response is made from. -/

namespace Messenger

inductive FieldProblem where
  | tooShort (minLength : ℕ)
  | tooLong (maxLength : ℕ)
  | tooSmall (ge : ℤ)
  | tooLarge (le : ℤ)
  deriving DecidableEq

structure FieldError where
  loc : List String
  problem : FieldProblem
  deriving DecidableEq

/-- `Field(..., min_length, max_length)` on a text of the body; both count code points. -/
structure TextField where
  name : String
  minLength : ℕ
  maxLength : Option ℕ

namespace TextField

def Admits (f : TextField) (text : String) : Prop :=
  f.minLength ≤ text.length ∧ ∀ n ∈ f.maxLength, text.length ≤ n

instance (f : TextField) (text : String) : Decidable (f.Admits text) := by
  unfold Admits
  infer_instance

def error (f : TextField) (problem : FieldProblem) : FieldError := ⟨["body", f.name], problem⟩

def check (f : TextField) (text : String) : List FieldError :=
  if text.length < f.minLength then [f.error (.tooShort f.minLength)]
  else (f.maxLength.filter (· < text.length)).toList.map fun n => f.error (.tooLong n)

variable {f : TextField} {text : String} {e : FieldError}

theorem check_eq_nil : f.check text = [] ↔ f.Admits text := by
  unfold check Admits
  by_cases hmin : text.length < f.minLength
  · have hnot : ¬ f.minLength ≤ text.length := Nat.not_le.mpr hmin
    simp [hmin, hnot]
  · cases hmax : f.maxLength with
    | none => simp [hmin, Nat.le_of_not_lt hmin]
    | some n =>
      by_cases hn : n < text.length
      · simp [Option.filter, hmin, hn]
      · have hfits : f.minLength ≤ text.length ∧ text.length ≤ n := ⟨Nat.le_of_not_lt hmin, Nat.le_of_not_lt hn⟩
        simp [Option.filter, hmin, hn, hfits]

theorem mem_check (he : e ∈ f.check text) : e.loc = ["body", f.name] ∧ ¬ f.Admits text := by
  have hne : f.check text ≠ [] := List.ne_nil_of_mem he
  refine ⟨?_, fun hadmits => hne (check_eq_nil.mpr hadmits)⟩
  unfold check at he
  split at he
  · rw [List.mem_singleton.mp he, error]
  · obtain ⟨n, -, rfl⟩ := List.mem_map.mp he
    rfl

end TextField

/-- `Query(default, ge, le)` on an integer. -/
structure IntQuery where
  name : String
  default : ℤ
  ge : ℤ
  le : ℤ

namespace IntQuery

def value (q : IntQuery) (given : Option ℤ) : ℤ := given.getD q.default

def Admits (q : IntQuery) (given : Option ℤ) : Prop := q.ge ≤ q.value given ∧ q.value given ≤ q.le

instance (q : IntQuery) (given : Option ℤ) : Decidable (q.Admits given) := by
  unfold Admits
  infer_instance

def check (q : IntQuery) (given : Option ℤ) : List FieldError :=
  if q.value given < q.ge then [⟨["query", q.name], .tooSmall q.ge⟩]
  else if q.le < q.value given then [⟨["query", q.name], .tooLarge q.le⟩]
  else []

theorem check_eq_nil {q : IntQuery} {given : Option ℤ} : q.check given = [] ↔ q.Admits given := by
  unfold check Admits
  split
  · simp; omega
  · split
    · simp; omega
    · simp; omega

end IntQuery

/-! The request classes, and the queries of the two histories. -/

namespace RegisterRequest

def username : TextField := ⟨"username", 3, some 50⟩
def password : TextField := ⟨"password", 8, none⟩

end RegisterRequest

def CreateGroupRequest.name : TextField := ⟨"name", 1, some 100⟩
def SendDirectMessageRequest.content : TextField := ⟨"content", 1, some 4096⟩
def SendGroupMessageRequest.content : TextField := ⟨"content", 1, some 4096⟩

def historyLimit : IntQuery := ⟨"limit", 50, 1, 100⟩

theorem historyLimit_default : historyLimit.Admits none := by decide

/-- The public profile: the password hash stays behind. -/
structure UserResponse where
  userId : UUID
  username : String
  deactivated : Bool
  createdAt : Timestamp
  deriving DecidableEq

def UserResponse.modelValidate (user : User) : UserResponse where
  userId := user.userId
  username := user.username
  deactivated := user.deactivated
  createdAt := user.createdAt

end Messenger
