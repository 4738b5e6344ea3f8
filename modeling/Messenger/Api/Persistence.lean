import Messenger.Api.Provenance
import Messenger.Services.Removals

/-! How long a stored row stays: until a request names it, or what it belongs to, and shows credentials of
a user whom it concerns. -/

namespace Messenger
open Transactional Mealy

/-- What a request of the user `u` is to take away. -/
def UserEndpoint.Names (u : UUID) (row : Row) : UserEndpoint → Prop
  | deleteMyAccount => row.RefersTo u ∨ ∃ x, row = .user x ∧ x.userId = u
  | removeMember groupId userId => ∃ m, row = .membership m ∧ m.pk = (groupId, userId)
  | deleteGroup groupId => row.InGroup groupId ∨ ∃ g, row = .group g ∧ g.groupId = groupId
  | removeOrDecline targetId => ∃ f, row = .friendship f ∧ FriendshipQueries.Between u targetId f
  | _ => False

section

variable {d : Db} {u : UUID} {row row' : Row} {env : Env} {f : ApiFaults} {user : User} {c : UserCall}

theorem Row.concerns_fixed : row.fixed.Concerns d u ↔ row.Concerns d u := by
  unfold Concerns
  simp only [Row.refersTo_fixed, Row.inGroup_fixed]
  cases row <;> simp [Row.fixed]

theorem Row.concerns_of_fixed (hfixed : row'.fixed = row.fixed) (h : row'.Concerns d u) :
    row.Concerns d u := by
  rw [← concerns_fixed, ← hfixed, concerns_fixed]
  exact h

theorem UserCall.removes_of_fixed (hfixed : row'.fixed = row.fixed) (h : c.Removes row') :
    c.Removes row := by
  rw [← removes_fixed, ← hfixed, removes_fixed]
  exact h

theorem UserEndpoint.names_of_call {e : UserEndpoint} (hcall : e.call env f user = some c)
    (h : c.Removes row) : e.Names user.userId row := by
  cases e with
  | deleteMyAccount | removeMember | deleteGroup | removeOrDecline =>
    obtain rfl := Option.some.inj hcall
    exact h
  | deactivateMyAccount | reactivateMyAccount | sendRequest | acceptRequest | createGroup | addMember
  | sendDirectMessage | sendGroupMessage =>
    obtain rfl := Option.some.inj hcall
    exact h.elim
  | _ => cases hcall

theorem SessionEndpoint.not_removes {e : SessionEndpoint} {g : Await → Option Fault} {s : Option String} :
    ¬ (UserCall.service (.auth (e.operation env s) g)).Removes row := by
  cases e <;> exact id

end

namespace Deployment

variable {ω : Type} [DecidableEq ω] {acts rest : List (ApiAct ω)} {a : ApiAct ω} {row : Row}

def TakesAway (acts : List (ApiAct ω)) (env : Env) (r : Request) (row : Row) : Prop :=
  ∃ e u, r.endpoint = .user e ∧ e.Names u row ∧ Shows acts env r u ∧
    row.Concerns (after step {} acts).db u

theorem stays_step (hrow : row.StemsFrom (after step {} acts).db) :
    row.StemsFrom (step (after step {} acts) a).2.db ∨
      ∃ w env f r, a = .request w env f r ∧ TakesAway acts env r row := by
  obtain ⟨row', hstored, hfixed⟩ := hrow
  cases hcall : (after step {} acts).call a with
  | none =>
    rw [db_of_no_call hcall]
    exact .inl ⟨row', hstored, hfixed⟩
  | some c =>
    have hcommit := commit_of_call hcall
    rcases UserCall.stays_of_commit hcommit hstored with ⟨row₁, hrow₁, hfixed₁⟩ | hremoves
    · exact .inl ⟨row₁, hrow₁, hfixed₁.trans hfixed⟩
    · by_cases hstays : (step (after step {} acts) a).2.db.Has row'
      · exact .inl ⟨row', hstays, hfixed⟩
      · cases a with
        | drop w h => cases hcall
        | request w env f r =>
          have hmade := (Option.filter_eq_some_iff.mp hcall).1
          refine .inr ⟨w, env, f, r, rfl, ?_⟩
          obtain ⟨u, hactsFor, hconcerns⟩ : ∃ u, c.ActsFor (after step {} acts).db u ∧
              row'.Concerns (after step {} acts).db u := by
            by_contra hnone
            refine hstays ((UserCall.has_iff_of_commit hcommit fun u hu hconcerns => hnone ?_).mpr hstored)
            exact ⟨u, hu, hconcerns⟩
          rcases Request.call_cases hmade with ⟨e, hr, -, rfl⟩ | ⟨e, user, s', hr, -, hauth, hcalls⟩
          · exact absurd hremoves SessionEndpoint.not_removes
          · have hnames := UserEndpoint.names_of_call hcalls (UserCall.removes_of_fixed hfixed hremoves)
            obtain rfl := UserEndpoint.actsFor_call hcalls hactsFor
            exact ⟨e, user.userId, hr, hnames, shows_of_getCurrentUser hr hauth,
              Row.concerns_of_fixed hfixed hconcerns⟩

/-- What is stored stays stored, but for updates, until a request takes it away that names it and shows
credentials of a user whom it concerns. -/
theorem stored_rows_stay (acts rest : List (ApiAct ω)) (row : Row)
    (hrow : (after step {} acts).db.Has row) :
    row.StemsFrom (after step {} (acts ++ rest)).db ∨
      ∃ mid w env f r post, rest = mid ++ .request w env f r :: post ∧
        TakesAway (acts ++ mid) env r row := by
  induction rest using List.reverseRecOn with
  | nil =>
    rw [List.append_nil]
    exact .inl (.of_has hrow)
  | append_singleton rest a ih =>
    rcases ih with hstays | ⟨mid, w, env, f, r, post, rfl, htakes⟩
    · rw [← List.append_assoc, after_concat]
      rcases stays_step (a := a) hstays with hnext | ⟨w, env, f, r, rfl, htakes⟩
      · exact .inl hnext
      · exact .inr ⟨rest, w, env, f, r, [], rfl, htakes⟩
    · refine .inr ⟨mid, w, env, f, r, post ++ [a], ?_, htakes⟩
      rw [List.append_assoc, List.cons_append]

end Deployment

theorem Deployment.stored_rows_stay_registered :
    (Row.user ⟨⟨2⟩, "ada", "password", false, 0⟩).StemsFrom
        (after step {} (Sample.registers ++ Sample.registers)).db ∨
      ∃ mid w env f r post, Sample.registers = mid ++ .request w env f r :: post ∧
        TakesAway (Sample.registers ++ mid) env r (.user ⟨⟨2⟩, "ada", "password", false, 0⟩) := by
  refine stored_rows_stay Sample.registers Sample.registers _ ?_
  show _ ∈ (after step {} Sample.registers).db.users.rows
  decide

end Messenger
