import Messenger.Api.Effects
import Messenger.Lib.Mealy
import Messenger.Services.Integrity

/-! The workers of a deployment, which share the database, and the requests that they answer one after
another. Every database that requests lead to is one that the calls of the services lead to. -/

namespace Messenger
open Transition Mealy

structure Deployment (ω : Type) where
  db : Db := {}
  stream : List SystemEvent := []
  spawned : List PushTask := []
  authCaches : ω → TokenCache := fun _ => .empty

inductive ApiAct (ω : Type) where
  | request (w : ω) (env : Env) (f : ApiFaults) (r : Request)
  /-- A cache loses an entry: for its age, for want of room, or by an event of the stream. -/
  | drop (w : ω) (h : TokenHash)

namespace Deployment

variable {ω : Type} [DecidableEq ω]

def worker (x : Deployment ω) (w : ω) : AppState where
  db := x.db
  stream := x.stream
  authCache := x.authCaches w
  spawned := x.spawned

def update (x : Deployment ω) (w : ω) (s : AppState) : Deployment ω where
  db := s.db
  stream := s.stream
  spawned := s.spawned
  authCaches := Function.update x.authCaches w s.authCache

def step (x : Deployment ω) : ApiAct ω → Option Response × Deployment ω
  | .request w env f r =>
    (some (respond env f r (x.worker w)).1, x.update w (respond env f r (x.worker w)).2)
  | .drop w h =>
    (none, { x with authCaches := Function.update x.authCaches w ((x.authCaches w).evict h) })

def call (x : Deployment ω) : ApiAct ω → Option UserCall
  | .request w env f r =>
    (r.call env f (x.worker w)).filter fun c =>
      decide (c.commit x.db = some (x.step (.request w env f r)).2.db)
  | .drop _ _ => none

def calls (x : Deployment ω) (acts : List (ApiAct ω)) : List UserCall :=
  (visits step x acts).filterMap fun v => v.1.call v.2

variable {x : Deployment ω} {a : ApiAct ω} {c : UserCall}

theorem commit_of_call (h : x.call a = some c) : c.commit x.db = some (x.step a).2.db := by
  cases a with
  | request w env f r => exact of_decide_eq_true (Option.filter_eq_some_iff.mp h).2
  | drop w h' => cases h

theorem db_of_no_call (h : x.call a = none) : (x.step a).2.db = x.db := by
  cases a with
  | request w env f r =>
    have hnext : (x.step (.request w env f r)).2.db = (serve env f r (x.worker w)).2.db :=
      congrArg AppState.db respond_snd
    rcases serve_db env f r (x.worker w) with hdb | ⟨c, hcall, hcommit⟩
    · exact hnext.trans hdb
    · refine absurd ?_ (Option.filter_eq_none_iff.mp h c hcall)
      exact decide_eq_true (hcommit.trans (congrArg some hnext.symm))
  | drop w h' => rfl

theorem run_calls (x : Deployment ω) (acts : List (ApiAct ω)) :
    run UserCall.commit x.db (x.calls acts) = some (after step x acts).db := by
  induction acts generalizing x with
  | nil => rfl
  | cons a acts ih =>
    have hrest := ih (x.step a).2
    cases hcall : x.call a with
    | none =>
      have hcalls : x.calls (a :: acts) = (x.step a).2.calls acts := List.filterMap_cons_none hcall
      rw [hcalls, ← db_of_no_call hcall]
      exact hrest
    | some c =>
      have hcalls : x.calls (a :: acts) = c :: (x.step a).2.calls acts :=
        List.filterMap_cons_some hcall
      rw [hcalls, run_cons_eq_some]
      exact ⟨_, commit_of_call hcall, hrest⟩

/-- Whatever is requested and whatever fails, no stored row refers to an account or a group that is not
stored, and no two accounts have one username. -/
theorem references_never_dangle (acts : List (ApiAct ω)) :
    (after step ({} : Deployment ω) acts).db.Intact := by
  have hcalls : run UserCall.commit ({} : Db) (Deployment.calls {} acts) =
      some (after step ({} : Deployment ω) acts).db := run_calls {} acts
  exact run_induction (fun _ _ _ h hc => UserCall.intact_commit h hc) hcalls Db.intact_empty

end Deployment
end Messenger
