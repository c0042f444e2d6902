import Sahay.Server.System

/-!
# Sweeps

The loops of `suspend` and `event_disable` (`modules/admin/service.ts`) and of
`performAccountDeletion` (`workers/data-request.ts`) that end active matches.  The
matches are listed once; then each is cancelled in a transaction of its own, and
anything may run between two of them.  A cancellation that throws leaves the loop.
-/

namespace Sahay

def Effect.target? : Effect → Option (MatchId × String)
  | .cancelMatchForModeration matchId reason => some (matchId, reason)
  | _ => none

def sweepTargets (effects : List Effect) : List (MatchId × String) :=
  effects.filterMap Effect.target?

def followUps (env : Env) (effects : List Effect) : List (Env × Op) :=
  (sweepTargets effects).map fun t => (env, .cancelMatchForModeration t.1 t.2)

/-- The transaction that left `db` has handed on these effects. -/
inductive Db.Sweeps (db : Db) : List Effect → Prop
  | moderation {db₀ : Db} {env : Env} {token : String} {input : AdminModerateInput}
      {effects : List Effect} (hdb₀ : db₀.Reached)
      (h : db₀.exec env (.moderate token input) = .ok (effects, db)) : Sweeps db effects
  | deletion (env : Env) (userId : UserId) (hdb : db.Reached) :
      Sweeps db (db.deletionSweep env userId)

/-- A loop under way: the database, and the matches it has not come to yet. -/
structure Sweeping where
  db : Db
  todo : List (MatchId × String)

/-- What can happen while a loop is under way. -/
inductive SweepAct
  | op (op : Op)
  /-- The loop's next turn. -/
  | next

namespace Sweeping

def start (db : Db) (effects : List Effect) : Sweeping := ⟨db, sweepTargets effects⟩

def step (s : Sweeping) (i : Env × SweepAct) : Sweeping :=
  match i.2 with
  | .op op => { s with db := s.db.step (i.1, op) }
  | .next =>
      match s.todo with
      | [] => s
      | (matchId, reason) :: todo =>
          match s.db.cancelMatchForModeration i.1 matchId reason with
          | .ok (_, db) => ⟨db, todo⟩
          -- The exception leaves the loop.
          | .error _ => ⟨s.db, []⟩

end Sweeping
end Sahay
