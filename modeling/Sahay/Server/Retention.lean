import Sahay.Lib.Run
import Sahay.Server.Moderation

/-!
# Event lifecycle sweep

`eventLifecycle` of `workers/retention.ts`: events move on with their dates, and
suspensions and restrictions that have run out are lifted.  Every statement commits
by itself, so anything may run between two of them.
-/

namespace Sahay

/-- The statements of the sweep, in its order. -/
inductive LifecycleStatement
  | activate | complete | switchOff | archive | liftSuspensions | restoreFlags
  deriving DecidableEq

namespace Event

variable (event : Event) (now : Time)

def isDue : Bool := event.status = .scheduled && event.startsAt ≤ now && now < event.endsAt

def isOver : Bool :=
  (event.status = .scheduled || event.status = .active) && event.endsAt ≤ now

def isPastRetention : Bool :=
  event.status = .completed && event.endsAt + event.retentionDays * 86400000 < now

end Event

def User.suspensionLapsed (user : User) (now : Time) : Bool :=
  user.status = .suspended && user.suspendedUntil.any fun t => t < now

def ModerationActionKind.isRestriction : ModerationActionKind → Bool
  | .restrictRequests | .restrictHelping => true
  | _ => false

namespace ModerationAction

variable (action : ModerationAction) (userId : UserId)

def restricts : Bool := action.targetUserId = some userId && action.action.isRestriction

/-- A measure that runs out before `now`; one without an end never does. -/
def isExpired (now : Time) : Bool := action.expiresAt.any fun t => t < now

end ModerationAction

namespace Db

/-- A flag is off, some restriction of the user has run out, and none is left that
has not. -/
def flagsRestorable (db : Db) (now : Time) (userId : UserId) (user : User) : Bool :=
  let expired (_ : ActionId) (a : ModerationAction) : Bool := a.restricts userId && a.isExpired now
  let unexpired (_ : ActionId) (a : ModerationAction) : Bool :=
    a.restricts userId && !a.isExpired now
  (!user.canRequest || !user.canHelp) && (db.moderationActions.first expired).isSome &&
    (db.moderationActions.first unexpired).isNone

/-- Lifting is audited user by user. -/
def autoUnsuspend (now : Time) (userId : UserId) : AuditEntry :=
  { actorId := none
    action := "auto_unsuspend"
    target := some ("user:" ++ toString userId)
    reason := some "suspension expired"
    createdAt := now }

def lifecycleStatement (env : Env) (db : Db) : LifecycleStatement → Db
  | .activate =>
      let activate (event : Event) : Event := { event with status := .active }
      { db with events := db.events.updateWhere (fun _ event => event.isDue env.now) activate }
  | .complete =>
      let complete (event : Event) : Event := { event with status := .completed }
      { db with events := db.events.updateWhere (fun _ event => event.isOver env.now) complete }
  | .switchOff =>
      let inCompleted (key : UserId × EventId) (a : Availability) : Bool :=
        a.isOn && (db.events.lookup key.2).any fun event => event.status = .completed
      let switchOff (a : Availability) : Availability :=
        { a with isOn := false, updatedAt := env.now }
      { db with availability := db.availability.updateWhere inCompleted switchOff }
  | .archive =>
      let archive (event : Event) : Event := { event with status := .archived }
      { db with
        events := db.events.updateWhere (fun _ event => event.isPastRetention env.now) archive }
  | .liftSuspensions =>
      let lapsed (_ : UserId) (user : User) : Bool := user.suspensionLapsed env.now
      let lift (user : User) : User := { user with status := .active, suspendedUntil := none }
      { db with
        users := db.users.updateWhere lapsed lift
        auditLog := db.auditLog ++ (env.selectIds db.users lapsed).map (autoUnsuspend env.now) }
  | .restoreFlags =>
      let restore (user : User) : User := { user with canRequest := true, canHelp := true }
      { db with users := db.users.updateWhere (db.flagsRestorable env.now) restore }

/-- The sweep in one go.  Availability is looked at only when some event has ended. -/
def eventLifecycle (env : Env) (db : Db) : Db :=
  let db := db.lifecycleStatement env .activate
  let ended := (db.events.first fun _ event => event.isOver env.now).isSome
  let db := db.lifecycleStatement env .complete
  let db := if ended then db.lifecycleStatement env .switchOff else db
  let db := db.lifecycleStatement env .archive
  let db := db.lifecycleStatement env .liftSuspensions
  db.lifecycleStatement env .restoreFlags

theorem eventLifecycle_eq_run (env : Env) (db : Db) :
    ∃ statements, db.eventLifecycle env =
      runFrom (fun db statement => db.lifecycleStatement env statement) db statements ∧
      statements.getLast? = some .restoreFlags := by
  unfold eventLifecycle
  simp only
  split_ifs
  · exact ⟨[.activate, .complete, .switchOff, .archive, .liftSuspensions, .restoreFlags], rfl, rfl⟩
  · exact ⟨[.activate, .complete, .archive, .liftSuspensions, .restoreFlags], rfl, rfl⟩

end Db
end Sahay
