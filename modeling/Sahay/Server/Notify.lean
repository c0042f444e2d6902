import Sahay.Server.Upkeep

/-!
# Notices

`workers/notify.ts`: a job of the queue is stored as a notification of its user, at most once
under its dedupe key.  The machine keeps the jobs with which the matching pass says that nobody
was found; any of them may run any number of times, and so may every other job.
-/

namespace Sahay

structure NotifyJob where
  userId : UserId
  type : String
  titleKey : String
  bodyKey : String
  params : List (String × String) := []
  deepLink : Option String := none
  dedupeKey : Option String := none
  deriving DecidableEq

/-- The job of an expired search, which has neither parameters nor a link. -/
def Effect.noHelperJob? : Effect → Option NotifyJob
  | .notify userId type titleKey bodyKey dedupeKey =>
      if type = "no_helper_found" then
        some
          { userId := userId
            type := type
            titleKey := titleKey
            bodyKey := bodyKey
            dedupeKey := dedupeKey }
      else none
  | _ => none

def NotifyJob.toNotification (job : NotifyJob) (now : Time) : Notification :=
  { userId := job.userId
    type := job.type
    titleKey := job.titleKey
    bodyKey := job.bodyKey
    params := job.params
    deepLink := job.deepLink
    dedupeKey := job.dedupeKey
    createdAt := now }

namespace Db

variable (db : Db)

/-- The account is gone; or it is suspended, and the notice is none that it still receives. -/
def muted (job : NotifyJob) : Bool :=
  match db.users.lookup job.userId with
  | none => true
  | some user =>
      user.deletedAt.isSome || user.status = .deleted ||
        (user.status = .suspended && job.type ≠ "account_security" &&
          job.type ≠ "moderation_outcome")

/-- `notifications_dedupe_idx`: the notification of the user under the key. -/
def findNotification (userId : UserId) (dedupeKey : Option String) : Option (ℕ × Notification) := do
  let key ← dedupeKey
  db.notifications.first fun _ n => n.userId = userId && n.dedupeKey = some key

/-- The row that is inserted, if one is.  The hint and the push that follow it leave the
notifications alone. -/
def deliverNotification (env : Env) (job : NotifyJob) (uuid : ℕ) : Option Notification × Db :=
  if db.muted job then (none, db)
  else if (db.findNotification job.userId job.dedupeKey).isSome then (none, db)
  else
    let row := job.toNotification env.now
    (some row, { db with
      notifications := db.notifications.put (db.notifications.freshKey uuid) row })

def markNotificationRead (env : Env) (userId : UserId) (id : ℕ) : Outcome Db := do
  let own (k : ℕ) (n : Notification) : Bool := k = id && n.userId = userId
  ensure ((db.notifications.first own).isSome) errors.notFound
  let read (n : Notification) : Notification := { n with readAt := some env.now }
  return { db with notifications := db.notifications.updateWhere own read }

end Db

/-! ## The machine -/

/-- A job of the queue with what it has done so far. -/
structure QueuedJob where
  job : NotifyJob
  /-- How often it has run while its user was to be notified. -/
  runs : ℕ := 0
  /-- The notifications that it has inserted. -/
  rows : List Notification := []

structure NotifyQueue where
  backend : Backend
  jobs : List QueuedJob := []

inductive NotifyAct
  | upkeep (act : UpkeepAct)
  /-- The worker runs a job of the queue, for the first time or again. -/
  | deliver (n : ℕ) (uuid : ℕ)
  /-- Any other notification. -/
  | deliverOther (job : NotifyJob) (uuid : ℕ)
  | markNotificationRead (userId : UserId) (id : ℕ)

namespace NotifyQueue

/-- The jobs of expired searches that the step enqueues. -/
def enqueued (b : Backend) (env : Env) : UpkeepAct → List QueuedJob
  | .act (.op op) =>
      match b.toDb.exec env op with
      | .ok (effects, _) => (effects.filterMap Effect.noHelperJob?).map fun job => { job := job }
      | .error _ => []
  | _ => []

/-- The worker's run of a job. -/
def run (env : Env) (s : NotifyQueue) (n : ℕ) (q : QueuedJob) (uuid : ℕ) : NotifyQueue :=
  let (row, db) := s.backend.toDb.deliverNotification env q.job uuid
  let ran : QueuedJob := { q with
    runs := if s.backend.toDb.muted q.job then q.runs else q.runs + 1
    rows := q.rows ++ row.toList }
  { backend := { s.backend with toDb := db }, jobs := s.jobs.set n ran }

def step (lib : TextLib) (s : NotifyQueue) (i : Env × NotifyAct) : NotifyQueue :=
  match i.2 with
  | .upkeep act =>
      { backend := s.backend.upkeepStep lib (i.1, act)
        jobs := s.jobs ++ enqueued s.backend i.1 act }
  | .deliver n uuid =>
      match s.jobs[n]? with
      | some q => s.run i.1 n q uuid
      | none => s
  | .deliverOther job uuid =>
      let (_, db) := s.backend.toDb.deliverNotification i.1 job uuid
      { s with backend := { s.backend with toDb := db } }
  | .markNotificationRead userId id =>
      match s.backend.toDb.markNotificationRead i.1 userId id with
      | .ok db => { s with backend := { s.backend with toDb := db } }
      | .error _ => s

def queueRun (lib : TextLib) (b : Backend) (is : List (Env × NotifyAct)) : NotifyQueue :=
  runFrom (step lib) { backend := b } is

def pass (rid : RequestId) (choices : PassChoices) : NotifyAct :=
  .upkeep (.act (.op (.runMatchPass rid choices)))

end NotifyQueue
end Sahay
