import Sahay.Server.Accounts
import Sahay.Server.Jobs

/-!
# Upkeep

The tasks of `workers/retention.ts`, statement by statement, and `adminPatchEvent` of
`modules/admin/service.ts`, beside everything that the backend does.  A statement commits by
itself, so anything may run between two of them.
-/

namespace Sahay

/-- The chat and the free text of the event are no longer kept: its end and its retention
lie in the past. -/
def Event.retentionOver (event : Event) (now : Time) : Bool :=
  event.endsAt + event.retentionDays * 86400000 < now

/-! ## Statements -/

/-- The statements that the tasks execute. -/
inductive UpkeepStatement
  | purgeLocations
  | lapseAvailability
  | endAvailability
  | closeConversations
  | purgeMessages
  | purgeOtps
  | purgeSessions
  | scrubRequests
  | dropOffers
  | purgeNotifications
  | lifecycle (statement : LifecycleStatement)

def Request.isSettled (r : Request) : Bool :=
  r.status ≠ .searching && r.status ≠ .offering && r.status ≠ .matched

namespace Db

variable (env : Env) (db : Db)

def isPastRetention (eventId : EventId) : Bool :=
  (db.events.lookup eventId).any fun event => event.retentionOver env.now

/-- The conversation is of a match of an event past its retention. -/
def chatOver (c : Conversation) : Bool :=
  c.status ≠ .expired &&
    (db.matchRows.lookup c.matchId).any fun m => db.isPastRetention env m.eventId

/-- `FROM requests … WHERE r.id = mo.request_id`, of an event past its retention, and no match
refers to the offer. -/
def offerDroppable (offerId : OfferId) (o : MatchOffer) : Bool :=
  ((db.requests.lookup o.requestId).any fun r => db.isPastRetention env r.eventId) &&
    (db.matchRows.first fun _ m => m.offerId = offerId).isNone

def upkeepStatement : UpkeepStatement → Db
  | .purgeLocations =>
      { db with memberLocations := db.memberLocations.deleteWhere fun _ l => l.expiresAt < env.now }
  | .lapseAvailability =>
      let lapsed (_ : UserId × EventId) (a : Availability) : Bool :=
        a.isOn && a.until.any fun t => t < env.now
      let switchOff (a : Availability) : Availability :=
        { a with isOn := false, updatedAt := env.now }
      { db with availability := db.availability.updateWhere lapsed switchOff }
  | .endAvailability =>
      let ended (key : UserId × EventId) (a : Availability) : Bool :=
        a.isOn && (db.events.lookup key.2).any fun event => event.endsAt < env.now
      let switchOff (a : Availability) : Availability :=
        { a with isOn := false, updatedAt := env.now }
      { db with availability := db.availability.updateWhere ended switchOff }
  | .closeConversations =>
      let isOver (_ : ConversationId) (c : Conversation) : Bool :=
        c.status = .open && (db.matchRows.lookup c.matchId).isSome &&
          c.expiresAt.any fun t => t < env.now
      let close (c : Conversation) : Conversation := { c with status := .readonly }
      { db with conversations := db.conversations.updateWhere isOver close }
  | .purgeMessages =>
      let isTarget (_ : ConversationId) (c : Conversation) : Bool := db.chatOver env c
      let inTarget (_ : MessageId) (msg : Message) : Bool :=
        (db.conversations.lookup msg.conversationId).any fun c => db.chatOver env c
      let expire (c : Conversation) : Conversation := { c with status := .expired }
      { db with
        messages := db.messages.deleteWhere inTarget
        conversations := db.conversations.updateWhere isTarget expire }
  | .purgeOtps =>
      let isOld (_ : ℕ) (otp : OtpCode) : Bool := otp.expiresAt < env.now - 3600000
      { db with otpCodes := db.otpCodes.deleteWhere isOld }
  | .purgeSessions =>
      let horizon := env.now - 30 * 86400000
      let isDead (_ : SessionId) (s : Session) : Bool :=
        s.expiresAt < horizon || s.revokedAt.any fun t => t < horizon
      { db with sessions := db.sessions.deleteWhere isDead }
  | .scrubRequests =>
      let isDue (_ : RequestId) (r : Request) : Bool :=
        db.isPastRetention env r.eventId && r.isSettled && (r.note.isSome || r.areaHint.isSome)
      let scrub (r : Request) : Request := { r with note := none, areaHint := none }
      { db with requests := db.requests.updateWhere isDue scrub }
  | .dropOffers =>
      { db with matchOffers := db.matchOffers.deleteWhere (db.offerDroppable env) }
  | .purgeNotifications =>
      let isOld (_ : ℕ) (n : Notification) : Bool := n.createdAt < env.now - 30 * 86400000
      { db with notifications := db.notifications.deleteWhere isOld }
  | .lifecycle statement => db.lifecycleStatement env statement

end Db

/-! ## Tasks -/

/-- `TASKS`, in its order. -/
inductive RetentionTask
  | purgeLocations | expireRequests | expireOffers | expireAvailability | expireConversations
  | purgeMessages | purgeOtpsSessions | anonymizeClosed | purgeNotifications | eventLifecycle
  | attendanceReminders
  deriving DecidableEq

def RetentionTask.all : List RetentionTask :=
  [.purgeLocations, .expireRequests, .expireOffers, .expireAvailability, .expireConversations,
   .purgeMessages, .purgeOtpsSessions, .anonymizeClosed, .purgeNotifications, .eventLifecycle,
   .attendanceReminders]

namespace Db

variable (env : Env) (choices : PassChoices) (db : Db)

def upkeepStatements (statements : List UpkeepStatement) : Db :=
  statements.foldl (fun db statement => db.upkeepStatement env statement) db

/-- A task, with the jobs that it hands to other queues.  The reminders of the last task are
notifications only. -/
def runRetentionTask : RetentionTask → Db × List Job
  | .purgeLocations => (db.upkeepStatements env [.purgeLocations], [])
  | .expireRequests =>
      let isDue (_ : RequestId) (r : Request) : Bool := r.status.isOpen && r.expiresAt ≤ env.now
      (db, (env.selectIds db.requests isDue).map .matching)
  | .expireOffers =>
      let isLost (_ : OfferId) (o : MatchOffer) : Bool :=
        o.status = .offered && o.respondBy < env.now - 2000
      (db, (env.selectIds db.matchOffers isLost).map .offerTimeout)
  | .expireAvailability =>
      (db.upkeepStatements env [.lapseAvailability, .endAvailability], [])
  | .expireConversations => (db.upkeepStatements env [.closeConversations], [])
  | .purgeMessages => (db.upkeepStatements env [.purgeMessages], [])
  | .purgeOtpsSessions => (db.upkeepStatements env [.purgeOtps, .purgeSessions], [])
  | .anonymizeClosed => (db.upkeepStatements env [.scrubRequests, .dropOffers], [])
  | .purgeNotifications => (db.upkeepStatements env [.purgeNotifications], [])
  | .eventLifecycle => (db.eventLifecycle env, [])
  | .attendanceReminders => (db, [])

def runJobs (jobs : List Job) : Db :=
  jobs.foldl (fun db job => db.step (env, job.op choices)) db

def sweepTask (task : RetentionTask) : Db :=
  let (db, jobs) := db.runRetentionTask env task
  db.runJobs env choices jobs

def retentionSweep : Db :=
  RetentionTask.all.foldl (fun db task => db.sweepTask env choices task) db

end Db

/-! ## The administrator's edit -/

/-- `AdminEventPatch`; of the columns only those that something here reads are kept. -/
structure AdminEventPatch where
  title : Option String := none
  description : Option String := none
  status : Option EventStatus := none
  visibility : Option EventVisibility := none
  matchingPaused : Option Bool := none
  retentionDays : Option ℕ := none
  safetyInfo : Option String := none
  medicalInfo : Option String := none
  startsAt : Option Time := none
  endsAt : Option Time := none

namespace AdminEventPatch

variable (patch : AdminEventPatch)

/-- `Object.keys(set)` is empty. -/
def isEmpty : Bool :=
  patch.title.isNone && patch.description.isNone && patch.status.isNone &&
    patch.visibility.isNone && patch.matchingPaused.isNone && patch.retentionDays.isNone &&
    patch.safetyInfo.isNone && patch.medicalInfo.isNone && patch.startsAt.isNone &&
    patch.endsAt.isNone

def apply (event : Event) : Event :=
  { event with
    title := patch.title.getD event.title
    status := patch.status.getD event.status
    visibility := patch.visibility.getD event.visibility
    matchingPaused := patch.matchingPaused.getD event.matchingPaused
    retentionDays := patch.retentionDays.getD event.retentionDays
    startsAt := patch.startsAt.getD event.startsAt
    endsAt := patch.endsAt.getD event.endsAt }

end AdminEventPatch

def Db.adminPatchEvent (db : Db) (env : Env) (actorId : UserId) (eventId : EventId)
    (patch : AdminEventPatch) : Outcome Db := do
  let event ← found (db.events.lookup eventId) errors.notFound
  ensure (patch.isEmpty = false) (errors.validation {})
  -- `CHECK (ends_at > starts_at)`.
  ensure ((patch.apply event).startsAt < (patch.apply event).endsAt) (.checkViolation .events)
  let entry : AuditEntry :=
    { actorId := some actorId
      action := "event_update"
      target := some ("event:" ++ toString eventId)
      reason := some "admin event edit"
      createdAt := env.now }
  return { db with
    events := db.events.modify eventId patch.apply
    auditLog := db.auditLog ++ [entry] }

/-! ## The machine -/

/-- What can happen: what the backend does, a statement of a task, an administrator's edit.  The
jobs of a task are operations. -/
inductive UpkeepAct
  | act (act : BackendAct)
  | statement (statement : UpkeepStatement)
  | patchEvent (actorId : UserId) (eventId : EventId) (patch : AdminEventPatch)

namespace Backend

def upkeepStep (lib : TextLib) (b : Backend) (i : Env × UpkeepAct) : Backend :=
  match i.2 with
  | .act act => b.step lib (i.1, act)
  | .statement statement => { b with toDb := b.toDb.upkeepStatement i.1 statement }
  | .patchEvent actorId eventId patch =>
      match b.toDb.adminPatchEvent i.1 actorId eventId patch with
      | .ok db => { b with toDb := db }
      | .error _ => b

def upkeepRun (lib : TextLib) (is : List (Env × UpkeepAct)) : Backend :=
  runFrom (upkeepStep lib) {} is

end Backend
end Sahay
