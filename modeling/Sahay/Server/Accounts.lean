import Sahay.Server.Retention
import Sahay.Server.System

/-!
# Appeals, logins, data requests, emergency shutdown

The rest of what writes accounts: `createAppeal`, `resolveAppeal` and
`emergencyShutdown` of `modules/admin/service.ts`, `verifyOtp` and
`loginWithPassword` of `modules/auth/service.ts`, `requestAccountDeletion` of
`modules/privacy/service.ts`, and the last statement of the jobs of
`workers/data-request.ts`.  They work on a few tables more than the operations.
-/

namespace Sahay

abbrev AppealId := ℕ
abbrev DataRequestId := ℕ

inductive AppealStatus
  | «open» | upheld | overturned
  deriving DecidableEq

inductive AppealOutcome
  | upheld | overturned
  deriving DecidableEq

def AppealOutcome.status : AppealOutcome → AppealStatus
  | .upheld => .upheld
  | .overturned => .overturned

structure Appeal where
  userId : UserId
  moderationActionId : ActionId
  body : String
  status : AppealStatus := .open
  resolvedBy : Option UserId := none
  createdAt : Time := 0
  resolvedAt : Option Time := none

inductive DataRequestKind
  | «export» | delete
  deriving DecidableEq

inductive DataRequestStatus
  | pending | ready | done
  deriving DecidableEq

structure DataRequest where
  userId : UserId
  kind : DataRequestKind
  status : DataRequestStatus := .pending
  createdAt : Time := 0
  completedAt : Option Time := none

/-- The database, with the tables that only these modules use. -/
structure Backend extends Db where
  appeals : Table AppealId Appeal := ∅
  dataRequests : Table DataRequestId DataRequest := ∅
  featureFlags : Table String Bool := ∅

/-- The functions on strings that logins and deletions call: those of `lib/crypto.ts`,
and trimming with lower-casing. -/
structure TextLib where
  normalize : String → String
  emailBlindIndex : String → String
  encryptPii : String → String
  verifyPassword : String → String → Bool

/-- What a login draws at random, and the device it comes from. -/
structure LoginDraws where
  pseudonym : ℕ × ℕ
  tokenHash : String
  platform : String := "web"
  deviceName : Option String := none
  userId : UserId := 0
  sessionId : SessionId := 0

def Limits.sessionTtlDays : ℕ := 60

namespace Backend

variable (env : Env) (lib : TextLib) (b : Backend)

/-! ## Appeals -/

/-- Only the user whom the action targeted may appeal it, and once at a time. -/
def createAppeal (userId : UserId) (moderationActionId : ActionId) (body : String)
    (uuid : AppealId) : Outcome Backend := do
  let action ← found (b.moderationActions.lookup moderationActionId) errors.notFound
  ensure (action.targetUserId = some userId) errors.notFound
  let existing := b.appeals.first fun _ a =>
    a.moderationActionId = moderationActionId && a.status = .open
  ensure existing.isNone errors.conflict
  let appeal : Appeal :=
    { userId := userId
      moderationActionId := moderationActionId
      body := body
      createdAt := env.now }
  return { b with appeals := b.appeals.put (b.appeals.freshKey uuid) appeal }

/-- What overturning an action does to the user it targeted. -/
def overturn (action : ModerationAction) (user : User) : User :=
  match action.action with
  | .suspend =>
      if user.status = .suspended then { user with status := .active, suspendedUntil := none }
      else user
  | .restrictRequests => { user with canRequest := true }
  | .restrictHelping => { user with canHelp := true }
  | _ => user

def resolvedUsers (users : Table UserId User) (outcome : AppealOutcome)
    (action : ModerationAction) : Table UserId User :=
  match outcome, action.targetUserId with
  | .overturned, some targetId => users.modify targetId (overturn action)
  | _, _ => users

def resolveAppeal (actorId : UserId) (appealId : AppealId) (outcome : AppealOutcome)
    (reason : String) : Outcome Backend := do
  let appeal ← found (b.appeals.lookup appealId) errors.notFound
  let action ← found (b.moderationActions.lookup appeal.moderationActionId) errors.notFound
  ensure (appeal.status = .open) errors.conflict
  let resolve (row : Appeal) : Appeal :=
    { row with status := outcome.status, resolvedBy := some actorId, resolvedAt := some env.now }
  let entry : AuditEntry :=
    { actorId := some actorId
      action := "appeal_resolve"
      target := some ("appeal:" ++ toString appealId)
      reason := some reason
      createdAt := env.now }
  return { b with
    appeals := b.appeals.modify appealId resolve
    users := resolvedUsers b.users outcome action
    auditLog := b.auditLog ++ [entry] }

/-! ## Deletion and data requests -/

/-- Confirm and queue: the sessions and the status at once, the rest by the worker. -/
def requestAccountDeletion (userId : UserId) (confirmPseudonym : String) (uuid : DataRequestId) :
    Outcome Backend := do
  let user ← found (b.users.lookup userId) errors.unauthorized
  ensure (lib.normalize confirmPseudonym = lib.normalize user.pseudonym)
    (errors.validation { field := some "confirmPseudonym" })
  let isLive (_ : SessionId) (s : Session) : Bool := s.userId = userId && s.revokedAt.isNone
  let revoke (s : Session) : Session := { s with revokedAt := some env.now }
  let delete (user : User) : User := { user with status := .deleted }
  let dataRequest : DataRequest := { userId := userId, kind := .delete, createdAt := env.now }
  return { b with
    sessions := b.sessions.updateWhere isLive revoke
    users := b.users.modify userId delete
    dataRequests := b.dataRequests.put (b.dataRequests.freshKey uuid) dataRequest }

/-- The last statement of `processExport` and `processDelete`, whose other statements
are operations. -/
def finishDataRequest (id : DataRequestId) : Backend :=
  let finish (row : DataRequest) : DataRequest :=
    { row with
      status := match row.kind with | .export => .ready | .delete => .done
      completedAt := some env.now }
  { b with dataRequests := b.dataRequests.modify id finish }

/-! ## Logins -/

def isSignupOpen : Bool := (b.featureFlags.lookup "signup_open").getD true

def insertSession (userId : UserId) (draws : LoginDraws) : Backend :=
  let session : Session :=
    { userId := userId
      tokenHash := draws.tokenHash
      platform := draws.platform
      deviceName := draws.deviceName
      createdAt := env.now
      lastSeenAt := env.now
      expiresAt := env.now + Limits.sessionTtlDays * 86400000 }
  { b with sessions := b.sessions.put (b.sessions.freshKey draws.sessionId) session }

/-- A fresh account, while registration is open. -/
def createAccount (email : String) (draws : LoginDraws) : Outcome (UserId × Backend) := do
  ensure b.isSignupOpen errors.forbidden
  let pseudonym := pseudonymFromIndexes draws.pseudonym.1 draws.pseudonym.2
  let created : User :=
    { pseudonym := pseudonym
      avatarSeed := pseudonym
      emailEnc := some (lib.encryptPii email)
      emailHmac := some (lib.emailBlindIndex email)
      emailVerifiedAt := some env.now
      createdAt := env.now }
  let userId := b.users.freshKey draws.userId
  return (userId, { b with
    users := b.users.put userId created
    reliabilityStats := b.reliabilityStats.upsert userId { updatedAt := env.now } id })

/-- The account of a verified email: the one that has it, or a fresh one. -/
def accountForEmail (email : String) (draws : LoginDraws) : Outcome (UserId × Backend) :=
  match b.users.first fun _ user => user.emailHmac = some (lib.emailBlindIndex email) with
  | some (userId, user) =>
      if user.status ≠ .deleted ∧ user.deletedAt.isNone then return (userId, b)
      else
        -- A deleted account gives up its email, so that a fresh one can claim it.
        let detach (user : User) : User := { user with emailHmac := none, emailEnc := none }
        { b with users := b.users.modify userId detach }.createAccount env lib email draws
  | none => b.createAccount env lib email draws

/-- `consumed` is what `consumeOtp` comes to. -/
def verifyOtp (email : String) (consumed : Outcome Unit) (draws : LoginDraws) :
    Outcome Backend := do
  consumed
  let (userId, b) ← b.accountForEmail env lib email draws
  return b.insertSession env userId draws

/-- Every refusal of the credentials reads the same.  The rate limits before it are not
in the database. -/
def loginWithPassword (username password : String) (draws : LoginDraws) : Outcome Backend := do
  let normalized := lib.normalize username
  let (userId, user) ← found (b.users.first fun _ user => user.username = some normalized)
    errors.unauthorized
  ensure (user.passwordHash.any (lib.verifyPassword password)) errors.unauthorized
  ensure (user.status ≠ .deleted ∧ user.deletedAt.isNone) errors.unauthorized
  ensure (user.status ≠ .suspended ∧ user.suspendedUntil.all fun t => t ≤ env.now)
    errors.accountRestricted
  return b.insertSession env userId draws

/-! ## Emergency shutdown -/

/-- Pause every active event and close registration. -/
def emergencyShutdown (actorId : UserId) (reason : String) : Backend :=
  let isRunning (_ : EventId) (event : Event) : Bool :=
    event.status = .active && !event.matchingPaused
  let pause (event : Event) : Event := { event with matchingPaused := true }
  let entry : AuditEntry :=
    { actorId := some actorId
      action := "emergency_shutdown"
      target := some "platform"
      reason := some reason
      createdAt := env.now }
  { b with
    events := b.events.updateWhere isRunning pause
    featureFlags := b.featureFlags.modify "signup_open" fun _ => false
    auditLog := b.auditLog ++ [entry] }

end Backend

/-! ## The machine -/

/-- What can happen.  A caller is given by the account behind its token. -/
inductive BackendAct
  | op (op : Op)
  | lifecycle (statement : LifecycleStatement)
  | createAppeal (userId : UserId) (moderationActionId : ActionId) (body : String)
      (uuid : AppealId)
  | resolveAppeal (actorId : UserId) (appealId : AppealId) (outcome : AppealOutcome)
      (reason : String)
  | requestAccountDeletion (userId : UserId) (confirmPseudonym : String) (uuid : DataRequestId)
  | finishDataRequest (id : DataRequestId)
  | verifyOtp (email : String) (consumed : Outcome Unit) (draws : LoginDraws)
  | loginWithPassword (username password : String) (draws : LoginDraws)
  | emergencyShutdown (actorId : UserId) (reason : String)

namespace Backend

def commit (b : Backend) : Outcome Backend → Backend
  | .ok b' => b'
  | .error _ => b

def step (lib : TextLib) (b : Backend) (i : Env × BackendAct) : Backend :=
  match i.2 with
  | .op op => { b with toDb := b.toDb.step (i.1, op) }
  | .lifecycle statement => { b with toDb := b.toDb.lifecycleStatement i.1 statement }
  | .createAppeal userId moderationActionId body uuid =>
      b.commit (b.createAppeal i.1 userId moderationActionId body uuid)
  | .resolveAppeal actorId appealId outcome reason =>
      b.commit (b.resolveAppeal i.1 actorId appealId outcome reason)
  | .requestAccountDeletion userId confirmPseudonym uuid =>
      b.commit (b.requestAccountDeletion i.1 lib userId confirmPseudonym uuid)
  | .finishDataRequest id => b.finishDataRequest i.1 id
  | .verifyOtp email consumed draws => b.commit (b.verifyOtp i.1 lib email consumed draws)
  | .loginWithPassword username password draws =>
      b.commit (b.loginWithPassword i.1 lib username password draws)
  | .emergencyShutdown actorId reason => b.emergencyShutdown i.1 actorId reason

end Backend

namespace SmallEvent

def text : TextLib := ⟨id, id, id, fun _ _ => true⟩

def staffed : Backend :=
  let dir := directory [1, 2, 3, 4] [3]
  let promote (user : User) : User := { user with role := .moderator }
  { toDb := { toDirectory := { dir with users := dir.users.modify 4 promote } } }

end SmallEvent
end Sahay
