import Sahay.Server.Attendance
import Sahay.Server.Credentials
import Sahay.Server.Upkeep

/-!
# The site

Events and membership (`modules/events/service.ts`), availability and locations
(`modules/availability/service.ts`) and the profile (`modules/users/service.ts`): a statement is
one atomic turn, and so is a transaction; and everything that goes on at once on the database:
these calls and those about accounts, interleaved in any way with each other and with the
transactions, jobs and sweeps of the backend.
-/

namespace Sahay

/-! ## State -/

/-- The state of the calls about accounts, with columns that only the calls here use: the invite
codes of `events`, `muted` of `memberships` and `pseudonym_changed_at` of `users`. -/
structure SiteState extends AuthState where
  inviteCodes : Table EventId String := ∅
  muted : Table (UserId × EventId) Bool := ∅
  pseudonymChangedAt : Table UserId Time := ∅

abbrev SiteProgram := Program SiteState TxError

namespace SiteState

abbrev db (st : SiteState) : Db := st.backend.toDb

def setDb (st : SiteState) (db : Db) : SiteState :=
  { st with backend := { st.backend with toDb := db } }

@[simp] theorem setDb_db (st : SiteState) (db : Db) : (st.setDb db).db = db := rfl

end SiteState

namespace Site

def select {α : Type} (f : SiteState → α) : SiteProgram α := .read f

def exec (f : Db → Db) : SiteProgram Unit := .write fun st => st.setDb (f st.db)

def account {α : Type} (p : AuthProgram α) : SiteProgram α :=
  p.within SiteState.toAuthState fun auth st => { st with toAuthState := auth }

variable (env : AccountEnv)

def asUser {α : Type} (route tokenHash : String) (handler : AuthContext → SiteProgram α) :
    SiteProgram α := do
  match ← select fun st => st.db.authenticateAt route env.now tokenHash with
  | .ok auth => handler auth
  | .error e => .throw e

/-! ## Events -/

/-- What `zCreateEvent` takes, less the texts that only the page of the event shows. -/
structure CreateEventInput where
  title : String
  type : EventType
  visibility : EventVisibility
  areaLabel : String
  center : Coords
  startsAt : Time
  endsAt : Time
  timezone : String
  categorySlugs : List String := []

def isDuplicate (input : CreateEventInput) (center : Coords) (_ : EventId) (event : Event) : Bool :=
  env.lower event.title = env.lower input.title && event.status ≠ .archived &&
    env.platform.stDistance event.center center ≤ 5000 && event.startsAt < input.endsAt &&
      input.startsAt < event.endsAt

def newEvent (userId : UserId) (input : CreateEventInput) (center : Coords) : Event :=
  { code := env.eventCode
    title := input.title
    type := input.type
    areaLabel := input.areaLabel
    center := center
    timezone := input.timezone
    status := if input.startsAt ≤ env.now ∧ env.now < input.endsAt then .active else .scheduled
    visibility := input.visibility
    startsAt := input.startsAt
    endsAt := input.endsAt
    createdBy := some userId }

/-- The event, its categories and the membership of its creator. -/
def insertEvent (userId : UserId) (input : CreateEventInput) (center : Coords) :
    SiteProgram (EventId × Option String) :=
  .transaction fun st => do
    let inviteCode := if input.visibility = .inviteOnly then some env.inviteCode else none
    let eventId := st.db.events.freshKey env.eventId
    ensure (st.db.events.first fun _ row => row.code = env.eventCode).isNone .uniqueViolation
    let cats := st.db.categories.select fun _ c => c.slug ∈ input.categorySlugs && c.active
    ensure (input.categorySlugs = [] ∨ cats ≠ [])
      (errors.validation { field := some "categorySlugs" })
    let db := { st.db with
      events := st.db.events.put eventId (newEvent env userId input center)
      eventCategories := cats.foldl (fun t c => t.put (eventId, c.1) {}) st.db.eventCategories
      memberships := st.db.memberships.put (userId, eventId)
        { role := "event_admin", joinedAt := env.now } }
    return ((eventId, inviteCode), { st.setDb db with
      inviteCodes := inviteCode.elim st.inviteCodes fun code => st.inviteCodes.put eventId code })

/-- The id of the new event, and its invite code. -/
def createEvent (userId : UserId) (input : CreateEventInput) :
    SiteProgram (EventId × Option String) :=
  if input.endsAt ≤ input.startsAt then .throw (errors.validation { field := some "endsAt" })
  else do
    let allowed ← account (Auth.rateLimit env.toAuthEnv "event:create" (toString userId) 5 86400)
    if !allowed then .throw errors.rateLimited
    else
      let center := coarsen input.center
      let dupe ← select fun st =>
        (env.selectIds st.db.events (isDuplicate env input center)).head?.bind
          st.db.events.lookup
      match dupe with
      | some event =>
          .throw (.app ⟨.requestConflict, { duplicateEventCode := some event.code }⟩)
      | none => insertEvent env userId input center

/-! ## Membership -/

/-- Of an event by invitation only, the code it was created with. -/
def admits (event : Event) (issued given : Option String) : Bool :=
  event.visibility ≠ .inviteOnly || (given.any (fun code => code ≠ "") && given = issued)

def joinEvent (userId : UserId) (eventId : EventId) (inviteCode : Option String) :
    SiteProgram Unit := do
  match ← select fun st => (st.db.resolveEvent eventId, st.inviteCodes.lookup eventId) with
  | (none, _) => .throw errors.notFound
  | (some event, issued) =>
      if event.status ≠ .active ∧ event.status ≠ .scheduled then .throw errors.eventNotActive
      else if !admits event issued inviteCode then .throw errors.forbidden
      else
        let return_ (m : Membership) : Membership := { m with leftAt := none }
        match ← select fun st => st.db.memberships.lookup (userId, eventId) with
        | some existing =>
            if existing.banned then .throw errors.forbidden
            else if existing.leftAt.isSome then
              exec fun db => { db with
                memberships := db.memberships.modify (userId, eventId) return_ }
            else return ()
        | none =>
            exec fun db => { db with
              memberships := db.memberships.upsert (userId, eventId) { joinedAt := env.now }
                return_ }

def leaveEvent (userId : UserId) (eventId : EventId) : SiteProgram Unit :=
  exec fun db => db.leaveEvent env.toEnv userId eventId

/-- `UPDATE … SET muted … RETURNING id`, of a membership that has not ended. -/
def setMuted (userId : UserId) (eventId : EventId) (muted : Bool) (st : SiteState) :
    Bool × SiteState :=
  if (st.db.getMembership eventId userId).isSome then
    (true, { st with muted := st.muted.put (userId, eventId) muted })
  else (false, st)

def muteEvent (userId : UserId) (eventId : EventId) (muted : Bool) : SiteProgram Unit := do
  let updated ← .update (setMuted userId eventId muted)
  if updated then return () else .throw errors.notFound

def answerAttendance (userId : UserId) (eventId : EventId) (attending : Bool) :
    SiteProgram AttendanceAnswer := do
  match ← select fun st => st.db.events.lookup eventId with
  | none => .throw errors.notFound
  | some event =>
      let next := nextDailyStart event.startsAt event.endsAt (env.now + 60000)
      if attending || next.isSome then return { leftEvent := false, nextOccurrence := next }
      else
        leaveEvent env userId eventId
        return { leftEvent := true, nextOccurrence := none }

/-! ## Availability -/

structure AvailabilityView where
  on : Bool
  «until» : Option Time

/-- An `until` in the past counts as off, also before it has been swept. -/
def isOn (now : Time) (row : Availability) : Bool := row.isOn && row.until.all fun t => now < t

def getAvailability (userId : UserId) (eventId : EventId) : SiteProgram AvailabilityView :=
  select fun st =>
    match (st.db.availability.lookup (userId, eventId)).filter (isOn env.now) with
    | some row => { on := true, «until» := row.until }
    | none => { on := false, «until» := none }

/-- `AVAILABILITY_DURATIONS_MIN`. -/
inductive Duration
  | thirty | sixty | twoHours
  deriving DecidableEq

def Duration.minutes : Duration → ℕ
  | .thirty => 30
  | .sixty => 60
  | .twoHours => 120

structure SetAvailabilityInput where
  on : Bool
  duration : Option Duration := none
  untilEventEnd : Bool := false

def upsertAvailability (userId : UserId) (eventId : EventId) (isOn : Bool)
    («until» : Option Time) (db : Db) : Db :=
  let row : Availability := { isOn := isOn, «until» := «until», updatedAt := env.now }
  { db with availability := db.availability.upsert (userId, eventId) row fun _ => row }

def setAvailability (auth : AuthContext) (eventId : EventId) (input : SetAvailabilityInput) :
    SiteProgram AvailabilityView :=
  if !input.on then do
    exec (upsertAvailability env auth.userId eventId false none)
    return { on := false, «until» := none }
  else do
    match ← select fun st => st.db.resolveEvent eventId with
    | none => .throw errors.notFound
    | some event =>
        let membership ← select fun st => st.db.getMembership eventId auth.userId
        if membership.isNone then .throw errors.forbidden
        else if event.status = .paused then .throw errors.eventPaused
        else if event.status ≠ .active then .throw errors.eventNotActive
        else if !auth.canHelp || auth.status ≠ .active then .throw errors.accountRestricted
        else
          let «until» := match input.duration with
            | some duration => some (env.now + duration.minutes * 60000)
            | none => if input.untilEventEnd then some event.endsAt else none
          exec (upsertAvailability env auth.userId eventId true «until»)
          return { on := true, «until» := «until» }

/-! ## Locations -/

/-- The first query of `mayShareLocation`. -/
def isHelping (now : Time) (userId : UserId) (eventId : EventId) (db : Db) : Bool :=
  (db.availability.lookup (userId, eventId)).any (isOn now)

def isAsking (userId : UserId) (eventId : EventId) (db : Db) : Bool :=
  (db.requests.first fun _ r =>
    r.requesterId = userId && r.eventId = eventId && r.status.isOpen).isSome

def mayShareLocation (userId : UserId) (eventId : EventId) : SiteProgram Bool := do
  if ← select fun st => isHelping env.now userId eventId st.db then return true
  else select fun st => isAsking userId eventId st.db

/-- Consent is recorded once, not with every ping. -/
def recordConsent (userId : UserId) : SiteProgram Unit := do
  let consented ← select fun st => (st.db.consentRecords.first fun _ row =>
    row.userId = userId && row.kind = "location" && row.granted).isSome
  if consented then return ()
  else exec fun db => { db with
    consentRecords := db.consentRecords.put (db.consentRecords.freshKey 0)
      { userId := userId, kind := "location", granted := true, createdAt := env.now } }

def putLocation (userId : UserId) (eventId : EventId) (coords : Coords) : SiteProgram Time := do
  if ← mayShareLocation env userId eventId then
    exec fun db => db.upsertMemberLocation env.toEnv userId eventId coords
    recordConsent env userId
    return env.now + env.platform.locationTtlMinutes * 60000
  else .throw errors.forbidden

def deleteLocation (userId : UserId) (eventId : EventId) : SiteProgram Unit :=
  exec fun db => { db with memberLocations := db.memberLocations.drop (userId, eventId) }

/-! ## Profile -/

def pseudonymRegenDays : ℕ := 30

def canRegeneratePseudonym (changedAt : Option Time) (now : Time) : Bool :=
  changedAt.all fun t => pseudonymRegenDays * 24 * 3600000 ≤ now - t

/-- `zUpdateMe`; a locale that is given is `en` or `hi`. -/
structure UpdateMeInput where
  locale : Option String := none
  regeneratePseudonym : Bool := false

def updateMe (userId : UserId) (patch : UpdateMeInput) : SiteProgram Auth.Me :=
  .transaction fun st => do
    let user ← found (st.db.users.lookup userId) errors.unauthorized
    ensure (patch.regeneratePseudonym →
      canRegeneratePseudonym (st.pseudonymChangedAt.lookup userId) env.now) errors.rateLimited
    let pseudonym := pseudonymFromIndexes env.draws.pseudonym.1 env.draws.pseudonym.2
    let regenerate (row : User) : User :=
      if patch.regeneratePseudonym then { row with pseudonym := pseudonym, avatarSeed := pseudonym }
      else row
    let set (row : User) : User :=
      { regenerate row with locale := patch.locale.getD row.locale }
    let changed := if patch.regeneratePseudonym then st.pseudonymChangedAt.put userId env.now
      else st.pseudonymChangedAt
    return (Auth.toMe userId (set user),
      { st.setDb { st.db with users := st.db.users.modify userId set } with
        pseudonymChangedAt := changed })

/-! ## Calls -/

inductive MemberCall
  | createEvent (input : CreateEventInput)
  | joinEvent (eventId : EventId) (inviteCode : Option String)
  | leaveEvent (eventId : EventId)
  | muteEvent (eventId : EventId) (muted : Bool)
  | answerAttendance (eventId : EventId) (attending : Bool)
  | getAvailability (eventId : EventId)
  | setAvailability (eventId : EventId) (input : SetAvailabilityInput)
  | putLocation (eventId : EventId) (coords : Coords)
  | deleteLocation (eventId : EventId)
  | updateMe (patch : UpdateMeInput)

inductive MemberReply
  | ok
  | attendance (answer : AttendanceAnswer)
  | availability (view : AvailabilityView)
  | located (expiresAt : Time)
  | event (eventId : EventId) (inviteCode : Option String)
  | me (me : Auth.Me)

def MemberCall.route : MemberCall → String
  | .createEvent .. => "/api/v1/events"
  | .joinEvent .. => "/api/v1/events/:id/join"
  | .leaveEvent .. => "/api/v1/events/:id/leave"
  | .muteEvent .. => "/api/v1/events/:id/mute"
  | .answerAttendance .. => "/api/v1/events/:id/attendance"
  | .getAvailability .. | .setAvailability .. => "/api/v1/events/:id/availability"
  | .putLocation .. | .deleteLocation .. => "/api/v1/events/:id/location"
  | .updateMe .. => "/api/v1/me"

def handle (auth : AuthContext) : MemberCall → SiteProgram MemberReply
  | .createEvent input =>
      if auth.role = .moderator ∨ auth.role = .admin then do
        let created ← createEvent env auth.userId input
        return .event created.1 created.2
      else .throw errors.forbidden
  | .joinEvent eventId inviteCode => do
      joinEvent env auth.userId eventId inviteCode
      return .ok
  | .leaveEvent eventId => do
      leaveEvent env auth.userId eventId
      return .ok
  | .muteEvent eventId muted => do
      muteEvent auth.userId eventId muted
      return .ok
  | .answerAttendance eventId attending => do
      return .attendance (← answerAttendance env auth.userId eventId attending)
  | .getAvailability eventId => do
      return .availability (← getAvailability env auth.userId eventId)
  | .setAvailability eventId input => do
      return .availability (← setAvailability env auth eventId input)
  | .putLocation eventId coords => do
      return .located (← putLocation env auth.userId eventId coords)
  | .deleteLocation eventId => do
      deleteLocation auth.userId eventId
      return .ok
  | .updateMe patch => do return .me (← updateMe env auth.userId patch)

inductive SiteCall
  | account (c : Auth.AccountCall)
  | member (tokenHash : String) (c : MemberCall)

inductive SiteReply
  | account (r : Auth.AccountReply)
  | member (r : MemberReply)

variable (cfg : AuthConfig) (lib : AuthLib)

def serve (c : AccountEnv × SiteCall) : SiteProgram SiteReply :=
  match c.2 with
  | .account call => do return .account (← account (Auth.serve lib c.1 cfg call))
  | .member tokenHash call =>
      asUser c.1 call.route tokenHash fun auth => do return .member (← handle c.1 auth call)

def alone (st : SiteState) (i : Env × UpkeepAct) : SiteState :=
  { st with backend := st.backend.upkeepStep lib.toTextLib i }

end Site

/-! ## The machine -/

abbrev Site (κ : Type) := Service κ (AccountEnv × Site.SiteCall) SiteState TxError Site.SiteReply

abbrev SiteAct (κ : Type) := ServiceAct κ (AccountEnv × Site.SiteCall) (Env × UpkeepAct)

namespace Site

variable {κ : Type} [DecidableEq κ] (cfg : AuthConfig) (lib : AuthLib)

def step (s : Site κ) (act : SiteAct κ) : Site κ := Service.step (serve cfg lib) (alone lib) s act

def opened (st : SiteState) : Site κ := { state := st }

end Site

namespace SmallSite

def empty : SiteState where
  backend := {}

/-- User 1 is signed in on two devices. -/
def signedIn : SiteState where
  backend :=
    { users := (∅ : Table UserId User).put 1
        { username := some "asha"
          passwordHash := some "old"
          emailHmac := some "asha@example.com" }
      sessions := ((∅ : Table SessionId Session).put 2
        { userId := 1, tokenHash := "phone", expiresAt := 1000 }).put 3
        { userId := 1, tokenHash := "laptop", expiresAt := 1000 } }

/-- The surroundings of a call at `now`. -/
def env (now : Time) : AccountEnv :=
  { SmallEvent.clock now with
    lower := id
    draws := { pseudonym := (0, 1), tokenHash := "new", token := "new", otpCode := "" } }

end SmallSite
end Sahay
