import Sahay.Lib.Footprint
import Sahay.Server.Upkeep

/-!
# What the retention tasks touch

Each statement of a task, and so each task, has a footprint: the parts of the database that it
reads and those that it writes.  The dates of events, which many tasks read, are a part of their
own: the lifecycle changes the status of events and no date.
-/

namespace Sahay

/-- What the tasks read and write.  The dates are the events but for their status; the others
are the tables that no task writes. -/
inductive DbPart
  | locations | availability | conversations | messages | dates | events | requests | offers
  | otpCodes | sessions | notifications | users | auditLog | others
  deriving DecidableEq

namespace DbPart

abbrev Value : DbPart → Type
  | .locations => Table (UserId × EventId) MemberLocation
  | .availability => Table (UserId × EventId) Availability
  | .conversations => Table ConversationId Conversation
  | .messages => Table MessageId Message
  | .dates => Table EventId Event
  | .events => Table EventId Event
  | .requests => Table RequestId Request
  | .offers => Table OfferId MatchOffer
  | .otpCodes => Table ℕ OtpCode
  | .sessions => Table SessionId Session
  | .notifications => Table ℕ Notification
  | .users => Table UserId User
  | .auditLog => List AuditEntry
  | .others => Db

def of : (p : DbPart) → Db → p.Value
  | .locations, db => db.memberLocations
  | .availability, db => db.availability
  | .conversations, db => db.conversations
  | .messages, db => db.messages
  | .dates, db => db.events.mapVal fun _ event => { event with status := .draft }
  | .events, db => db.events
  | .requests, db => db.requests
  | .offers, db => db.matchOffers
  | .otpCodes, db => db.otpCodes
  | .sessions, db => db.sessions
  | .notifications, db => db.notifications
  | .users, db => db.users
  | .auditLog, db => db.auditLog
  | .others, db =>
      { db with
        memberLocations := ∅, availability := ∅, conversations := ∅, messages := ∅, events := ∅
        requests := ∅, matchOffers := ∅, otpCodes := ∅, sessions := ∅, notifications := ∅
        users := ∅, auditLog := [] }

/-- The database with these parts. -/
def assemble (value : (p : DbPart) → p.Value) : Db :=
  { (value .others : Db) with
    memberLocations := value .locations
    availability := value .availability
    conversations := value .conversations
    messages := value .messages
    events := value .events
    requests := value .requests
    matchOffers := value .offers
    otpCodes := value .otpCodes
    sessions := value .sessions
    notifications := value .notifications
    users := value .users
    auditLog := value .auditLog }

theorem assemble_of (db : Db) : (assemble fun p => p.of db) = db := rfl

theorem ext_of (db db' : Db) (h : ∀ p : DbPart, p.of db = p.of db') : db = db' := by
  rw [← assemble_of db, ← assemble_of db', funext h]

end DbPart

/-! ## The footprint of a statement -/

namespace UpkeepStatement

def reads : UpkeepStatement → Finset DbPart
  | .endAvailability => {.dates}
  | .closeConversations => {.others}
  | .purgeMessages => {.dates, .others}
  | .scrubRequests => {.dates}
  | .dropOffers => {.dates, .requests, .others}
  | .lifecycle .switchOff => {.events}
  | .lifecycle .restoreFlags => {.others}
  | _ => ∅

def writes : UpkeepStatement → Finset DbPart
  | .purgeLocations => {.locations}
  | .lapseAvailability | .endAvailability | .lifecycle .switchOff => {.availability}
  | .closeConversations => {.conversations}
  | .purgeMessages => {.conversations, .messages}
  | .purgeOtps => {.otpCodes}
  | .purgeSessions => {.sessions}
  | .scrubRequests => {.requests}
  | .dropOffers => {.offers}
  | .purgeNotifications => {.notifications}
  | .lifecycle .activate | .lifecycle .complete | .lifecycle .archive => {.events}
  | .lifecycle .liftSuspensions => {.users, .auditLog}
  | .lifecycle .restoreFlags => {.users}

end UpkeepStatement

namespace Db

variable {env env' : Env} {db s s' : Db}

theorem dates_updateWhere (t : Table EventId Event) (p : EventId → Event → Bool)
    (status : EventStatus) :
    ((t.updateWhere p fun event => { event with status := status }).mapVal
      fun _ event => { event with status := .draft }) =
        t.mapVal fun _ event => { event with status := .draft } := by
  rw [Table.updateWhere, Table.mapVal_mapVal]
  congr
  funext k event
  split_ifs <;> rfl

theorem any_of_dates {p : Event → Bool} (hp : ∀ event, p { event with status := .draft } = p event)
    (h : DbPart.dates.of s = DbPart.dates.of s') (eventId : EventId) :
    (s.events.lookup eventId).any p = (s'.events.lookup eventId).any p := by
  have hdates (db : Db) : (db.events.lookup eventId).any p =
      ((DbPart.dates.of db).lookup eventId).any p := by
    rw [DbPart.of, Table.lookup_mapVal, Option.any_map]
    congr
    funext event
    exact (hp event).symm
  rw [hdates, hdates, h]

theorem isPastRetention_congr (env : Env) (h : DbPart.dates.of s = DbPart.dates.of s') :
    s.isPastRetention env = s'.isPastRetention env :=
  funext (any_of_dates (fun _ => rfl) h)

theorem matchRows_congr (h : DbPart.others.of s = DbPart.others.of s') :
    s.matchRows = s'.matchRows := by
  have hmatchRows := congrArg (fun db : Db => db.matchRows) h
  exact hmatchRows

theorem moderationActions_congr (h : DbPart.others.of s = DbPart.others.of s') :
    s.moderationActions = s'.moderationActions := by
  have hactions := congrArg (fun db : Db => db.moderationActions) h
  exact hactions

theorem upkeepStatement_frame (statement : UpkeepStatement) (db : Db) :
    ∀ p ∉ statement.writes, p.of (db.upkeepStatement env statement) = p.of db := by
  intro p hp
  cases statement with
  | lifecycle statement =>
      cases statement <;> cases p <;> first
        | rfl
        | exact absurd (by decide) hp
        | exact dates_updateWhere _ _ _
  | _ => cases p <;> first | rfl | exact absurd (by decide) hp

theorem upkeepStatement_depends (statement : UpkeepStatement) (s s' : Db)
    (hagree : ∀ p ∈ statement.reads ∪ statement.writes, p.of s = p.of s') :
    ∀ p ∈ statement.writes,
      p.of (s.upkeepStatement env statement) = p.of (s'.upkeepStatement env statement) := by
  cases statement with
  | purgeLocations =>
      have hlocations : s.memberLocations = s'.memberLocations := hagree .locations (by decide)
      simp [UpkeepStatement.writes, DbPart.of, upkeepStatement, hlocations]
  | lapseAvailability =>
      have havailability : s.availability = s'.availability := hagree .availability (by decide)
      simp [UpkeepStatement.writes, DbPart.of, upkeepStatement, havailability]
  | endAvailability =>
      have havailability : s.availability = s'.availability := hagree .availability (by decide)
      have hends (eventId : EventId) :
          ((s.events.lookup eventId).any fun event => event.endsAt < env.now) =
            (s'.events.lookup eventId).any fun event => event.endsAt < env.now :=
        any_of_dates (fun _ => rfl) (hagree .dates (by decide)) eventId
      simp [UpkeepStatement.writes, DbPart.of, upkeepStatement, havailability, hends]
  | closeConversations =>
      have hconversations : s.conversations = s'.conversations :=
        hagree .conversations (by decide)
      have hmatchRows := matchRows_congr (hagree .others (by decide))
      simp [UpkeepStatement.writes, DbPart.of, upkeepStatement, hconversations, hmatchRows]
  | purgeMessages =>
      have hconversations : s.conversations = s'.conversations :=
        hagree .conversations (by decide)
      have hmessages : s.messages = s'.messages := hagree .messages (by decide)
      have hover : s.chatOver env = s'.chatOver env := by
        funext c
        rw [chatOver, chatOver, matchRows_congr (hagree .others (by decide)),
          isPastRetention_congr env (hagree .dates (by decide))]
      simp [UpkeepStatement.writes, DbPart.of, upkeepStatement, hconversations, hmessages, hover]
  | purgeOtps =>
      have hotpCodes : s.otpCodes = s'.otpCodes := hagree .otpCodes (by decide)
      simp [UpkeepStatement.writes, DbPart.of, upkeepStatement, hotpCodes]
  | purgeSessions =>
      have hsessions : s.sessions = s'.sessions := hagree .sessions (by decide)
      simp [UpkeepStatement.writes, DbPart.of, upkeepStatement, hsessions]
  | scrubRequests =>
      have hrequests : s.requests = s'.requests := hagree .requests (by decide)
      have hpast := isPastRetention_congr env (hagree .dates (by decide))
      simp [UpkeepStatement.writes, DbPart.of, upkeepStatement, hrequests, hpast]
  | dropOffers =>
      have hoffers : s.matchOffers = s'.matchOffers := hagree .offers (by decide)
      have hdroppable : s.offerDroppable env = s'.offerDroppable env := by
        funext offerId o
        have hrequests : s.requests = s'.requests := hagree .requests (by decide)
        rw [offerDroppable, offerDroppable, hrequests,
          matchRows_congr (hagree .others (by decide)),
          isPastRetention_congr env (hagree .dates (by decide))]
      simp [UpkeepStatement.writes, DbPart.of, upkeepStatement, hoffers, hdroppable]
  | purgeNotifications =>
      have hnotifications : s.notifications = s'.notifications :=
        hagree .notifications (by decide)
      simp [UpkeepStatement.writes, DbPart.of, upkeepStatement, hnotifications]
  | lifecycle statement =>
      cases statement with
      | activate | complete | archive =>
          have hevents : s.events = s'.events := hagree .events (by decide)
          simp [UpkeepStatement.writes, DbPart.of, upkeepStatement, lifecycleStatement, hevents]
      | switchOff =>
          have hevents : s.events = s'.events := hagree .events (by decide)
          have havailability : s.availability = s'.availability :=
            hagree .availability (by decide)
          simp [UpkeepStatement.writes, DbPart.of, upkeepStatement, lifecycleStatement, hevents,
            havailability]
      | liftSuspensions =>
          have husers : s.users = s'.users := hagree .users (by decide)
          have haudit : s.auditLog = s'.auditLog := hagree .auditLog (by decide)
          simp [UpkeepStatement.writes, DbPart.of, upkeepStatement, lifecycleStatement, husers,
            haudit]
      | restoreFlags =>
          have husers : s.users = s'.users := hagree .users (by decide)
          have hrestorable : s.flagsRestorable env.now = s'.flagsRestorable env.now := by
            funext userId user
            rw [flagsRestorable, flagsRestorable,
              moderationActions_congr (hagree .others (by decide))]
          simp [UpkeepStatement.writes, DbPart.of, upkeepStatement, lifecycleStatement, husers,
            hrestorable]

theorem upkeepStatement_footprint (env : Env) (statement : UpkeepStatement) :
    Footprint DbPart.of statement.reads statement.writes fun db =>
      db.upkeepStatement env statement :=
  ⟨fun db => upkeepStatement_frame statement db, upkeepStatement_depends statement⟩

end Db

/-! ## The footprint of a task -/

namespace RetentionTask

/-- The statements of the task; the lifecycle looks at availability if some event has ended. -/
def statements (ended : Bool) : RetentionTask → List UpkeepStatement
  | .purgeLocations => [.purgeLocations]
  | .expireAvailability => [.lapseAvailability, .endAvailability]
  | .expireConversations => [.closeConversations]
  | .purgeMessages => [.purgeMessages]
  | .purgeOtpsSessions => [.purgeOtps, .purgeSessions]
  | .anonymizeClosed => [.scrubRequests, .dropOffers]
  | .purgeNotifications => [.purgeNotifications]
  | .eventLifecycle =>
      let switchOff := if ended then [.lifecycle .switchOff] else []
      [.lifecycle .activate, .lifecycle .complete] ++ switchOff ++
        [.lifecycle .archive, .lifecycle .liftSuspensions, .lifecycle .restoreFlags]
  | .expireRequests | .expireOffers | .attendanceReminders => []

def reads : RetentionTask → Finset DbPart
  | .expireAvailability => {.dates}
  | .expireConversations => {.others}
  | .purgeMessages => {.dates, .others}
  | .anonymizeClosed => {.dates, .requests, .others}
  | .eventLifecycle => {.events, .others}
  | _ => ∅

def writes : RetentionTask → Finset DbPart
  | .purgeLocations => {.locations}
  | .expireAvailability => {.availability}
  | .expireConversations => {.conversations}
  | .purgeMessages => {.conversations, .messages}
  | .purgeOtpsSessions => {.otpCodes, .sessions}
  | .anonymizeClosed => {.requests, .offers}
  | .purgeNotifications => {.notifications}
  | .eventLifecycle => {.events, .availability, .users, .auditLog}
  | .expireRequests | .expireOffers | .attendanceReminders => ∅

theorem statements_subset (task : RetentionTask) (ended : Bool) :
    ∀ statement ∈ task.statements ended,
      statement.reads ⊆ task.reads ∧ statement.writes ⊆ task.writes := by
  cases task <;> cases ended <;> decide

/-- Tasks that do not keep out of each other's way. -/
def Meet (task task' : RetentionTask) : Prop :=
  task = .expireAvailability ∧ task' = .eventLifecycle ∨
    task = .expireConversations ∧ task' = .purgeMessages

instance (task task' : RetentionTask) : Decidable (Meet task task') :=
  inferInstanceAs (Decidable (_ ∨ _))

theorem disjoint_or_meet {task task' : RetentionTask} (hne : task ≠ task') :
    (Disjoint task.writes (task'.reads ∪ task'.writes) ∧
      Disjoint task'.writes (task.reads ∪ task.writes)) ∨ Meet task task' ∨ Meet task' task := by
  revert hne
  cases task <;> cases task' <;> decide

end RetentionTask

namespace Db

variable {env env' : Env} {db s s' : Db}

def hasEnded (env : Env) (db : Db) : Bool :=
  ((db.lifecycleStatement env .activate).events.first fun _ event => event.isOver env.now).isSome

def retain (env : Env) (db : Db) (task : RetentionTask) : Db := (db.runRetentionTask env task).1

theorem retain_eq (env : Env) (db : Db) (task : RetentionTask) :
    db.retain env task = db.upkeepStatements env (task.statements (db.hasEnded env)) := by
  cases task with
  | eventLifecycle =>
      rw [retain, runRetentionTask, eventLifecycle, RetentionTask.statements, hasEnded]
      split_ifs <;> rfl
  | _ => rfl

theorem upkeepStatements_footprint (env : Env) {reads writes : Finset DbPart}
    {statements : List UpkeepStatement}
    (h : ∀ statement ∈ statements, statement.reads ⊆ reads ∧ statement.writes ⊆ writes) :
    Footprint DbPart.of reads writes fun db => db.upkeepStatements env statements := by
  induction statements with
  | nil => exact ⟨fun _ _ _ => rfl, fun _ _ hagree p hp => hagree p (Finset.mem_union_right _ hp)⟩
  | cons statement statements ih =>
      obtain ⟨hhead, htail⟩ := List.forall_mem_cons.1 h
      have hfirst := (upkeepStatement_footprint env statement).mono hhead.1 hhead.2
      have hboth := (ih htail).comp hfirst
      rwa [Finset.union_self, Finset.union_self] at hboth

theorem retain_footprint (env : Env) (task : RetentionTask) :
    Footprint DbPart.of task.reads task.writes fun db => db.retain env task where
  frame db p hp := by
    rw [retain_eq]
    exact (upkeepStatements_footprint env (task.statements_subset _)).frame db p hp
  depends s s' hagree p hp := by
    have hstatements : task.statements (s.hasEnded env) = task.statements (s'.hasEnded env) := by
      cases task with
      | eventLifecycle =>
          have hevents : s.events = s'.events := hagree .events (by decide)
          rw [hasEnded, hasEnded, lifecycleStatement, lifecycleStatement, hevents]
      | _ => rfl
    rw [retain_eq, retain_eq, hstatements]
    exact (upkeepStatements_footprint env (task.statements_subset _)).depends s s' hagree p hp

end Db
end Sahay
