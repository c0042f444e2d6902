import Sahay.Lib.Instant
import Sahay.Lib.Keyset
import Sahay.Lib.Like
import Sahay.Lib.Uuid
import Sahay.Server.Chat
import Sahay.Server.Figures
import Sahay.Server.System

/-!
# Listings in pages

`listMessages` of `modules/chat/service.ts`, `listNotifications` of `modules/users/service.ts`
and `searchEvents` of `modules/events/service.ts`, with `computePublicWants` of
`modules/events/wants.ts`.  A full page comes with a cursor: the time of its last row, `|` and
the id of that row.  `listUsers` of `modules/admin/service.ts` has one page only.

A `timestamptz` column keeps microseconds.  The tables of the model have what the driver
returns, milliseconds; `micros` gives the rest for each row.
-/

namespace Sahay

/-! ## Cursors -/

/-- What the listings take from outside the database besides `Env`. -/
structure ListingEnv extends Env where
  /-- The forms besides that of `toISOString` in which the engine reads a date. -/
  otherDates : String → Option Time
  /-- The forms besides the standard one in which PostgreSQL reads a `uuid`. -/
  otherUuids : String → Option ℕ
  /-- `lower` of the collation. -/
  lower : String → String

/-- `zPagination`. -/
structure Pagination where
  cursor : Option String := none
  limit : ℕ := 30

def Pagination.given (input : Pagination) : Option String := input.cursor.filter (· ≠ "")

structure Page (α : Type) where
  items : List α
  nextCursor : Option String

/-- `${createdAt.toISOString()}|${id}`. -/
def encodeCursor (createdAt : Time) (id : ℕ) : String :=
  Format.instant.text createdAt ++ "|" ++ Format.uuid.text id

/-- The text before the first `|`, and the text behind it. -/
def splitCursor (cursor : String) : Option (String × String) :=
  match cursor.toList.span (· ≠ '|') with
  | (before, _ :: after) => some (String.ofList before, String.ofList after)
  | (_, []) => none

/-- The instant of a `timestamptz` column, in microseconds. -/
def stored (micros : ℕ → Fin 1000) (id : ℕ) (t : Time) : ℤ := 1000 * t + (micros id).val

/-! ## Messages -/

/-- `Message` of `packages/shared`. -/
structure MessageView where
  id : MessageId
  conversationId : ConversationId
  senderAlias : String
  mine : Bool
  kind : MessageKind
  body : String
  createdAt : Time
  deliveredAt : Option Time
  readAt : Option Time
  deriving DecidableEq

def toMessage (id : MessageId) (row : Message) (m : Match) (viewerUserId : UserId) :
    MessageView :=
  { id := id
    conversationId := row.conversationId
    senderAlias := if row.senderId = m.requesterId then m.requesterAlias else m.helperAlias
    mine := row.senderId = viewerUserId
    kind := row.kind
    body := row.body
    createdAt := row.createdAt
    deliveredAt := row.deliveredAt
    readAt := row.readAt }

/-- `ORDER BY created_at, id`. -/
def messageKey (micros : MessageId → Fin 1000) (e : MessageId × Message) : ℤ ×ₗ ℕ :=
  toLex (stored micros e.1 e.2.createdAt, e.1)

namespace Chat

def decodeCursor (env : ListingEnv) (cursor : String) : Outcome (Time × String) := do
  let invalid := errors.validation { field := some "cursor" }
  -- `idx > 0`: something stands before the `|`.
  let (date, id) ← found ((splitCursor cursor).filter fun p => p.1 ≠ "") invalid
  let createdAt ← found (dateParse env.otherDates date) invalid
  ensure (id ≠ "") invalid
  return (createdAt, id)

/-- The cursor as the query compares with it. -/
def after (env : ListingEnv) (input : Pagination) : Outcome (Option (Time × MessageId)) :=
  match input.given with
  | none => return none
  | some cursor => do
      let (createdAt, id) ← decodeCursor env cursor
      let id ← found (uuidIn env.otherUuids id) .invalidText
      return some (createdAt, id)

end Chat

namespace Db

variable (db : Db)

def listMessages (env : ListingEnv) (micros : MessageId → Fin 1000)
    (conversationId : ConversationId) (viewerUserId : UserId) (input : Pagination) :
    Outcome (Page MessageView × Db) := do
  let (_, m) ← db.contextForViewer conversationId viewerUserId
  let decoded ← Chat.after env input
  let matching (id : MessageId) (msg : Message) : Bool :=
    msg.conversationId = conversationId && decoded.all fun c =>
      1000 * c.1 < stored micros id msg.createdAt ||
        (stored micros id msg.createdAt = 1000 * c.1 && c.2 < id)
  let rows := (orderBy (messageKey micros) (db.messages.select matching)).take input.limit
  -- Fetching counts as delivery for the peer's messages in this page.
  let undelivered (id : MessageId) (msg : Message) : Bool :=
    rows.any (fun e => e.1 = id) && msg.senderId ≠ viewerUserId && msg.deliveredAt.isNone
  let deliver (msg : Message) : Message := { msg with deliveredAt := some env.now }
  let items := rows.map fun e =>
    toMessage e.1 (if undelivered e.1 e.2 then deliver e.2 else e.2) m viewerUserId
  let nextCursor := nextCursor input.limit (fun e => encodeCursor e.2.createdAt e.1) rows
  return (⟨items, nextCursor⟩, { db with messages := db.messages.updateWhere undelivered deliver })

end Db

/-! ## Notifications -/

/-- `Notification` of `packages/shared`. -/
structure NotificationView where
  id : ℕ
  type : String
  titleKey : String
  bodyKey : String
  params : List (String × String)
  createdAt : Time
  readAt : Option Time
  deepLink : Option String
  deriving DecidableEq

/-- `ORDER BY created_at DESC, id DESC`. -/
def notificationKey (micros : ℕ → Fin 1000) (e : ℕ × Notification) : (ℤ ×ₗ ℕ)ᵒᵈ :=
  OrderDual.toDual (toLex (stored micros e.1 e.2.createdAt, e.1))

namespace Users

def decodeCursor (env : ListingEnv) (cursor : String) : Option (Time × String) := do
  let (date, id) ← splitCursor cursor
  let createdAt ← dateParse env.otherDates date
  guard (id ≠ "")
  return (createdAt, id)

/-- The cursor as the query compares with it. -/
def before (env : ListingEnv) (input : Pagination) : Outcome (Option (Time × ℕ)) :=
  match input.given with
  | none => return none
  | some cursor => do
      let (createdAt, id) ←
        found (decodeCursor env cursor) (errors.validation { field := some "cursor" })
      let id ← found (uuidIn env.otherUuids id) .invalidText
      return some (createdAt, id)

end Users

namespace Db

variable (db : Db)

def listNotifications (env : ListingEnv) (micros : ℕ → Fin 1000) (userId : UserId)
    (input : Pagination) : Outcome (Page NotificationView) := do
  let decoded ← Users.before env input
  let matching (id : ℕ) (n : Notification) : Bool :=
    n.userId = userId && decoded.all fun c =>
      stored micros id n.createdAt < 1000 * c.1 ||
        (stored micros id n.createdAt = 1000 * c.1 && id < c.2)
  let rows := (orderBy (notificationKey micros) (db.notifications.select matching)).take input.limit
  let items := rows.map fun e =>
    { id := e.1
      type := e.2.type
      titleKey := e.2.titleKey
      bodyKey := e.2.bodyKey
      params := e.2.params
      createdAt := e.2.createdAt
      readAt := e.2.readAt
      deepLink := e.2.deepLink : NotificationView }
  return ⟨items, nextCursor input.limit (fun e => encodeCursor e.2.createdAt e.1) rows⟩

end Db

/-! ## Wants -/

inductive WantSource
  | admin | user
  deriving DecidableEq

structure PublicWant where
  categorySlug : String
  source : WantSource
  requestedQty : Option Qty
  requesterCount : Option ℕ
  deriving DecidableEq

namespace Db

variable (db : Db)

/-- What the organiser wants, in the order of the catalogue, then what is requested, the largest
quantity first. -/
def computePublicWants (eventId : EventId) : List PublicWant :=
  let adminRows := ((db.eventAdminWants.select fun k _ => k.1 = eventId).filterMap fun e =>
    (db.categories.lookup e.1.2).map fun c => (c, e.2.qty)).insertionSort
      fun a b => a.1.sortOrder ≤ b.1.sortOrder
  let wanted (_ : RequestId) (r : Request) : Bool :=
    r.eventId = eventId && (r.status = .searching || r.status = .offering)
  let slugOf (r : Request) : Option String := (db.categories.lookup r.categoryId).map Category.slug
  let slugs := ((db.requests.select wanted).filterMap fun e => slugOf e.2).dedup
  let demandRows := (slugs.map fun slug =>
    (slug, Agg.of db.requests (fun rid r => wanted rid r && slugOf r = some slug)
      (fun r => r.qty - r.qtyFulfilled) Request.requesterId)).insertionSort
        fun a b => b.2.qty ≤ a.2.qty
  let admin := adminRows.map fun e =>
    { categorySlug := e.1.slug
      source := .admin
      requestedQty := e.2.map fun n => (n : Qty)
      requesterCount := none : PublicWant }
  let user := (demandRows.filter fun e => e.1 ∉ adminRows.map fun a => a.1.slug).map fun e =>
    { categorySlug := e.1
      source := .user
      requestedQty := some e.2.qty
      requesterCount := some e.2.users : PublicWant }
  admin ++ user

end Db

/-! ## Event search -/

/-- `zEventSearch`. -/
structure EventSearchInput extends Pagination where
  q : Option String := none
  near : Option Coords := none
  type : Option EventType := none

structure EventSummary where
  id : EventId
  code : String
  title : String
  type : EventType
  status : EventStatus
  visibility : EventVisibility
  areaLabel : String
  startsAt : Time
  endsAt : Time
  timezone : String
  wants : List PublicWant
  joined : Option Bool
  deriving DecidableEq

def toSummary (id : EventId) (event : Event) (wants : List PublicWant) (joined : Option Bool) :
    EventSummary :=
  { id := id
    code := event.code
    title := event.title
    type := event.type
    status := event.status
    visibility := event.visibility
    areaLabel := event.areaLabel
    startsAt := event.startsAt
    endsAt := event.endsAt
    timezone := event.timezone
    wants := wants
    joined := joined }

/-- `%${q.replaceAll('%', '\\%').replaceAll('_', '\\_')}%`. -/
def likePattern (q : String) : String :=
  let escape (c : Char) : List Char := if c = '%' ∨ c = '_' then ['\\', c] else [c]
  String.ofList ('%' :: q.toList.flatMap escape ++ ['%'])

/-- `text ILIKE pattern`. -/
def ListingEnv.ilike (env : ListingEnv) (text pattern : String) : Bool :=
  like (env.lower pattern).toList (env.lower text).toList

/-- The cursor as the query compares with it. -/
def eventsAfter (env : ListingEnv) (input : EventSearchInput) :
    Outcome (Option (Time × EventId)) :=
  match input.near, input.given with
  | none, some cursor => do
      let invalid := errors.validation { field := some "cursor" }
      let (date, id) ← found ((splitCursor cursor).filter fun p => p.1 ≠ "") invalid
      let ts ← found (dateParse env.otherDates date) invalid
      ensure (uuidRe id) invalid
      let id ← found (uuidIn env.otherUuids id) .invalidText
      return some (ts, id)
  | _, _ => return none

/-- The conditions of a search besides its cursor. -/
def eventMatches (env : ListingEnv) (input : EventSearchInput) (near : Option Coords)
    (event : Event) : Bool :=
  (event.status = .scheduled || event.status = .active) && event.visibility = .public &&
    event.publicApproved &&
    (input.q.filter (· ≠ "")).all (fun q =>
      env.ilike event.title (likePattern q) || env.ilike event.areaLabel (likePattern q)) &&
    input.type.all (fun type => event.type = type) &&
    near.all fun near => env.platform.stDistance event.center near ≤ 50000

/-- `ORDER BY starts_at, id`. -/
def eventKey (e : EventId × Event) : ℤ ×ₗ ℕ := toLex (e.2.startsAt, e.1)

def Db.searchEvents (db : Db) (env : ListingEnv) (input : EventSearchInput)
    (userId : Option UserId) : Outcome (Page EventSummary) := do
  let near := input.near.map coarsen
  let decoded ← eventsAfter env input
  let matching (id : EventId) (event : Event) : Bool :=
    eventMatches env input near event && decoded.all fun c =>
      c.1 < event.startsAt || (event.startsAt = c.1 && c.2 < id)
  let selected := db.events.select matching
  let rows := match near with
    | some near =>
        (orderBy (fun e => env.platform.stDistance e.2.center near) selected).take input.limit
    | none => (orderBy eventKey selected).take input.limit
  let items := rows.map fun e =>
    toSummary e.1 e.2 ((db.computePublicWants e.1).take 3)
      (userId.map fun userId => (db.getMembership e.1 userId).isSome)
  let nextCursor := match near with
    | some _ => none
    | none => nextCursor input.limit (fun e => encodeCursor e.2.startsAt e.1) rows
  return ⟨items, nextCursor⟩

/-! ## User search -/

structure AdminUserView where
  id : UserId
  pseudonym : String
  role : UserRole
  status : UserStatus
  createdAt : Time
  emailVerified : Bool
  reportCount : ℕ
  riskFlags : List String
  deriving DecidableEq

/-- `ORDER BY created_at DESC`. -/
def userKey (micros : UserId → Fin 1000) (e : UserId × User) : ℤᵒᵈ :=
  OrderDual.toDual (stored micros e.1 e.2.createdAt)

def Db.listUsers (db : Db) (env : ListingEnv) (micros : UserId → Fin 1000) (q : Option String) :
    List AdminUserView :=
  let matching (_ : UserId) (user : User) : Bool :=
    (q.filter (· ≠ "")).all fun q => env.ilike user.pseudonym (likePattern q)
  let rows := (orderBy (userKey micros) (db.users.select matching)).take 100
  rows.map fun e =>
    { id := e.1
      pseudonym := e.2.pseudonym
      role := e.2.role
      status := e.2.status
      createdAt := e.2.createdAt
      emailVerified := e.2.emailVerifiedAt.isSome
      reportCount := db.reports.count fun _ report => report.subjectUserId = some e.1
      riskFlags := e.2.riskFlags }

namespace SmallEvent

/-- The clock at `now`, and no forms of dates and ids besides the standard ones. -/
def listing (now : Time) : ListingEnv :=
  { toEnv := clock now, otherDates := fun _ => none, otherUuids := fun _ => none, lower := id }

def quickReply (body key : String) : SendMessageInput :=
  { quick := true, body := body, clientMsgId := key }

/-- Both sides write in the millisecond 5. -/
def twoMessages : List (Env × Op) :=
  oneMatch ++
    [(clock 5 50, .sendMessage (token 1) 40 (quickReply "where_meet" "a")),
     (clock 5 51, .sendMessage (token 2) 40 (quickReply "arrived" "b"))]

def twoNotifications : Db :=
  let n : Notification := { userId := 1, type := "event_notice" }
  { Db.empty with notifications := ((∅ : Table ℕ Notification).put 1 n).put 2 n }

def notificationsApart : Db :=
  let n : Notification := { userId := 1, type := "event_notice" }
  { Db.empty with
    notifications := ((∅ : Table ℕ Notification).put 1 n).put 2 { n with createdAt := 5 } }

/-- Two public events, numbered 1 and 2, with the same start. -/
def twoEvents : Db :=
  let event : Event :=
    { status := .active, visibility := .public, publicApproved := true, startsAt := 5, endsAt := 9 }
  { Db.empty with events := ((∅ : Table EventId Event).put 1 event).put 2 event }

end SmallEvent
end Sahay
