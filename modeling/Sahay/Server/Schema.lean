import Mathlib.Data.Rat.Floor
import Sahay.Lib.Guard
import Sahay.Lib.Table

/-!
# Schema of the server's database

The vocabulary of `packages/shared/src/constants.ts`, the rows of
`server/src/db/schema.ts` and the constraints of `server/migrations`.  A table
maps its primary key to a row, so a row does not repeat its key.  Numeric
columns are exact rationals, timestamps are milliseconds, uuids are naturals.

The tables fall into three groups.  The `Exchange` holds what the matching of
requests to stock reads and writes; the `Directory` holds people, events and
the conditions under which they may take part; the `Journal` holds what is only
ever appended to, read back or swept.
-/

namespace Sahay

/-! ## Vocabulary -/

abbrev Time := Int
abbrev Qty := ℚ
abbrev UserId := ℕ
abbrev SessionId := ℕ
abbrev EventId := ℕ
abbrev CategoryId := ℕ
abbrev ItemId := ℕ
abbrev RequestId := ℕ
abbrev OfferId := ℕ
abbrev MatchId := ℕ
abbrev ConversationId := ℕ
abbrev MessageId := ℕ
abbrev ReportId := ℕ
abbrev ActionId := ℕ

inductive EventStatus
  | draft | scheduled | active | paused | completed | archived | disabled
  deriving DecidableEq

/-- `EVENT_TYPES`. -/
inductive EventType
  | communityEvent | reliefOperation | campusEvent | communityKitchen
  | neighborhoodAid | publicGathering | festival | other
  deriving DecidableEq

inductive EventVisibility
  | «public» | unlisted | inviteOnly
  deriving DecidableEq

inductive RequestStatus
  | searching | offering | matched | fulfilled | partiallyFulfilled
  | cancelled | expired | noMatch | disputed | moderated
  deriving DecidableEq

inductive RequestUrgency
  | standard | soon | urgent
  deriving DecidableEq

inductive OfferStatus
  | offered | accepted | declined | expired | superseded
  deriving DecidableEq

inductive MatchStatus
  | active | completed | partiallyCompleted | cancelledByRequester
  | cancelledByHelper | cancelledUnsafe | cancelledModeration | disputed
  deriving DecidableEq

inductive MeetingState
  | deciding | onMyWay | arrived | cannotFind | exchanging | done
  deriving DecidableEq

inductive ConversationStatus
  | «open» | readonly | expired
  deriving DecidableEq

inductive MessageKind
  | text | quick | system
  deriving DecidableEq

inductive ProximityBucket
  | veryNearby | nearby | shortWalk | farther | unknown
  deriving DecidableEq

inductive ReliabilityLabel
  | newHelper | activeHelper | reliableHelper | highlyReliableHelper
  deriving DecidableEq

inductive UserRole
  | user | moderator | admin
  deriving DecidableEq

inductive UserStatus
  | active | restricted | suspended | deleted
  deriving DecidableEq

inductive ReportStatus
  | «open» | reviewing | resolved | dismissed
  deriving DecidableEq

inductive ModerationActionKind
  | warn | restrictRequests | restrictHelping | suspend | unsuspend
  | eventPause | eventUnpause | eventDisable | eventApprovePublic | eventRejectPublic
  | matchCancel | reportResolve | reportDismiss
  deriving DecidableEq

/-- `UNITS`. -/
inductive Units
  | item | piece | bottle | litre | packet | box | meal
  | blanket | pair | roll | kit | battery | hour
  deriving DecidableEq

/-- `SHORTAGE_LEVELS`, the most severe first. -/
inductive ShortageLevel
  | criticalShortage | highNeed | moderateNeed | adequate | possibleSurplus | unknown
  deriving DecidableEq

/-- Who caused a request transition. -/
inductive TransitionActor
  | system | requester | helper | moderator
  deriving DecidableEq

/-! `LIMITS`. -/

namespace Limits

def maxActiveRequestsPerUser : ℕ := 3
def maxActiveMatchesPerHelper : ℕ := 2
def maxInventoryItemsPerEvent : ℕ := 30
def conversationGraceMinutes : ℕ := 60
def locationPrecisionDecimals : ℕ := 3
def initialSearchRadiusM : ℕ := 400
def radiusExpansionFactor : ℕ := 2
def kAnonymityThreshold : ℕ := 3

end Limits

/-- A point, in degrees. -/
structure Coords where
  lat : ℚ
  lng : ℚ
  deriving DecidableEq

/-! ## Rows of the directory -/

structure User where
  pseudonym : String := ""
  avatarSeed : String := ""
  locale : String := "en"
  role : UserRole := .user
  status : UserStatus := .active
  phoneEnc : Option String := none
  phoneHmac : Option String := none
  phoneVerifiedAt : Option Time := none
  emailEnc : Option String := none
  emailHmac : Option String := none
  emailVerifiedAt : Option Time := none
  username : Option String := none
  passwordHash : Option String := none
  passwordSetAt : Option Time := none
  mustChangePassword : Bool := false
  canRequest : Bool := true
  canHelp : Bool := true
  suspendedUntil : Option Time := none
  riskFlags : List String := []
  createdAt : Time := 0
  deletedAt : Option Time := none

structure Session where
  userId : UserId
  tokenHash : String
  platform : String := ""
  deviceName : Option String := none
  createdAt : Time := 0
  lastSeenAt : Time := 0
  expiresAt : Time
  revokedAt : Option Time := none

structure Event where
  code : String := ""
  title : String := ""
  type : EventType := .other
  areaLabel : String := ""
  center : Coords := ⟨0, 0⟩
  timezone : String := "Asia/Kolkata"
  status : EventStatus := .scheduled
  visibility : EventVisibility := .unlisted
  publicApproved : Bool := false
  matchingPaused : Bool := false
  maxMatchRadiusM : ℕ := 5000
  offerResponseSeconds : ℕ := 45
  startsAt : Time
  endsAt : Time
  retentionDays : ℕ := 7
  createdBy : Option UserId := none

structure Category where
  slug : String := ""
  unit : Units
  altUnits : List Units := []
  fractional : Bool := false
  maxRequestQty : Qty := 10
  maxOfferQty : Qty := 100
  sortOrder : ℕ := 0
  active : Bool := true

structure EventCategory where
  enabled : Bool := true
  maxRequestQty : Option Qty := none
  maxOfferQty : Option Qty := none

/-- What the organiser of an event asks for; without a quantity, any amount. -/
structure AdminWant where
  qty : Option ℕ := none

structure Membership where
  role : String := "member"
  banned : Bool := false
  joinedAt : Time := 0
  leftAt : Option Time := none

structure Availability where
  isOn : Bool := false
  «until» : Option Time := none
  updatedAt : Time := 0

structure MemberLocation where
  geog : Coords
  updatedAt : Time := 0
  expiresAt : Time

structure Block where
  createdAt : Time := 0

/-! ## Rows of the exchange -/

structure InventoryItem where
  userId : UserId
  eventId : EventId
  categoryId : CategoryId
  qtyOnHand : Qty
  qtyReserved : Qty := 0
  unit : Units
  details : String := ""
  active : Bool := true
  createdAt : Time := 0
  updatedAt : Time := 0
  expiresAt : Option Time := none
  idempotencyKey : Option String := none

/-- The CHECKs of `inventory_items`. -/
def InventoryItem.check (item : InventoryItem) : Prop :=
  0 ≤ item.qtyOnHand ∧ 0 ≤ item.qtyReserved ∧ item.qtyReserved ≤ item.qtyOnHand

instance (item : InventoryItem) : Decidable item.check :=
  inferInstanceAs (Decidable (_ ∧ _ ∧ _))

structure Request where
  eventId : EventId
  requesterId : UserId
  categoryId : CategoryId
  qty : Qty
  qtyFulfilled : Qty := 0
  unit : Units
  urgency : RequestUrgency := .standard
  note : Option String := none
  areaHint : Option String := none
  status : RequestStatus := .searching
  currentRadiusM : ℕ := Limits.initialSearchRadiusM
  attemptCount : ℕ := 0
  expiresAt : Time
  createdAt : Time := 0
  closedAt : Option Time := none
  idempotencyKey : String

/-- The CHECKs of `requests`. -/
def Request.check (request : Request) : Prop :=
  0 < request.qty ∧ 0 ≤ request.qtyFulfilled ∧ request.qtyFulfilled ≤ request.qty

instance (request : Request) : Decidable request.check :=
  inferInstanceAs (Decidable (_ ∧ _ ∧ _))

/-- A row of `request_transitions`; `none` is the status before creation. -/
structure RequestTransition where
  requestId : RequestId
  fromStatus : Option RequestStatus
  toStatus : RequestStatus
  actor : TransitionActor
  reason : Option String
  createdAt : Time

structure MatchOffer where
  requestId : RequestId
  helperId : UserId
  inventoryItemId : ItemId
  qty : Qty
  proximity : ProximityBucket := .unknown
  status : OfferStatus := .offered
  offeredAt : Time := 0
  respondBy : Time
  respondedAt : Option Time := none

structure Match where
  requestId : RequestId
  offerId : OfferId
  eventId : EventId
  requesterId : UserId
  helperId : UserId
  inventoryItemId : ItemId
  qtyReserved : Qty
  proximity : ProximityBucket := .unknown
  status : MatchStatus := .active
  requesterAlias : String
  helperAlias : String
  requesterMeetingState : MeetingState := .deciding
  helperMeetingState : MeetingState := .deciding
  requesterConfirmedQty : Option Qty := none
  helperConfirmedQty : Option Qty := none
  inventoryApplied : Bool := false
  reliabilityApplied : Bool := false
  createdAt : Time := 0
  closedAt : Option Time := none
  closeReason : Option String := none

structure Conversation where
  matchId : MatchId
  status : ConversationStatus := .open
  expiresAt : Option Time := none
  createdAt : Time := 0

/-- `ReliabilityCounters` of `packages/shared/src/reliability.ts`. -/
structure ReliabilityCounters where
  accepted : ℕ := 0
  completed : ℕ := 0
  requesterConfirmed : ℕ := 0
  cancelledPreMeeting : ℕ := 0
  cancelledPostMeeting : ℕ := 0
  timeouts : ℕ := 0
  noShows : ℕ := 0
  disputes : ℕ := 0
  offersReceived30d : ℕ := 0
  offersResponded30d : ℕ := 0
  deriving DecidableEq

structure ReliabilityStats extends ReliabilityCounters where
  label : ReliabilityLabel := .newHelper
  updatedAt : Time := 0

/-! ## Rows of the journal -/

structure Message where
  conversationId : ConversationId
  senderId : UserId
  kind : MessageKind := .text
  body : String
  clientMsgId : Option String := none
  createdAt : Time := 0
  deliveredAt : Option Time := none
  readAt : Option Time := none

structure ModerationAction where
  actorId : Option UserId
  action : ModerationActionKind
  targetUserId : Option UserId := none
  targetEventId : Option EventId := none
  targetMatchId : Option MatchId := none
  reportId : Option ReportId := none
  reason : String
  expiresAt : Option Time := none
  createdAt : Time := 0

structure Report where
  reporterId : Option UserId := none
  subjectUserId : Option UserId := none
  subjectEventId : Option EventId := none
  category : String := ""
  status : ReportStatus := .open
  resolution : Option String := none
  resolvedBy : Option UserId := none
  createdAt : Time := 0
  resolvedAt : Option Time := none

structure AuditEntry where
  actorId : Option UserId
  action : String
  target : Option String
  reason : Option String
  createdAt : Time

structure PushToken where
  userId : UserId
  token : String

structure Notification where
  userId : UserId
  type : String
  titleKey : String := ""
  bodyKey : String := ""
  params : List (String × String) := []
  deepLink : Option String := none
  dedupeKey : Option String := none
  createdAt : Time := 0
  readAt : Option Time := none

structure NotificationPrefs where
  detailedPreviews : Bool := false

/-- A one-time code, kept as a hash under the blind index of its address. -/
structure OtpCode where
  emailHmac : Option String
  codeHash : String
  attempts : ℕ := 0
  expiresAt : Time
  consumedAt : Option Time := none
  createdAt : Time := 0

structure ConsentRecord where
  userId : UserId
  kind : String
  granted : Bool
  createdAt : Time := 0

/-! ## The database -/

/-- People, events and what decides who may take part. -/
structure Directory where
  users : Table UserId User := ∅
  sessions : Table SessionId Session := ∅
  events : Table EventId Event := ∅
  categories : Table CategoryId Category := ∅
  eventCategories : Table (EventId × CategoryId) EventCategory := ∅
  eventAdminWants : Table (EventId × CategoryId) AdminWant := ∅
  memberships : Table (UserId × EventId) Membership := ∅
  availability : Table (UserId × EventId) Availability := ∅
  memberLocations : Table (UserId × EventId) MemberLocation := ∅
  /-- Keyed by blocker and blocked. -/
  blocks : Table (UserId × UserId) Block := ∅

/-- Stock, requests, offers, matches and what is settled with them. -/
structure Exchange where
  inventoryItems : Table ItemId InventoryItem := ∅
  requests : Table RequestId Request := ∅
  /-- In insertion order. -/
  requestTransitions : List RequestTransition := []
  matchOffers : Table OfferId MatchOffer := ∅
  /-- The table `matches`, whose name is a keyword here. -/
  matchRows : Table MatchId Match := ∅
  conversations : Table ConversationId Conversation := ∅

/-- Reliability counters, messages, moderation history, notifications and one-time codes. -/
structure Journal where
  reliabilityStats : Table UserId ReliabilityStats := ∅
  messages : Table MessageId Message := ∅
  moderationActions : Table ActionId ModerationAction := ∅
  reports : Table ReportId Report := ∅
  auditLog : List AuditEntry := []
  pushTokens : Table ℕ PushToken := ∅
  notifications : Table ℕ Notification := ∅
  notificationPrefs : Table UserId NotificationPrefs := ∅
  consentRecords : Table ℕ ConsentRecord := ∅
  otpCodes : Table ℕ OtpCode := ∅

structure Db extends Exchange, Directory, Journal

def Db.empty : Db := {}

/-! ## Errors -/

/-- `ErrorCode` of `lib/errors.ts`. -/
inductive ErrorCode
  | validation | unauthorized | forbidden | notFound | rateLimited
  | insufficientInventory | requestConflict | eventPaused | eventNotActive
  | offerExpired | prohibitedCategory | accountRestricted | passwordChangeRequired
  | idempotencyReplay
  deriving DecidableEq

/-- The details an `AppError` carries. -/
structure ErrorDetails where
  field : Option String := none
  max : Option ℚ := none
  allowed : Option (List Units) := none
  duplicateEventCode : Option String := none
  deriving DecidableEq

structure AppError where
  code : ErrorCode
  details : ErrorDetails := {}
  deriving DecidableEq

/-- The HTTP status of an error, `STATUS`. -/
def AppError.status (e : AppError) : ℕ :=
  match e.code with
  | .validation => 400
  | .unauthorized => 401
  | .forbidden => 403
  | .notFound => 404
  | .rateLimited => 429
  | .insufficientInventory => 409
  | .requestConflict => 409
  | .eventPaused => 409
  | .eventNotActive => 409
  | .offerExpired => 410
  | .prohibitedCategory => 422
  | .accountRestricted => 403
  | .passwordChangeRequired => 403
  | .idempotencyReplay => 409

/-- The tables with CHECK constraints. -/
inductive CheckedTable
  | inventoryItems | requests | events | eventAdminWants
  deriving DecidableEq

/-- Why a transaction rolled back: an application error, or the database. -/
inductive TxError
  | app (e : AppError)
  /-- SQLSTATE 23514. -/
  | checkViolation (table : CheckedTable)
  /-- SQLSTATE 23505. -/
  | uniqueViolation
  /-- SQLSTATE 22P02: a parameter is no text of a `uuid`. -/
  | invalidText
  /-- SQLSTATE 25P02: a statement after a failed one of the same transaction. -/
  | transactionAborted
  /-- The alias loop has not found a pseudonym among the draws it was given. -/
  | undrawn
  /-- `scryptSync` throws: the cost does not fit into the memory that it is given. -/
  | scryptMemory
  deriving DecidableEq

abbrev Outcome (α : Type) := Except TxError α

namespace errors

def validation (details : ErrorDetails) : TxError := .app ⟨.validation, details⟩
def unauthorized : TxError := .app ⟨.unauthorized, {}⟩
def forbidden : TxError := .app ⟨.forbidden, {}⟩
def notFound : TxError := .app ⟨.notFound, {}⟩
def rateLimited : TxError := .app ⟨.rateLimited, {}⟩
def insufficientInventory : TxError := .app ⟨.insufficientInventory, {}⟩
def conflict : TxError := .app ⟨.requestConflict, {}⟩
def eventPaused : TxError := .app ⟨.eventPaused, {}⟩
def eventNotActive : TxError := .app ⟨.eventNotActive, {}⟩
def offerExpired : TxError := .app ⟨.offerExpired, {}⟩
def prohibitedCategory : TxError := .app ⟨.prohibitedCategory, {}⟩
def accountRestricted : TxError := .app ⟨.accountRestricted, {}⟩
def passwordChangeRequired : TxError := .app ⟨.passwordChangeRequired, {}⟩

end errors

/-! ## What a transaction takes from outside the database -/

/-- The platform under the server: PostGIS distances in meters, and the
configured lifetime of a location. -/
structure Platform where
  stDistance : Coords → Coords → ℚ
  locationTtlMinutes : ℕ

/-- What `gen_random_uuid` proposes for the rows that a transaction inserts. -/
structure Uuids where
  inventoryItem : ItemId := 0
  request : RequestId := 0
  matchOffer : OfferId := 0
  matchRow : MatchId := 0
  conversation : ConversationId := 0
  message : MessageId := 0
  moderationAction : ActionId := 0

/-- The order in which a query returns rows it does not sort: any permutation. -/
structure ScanOrder (α : Type) where
  order : List α → List α
  perm : ∀ l, (order l).Perm l

def ScanOrder.natural (α : Type) : ScanOrder α := ⟨fun l => l, fun l => List.Perm.refl l⟩

/-- Clock, platform, fresh identifiers and the order of unsorted result sets. -/
structure Env where
  now : Time
  platform : Platform
  uuid : Uuids := {}
  scan : ScanOrder ℕ := .natural ℕ

/-- The keys of the rows that satisfy `p`, as a query returns them. -/
def Env.selectIds {ρ : Type} (env : Env) (t : Table ℕ ρ) (p : ℕ → ρ → Bool) : List ℕ :=
  env.scan.order ((t.select p).map Prod.fst)

theorem Env.mem_selectIds {ρ : Type} {env : Env} {t : Table ℕ ρ} {p : ℕ → ρ → Bool} {k : ℕ} :
    k ∈ env.selectIds t p ↔ ∃ r, t.lookup k = some r ∧ p k r = true := by
  simp only [selectIds, (env.scan.perm _).mem_iff, List.mem_map, Table.mem_select, Prod.exists]
  constructor
  · rintro ⟨k, r, h, rfl⟩
    exact ⟨r, h⟩
  · rintro ⟨r, h⟩
    exact ⟨k, r, h, rfl⟩

/-- What is queued, or run next, once a transaction has committed. -/
inductive Effect
  | matchJob (requestId : RequestId) (delay : ℕ)
  | finalizeJob (matchId : MatchId) (delay : ℕ)
  | offerTimeoutJob (offerId : OfferId) (delay : ℕ)
  | notify (userId : UserId) (type titleKey bodyKey : String) (dedupeKey : Option String)
  | cancelMatchForModeration (matchId : MatchId) (reason : String)
  deriving DecidableEq

/-! ## Statements that a constraint can refuse -/

namespace Db

/-- `UPDATE requests SET … WHERE id = …`, under the table's CHECKs. -/
def updateRequest (db : Db) (id : RequestId) (set : Request → Request) : Outcome Db := do
  let row ← found (db.requests.lookup id) errors.notFound
  ensure (set row).check (.checkViolation .requests)
  return { db with requests := db.requests.modify id set }

/-- `UPDATE inventory_items SET … WHERE id = …`, under the table's CHECKs. -/
def updateInventoryItem (db : Db) (id : ItemId) (set : InventoryItem → InventoryItem) :
    Outcome Db := do
  let row ← found (db.inventoryItems.lookup id) errors.notFound
  ensure (set row).check (.checkViolation .inventoryItems)
  return { db with inventoryItems := db.inventoryItems.modify id set }

end Db
end Sahay
