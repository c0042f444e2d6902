import Mathlib.Data.List.Sort
import Sahay.Server.Schema

/-!
# Data export

`buildExportBundle` of `workers/data-request.ts`: what a user can download.  Every section
is one query over the user's own rows, or over the matches they are party to.
-/

namespace Sahay

/-! ## The bundle -/

structure ExportedProfile where
  pseudonym : String
  locale : String
  createdAt : Time
  emailVerified : Bool

structure ExportedSession where
  platform : String
  deviceName : Option String
  createdAt : Time
  lastSeenAt : Time
  revoked : Bool

structure ExportedEvent where
  title : String
  code : String
  joinedAt : Time
  leftAt : Option Time
  role : String

structure ExportedItem where
  eventTitle : String
  categorySlug : String
  qtyOnHand : Qty
  qtyReserved : Qty
  unit : Units
  details : String
  active : Bool
  createdAt : Time

structure ExportedRequest where
  eventTitle : String
  categorySlug : String
  qty : Qty
  qtyFulfilled : Qty
  unit : Units
  urgency : RequestUrgency
  note : Option String
  status : RequestStatus
  createdAt : Time

inductive MatchRole
  | requester | helper
  deriving DecidableEq

structure ExportedMatch where
  role : MatchRole
  categorySlug : String
  myAlias : String
  peerAlias : String
  qtyReserved : Qty
  myConfirmedQty : Option Qty
  status : MatchStatus
  createdAt : Time
  closedAt : Option Time

structure ExportedMessage where
  conversationId : ConversationId
  kind : MessageKind
  body : String
  createdAt : Time

structure ExportedReport where
  category : String
  status : ReportStatus
  createdAt : Time

structure ExportedBlock where
  createdAt : Time

structure ExportedConsent where
  kind : String
  granted : Bool
  createdAt : Time

structure ExportedNotification where
  type : String
  titleKey : String
  bodyKey : String
  params : List (String × String)
  createdAt : Time
  readAt : Option Time

structure ExportBundle where
  generatedAt : Time
  profile : ExportedProfile
  sessions : List ExportedSession
  events : List ExportedEvent
  inventory : List ExportedItem
  requests : List ExportedRequest
  matchRows : List ExportedMatch
  messages : List ExportedMessage
  reports : List ExportedReport
  blocks : List ExportedBlock
  consents : List ExportedConsent
  notifications : List ExportedNotification

/-! ## Queries -/

/-- The results of a query in the order in which it meets them: of the candidate keys, those
that `view` makes a result of, arranged by the scan. -/
def Env.collect {γ : Type} (env : Env) (keys : List ℕ) (view : ℕ → Option γ) : List γ :=
  let found := (keys.filter fun k => (view k).isSome).insertionSort (· ≤ ·)
  (env.scan.order found).filterMap view

def Env.rows {ρ γ : Type} (env : Env) (t : Table ℕ ρ) (view : ρ → Option γ) : List γ :=
  env.collect t.keys fun k => (t.lookup k).bind view

/-- `ORDER BY … DESC`. -/
def newestFirst {γ : Type} («at» : γ → Time) (rows : List γ) : List γ :=
  rows.insertionSort fun a b => «at» b ≤ «at» a

/-- `ORDER BY … ASC`. -/
def oldestFirst {γ : Type} («at» : γ → Time) (rows : List γ) : List γ :=
  rows.insertionSort fun a b => «at» a ≤ «at» b

namespace Db

variable (db : Db) (userId : UserId)

def exportSession (s : Session) : Option ExportedSession := do
  guard (s.userId = userId)
  return {
    platform := s.platform
    deviceName := s.deviceName
    createdAt := s.createdAt
    lastSeenAt := s.lastSeenAt
    revoked := s.revokedAt.isSome }

def exportMembership (eventId : EventId) : Option ExportedEvent := do
  let m ← db.memberships.lookup (userId, eventId)
  let event ← db.events.lookup eventId
  return {
    title := event.title
    code := event.code
    joinedAt := m.joinedAt
    leftAt := m.leftAt
    role := m.role }

def exportItem (item : InventoryItem) : Option ExportedItem := do
  guard (item.userId = userId)
  let category ← db.categories.lookup item.categoryId
  let event ← db.events.lookup item.eventId
  return {
    eventTitle := event.title
    categorySlug := category.slug
    qtyOnHand := item.qtyOnHand
    qtyReserved := item.qtyReserved
    unit := item.unit
    details := item.details
    active := item.active
    createdAt := item.createdAt }

def exportRequest (r : Request) : Option ExportedRequest := do
  guard (r.requesterId = userId)
  let category ← db.categories.lookup r.categoryId
  let event ← db.events.lookup r.eventId
  return {
    eventTitle := event.title
    categorySlug := category.slug
    qty := r.qty
    qtyFulfilled := r.qtyFulfilled
    unit := r.unit
    urgency := r.urgency
    note := r.note
    status := r.status
    createdAt := r.createdAt }

/-- The peer appears by alias only. -/
def exportMatch (m : Match) : Option ExportedMatch := do
  guard (m.requesterId = userId ∨ m.helperId = userId)
  let request ← db.requests.lookup m.requestId
  let category ← db.categories.lookup request.categoryId
  let isRequester := m.requesterId = userId
  return {
    role := if isRequester then .requester else .helper
    categorySlug := category.slug
    myAlias := if isRequester then m.requesterAlias else m.helperAlias
    peerAlias := if isRequester then m.helperAlias else m.requesterAlias
    qtyReserved := m.qtyReserved
    myConfirmedQty := if isRequester then m.requesterConfirmedQty else m.helperConfirmedQty
    status := m.status
    createdAt := m.createdAt
    closedAt := m.closedAt }

def exportMessage (m : Message) : Option ExportedMessage := do
  guard (m.senderId = userId)
  return {
    conversationId := m.conversationId
    kind := m.kind
    body := m.body
    createdAt := m.createdAt }

def exportReport (r : Report) : Option ExportedReport := do
  guard (r.reporterId = some userId)
  return { category := r.category, status := r.status, createdAt := r.createdAt }

def exportBlock (blockedId : UserId) : Option ExportedBlock := do
  let b ← db.blocks.lookup (userId, blockedId)
  return { createdAt := b.createdAt }

def exportConsent (c : ConsentRecord) : Option ExportedConsent := do
  guard (c.userId = userId)
  return { kind := c.kind, granted := c.granted, createdAt := c.createdAt }

def exportNotification (n : Notification) : Option ExportedNotification := do
  guard (n.userId = userId)
  return {
    type := n.type
    titleKey := n.titleKey
    bodyKey := n.bodyKey
    params := n.params
    createdAt := n.createdAt
    readAt := n.readAt }

def keysOf {ρ : Type} (t : Table (UserId × ℕ) ρ) : List ℕ :=
  (t.keys.filter fun k => k.1 = userId).map Prod.snd

/-- `buildExportBundle`; it throws when there is no such user. -/
def buildExportBundle (env : Env) : Option ExportBundle := do
  let user ← db.users.lookup userId
  return {
    generatedAt := env.now
    profile :=
      { pseudonym := user.pseudonym
        locale := user.locale
        createdAt := user.createdAt
        emailVerified := user.emailVerifiedAt.isSome }
    sessions := newestFirst ExportedSession.createdAt
      (env.rows db.sessions (exportSession userId))
    events := newestFirst ExportedEvent.joinedAt
      (env.collect (keysOf userId db.memberships) (db.exportMembership userId))
    inventory := newestFirst ExportedItem.createdAt
      (env.rows db.inventoryItems (db.exportItem userId))
    requests := newestFirst ExportedRequest.createdAt
      (env.rows db.requests (db.exportRequest userId))
    matchRows := newestFirst ExportedMatch.createdAt
      (env.rows db.matchRows (db.exportMatch userId))
    messages := oldestFirst ExportedMessage.createdAt
      (env.rows db.messages (exportMessage userId))
    reports := newestFirst ExportedReport.createdAt
      (env.rows db.reports (exportReport userId))
    blocks := newestFirst ExportedBlock.createdAt
      (env.collect (keysOf userId db.blocks) (db.exportBlock userId))
    consents := newestFirst ExportedConsent.createdAt
      (env.rows db.consentRecords (exportConsent userId))
    notifications := newestFirst ExportedNotification.createdAt
      (env.rows db.notifications (exportNotification userId)) }

end Db
end Sahay
