import Sahay.Server.Inventory
import Sahay.Server.Matches

/-!
# Request lifecycle

`modules/requests/service.ts`, the requester's side.  `createRequest` is split
where it reads and writes: `prepareRequest` are the checks before the
transaction, `countActiveRequests` the count in it, `insertRequest` the rest.
-/

namespace Sahay

structure CreateRequestInput where
  eventId : EventId
  categoryId : CategoryId
  qty : ZQty
  unit : Units
  urgency : RequestUrgency := .standard
  note : Option String := none
  expiresInMinutes : ℕ := 15
  coords : Option Coords := none
  areaHint : Option String := none
  idempotencyKey : String

/-- `ACTIVE_REQUEST_STATUSES`. -/
def RequestStatus.isActive : RequestStatus → Bool
  | .searching | .offering | .matched => true
  | _ => false

def RequestStatus.isOpen : RequestStatus → Bool
  | .searching | .offering => true
  | _ => false

def RequestStatus.isRenewable : RequestStatus → Bool
  | .expired | .noMatch | .cancelled => true
  | _ => false

/-- What `createRequest` has decided before its transaction begins. -/
structure RequestTicket where
  row : Request
  coords : Option Coords

def enqueueMatching (requestId : RequestId) (expiresAt now : Time) : List Effect :=
  [.matchJob requestId 0, .matchJob requestId ((expiresAt - now).toNat + 1000)]

namespace Db

def upsertMemberLocation (db : Db) (env : Env) (userId : UserId) (eventId : EventId)
    (coords : Coords) : Db :=
  let location : MemberLocation :=
    { geog := coarsen coords
      updatedAt := env.now
      expiresAt := env.now + env.platform.locationTtlMinutes * 60000 }
  { db with memberLocations :=
      db.memberLocations.upsert (userId, eventId) location fun _ => location }

def findByIdempotencyKey (db : Db) (userId : UserId) (key : String) :
    Option (RequestId × Request) :=
  db.requests.first fun _ r => r.requesterId = userId && r.idempotencyKey = key

/-- The checks that stand before the transaction. -/
def prepareRequest (env : Env) (auth : AuthContext) (input : CreateRequestInput) (db : Db) :
    Outcome RequestTicket := do
  let event ← found (db.resolveEvent input.eventId) errors.notFound
  let membership ← found (db.getMembership input.eventId auth.userId) errors.forbidden
  ensure (membership.banned = false) errors.forbidden
  ensure (event.status ≠ .paused) errors.eventPaused
  ensure (event.status = .active) errors.eventNotActive
  ensure (event.matchingPaused = false) errors.eventPaused
  ensure (auth.canRequest ∧ auth.status = .active) errors.accountRestricted
  let effective ← found (db.effectiveCategory input.eventId input.categoryId)
    errors.prohibitedCategory
  let category := effective.category
  ensure (input.unit ∈ category.allowedUnits)
    (errors.validation { field := some "unit", allowed := some category.allowedUnits })
  ensure (input.qty.1 ≤ effective.maxRequestQty)
    (errors.validation { field := some "qty", max := some effective.maxRequestQty })
  ensure (category.fractional ∨ input.qty.1.isInt) (errors.validation { field := some "qty" })
  let note := input.note.bind fun note =>
    if note = "" then none else some (redactContactDetails note)
  let row : Request :=
    { eventId := input.eventId
      requesterId := auth.userId
      categoryId := input.categoryId
      qty := input.qty.1
      unit := input.unit
      urgency := input.urgency
      note := note
      areaHint := input.areaHint
      expiresAt := env.now + input.expiresInMinutes * 60000
      idempotencyKey := input.idempotencyKey }
  return { row := row, coords := input.coords }

def countActiveRequests (db : Db) (userId : UserId) : ℕ :=
  db.requests.count fun _ r => r.requesterId = userId && r.status.isActive

/-- The statements after the count.  A duplicate key aborts the transaction, so
the lookup in the handler fails as well. -/
def insertRequest (env : Env) (ticket : RequestTicket) (db : Db) :
    Outcome (List Effect × Db) := do
  let row := ticket.row
  let db := match ticket.coords with
    | some coords => db.upsertMemberLocation env row.requesterId row.eventId coords
    | none => db
  ensure ((db.findByIdempotencyKey row.requesterId row.idempotencyKey).isNone) .transactionAborted
  ensure row.check (.checkViolation .requests)
  let id := db.requests.freshKey env.uuid.request
  let db := { db with requests := db.requests.put id { row with createdAt := env.now } }
  return (enqueueMatching id row.expiresAt env.now,
    db.recordCreationTransition id .requester (some "created") env.now)

/-- Create a request, or return the one its idempotency key already names. -/
def createRequest (env : Env) (auth : AuthContext) (input : CreateRequestInput) (db : Db) :
    Outcome (List Effect × Db) := do
  if (db.findByIdempotencyKey auth.userId input.idempotencyKey).isSome then return ([], db)
  let ticket ← db.prepareRequest env auth input
  ensure (db.countActiveRequests auth.userId < Limits.maxActiveRequestsPerUser) errors.rateLimited
  db.insertRequest env ticket

def lockOwnRequest (db : Db) (userId : UserId) (requestId : RequestId) : Outcome Request :=
  found ((db.requests.lookup requestId).filter fun r => r.requesterId = userId) errors.notFound

def activeMatchIdFor (db : Db) (requestId : RequestId) : Option MatchId :=
  (db.matchRows.first fun _ m => m.requestId = requestId && m.status = .active).map Prod.fst

/-- Close the open offers of a request without an answer. -/
def supersedeOffers (db : Db) (requestId : RequestId) (now : Time) : Db :=
  let isOpen (_ : OfferId) (o : MatchOffer) : Bool :=
    o.requestId = requestId && o.status = .offered
  let supersede (o : MatchOffer) : MatchOffer :=
    { o with status := .superseded, respondedAt := some now }
  { db with matchOffers := db.matchOffers.updateWhere isOpen supersede }

def cancelRequest (env : Env) (userId : UserId) (requestId : RequestId) (db : Db) :
    Outcome (List Effect × Db) := do
  let request ← db.lockOwnRequest userId requestId
  if request.status = .matched then
    let activeMatchId ← found (db.activeMatchIdFor requestId) errors.conflict
    db.cancelMatchInTx env activeMatchId
      { actor := .requester
        cancellerUserId := some userId
        reason := "requester-cancel"
        isUnsafe := false }
  else
    ensure (request.status.isOpen) errors.conflict
    let db := db.supersedeOffers requestId env.now
    let db ← db.transitionRequest requestId request.status .cancelled .requester
      (some "owner-cancel") env.now fun row => { row with closedAt := some env.now }
    return ([], db)

def renewRequest (env : Env) (userId : UserId) (requestId : RequestId) (expiresInMinutes : ℕ)
    (db : Db) : Outcome (List Effect × Db) := do
  let request ← db.lockOwnRequest userId requestId
  ensure (request.status.isRenewable) errors.conflict
  let expiresAt := env.now + expiresInMinutes * 60000
  let db ← db.transitionRequest requestId request.status .searching .requester (some "renew")
    env.now fun row =>
      -- The quantity fulfilled so far is kept.
      { row with
        expiresAt := expiresAt
        currentRadiusM := Limits.initialSearchRadiusM
        closedAt := none }
  return (enqueueMatching requestId expiresAt env.now, db)

def continueRequest (env : Env) (userId : UserId) (requestId : RequestId)
    (continueSearching : Bool) (db : Db) : Outcome (List Effect × Db) := do
  let request ← db.lockOwnRequest userId requestId
  ensure (request.status = .partiallyFulfilled) errors.conflict
  if continueSearching then
    ensure (0 < request.qty - request.qtyFulfilled) errors.conflict
    let expiresAt := env.now + 15 * 60000
    let db ← db.transitionRequest requestId request.status .searching .requester
      (some "continue") env.now fun row =>
        { row with
          expiresAt := expiresAt
          currentRadiusM := Limits.initialSearchRadiusM
          closedAt := none }
    return (enqueueMatching requestId expiresAt env.now, db)
  else
    let target := if 0 < request.qtyFulfilled then .fulfilled else .cancelled
    let db ← db.transitionRequest requestId request.status target .requester
      (some "close-after-partial") env.now fun row => { row with closedAt := some env.now }
    return ([], db)

end Db
end Sahay
