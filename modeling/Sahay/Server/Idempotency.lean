import Sahay.Lib.KeyedInsert
import Sahay.Server.Inventory
import Sahay.Server.Requests

/-!
# Creating under an idempotency key

`createRequest` and `addInventory` statement by statement, as connections to the database.  The
checks before the transaction read tables that neither writes, so they are one statement.  What
is enqueued and published after the commit is left out.
-/

namespace Sahay

/-- What the two calls lock: entries of the unique indexes on the keys, and a user's location. -/
inductive CreationLock
  | requestKey (requesterId : UserId) (idempotencyKey : String)
  | inventoryKey (userId : UserId) (idempotencyKey : String)
  | memberLocation (userId : UserId) (eventId : EventId)
  deriving DecidableEq

namespace Db

def findItemByIdempotencyKey (db : Db) (userId : UserId) (key : String) :
    Option (ItemId × InventoryItem) :=
  db.inventoryItems.first fun _ item => item.userId = userId && item.idempotencyKey = some key

/-- `UNIQUE (requester_id, idempotency_key)` of `requests` and `inventory_idem_idx`. -/
def engine : Engine Db CreationLock TxError where
  contains db
    | .requestKey requesterId key => (db.findByIdempotencyKey requesterId key).isSome
    | .inventoryKey userId key => (db.findItemByIdempotencyKey userId key).isSome
    | .memberLocation _ _ => false
  uniqueViolation := .uniqueViolation
  transactionAborted := .transactionAborted

/-! ## Requests -/

/-- `upsertMemberLocation` of the ticket's coordinates, if it has some. -/
def locationChanges (env : Env) (ticket : RequestTicket) : List (Change Db CreationLock) :=
  match ticket.coords with
  | some coords =>
      [{ locks := [.memberLocation ticket.row.requesterId ticket.row.eventId]
         apply := fun db =>
          db.upsertMemberLocation env ticket.row.requesterId ticket.row.eventId coords }]
  | none => []

/-- `createRequest`. -/
def requestCreation (env : Env) (auth : AuthContext) (input : CreateRequestInput) :
    KeyedInsert Db CreationLock TxError RequestTicket (RequestId × Request) where
  entry := .requestKey auth.userId input.idempotencyKey
  find db := db.findByIdempotencyKey auth.userId input.idempotencyKey
  checks db := db.prepareRequest env auth input
  admits _ db :=
    ensure (db.countActiveRequests auth.userId < Limits.maxActiveRequestsPerUser)
      errors.rateLimited
  before ticket := locationChanges env ticket
  row ticket db := do
    ensure ticket.row.check (.checkViolation .requests)
    let id := db.requests.freshKey env.uuid.request
    let row := { ticket.row with createdAt := env.now }
    return ((id, row), fun db => { db with requests := db.requests.put id row })
  after created :=
    [{ apply := fun db =>
        db.recordCreationTransition created.1 .requester (some "created") env.now }]
  catches e := e = .uniqueViolation

/-! ## Items -/

/-- The checks of `addInventory` before its transaction. -/
def prepareItem (userId : UserId) (eventId : EventId) (input : AddInventoryInput) (db : Db) :
    Outcome Event := do
  let event ← found (db.resolveEvent eventId) errors.notFound
  ensure (event.status = .active ∨ event.status = .scheduled) errors.eventNotActive
  let _ ← found (db.getMembership eventId userId) errors.forbidden
  let effective ← found (db.effectiveCategory eventId input.categoryId) errors.prohibitedCategory
  let allowedUnits := effective.category.allowedUnits
  ensure (input.unit ∈ allowedUnits)
    (errors.validation { field := some "unit", allowed := some allowedUnits })
  ensure (input.qty.1 ≤ effective.maxOfferQty)
    (errors.validation { field := some "qty", max := some effective.maxOfferQty })
  return event

/-- `addInventory` with a key. -/
def itemCreation (env : Env) (userId : UserId) (eventId : EventId) (input : AddInventoryInput)
    (key : String) : KeyedInsert Db CreationLock TxError Event (ItemId × InventoryItem) where
  entry := .inventoryKey userId key
  find db := db.findItemByIdempotencyKey userId key
  checks db := db.prepareItem userId eventId input
  admits _ db :=
    let activeCount := db.inventoryItems.count fun _ item =>
      item.userId = userId && item.eventId = eventId && item.active
    ensure (activeCount < Limits.maxInventoryItemsPerEvent)
      (errors.validation { field := some "items", max := some Limits.maxInventoryItemsPerEvent })
  before _ := []
  row event db :=
    let id := db.inventoryItems.freshKey env.uuid.inventoryItem
    let item : InventoryItem :=
      { userId := userId
        eventId := eventId
        categoryId := input.categoryId
        qtyOnHand := input.qty.1
        unit := input.unit
        details := input.details
        createdAt := env.now
        updatedAt := env.now
        expiresAt := some (event.endsAt + 24 * 3600000)
        idempotencyKey := some key }
    return ((id, item), fun db => { db with inventoryItems := db.inventoryItems.put id item })
  after _ := []
  catches e := e = .uniqueViolation

end Db
end Sahay
