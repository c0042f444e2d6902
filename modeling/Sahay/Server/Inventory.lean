import Sahay.Server.Access

/-!
# Inventory

`modules/inventory/service.ts`: what a helper holds in an event.  Available
stock is `qtyOnHand - qtyReserved`; every write runs under the row's CHECKs.
-/

namespace Sahay

/-- `zQty`. -/
abbrev ZQty := { q : Qty // 0 < q ∧ q ≤ 10000 }

structure AddInventoryInput where
  categoryId : CategoryId
  qty : ZQty
  unit : Units
  details : String := ""
  idempotencyKey : Option String := none

structure UpdateInventoryInput where
  qtyTotal : Option ZQty := none
  details : Option String := none
  active : Option Bool := none

def Category.allowedUnits (category : Category) : List Units := category.unit :: category.altUnits

namespace Db

def itemByIdempotencyKey (db : Db) (userId : UserId) (key : Option String) : Option ItemId := do
  let key ← key
  let (id, _) ← db.inventoryItems.first fun _ item =>
    item.userId = userId && item.idempotencyKey = some key
  return id

/-- Insert an item, or return the one that its idempotency key already names. -/
def addInventory (env : Env) (userId : UserId) (eventId : EventId) (input : AddInventoryInput)
    (db : Db) : Outcome (ItemId × Db) := do
  if let some existing := db.itemByIdempotencyKey userId input.idempotencyKey then
    return (existing, db)
  let event ← found (db.resolveEvent eventId) errors.notFound
  ensure (event.status = .active ∨ event.status = .scheduled) errors.eventNotActive
  let _ ← found (db.getMembership eventId userId) errors.forbidden
  let effective ← found (db.effectiveCategory eventId input.categoryId) errors.prohibitedCategory
  let allowedUnits := effective.category.allowedUnits
  ensure (input.unit ∈ allowedUnits)
    (errors.validation { field := some "unit", allowed := some allowedUnits })
  ensure (input.qty.1 ≤ effective.maxOfferQty)
    (errors.validation { field := some "qty", max := some effective.maxOfferQty })
  let activeCount := db.inventoryItems.count fun _ item =>
    item.userId = userId && item.eventId = eventId && item.active
  ensure (activeCount < Limits.maxInventoryItemsPerEvent)
    (errors.validation { field := some "items", max := some Limits.maxInventoryItemsPerEvent })
  let id := db.inventoryItems.freshKey env.uuid.inventoryItem
  let item : InventoryItem :=
    { userId := userId
      eventId := eventId
      categoryId := input.categoryId
      qtyOnHand := input.qty.1
      unit := input.unit
      details := input.details
      createdAt := env.now
      updatedAt := env.now
      expiresAt := some (event.endsAt + 24 * 3600000)
      idempotencyKey := input.idempotencyKey }
  return (id, { db with inventoryItems := db.inventoryItems.put id item })

def ownItem (db : Db) (userId : UserId) (itemId : ItemId) : Option InventoryItem :=
  (db.inventoryItems.lookup itemId).filter fun item => item.userId = userId

def updateInventory (env : Env) (userId : UserId) (itemId : ItemId)
    (input : UpdateInventoryInput) (db : Db) : Outcome Db := do
  let item ← found (db.ownItem userId itemId) errors.notFound
  ensure (∀ qtyTotal ∈ input.qtyTotal, item.qtyReserved ≤ qtyTotal.1)
    errors.insufficientInventory
  db.updateInventoryItem itemId fun row =>
    { row with
      updatedAt := env.now
      qtyOnHand := input.qtyTotal.elim row.qtyOnHand Subtype.val
      details := input.details.getD row.details
      active := input.active.getD row.active }

/-- Delete an item, or deactivate it when an offer or a match refers to it. -/
def deleteInventory (env : Env) (userId : UserId) (itemId : ItemId) (db : Db) : Outcome Db := do
  let _ ← found (db.ownItem userId itemId) errors.notFound
  let offer := db.matchOffers.first fun _ o => o.inventoryItemId = itemId
  let row := db.matchRows.first fun _ m => m.inventoryItemId = itemId
  if offer.isSome ∨ row.isSome then
    db.updateInventoryItem itemId fun row => { row with active := false, updatedAt := env.now }
  else
    return { db with inventoryItems := db.inventoryItems.drop itemId }

end Db
end Sahay
