import Sahay.Server.Requests

/-!
# Offers

`modules/offers/service.ts`: the helper's answer.  Accepting reserves stock,
creates the match and its conversation and moves the request on, in one
transaction.
-/

namespace Sahay

/-- How much of an offer can be reserved; nothing below one unit unless the
category is fractional. -/
def computeReserveQty (offerQty remainingNeed available : Qty) (fractional : Bool) : Qty :=
  let qty := min offerQty (min remainingNeed available)
  let qty : Qty := if fractional then qty else ⌊qty⌋
  if 0 < qty then qty else 0

/-- The row inserted into `matches`. -/
def MatchOffer.newMatch (offer : MatchOffer) (offerId : OfferId) (request : Request)
    (helperId : UserId) (reserveQty : Qty) (aliases : MatchAliases) (now : Time) : Match :=
  { requestId := offer.requestId
    offerId := offerId
    eventId := request.eventId
    requesterId := request.requesterId
    helperId := helperId
    inventoryItemId := offer.inventoryItemId
    qtyReserved := reserveQty
    proximity := offer.proximity
    requesterAlias := aliases.requesterAlias
    helperAlias := aliases.helperAlias
    createdAt := now }

inductive AcceptOutcome
  | matched (matchId : MatchId)
  /-- The offer was voided; the caller sees `insufficient_inventory`. -/
  | insufficientInventory

namespace Db

/-- An offer that is still open for this helper to answer. -/
def lockPendingOffer (db : Db) (env : Env) (helperId : UserId) (offerId : OfferId) :
    Outcome MatchOffer := do
  let offer ← found ((db.matchOffers.lookup offerId).filter fun o => o.helperId = helperId)
    errors.notFound
  ensure (offer.status = .offered) errors.conflict
  ensure (env.now < offer.respondBy) errors.offerExpired
  return offer

def closeOffer (db : Db) (offerId : OfferId) (status : OfferStatus) (now : Time) : Db :=
  let answer (o : MatchOffer) : MatchOffer := { o with status := status, respondedAt := some now }
  { db with matchOffers := db.matchOffers.modify offerId answer }

def stopReceiving (db : Db) (userId : UserId) (eventId : EventId) (now : Time) : Db :=
  let row : Availability := { isOn := false, «until» := none, updatedAt := now }
  { db with availability := db.availability.upsert (userId, eventId) row fun _ => row }

def declineOffer (env : Env) (helperId : UserId) (offerId : OfferId) (alsoStopReceiving : Bool)
    (db : Db) : Outcome (List Effect × Db) := do
  let offer ← db.lockPendingOffer env helperId offerId
  let request ← found (db.requests.lookup offer.requestId) errors.notFound
  let db := db.closeOffer offerId .declined env.now
  let db := db.applyOfferResponded helperId env.now
  let db ←
    if request.status = .offering then
      db.transitionRequest offer.requestId request.status .searching .helper
        (some "offer-declined") env.now
    else pure db
  let db := if alsoStopReceiving then db.stopReceiving helperId request.eventId env.now else db
  return ([.matchJob offer.requestId 0], db)

def participantPseudonyms (db : Db) (requesterId helperId : UserId) : List String :=
  (db.users.select fun id _ => id = requesterId || id = helperId).map fun e => e.2.pseudonym

def acceptOffer (env : Env) (helperId : UserId) (offerId : OfferId) (draws : List (ℕ × ℕ))
    (db : Db) : Outcome (AcceptOutcome × List Effect × Db) := do
  let offer ← db.lockPendingOffer env helperId offerId
  let request ← found (db.requests.lookup offer.requestId) errors.notFound
  ensure (request.status = .offering) errors.conflict
  let item ← found (db.inventoryItems.lookup offer.inventoryItemId) errors.notFound
  let fractional := (db.categories.lookup request.categoryId).elim false Category.fractional
  let available := if item.active then item.qtyOnHand - item.qtyReserved else 0
  let reserveQty :=
    computeReserveQty offer.qty (request.qty - request.qtyFulfilled) available fractional
  if reserveQty ≤ 0 then
    let db := db.closeOffer offerId .expired env.now
    let db ← db.transitionRequest offer.requestId request.status .searching .system
      (some "insufficient-inventory") env.now
    return (.insufficientInventory, [.matchJob offer.requestId 0], db)
  else
    let db ← db.updateInventoryItem offer.inventoryItemId fun row =>
      { row with qtyReserved := item.qtyReserved + reserveQty, updatedAt := env.now }
    let db := db.closeOffer offerId .accepted env.now
    let aliases ← found
      (generateMatchAliases (db.participantPseudonyms request.requesterId helperId) draws)
      .undrawn
    -- The partial unique index matches_one_active_per_request.
    ensure ((db.activeMatchIdFor offer.requestId).isNone) errors.conflict
    let matchId := db.matchRows.freshKey env.uuid.matchRow
    let row := offer.newMatch offerId request helperId reserveQty aliases env.now
    let db := { db with matchRows := db.matchRows.put matchId row }
    let db ← db.transitionRequest offer.requestId request.status .matched .helper
      (some "offer-accepted") env.now
    let conversationId := db.conversations.freshKey env.uuid.conversation
    let conversation : Conversation := { matchId := matchId, createdAt := env.now }
    let db := { db with conversations := db.conversations.put conversationId conversation }
    let db := db.insertSystemMessage env conversationId helperId "match.matched"
    let db := db.applyAccepted helperId env.now
    return (.matched matchId,
      [.notify request.requesterId "match_accepted" "notifications.match_accepted"
        "match.matched" (some ("matchaccept:" ++ toString matchId))], db)

end Db
end Sahay
