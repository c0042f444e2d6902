import Mathlib.Data.Prod.Lex
import Sahay.Lib.LockOrder
import Sahay.Server.Schema

/-!
# Row locks

Each transaction as the sequence of rows that its `SELECT … FOR UPDATE` and
`UPDATE` statements lock.  Which rows these are and which branch is taken is read
while the transaction is under way, so both are parameters.  A statement on
several rows locks them in whatever order it meets them; a transaction that throws
ends before its list does.  Rows that a transaction inserts are nobody else's yet
and are left out.
-/

namespace Sahay

/-- The rows that the transactions lock, by table and key. -/
inductive Row
  | event (id : EventId)
  | matchOffer (id : OfferId)
  | request (id : RequestId)
  | inventoryItem (id : ItemId)
  | matchRow (id : MatchId)
  | conversation (id : ConversationId)
  | reliabilityStats (userId : UserId)
  | availability (userId : UserId) (eventId : EventId)
  | user (id : UserId)
  deriving DecidableEq

/-- The rows around a match. -/
structure MatchRefs where
  matchId : MatchId
  requestId : RequestId
  itemId : ItemId
  conversationId : ConversationId
  requesterId : UserId
  helperId : UserId

namespace MatchRefs

variable (m : MatchRefs)

def lockMatchRows : List Row := [.request m.requestId, .inventoryItem m.itemId, .matchRow m.matchId]

def settleLocked (disputed : Bool) : List Row :=
  [.inventoryItem m.itemId, .matchRow m.matchId, .request m.requestId,
    .conversation m.conversationId, .reliabilityStats m.helperId] ++
  if disputed then [.reliabilityStats m.helperId, .reliabilityStats m.requesterId] else []

/-- The helper's own abandonment also counts against them. -/
def cancelMatchLocked (abandoned : Bool) : List Row :=
  [.inventoryItem m.itemId, .matchRow m.matchId, .conversation m.conversationId,
    .request m.requestId] ++
  if abandoned then [.reliabilityStats m.helperId] else []

end MatchRefs

/-- What a matching pass does once it holds the request. -/
inductive PassBranch
  /-- The request is closed, its event is paused, or its offer is still open. -/
  | leave
  | expire (superseded : List OfferId)
  /-- Sweep an overdue offer; make a new one, widen the ring or retry. -/
  | resume (swept : Option OfferId) (offeredTo : Option UserId)

namespace PassBranch

def offers : PassBranch → List OfferId
  | .leave => []
  | .expire superseded => superseded
  | .resume swept _ => swept.toList

def locks (requestId : RequestId) : PassBranch → List Row
  | .leave => []
  | .expire superseded => superseded.map .matchOffer ++ [.request requestId]
  | .resume swept offeredTo =>
      swept.toList.map .matchOffer ++ [.request requestId] ++
        offeredTo.toList.map .reliabilityStats

end PassBranch

inductive Txn
  | acceptOffer (offerId : OfferId) (requestId : RequestId) (itemId : ItemId)
      (helperId : UserId) (reserves : Bool)
  | declineOffer (offerId : OfferId) (requestId : RequestId) (helperId : UserId)
      (eventId : EventId) (alsoStopReceiving : Bool)
  | expireOffer (offerId : OfferId) (requestId : RequestId)
  | runMatchPass (requestId : RequestId) (selected : List OfferId) (branch : PassBranch)
  /-- `cancelRequest` before a match. -/
  | cancelOpenRequest (requestId : RequestId) (superseded : List OfferId)
  /-- `cancelRequest` of a matched request. -/
  | cancelMatchedRequest (m : MatchRefs)
  | renewRequest (requestId : RequestId)
  | continueRequest (requestId : RequestId)
  /-- The second confirmation settles the match, in agreement or not. -/
  | confirmCompletion (m : MatchRefs) (settles : Option Bool)
  | autoFinalizeMatch (m : MatchRefs)
  | cancelMatch (m : MatchRefs) (abandoned : Bool)
  /-- One cancellation of a sweep. -/
  | cancelMatchForModeration (m : MatchRefs)
  /-- The open requests, each with its open offers. -/
  | disableEvent (eventId : EventId) (opened : List (RequestId × List OfferId))
  /-- Step 2 of `performAccountDeletion`. -/
  | deletionCancelRequests (opened : List (RequestId × List OfferId))
  /-- Step 4 of `performAccountDeletion`. -/
  | deletionZeroInventory (items : List ItemId)
  /-- Step 7 of `performAccountDeletion`. -/
  | anonymize (userId : UserId)

def closeOpenRequestsLocks (opened : List (RequestId × List OfferId)) : List Row :=
  opened.map (fun e => .request e.1) ++
    opened.flatMap fun e => e.2.map .matchOffer ++ [.request e.1]

/-- The rows that the transaction locks, in its order. -/
def Txn.locks : Txn → List Row
  | .acceptOffer offerId requestId itemId helperId reserves =>
      [.matchOffer offerId, .request requestId, .inventoryItem itemId] ++
        if reserves then
          [.inventoryItem itemId, .matchOffer offerId, .request requestId,
            .reliabilityStats helperId]
        else [.matchOffer offerId, .request requestId]
  | .declineOffer offerId requestId helperId eventId alsoStopReceiving =>
      [.matchOffer offerId, .request requestId, .matchOffer offerId, .reliabilityStats helperId,
        .request requestId] ++
        if alsoStopReceiving then [.availability helperId eventId] else []
  | .expireOffer offerId requestId =>
      [.matchOffer offerId, .request requestId, .matchOffer offerId, .request requestId]
  | .runMatchPass requestId selected branch =>
      selected.map .matchOffer ++ [.request requestId] ++ branch.locks requestId
  | .cancelOpenRequest requestId superseded =>
      [.request requestId] ++ superseded.map .matchOffer ++ [.request requestId]
  | .cancelMatchedRequest m =>
      [.request m.requestId] ++ m.lockMatchRows ++ m.cancelMatchLocked false
  | .renewRequest requestId => [.request requestId, .request requestId]
  | .continueRequest requestId => [.request requestId, .request requestId]
  | .confirmCompletion m settles =>
      m.lockMatchRows ++ [.matchRow m.matchId] ++ settles.elim [] m.settleLocked
  | .autoFinalizeMatch m => m.lockMatchRows ++ m.settleLocked false
  | .cancelMatch m abandoned => m.lockMatchRows ++ m.cancelMatchLocked abandoned
  | .cancelMatchForModeration m => m.lockMatchRows ++ m.cancelMatchLocked false
  | .disableEvent eventId opened => [.event eventId] ++ closeOpenRequestsLocks opened
  | .deletionCancelRequests opened => closeOpenRequestsLocks opened
  | .deletionZeroInventory items => items.map .inventoryItem
  | .anonymize userId => [.user userId]

/-- The global order: event, offer, request, inventory, match, and then the rows
that hang on them; rows of one table by their keys. -/
def Row.rank : Row → ℕ ×ₗ ℕ
  | .event id => toLex (0, id)
  | .matchOffer id => toLex (1, id)
  | .request id => toLex (2, id)
  | .inventoryItem id => toLex (3, id)
  | .matchRow id => toLex (4, id)
  | .conversation id => toLex (5, id)
  | .reliabilityStats userId => toLex (6, userId)
  | .availability userId _ => toLex (7, userId)
  | .user id => toLex (8, id)

end Sahay
