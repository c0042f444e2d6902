import Sahay.Server.System

/-!
# Lifecycle steps

What can happen to the exchange, one case per kind of event: stock is listed,
edited or removed; a request is opened, offered, matched, settled or ended.  A
step names the rows it works on and says what must hold of them, so that an
invariant of the exchange is proved once per case and not once per operation.
The operations of the server are shown to be runs of these steps elsewhere.
-/

namespace Sahay

/-- What surrounds a step: the directory, the clock, the operation it belongs to
and the user who called it. -/
structure Ctx where
  dir : Directory
  now : Time
  caller : Option UserId
  op : Op

namespace Ctx

variable (c : Ctx)

def Creates (userId : UserId) : Prop :=
  c.caller = some userId ∧ ∃ token input, c.op = .createRequest token input

def Reopens (id : RequestId) (r : Request) : Prop :=
  c.caller = some r.requesterId ∧
    ((r.status.isRenewable = true ∧ ∃ token minutes, c.op = .renewRequest token id minutes) ∨
      (r.status = .partiallyFulfilled ∧ ∃ token, c.op = .continueRequest token id true))

def Accepts (oid : OfferId) (userId : UserId) : Prop :=
  c.caller = some userId ∧ ∃ token draws, c.op = .acceptOffer token oid draws

end Ctx

theorem RequestStatus.isRenewable.inactive {s : RequestStatus} (h : s.isRenewable = true) :
    s.isActive = false := by
  revert h
  cases s <;> decide

theorem Ctx.Reopens.inactive {c : Ctx} {id : RequestId} {r : Request} (h : c.Reopens id r) :
    r.status.isActive = false := by
  obtain ⟨-, ⟨hrenewable, -⟩ | ⟨hpart, -⟩⟩ := h
  · exact RequestStatus.isRenewable.inactive hrenewable
  · rw [hpart]
    rfl

/-! ## What never changes about a row -/

def InventoryItem.identity (item : InventoryItem) : UserId × EventId × CategoryId × Units :=
  (item.userId, item.eventId, item.categoryId, item.unit)

def Request.identity (r : Request) : EventId × UserId × CategoryId × Qty × Units :=
  (r.eventId, r.requesterId, r.categoryId, r.qty, r.unit)

def MatchOffer.identity (o : MatchOffer) : RequestId × UserId × ItemId × Qty :=
  (o.requestId, o.helperId, o.inventoryItemId, o.qty)

def Match.identity (m : Match) :
    RequestId × OfferId × EventId × UserId × UserId × ItemId × Qty :=
  (m.requestId, m.offerId, m.eventId, m.requesterId, m.helperId, m.inventoryItemId,
    m.qtyReserved)

/-- An owner's edit of an item: nothing, or one that keeps what is reserved and
passes the CHECKs. -/
def ItemEdit (item item' : InventoryItem) : Prop :=
  item' = item ∨
    (item'.identity = item.identity ∧ item'.qtyReserved = item.qtyReserved ∧ item'.check)

/-! ## The quantity that settles a match -/

/-- The smaller of two confirmed quantities, or the only one. -/
def Match.finalQty (m : Match) : Option Qty :=
  match m.requesterConfirmedQty, m.helperConfirmedQty with
  | some a, some b => some (min a b)
  | some a, none => some a
  | none, some b => some b
  | none, none => none

/-- `m'` is `m` with at most one admissible confirmation more. -/
def Match.Confirms (m m' : Match) : Prop :=
  m' = m ∨ ∃ side qty, m.confirmedQty side = none ∧ 0 ≤ qty ∧ qty ≤ m.qtyReserved ∧
    m' = m.setConfirmedQty side qty

def MatchStatus.isSettled : MatchStatus → Bool
  | .completed | .partiallyCompleted | .disputed => true
  | _ => false

def MatchStatus.isCancelled : MatchStatus → Bool
  | .cancelledByRequester | .cancelledByHelper | .cancelledUnsafe | .cancelledModeration => true
  | _ => false

/-- The row of a match once it is settled. -/
def Match.settledAs (m : Match) (status : MatchStatus) (closeReason : String) (now : Time) :
    Match :=
  { m with
    status := status
    closedAt := some now
    closeReason := some closeReason
    inventoryApplied := true
    reliabilityApplied := true }

/-- The row of a match once it is cancelled. -/
def Match.cancelledAs (m : Match) (status : MatchStatus) (closeReason : String) (now : Time) :
    Match :=
  { m with
    status := status
    closedAt := some now
    closeReason := some closeReason
    inventoryApplied := true }

/-- The row of a request that searches again. -/
def Request.reopened (r : Request) (expiresAt : Time) : Request :=
  { r with
    status := .searching
    expiresAt := expiresAt
    currentRadiusM := Limits.initialSearchRadiusM
    closedAt := none }

/-! ## Steps -/

namespace Exchange

def supersede (x : Exchange) (id : RequestId) (now : Time) : Exchange :=
  let isOpen (_ : OfferId) (o : MatchOffer) : Bool := o.requestId = id && o.status = .offered
  let answer (o : MatchOffer) : MatchOffer :=
    { o with status := .superseded, respondedAt := some now }
  { x with matchOffers := x.matchOffers.updateWhere isOpen answer }

/-- Write the request's new row and append the audit entry. -/
def moveRequest (x : Exchange) (id : RequestId) (r r' : Request) (actor : TransitionActor)
    (reason : Option String) (now : Time) : Exchange :=
  { x with
    requests := x.requests.replace id r'
    requestTransitions :=
      x.requestTransitions ++ [⟨id, some r.status, r'.status, actor, reason, now⟩] }

variable (x : Exchange) (id : RequestId) (r r' : Request) (actor : TransitionActor)
  (reason : Option String) (now : Time)

@[simp] theorem moveRequest_inventoryItems :
    (x.moveRequest id r r' actor reason now).inventoryItems = x.inventoryItems := rfl

@[simp] theorem moveRequest_requests :
    (x.moveRequest id r r' actor reason now).requests = x.requests.replace id r' := rfl

@[simp] theorem moveRequest_matchOffers :
    (x.moveRequest id r r' actor reason now).matchOffers = x.matchOffers := rfl

@[simp] theorem moveRequest_matchRows :
    (x.moveRequest id r r' actor reason now).matchRows = x.matchRows := rfl

@[simp] theorem moveRequest_conversations :
    (x.moveRequest id r r' actor reason now).conversations = x.conversations := rfl

end Exchange

/-- The row of a new match on the offer `o` for the request `r`. -/
structure Match.Opens (m : Match) (offerId : OfferId) (o : MatchOffer) (r : Request) : Prop where
  requestId : m.requestId = o.requestId
  offerId : m.offerId = offerId
  eventId : m.eventId = r.eventId
  requesterId : m.requesterId = r.requesterId
  helperId : m.helperId = o.helperId
  inventoryItemId : m.inventoryItemId = o.inventoryItemId
  status : m.status = .active
  inventoryApplied : m.inventoryApplied = false
  unconfirmed : ∀ side, m.confirmedQty side = none

inductive Lifecycle (c : Ctx) (x : Exchange) : Exchange → Prop
  | addItem (id : ItemId) (item : InventoryItem)
      (hid : id ∉ x.inventoryItems)
      (hreserved : item.qtyReserved = 0)
      (honHand : 0 ≤ item.qtyOnHand) :
      Lifecycle c x { x with inventoryItems := x.inventoryItems.put id item }
  | editItems (f : ItemId → InventoryItem → InventoryItem)
      (hrestocks : c.op.restocks = true)
      (hf : ∀ id item, x.inventoryItems.lookup id = some item → ItemEdit item (f id item)) :
      Lifecycle c x { x with inventoryItems := x.inventoryItems.mapVal f }
  | dropItem (id : ItemId)
      (hrestocks : c.op.restocks = true)
      (hoffers : ∀ oid o, x.matchOffers.lookup oid = some o → o.inventoryItemId ≠ id)
      (hmatches : ∀ mid m, x.matchRows.lookup mid = some m → m.inventoryItemId ≠ id) :
      Lifecycle c x { x with inventoryItems := x.inventoryItems.drop id }
  | openRequest (id : RequestId) (r : Request)
      (hid : id ∉ x.requests)
      (hcaller : c.Creates r.requesterId)
      (hcategory : r.categoryId ∈ c.dir.categories)
      (hstatus : r.status = .searching)
      (hcheck : r.check)
      (hfulfilled : r.qtyFulfilled = 0) :
      Lifecycle c x { x with
        requests := x.requests.put id r
        requestTransitions := x.requestTransitions ++
          [⟨id, none, .searching, .requester, some "created", c.now⟩] }
  | closeRequest (id : RequestId) (r : Request) (target : RequestStatus)
      (actor : TransitionActor) (reason : Option String)
      (hr : x.requests.lookup id = some r)
      (hopen : r.status.isOpen = true)
      (htarget : target.isActive = false)
      (hpermitted : canTransition (some r.status) target = true) :
      Lifecycle c x
        ((x.supersede id c.now).moveRequest id r
          { r with status := target, closedAt := some c.now } actor reason c.now)
  | createOffer (oid : OfferId) (o : MatchOffer) (r : Request) (item : InventoryItem)
      (hoid : oid ∉ x.matchOffers)
      (hoffered : o.status = .offered)
      (hr : x.requests.lookup o.requestId = some r)
      (hsearching : r.status = .searching)
      (hi : x.inventoryItems.lookup o.inventoryItemId = some item)
      (howner : item.userId = o.helperId)
      (hevent : item.eventId = r.eventId)
      (hcategory : item.categoryId = r.categoryId)
      (hpeer : o.helperId ≠ r.requesterId)
      (hasked : ∀ oid' o', x.matchOffers.lookup oid' = some o' →
        o'.requestId = o.requestId → o'.helperId ≠ o.helperId)
      (hblocked : (o.helperId, r.requesterId) ∉ c.dir.blocks)
      (hblocked' : (r.requesterId, o.helperId) ∉ c.dir.blocks)
      (hqty : 0 < o.qty ∧ o.qty ≤ r.qty - r.qtyFulfilled) :
      Lifecycle c x
        ({ x with matchOffers := x.matchOffers.put oid o }.moveRequest o.requestId r
          { r with status := .offering, attemptCount := r.attemptCount + 1 } .system
          (some "offer-created") c.now)
  | closeOffer (oid : OfferId) (o : MatchOffer) (r : Request) (status : OfferStatus)
      (actor : TransitionActor) (reason : Option String)
      (ho : x.matchOffers.lookup oid = some o)
      (hoffered : o.status = .offered)
      (hstatus : status = .declined ∨ status = .expired)
      (hr : x.requests.lookup o.requestId = some r)
      (hoffering : r.status = .offering) :
      Lifecycle c x
        ({ x with
            matchOffers := x.matchOffers.replace oid
              { o with status := status, respondedAt := some c.now } }.moveRequest
          o.requestId r { r with status := .searching } actor reason c.now)
  | accept (oid : OfferId) (o : MatchOffer) (r : Request) (item : InventoryItem)
      (mid : MatchId) (m : Match) (cid : ConversationId)
      (ho : x.matchOffers.lookup oid = some o)
      (hoffered : o.status = .offered)
      (hcaller : c.Accepts oid o.helperId)
      (hr : x.requests.lookup o.requestId = some r)
      (hoffering : r.status = .offering)
      (hi : x.inventoryItems.lookup o.inventoryItemId = some item)
      (hmid : mid ∉ x.matchRows)
      (hm : m.Opens oid o r)
      (hcid : cid ∉ x.conversations)
      (hpos : 0 < m.qtyReserved)
      (hneed : m.qtyReserved ≤ r.qty - r.qtyFulfilled)
      (hfree : m.qtyReserved ≤ item.qtyOnHand - item.qtyReserved)
      (htime : c.now < o.respondBy) :
      Lifecycle c x
        ({ x with
            inventoryItems := x.inventoryItems.replace o.inventoryItemId
              { item with
                qtyReserved := item.qtyReserved + m.qtyReserved, updatedAt := c.now }
            matchOffers := x.matchOffers.replace oid
              { o with status := .accepted, respondedAt := some c.now }
            matchRows := x.matchRows.put mid m
            conversations := x.conversations.put cid
              { matchId := mid, createdAt := c.now } }.moveRequest
          o.requestId r { r with status := .matched } .helper (some "offer-accepted") c.now)
  | confirm (mid : MatchId) (m : Match) (side : Side) (qty : Qty)
      (hm : x.matchRows.lookup mid = some m)
      (hactive : m.status = .active)
      (hmine : m.confirmedQty side = none)
      (hother : m.confirmedQty side.other = none)
      (hqty : 0 ≤ qty ∧ qty ≤ m.qtyReserved) :
      Lifecycle c x { x with matchRows := x.matchRows.replace mid (m.setConfirmedQty side qty) }
  | settle (mid : MatchId) (m m' : Match) (r : Request) (item : InventoryItem)
      (cid : ConversationId) (conversation : Conversation) (final : Qty) (disputed : Bool)
      (closeReason : String) (actor : TransitionActor)
      (hm : x.matchRows.lookup mid = some m)
      (hactive : m.status = .active)
      (hconfirms : m.Confirms m')
      (hfinal : m'.finalQty = some final)
      (hr : x.requests.lookup m.requestId = some r)
      (hmatched : r.status = .matched)
      (hi : x.inventoryItems.lookup m.inventoryItemId = some item)
      (hcid : x.conversations.lookup cid = some conversation)
      (hconversation : conversation.matchId = mid) :
      Lifecycle c x
        ({ x with
            inventoryItems := x.inventoryItems.replace m.inventoryItemId
              { item with
                qtyOnHand := item.qtyOnHand - final
                qtyReserved := item.qtyReserved - m.qtyReserved
                updatedAt := c.now }
            matchRows := x.matchRows.replace mid
              (m'.settledAs (settledMatchStatus disputed (r.qty ≤ r.qtyFulfilled + final))
                closeReason c.now)
            conversations := x.conversations.replace cid
              { conversation with
                expiresAt := some (c.now + conversationGraceMs) } }.moveRequest
          m.requestId r
          { r with
            status := settledRequestStatus r (r.qtyFulfilled + final)
            qtyFulfilled := r.qtyFulfilled + final
            closedAt := if r.qty ≤ r.qtyFulfilled + final then some c.now else r.closedAt }
          actor (some closeReason) c.now)
  | cancel (mid : MatchId) (m : Match) (r : Request) (item : InventoryItem)
      (cid : ConversationId) (conversation conversation' : Conversation)
      (canceller : CancelActor) (status : MatchStatus) (closeReason reason : String)
      (hm : x.matchRows.lookup mid = some m)
      (hactive : m.status = .active)
      (hstatus : status.isCancelled = true)
      (hr : x.requests.lookup m.requestId = some r)
      (hmatched : r.status = .matched)
      (hi : x.inventoryItems.lookup m.inventoryItemId = some item)
      (hcid : x.conversations.lookup cid = some conversation)
      (hconversation : conversation.matchId = mid)
      (hconversation' : conversation'.matchId = mid) :
      Lifecycle c x
        ({ x with
            inventoryItems := x.inventoryItems.replace m.inventoryItemId
              { item with
                qtyReserved := item.qtyReserved - m.qtyReserved, updatedAt := c.now }
            matchRows := x.matchRows.replace mid (m.cancelledAs status closeReason c.now)
            conversations := x.conversations.replace cid conversation' }.moveRequest
          m.requestId r
          { r with
            status := canceller.route.1
            closedAt := if canceller = CancelActor.helper then r.closedAt else some c.now }
          canceller.route.2 (some reason) c.now)
  | reopen (id : RequestId) (r : Request) (expiresAt : Time) (reason : String)
      (hr : x.requests.lookup id = some r)
      (hcaller : c.Reopens id r) :
      Lifecycle c x
        (x.moveRequest id r (r.reopened expiresAt) .requester (some reason) c.now)
  | conclude (id : RequestId) (r : Request) (target : RequestStatus)
      (hr : x.requests.lookup id = some r)
      (hstatus : r.status = .partiallyFulfilled)
      (htarget : target = .fulfilled ∨ target = .cancelled) :
      Lifecycle c x
        (x.moveRequest id r { r with status := target, closedAt := some c.now } .requester
          (some "close-after-partial") c.now)
  | widen (id : RequestId) (r : Request) (radius : ℕ)
      (hr : x.requests.lookup id = some r)
      (hsearching : r.status = .searching) :
      Lifecycle c x
        { x with requests := x.requests.replace id { r with currentRadiusM := radius } }
  | meet (mid : MatchId) (m : Match) (side : Side) (state : MeetingState)
      (hm : x.matchRows.lookup mid = some m)
      (hactive : m.status = .active) :
      Lifecycle c x { x with matchRows := x.matchRows.replace mid (m.setMeetingState side state) }

abbrev LifecycleRun (c : Ctx) : Exchange → Exchange → Prop := Relation.ReflTransGen (Lifecycle c)

theorem LifecycleRun.invariant {c : Ctx} {P : Exchange → Prop}
    (hstep : ∀ x x', P x → Lifecycle c x x' → P x') {x x' : Exchange} (hx : P x)
    (h : LifecycleRun c x x') : P x' := by
  induction h with
  | refl => exact hx
  | tail _ hlast ih => exact hstep _ _ ih hlast

end Sahay
