import Sahay.Server.Offers

/-!
# Matching engine

`workers/matching.ts`: one pass over a request (expire it, wait for its open
offer, or offer it to the best candidate), and the timeout of an offer.  Both
re-check the state they find, so duplicate and stale jobs are no-ops.
-/

namespace Sahay

/-! ## Ranking -/

def ProximityBucket.rank : ProximityBucket → ℚ
  | .veryNearby => 0
  | .nearby => 1
  | .shortWalk => 2
  | .farther => 3
  | .unknown => 4

def distanceWeight : ℚ := 3
def fairnessWeight : ℚ := 8 / 10
def reliabilityWeight : ℚ := 2
def fairnessRecentOffersCap : ℕ := 5

structure Candidate where
  helperId : UserId
  itemId : ItemId
  availableQty : Qty
  distanceM : Option ℚ
  recentOffers : ℕ
  counters : ReliabilityCounters

def scoreCandidate (c : Candidate) (jitter : ℚ) : ℚ :=
  distanceWeight * (bucketForDistanceM c.distanceM).rank +
    fairnessWeight * (min c.recentOffers fairnessRecentOffersCap : ℕ) -
    reliabilityWeight * c.counters.rankingReliability +
    jitter

/-- Best candidate first; `rng i` is the jitter drawn for the `i`-th candidate. -/
def rankCandidates (candidates : List Candidate) (rng : ℕ → ℚ) : List Candidate :=
  let scored := candidates.zipIdx.map fun c => (c.1, scoreCandidate c.1 (rng c.2))
  (scored.insertionSort fun a b => a.2 ≤ b.2).map Prod.fst

theorem rankCandidates_perm (cs : List Candidate) (rng : ℕ → ℚ) :
    (rankCandidates cs rng).Perm cs := by
  have hsorted := (List.perm_insertionSort (fun a b : Candidate × ℚ => a.2 ≤ b.2)
    (cs.zipIdx.map fun c => (c.1, scoreCandidate c.1 (rng c.2)))).map Prod.fst
  rw [List.map_map] at hsorted
  have hfst : cs.zipIdx.map (Prod.fst ∘ fun c => (c.1, scoreCandidate c.1 (rng c.2))) = cs :=
    List.zipIdx_map_fst 0 cs
  rwa [hfst] at hsorted

/-! ## The candidate query -/

/-- What a pass draws at random, and the orders in which its query meets rows
that its ORDER BY clauses leave unordered. -/
structure PassChoices where
  rng : ℕ → ℚ
  scanItems : ScanOrder Candidate := .natural Candidate
  scanHelpers : ScanOrder Candidate := .natural Candidate

/-- `DISTINCT ON` over rows sorted by helper: the first row of each. -/
def distinctOnHelper (last : Option UserId) : List Candidate → List Candidate
  | [] => []
  | c :: cs =>
      if last = some c.helperId then distinctOnHelper last cs
      else c :: distinctOnHelper (some c.helperId) cs

/-- `ORDER BY u.id, available DESC`. -/
def Candidate.innerLe (a b : Candidate) : Prop :=
  a.helperId < b.helperId ∨ (a.helperId = b.helperId ∧ b.availableQty ≤ a.availableQty)

instance : DecidableRel Candidate.innerLe := fun _ _ =>
  inferInstanceAs (Decidable (_ ∨ (_ ∧ _)))

/-- `ORDER BY distance_m ASC NULLS LAST`. -/
def Candidate.outerLe (a b : Candidate) : Prop :=
  match a.distanceM, b.distanceM with
  | _, none => True
  | none, some _ => False
  | some x, some y => x ≤ y

instance : DecidableRel Candidate.outerLe := fun a b => by
  unfold Candidate.outerLe
  split <;> infer_instance

namespace Db

variable (db : Db)

def liveLocation (now : Time) (userId : UserId) (eventId : EventId) : Option Coords :=
  ((db.memberLocations.lookup (userId, eventId)).filter fun l => now < l.expiresAt).map
    MemberLocation.geog

/-- The joins and conditions on the helper's side: an active, unrestricted member
who is available and has not reached the cap of active matches. -/
def helperEligible (now : Time) (eventId : EventId) (helperId : UserId) : Bool :=
  let activeUser := (db.users.lookup helperId).any fun u =>
    u.status = .active && u.canHelp && u.deletedAt.isNone
  let member := (db.memberships.lookup (helperId, eventId)).any fun m =>
    m.leftAt.isNone && !m.banned
  let available := (db.availability.lookup (helperId, eventId)).any fun a =>
    a.isOn && a.until.all fun t => now < t
  let activeMatches := db.matchRows.count fun _ m => m.helperId = helperId && m.status = .active
  activeUser && member && available && decide (activeMatches < Limits.maxActiveMatchesPerHelper)

/-- The conditions on the pair: two users, neither has blocked the other, and the
helper has not been asked for this request. -/
def pairEligible (requestId : RequestId) (requesterId helperId : UserId) : Bool :=
  let asked := (db.matchOffers.first fun _ o =>
    o.requestId = requestId && o.helperId = helperId).isSome
  decide (helperId ≠ requesterId) && decide ((helperId, requesterId) ∉ db.blocks) &&
    decide ((requesterId, helperId) ∉ db.blocks) && !asked

def itemEligible (now : Time) (request : Request) (item : InventoryItem) : Bool :=
  decide (item.eventId = request.eventId) && decide (item.categoryId = request.categoryId) &&
    item.active && (item.expiresAt.all fun t => now < t) &&
    decide (0 < item.qtyOnHand - item.qtyReserved)

/-- The radius rule.  Without a requester location everyone is in reach; without
a helper location only when the radius has reached the event's maximum. -/
def inRadius (request : Request) (event : Event) (requesterAt : Option Coords)
    (distance : Option ℚ) : Bool :=
  requesterAt.isNone ||
    match distance with
    | some d => d ≤ request.currentRadiusM
    | none => event.maxMatchRadiusM ≤ request.currentRadiusM

/-- `ST_Distance` of the two live locations. -/
def candidateDistance (env : Env) (request : Request) (helperId : UserId) : Option ℚ := do
  let helperAt ← db.liveLocation env.now helperId request.eventId
  let requesterAt ← db.liveLocation env.now request.requesterId request.eventId
  return env.platform.stDistance helperAt requesterAt

/-- All conditions of the query on an item and its owner. -/
def candidateEligible (env : Env) (requestId : RequestId) (request : Request) (event : Event)
    (item : InventoryItem) : Bool :=
  db.helperEligible env.now request.eventId item.userId &&
    db.pairEligible requestId request.requesterId item.userId &&
    itemEligible env.now request item &&
    inRadius request event
      (db.liveLocation env.now request.requesterId request.eventId)
      (db.candidateDistance env request item.userId)

def toCandidate (env : Env) (request : Request) (itemId : ItemId) (item : InventoryItem) :
    Candidate :=
  { helperId := item.userId
    itemId := itemId
    availableQty := item.qtyOnHand - item.qtyReserved
    distanceM := db.candidateDistance env request item.userId
    recentOffers := db.matchOffers.count fun _ o =>
      o.helperId = item.userId && env.now - 30 * 60000 < o.offeredAt
    counters := rowToCounters (db.reliabilityStats.lookup item.userId) }

/-- The candidate query: the eligible helpers, each with the fullest of their
eligible items, nearest first, at most eight. -/
def candidates (env : Env) (requestId : RequestId) (request : Request) (event : Event)
    (choices : PassChoices) : List Candidate :=
  let rows := (db.inventoryItems.select fun _ item =>
    db.candidateEligible env requestId request event item).map fun e =>
      db.toCandidate env request e.1 e.2
  let distinct := distinctOnHelper none
    ((choices.scanItems.order rows).insertionSort Candidate.innerLe)
  ((choices.scanHelpers.order distinct).insertionSort Candidate.outerLe).take 8

def offerQtyFor (remaining : Qty) (fractional : Bool) (c : Candidate) : Qty :=
  let offerQty := min remaining c.availableQty
  if fractional then offerQty else ⌊offerQty⌋

/-- The best candidate whose clamped quantity is positive, with that quantity. -/
def winner (env : Env) (requestId : RequestId) (request : Request) (event : Event)
    (choices : PassChoices) : Option (Candidate × Qty) :=
  let fractional := (db.categories.lookup request.categoryId).elim false Category.fractional
  let remaining := request.qty - request.qtyFulfilled
  let ranked := rankCandidates (db.candidates env requestId request event choices) choices.rng
  ranked.findSome? fun c =>
    let offerQty := offerQtyFor remaining fractional c
    if offerQty ≤ 0 then none else some (c, offerQty)

/-! ## The pass -/

def pausedRetryDelayMs : ℕ := 30000
def noCandidateRetryDelayMs : ℕ := 20000
def offerTimeoutSlackMs : ℕ := 500

/-- (a) Expiry ends the search: expired if anyone was ever asked, else no match. -/
def expireRequest (env : Env) (requestId : RequestId) (request : Request) :
    Outcome (List Effect × Db) := do
  let db := db.supersedeOffers requestId env.now
  let offerCount := db.matchOffers.count fun _ o => o.requestId = requestId
  let target := if 0 < offerCount then .expired else .noMatch
  let db ← db.transitionRequest requestId request.status target .system (some "expiry") env.now
    fun row => { row with closedAt := some env.now }
  return ([.notify request.requesterId "no_helper_found" "notifications.no_helper_found"
    "request.noMatch" (some ("nomatch:" ++ toString requestId))], db)

/-- (f) Offer the request to the winner. -/
def createOffer (env : Env) (requestId : RequestId) (request : Request) (event : Event)
    (w : Candidate) (offerQty : Qty) : Outcome (List Effect × Db) := do
  let respondBy := env.now + event.offerResponseSeconds * 1000
  let offerId := db.matchOffers.freshKey env.uuid.matchOffer
  let offer : MatchOffer :=
    { requestId := requestId
      helperId := w.helperId
      inventoryItemId := w.itemId
      qty := offerQty
      proximity := bucketForDistanceM w.distanceM
      offeredAt := env.now
      respondBy := respondBy }
  let db := { db with matchOffers := db.matchOffers.put offerId offer }
  let db ← db.transitionRequest requestId request.status .offering .system
    (some "offer-created") env.now fun row =>
      { row with attemptCount := request.attemptCount + 1 }
  let db := db.applyOfferReceived w.helperId env.now
  return ([.offerTimeoutJob offerId (event.offerResponseSeconds * 1000 + offerTimeoutSlackMs),
    .notify w.helperId "match_offer" "offer.title" "notifications.vaguePreview"
      (some ("offer:" ++ toString offerId))], db)

/-- (g) Nobody eligible: widen the ring, or retry later at the maximum radius. -/
def widenOrRetry (requestId : RequestId) (request : Request) (event : Event) :
    Outcome (List Effect × Db) := do
  if request.currentRadiusM < event.maxMatchRadiusM then
    let widened :=
      min (request.currentRadiusM * Limits.radiusExpansionFactor) event.maxMatchRadiusM
    let db ← db.updateRequest requestId fun row => { row with currentRadiusM := widened }
    return ([.matchJob requestId 0], db)
  else
    return ([.matchJob requestId noCandidateRetryDelayMs], db)

def search (env : Env) (requestId : RequestId) (request : Request) (event : Event)
    (choices : PassChoices) : Outcome (List Effect × Db) :=
  match db.winner env requestId request event choices with
  | some (w, offerQty) => db.createOffer env requestId request event w offerQty
  | none => db.widenOrRetry requestId request event

def openOffer (requestId : RequestId) : Option (OfferId × MatchOffer) :=
  db.matchOffers.first fun _ o => o.requestId = requestId && o.status = .offered

/-- (c) Sweep the request's overdue open offer and resume the search. -/
def sweepOverdueOffer (env : Env) (requestId : RequestId) (request : Request) : Outcome Db :=
  let swept := match db.openOffer requestId with
    | some (offerId, _) => db.closeOffer offerId .expired env.now
    | none => db
  swept.transitionRequest requestId request.status .searching .system (some "offer-timeout")
    env.now

/-- (c)–(g) The pass in an active event: wait for an open offer, sweep an overdue
one, search. -/
def resumeSearch (env : Env) (requestId : RequestId) (request : Request) (event : Event)
    (choices : PassChoices) : Outcome (List Effect × Db) := do
  if request.status = .offering then
    if (db.openOffer requestId).any fun o => env.now < o.2.respondBy then return ([], db)
    let db ← db.sweepOverdueOffer env requestId request
    db.search env requestId { request with status := .searching } event choices
  else
    db.search env requestId request event choices

/-- One matching pass over a request. -/
def runMatchPass (env : Env) (requestId : RequestId) (choices : PassChoices) :
    Outcome (List Effect × Db) := do
  let some request := db.requests.lookup requestId | return ([], db)
  if !request.status.isOpen then return ([], db)
  if request.expiresAt ≤ env.now then return ← db.expireRequest env requestId request
  -- (b) Paused and inactive events defer matching.
  let some event := db.events.lookup request.eventId
    | return ([.matchJob requestId pausedRetryDelayMs], db)
  if event.status ≠ .active ∨ event.matchingPaused then
    return ([.matchJob requestId pausedRetryDelayMs], db)
  db.resumeSearch env requestId request event choices

/-! ## Offer timeout -/

/-- Expire an open offer whose deadline has passed. -/
def expireOffer (env : Env) (offerId : OfferId) : Outcome (List Effect × Db) := do
  let some offer := db.matchOffers.lookup offerId | return ([], db)
  if offer.status ≠ .offered ∨ env.now < offer.respondBy then return ([], db)
  let closed := db.closeOffer offerId .expired env.now
  match db.requests.lookup offer.requestId with
  | some request =>
      if request.status = .offering then
        let closed ← closed.transitionRequest offer.requestId request.status .searching .system
          (some "offer-timeout") env.now
        return ([.matchJob offer.requestId 0], closed)
      else return ([.matchJob offer.requestId 0], closed)
  | none => return ([.matchJob offer.requestId 0], closed)

end Db
end Sahay
