import Sahay.Lib.Aggregate
import Sahay.Lib.Double
import Sahay.Server.Access

/-!
# Published figures

`modules/dashboard/service.ts` and `modules/events/bring.ts`: aggregates of an event for
everybody, each with the number of distinct users behind it, and what is derived from them.
-/

namespace Sahay

/-- A quantity and the number of distinct users behind it. -/
structure Agg where
  qty : Qty := 0
  users : ℕ := 0
  deriving DecidableEq

/-- The row of a group in `SELECT SUM(qty), COUNT(DISTINCT user) … GROUP BY`; a group
without rows counts as zero. -/
def Agg.of {κ ρ : Type} (t : Table κ ρ) (p : κ → ρ → Bool) (qty : ρ → Qty) (user : ρ → UserId) :
    Agg :=
  ⟨t.sumWhere p qty, t.countDistinct p user⟩

/-! ## Shortage -/

/-- The position in `SHORTAGE_LEVELS`. -/
def ShortageLevel.severity : ShortageLevel → ℕ
  | .criticalShortage => 0
  | .highNeed => 1
  | .moderateNeed => 2
  | .adequate => 3
  | .possibleSurplus => 4
  | .unknown => 5

def ShortageLevel.name : ShortageLevel → String
  | .criticalShortage => "critical_shortage"
  | .highNeed => "high_need"
  | .moderateNeed => "moderate_need"
  | .adequate => "adequate"
  | .possibleSurplus => "possible_surplus"
  | .unknown => "unknown"

structure ShortageInputs where
  requestedQty : Qty
  offeredQty : Qty
  distinctRequesters : ℕ
  distinctOfferers : ℕ
  kAnonymityThreshold : ℕ

def computeShortage (i : ShortageInputs) : ShortageLevel :=
  if i.distinctRequesters < i.kAnonymityThreshold ∧ i.distinctOfferers < i.kAnonymityThreshold then
    .unknown
  else if i.requestedQty ≤ 0 then
    if (i.kAnonymityThreshold : Qty) < i.offeredQty then .possibleSurplus else .adequate
  else
    let ratio := i.offeredQty / i.requestedQty
    if ratio < 1 / 4 then .criticalShortage
    else if ratio < 3 / 4 then .highNeed
    else if ratio < 5 / 4 then .moderateNeed
    else if ratio < 3 then .adequate
    else .possibleSurplus

/-- The level of a category from its demand and its supply. -/
def shortageLevel (requested offered : Agg) : ShortageLevel :=
  computeShortage
    { requestedQty := requested.qty
      offeredQty := offered.qty
      distinctRequesters := requested.users
      distinctOfferers := offered.users
      kAnonymityThreshold := Limits.kAnonymityThreshold }

/-- A figure needs `k` distinct users behind it. -/
def gateValue (value : Qty) (distinctUsers : ℕ) (k : ℕ := Limits.kAnonymityThreshold) :
    Option Qty :=
  if k ≤ distinctUsers then some value else none

/-! ## Dashboard -/

/-- What a settled match has moved: the smaller confirmation, or the only one.  `SUM` skips
a match without any. -/
def Match.appliedQty (m : Match) : Qty :=
  match m.requesterConfirmedQty.or m.helperConfirmedQty,
    m.helperConfirmedQty.or m.requesterConfirmedQty with
  | some a, some b => min a b
  | _, _ => 0

def Match.settledRecently (now : Time) (m : Match) : Bool :=
  (m.status = .completed || m.status = .partiallyCompleted) &&
    m.closedAt.any fun t => now - 3600000 < t

@[ext]
structure CategoryNeed where
  categoryId : CategoryId
  categorySlug : String
  level : ShortageLevel
  requestedQty : Option Qty
  offeredQty : Option Qty
  reservedQty : Option Qty
  fulfilledRecentQty : Option Qty
  unit : Units
  deriving DecidableEq

structure EventDashboard where
  eventId : EventId
  generatedAt : Time
  approximate : Bool := true
  needs : List CategoryNeed
  recentFulfilments : ℕ
  deriving DecidableEq

@[ext]
structure BringSuggestion where
  categoryId : CategoryId
  categorySlug : String
  level : ShortageLevel
  suggestedQty : Qty
  unit : Units
  reasonKey : String
  deriving DecidableEq

namespace Db

variable (db : Db)

def requestedIn (eventId : EventId) (categoryId : CategoryId) : Agg :=
  .of db.requests
    (fun _ r => r.eventId = eventId && (r.status = .searching || r.status = .offering) &&
      r.categoryId = categoryId)
    (fun r => r.qty - r.qtyFulfilled) Request.requesterId

def offeredIn (now : Time) (eventId : EventId) (categoryId : CategoryId) : Agg :=
  .of db.inventoryItems
    (fun _ item => item.eventId = eventId && item.active &&
      (item.expiresAt.all fun t => now < t) && item.categoryId = categoryId)
    (fun item => item.qtyOnHand - item.qtyReserved) InventoryItem.userId

/-- The category of a match, `JOIN requests r ON r.id = m.request_id`. -/
def matchCategory (m : Match) : Option CategoryId :=
  (db.requests.lookup m.requestId).map Request.categoryId

def reservedIn (eventId : EventId) (categoryId : CategoryId) : Agg :=
  .of db.matchRows
    (fun _ m => m.eventId = eventId && m.status = .active &&
      db.matchCategory m = some categoryId)
    Match.qtyReserved Match.helperId

def fulfilledIn (now : Time) (eventId : EventId) (categoryId : CategoryId) : Agg :=
  .of db.matchRows
    (fun _ m => m.eventId = eventId && m.settledRecently now &&
      db.matchCategory m = some categoryId)
    Match.appliedQty Match.helperId

def recentIn (now : Time) (eventId : EventId) : ℕ × ℕ :=
  let recent := (db.matchRows.select fun _ m => m.eventId = eventId && m.settledRecently now).map
    Prod.snd
  (recent.length, (recent.map Match.requesterId ++ recent.map Match.helperId).dedup.length)

def categoryNeed (now : Time) (eventId : EventId) (cat : Directory.EffectiveCategory) :
    CategoryNeed :=
  let req := db.requestedIn eventId cat.categoryId
  let off := db.offeredIn now eventId cat.categoryId
  let res := db.reservedIn eventId cat.categoryId
  let ful := db.fulfilledIn now eventId cat.categoryId
  { categoryId := cat.categoryId
    categorySlug := cat.category.slug
    level := shortageLevel req off
    requestedQty := gateValue req.qty req.users
    offeredQty := gateValue off.qty off.users
    reservedQty := gateValue res.qty res.users
    fulfilledRecentQty := gateValue ful.qty ful.users
    unit := cat.category.unit }

def computeDashboard (env : Env) (eventId : EventId) : EventDashboard :=
  let (fulfilments, participants) := db.recentIn env.now eventId
  { eventId := eventId
    generatedAt := env.now
    needs := (db.effectiveEventCategories eventId).map (db.categoryNeed env.now eventId)
    recentFulfilments := if Limits.kAnonymityThreshold ≤ participants then fulfilments else 0 }

/-! ## What to bring -/

def othersOfferIn (userId : UserId) (eventId : EventId) (categoryId : CategoryId) : Agg :=
  .of db.inventoryItems
    (fun _ item => item.eventId = eventId && item.active && item.userId ≠ userId &&
      item.categoryId = categoryId)
    (fun item => item.qtyOnHand - item.qtyReserved) InventoryItem.userId

def bringSuggestion (eventId : EventId) (userId : UserId) (cat : Directory.EffectiveCategory) :
    BringSuggestion :=
  let req := db.requestedIn eventId cat.categoryId
  let off := db.othersOfferIn userId eventId cat.categoryId
  let level := shortageLevel req off
  { categoryId := cat.categoryId
    categorySlug := cat.category.slug
    level := level
    suggestedQty :=
      max (min (min (Double.diff req.qty off.qty) (Double.round cat.maxOfferQty)) 10) 0
    unit := cat.category.unit
    reasonKey := "shortage." ++ level.name }

def getBringSuggestions (eventId : EventId) (userId : UserId) : Outcome (List BringSuggestion) := do
  let _ ← found (db.getMembership eventId userId) errors.forbidden
  let suggestions := (db.effectiveEventCategories eventId).map (db.bringSuggestion eventId userId)
  let bySeverity (a b : BringSuggestion) : Prop := a.level.severity ≤ b.level.severity
  return (suggestions.insertionSort bySeverity).take 6

end Db
end Sahay
