import Sahay.Lib.Double
import Sahay.Server.Reliability
import Sahay.Server.Transitions

/-!
# Match lifecycle

`modules/matches/service.ts`: meeting states, confirmation, settlement and
cancellation.  Settlement and cancellation are the only places where a
reservation is released.  Each body runs on the rows that `lockMatchRows` read.
-/

namespace Sahay

/-- `CONVERSATION_GRACE_MS`. -/
def conversationGraceMs : Time := Limits.conversationGraceMinutes * 60000

/-- `FINALIZE_AFTER_FIRST_CONFIRMATION_MS`. -/
def finalizeAfterFirstConfirmationMs : ℕ := 60 * 60000

/-! ## Aliases -/

/-- The first pseudonym among the draws that is not excluded, and the draws left. -/
def drawAlias (exclude : List String) : List (ℕ × ℕ) → Option (String × List (ℕ × ℕ))
  | [] => none
  | d :: draws =>
      let drawn := pseudonymFromIndexes d.1 d.2
      if drawn ∈ exclude then drawAlias exclude draws else some (drawn, draws)

structure MatchAliases where
  requesterAlias : String
  helperAlias : String

def generateMatchAliases (exclude : List String) (draws : List (ℕ × ℕ)) :
    Option MatchAliases := do
  let (requesterAlias, draws) ← drawAlias exclude draws
  let (helperAlias, _) ← drawAlias (requesterAlias :: exclude) draws
  return ⟨requesterAlias, helperAlias⟩

/-! ## Locks -/

structure MatchLocks where
  matchRow : Match
  request : Request
  item : InventoryItem
  fractional : Bool
  conversationId : ConversationId

/-- Which participant of a match. -/
inductive Side
  | requester | helper
  deriving DecidableEq

namespace Match

variable (m : Match)

def sideOf (userId : UserId) : Option Side :=
  if m.requesterId = userId then some .requester
  else if m.helperId = userId then some .helper
  else none

def confirmedQty : Side → Option Qty
  | .requester => m.requesterConfirmedQty
  | .helper => m.helperConfirmedQty

def setConfirmedQty (side : Side) (qty : Qty) : Match :=
  match side with
  | .requester => { m with requesterConfirmedQty := some qty }
  | .helper => { m with helperConfirmedQty := some qty }

def setMeetingState (side : Side) (state : MeetingState) : Match :=
  match side with
  | .requester => { m with requesterMeetingState := state }
  | .helper => { m with helperMeetingState := state }

end Match

def Side.other : Side → Side
  | .requester => .helper
  | .helper => .requester

def Side.actor : Side → TransitionActor
  | .requester => .requester
  | .helper => .helper

/-! ## Options of a settlement and of a cancellation -/

/-- The body of `zConfirmBody`. -/
abbrev ConfirmQty := { q : Qty // 0 ≤ q ∧ q ≤ 10000 }

structure SettleOptions where
  finalQty : Qty
  disputed : Bool
  closeReason : String
  actor : TransitionActor
  senderUserId : UserId
  requesterConfirmedPositive : Bool

def settledMatchStatus (disputed covered : Bool) : MatchStatus :=
  if disputed then .disputed else if covered then .completed else .partiallyCompleted

def settledRequestStatus (request : Request) (newFulfilled : Qty) : RequestStatus :=
  if request.qty ≤ newFulfilled then .fulfilled
  else if 0 < newFulfilled then .partiallyFulfilled
  else .searching

inductive CancelActor
  | requester | helper | moderator
  deriving DecidableEq

structure CancelOptions where
  actor : CancelActor
  /-- The cancelling user, none for moderation. -/
  cancellerUserId : Option UserId
  reason : String
  isUnsafe : Bool
  note : Option String := none

def CancelOptions.matchStatus (opts : CancelOptions) : MatchStatus :=
  if opts.actor = .moderator then .cancelledModeration
  else if opts.isUnsafe then .cancelledUnsafe
  else if opts.actor = .requester then .cancelledByRequester
  else .cancelledByHelper

def CancelOptions.closeReason (opts : CancelOptions) : String :=
  match opts.note with
  | none | some "" => opts.reason
  | some note => opts.reason ++ ": " ++ redactContactDetails note

def Match.postMeeting (m : Match) : Bool :=
  let started (s : MeetingState) : Bool := s = .arrived || s = .exchanging
  started m.requesterMeetingState || started m.helperMeetingState

def CancelActor.route : CancelActor → RequestStatus × TransitionActor
  | .moderator => (.moderated, .moderator)
  | .requester => (.cancelled, .requester)
  | .helper => (.searching, .helper)

def CancelActor.effects (actor : CancelActor) (matchId : MatchId) (m : Match) : List Effect :=
  match actor with
  | .moderator => []
  | .requester =>
      [.notify m.helperId "match_cancelled" "match.cancelled"
        "notifications.matchCancelledHelperBody"
        (some ("matchcancel:" ++ toString matchId ++ ":helper"))]
  | .helper =>
      [.matchJob m.requestId 0,
       .notify m.requesterId "match_cancelled" "match.cancelled"
        "notifications.matchCancelledBody" (some ("matchcancel:" ++ toString matchId))]

/-- The reasons of `zCancelMatch`. -/
inductive CancelReason
  | changedMind | cannotFind | noLongerNeeded | isUnsafe | other
  deriving DecidableEq

def CancelReason.token : CancelReason → String
  | .changedMind => "changed_mind"
  | .cannotFind => "cannot_find"
  | .noLongerNeeded => "no_longer_needed"
  | .isUnsafe => "unsafe"
  | .other => "other"

/-- How the sums of a settlement are computed. -/
structure Arithmetic where
  add : Qty → Qty → Qty
  sub : Qty → Qty → Qty

namespace Arithmetic

@[reducible] def exact : Arithmetic := ⟨fun a b => a + b, fun a b => a - b⟩

/-- `String(Number(a) ± Number(b))`: what the code computes and stores. -/
def double : Arithmetic := ⟨Double.add, Double.sub⟩

end Arithmetic

namespace Db

def conversationOf (db : Db) (matchId : MatchId) : Option ConversationId :=
  (db.conversations.first fun _ c => c.matchId = matchId).map Prod.fst

/-- The rows a settlement or a cancellation works on. -/
def lockMatchRows (db : Db) (matchId : MatchId) : Option MatchLocks := do
  let matchRow ← db.matchRows.lookup matchId
  let request ← db.requests.lookup matchRow.requestId
  let item ← db.inventoryItems.lookup matchRow.inventoryItemId
  let category ← db.categories.lookup request.categoryId
  let conversationId ← db.conversationOf matchId
  return ⟨matchRow, request, item, category.fractional, conversationId⟩

def insertSystemMessage (db : Db) (env : Env) (conversationId : ConversationId)
    (senderId : UserId) (bodyKey : String) : Db :=
  let message : Message :=
    { conversationId := conversationId
      senderId := senderId
      kind := .system
      body := bodyKey
      createdAt := env.now }
  { db with messages := db.messages.put (db.messages.freshKey env.uuid.message) message }

/-- `UPDATE matches SET … WHERE id = …`. -/
def updateMatch (db : Db) (matchId : MatchId) (set : Match → Match) : Db :=
  { db with matchRows := db.matchRows.modify matchId set }

/-- `UPDATE conversations SET … WHERE id = …`. -/
def updateConversation (db : Db) (id : ConversationId) (set : Conversation → Conversation) : Db :=
  { db with conversations := db.conversations.modify id set }

/-! ## Meeting -/

def setMeetingState (matchId : MatchId) (viewerUserId : UserId) (state : MeetingState)
    (db : Db) : Outcome Db := do
  let m ← found (db.matchRows.lookup matchId) errors.notFound
  let side ← found (m.sideOf viewerUserId) errors.notFound
  ensure (m.status = .active) errors.conflict
  return db.updateMatch matchId fun m => m.setMeetingState side state

/-! ## Settlement -/

/-- Count the completion, and a disagreement for both sides, once. -/
def applySettlement (db : Db) (m : Match) (opts : SettleOptions) (now : Time) : Db :=
  if m.reliabilityApplied then db
  else
    let db := db.applyCompleted m.helperId opts.finalQty opts.requesterConfirmedPositive now
    if opts.disputed then (db.applyDispute m.helperId now).applyDispute m.requesterId now
    else db

/-- Deduct `finalQty` from stock, release the whole reservation, credit the
request and close the match.  The source computes with doubles. -/
def settleLocked (env : Env) (matchId : MatchId) (locks : MatchLocks) (opts : SettleOptions)
    (db : Db) (ar : Arithmetic := .exact) : Outcome (List Effect × Db) := do
  let m := locks.matchRow
  let request := locks.request
  let item := locks.item
  let db ←
    if m.inventoryApplied then pure db
    else db.updateInventoryItem m.inventoryItemId fun row =>
      { row with
        qtyOnHand := ar.sub item.qtyOnHand opts.finalQty
        qtyReserved := ar.sub item.qtyReserved m.qtyReserved
        updatedAt := env.now }
  let newFulfilled := ar.add request.qtyFulfilled opts.finalQty
  let covered : Bool := request.qty ≤ newFulfilled
  let db := db.updateMatch matchId fun row =>
    { row with
      status := settledMatchStatus opts.disputed covered
      closedAt := some env.now
      closeReason := some opts.closeReason
      inventoryApplied := true
      reliabilityApplied := true }
  let target := settledRequestStatus request newFulfilled
  let db ← db.transitionRequest m.requestId request.status target opts.actor
    (some opts.closeReason) env.now fun row =>
      { row with
        qtyFulfilled := newFulfilled
        closedAt := if covered then some env.now else row.closedAt }
  let db := db.updateConversation locks.conversationId fun c =>
    { c with expiresAt := some (env.now + conversationGraceMs) }
  let db := db.applySettlement m opts env.now
  let db := db.insertSystemMessage env locks.conversationId opts.senderUserId
    (if opts.disputed then "match.disputeNote" else "match.completed")
  return (if target = .searching then [.matchJob m.requestId 0] else [], db)

/-- Record one side's quantity; the second one settles the match. -/
def confirmCompletion (env : Env) (matchId : MatchId) (viewerUserId : UserId) (qty : ConfirmQty)
    (db : Db) (ar : Arithmetic := .exact) : Outcome (List Effect × Db) := do
  let locks ← found (db.lockMatchRows matchId) errors.notFound
  let m := locks.matchRow
  let side ← found (m.sideOf viewerUserId) errors.notFound
  let mine := m.confirmedQty side
  if mine.isSome ∨ m.status ≠ .active then
    -- Re-confirming the same quantity is a replay, whatever has become of the match.
    ensure (mine = some qty.1) errors.conflict
    return ([], db)
  ensure (qty.1 ≤ m.qtyReserved)
    (errors.validation { field := some "qty", max := some m.qtyReserved })
  ensure (locks.fractional ∨ qty.1.isInt) (errors.validation { field := some "qty" })
  let db := db.updateMatch matchId fun row => row.setConfirmedQty side qty.1
  match m.confirmedQty side.other with
  | none => return ([.finalizeJob matchId finalizeAfterFirstConfirmationMs], db)
  | some other =>
      let requesterQty := if side = .requester then qty.1 else other
      let helperQty := if side = .helper then qty.1 else other
      let disputed : Bool := requesterQty ≠ helperQty
      db.settleLocked env matchId { locks with matchRow := m.setConfirmedQty side qty.1 }
        { finalQty := min requesterQty helperQty
          disputed := disputed
          closeReason := if disputed then "disputed_quantities" else "confirmed"
          actor := side.actor
          senderUserId := viewerUserId
          requesterConfirmedPositive := 0 < requesterQty } ar

/-- Settle with the single reported quantity.  Does nothing unless the match is
active with exactly one confirmation. -/
def autoFinalizeMatch (env : Env) (matchId : MatchId) (db : Db)
    (ar : Arithmetic := .exact) : Outcome (List Effect × Db) := do
  match db.lockMatchRows matchId with
  | none => return ([], db)
  | some locks =>
      let m := locks.matchRow
      if m.status ≠ .active ∨ m.inventoryApplied then return ([], db)
      let settle (side : Side) (finalQty : Qty) :=
        db.settleLocked env matchId locks
          { finalQty := finalQty
            disputed := false
            closeReason := "auto_finalized_unconfirmed_peer"
            actor := .system
            senderUserId := if side = .requester then m.requesterId else m.helperId
            requesterConfirmedPositive := side = .requester ∧ 0 < finalQty } ar
      match m.requesterConfirmedQty, m.helperConfirmedQty with
      | some qty, none => settle .requester qty
      | none, some qty => settle .helper qty
      | _, _ => return ([], db)

/-! ## Cancellation -/

def forgetLocation (db : Db) (m : Match) (opts : CancelOptions) : Db :=
  match opts.isUnsafe, opts.cancellerUserId with
  | true, some userId => { db with memberLocations := db.memberLocations.drop (userId, m.eventId) }
  | _, _ => db

/-- Only a helper's own abandonment costs, and never one for safety. -/
def applyCancellation (db : Db) (m : Match) (opts : CancelOptions) (now : Time) : Db :=
  if opts.actor = .helper ∧ ¬opts.isUnsafe then
    db.applyHelperCancel m.helperId m.postMeeting now
  else db

/-- Release the reservation, close the match and its conversation, and route the
request by who cancelled. -/
def cancelMatchLocked (env : Env) (matchId : MatchId) (locks : MatchLocks)
    (opts : CancelOptions) (db : Db) : Outcome (List Effect × Db) := do
  let m := locks.matchRow
  let item := locks.item
  ensure (m.status = .active) errors.conflict
  let db ←
    if m.inventoryApplied then pure db
    else db.updateInventoryItem m.inventoryItemId fun row =>
      { row with qtyReserved := item.qtyReserved - m.qtyReserved, updatedAt := env.now }
  let db := db.updateMatch matchId fun row =>
    { row with
      status := opts.matchStatus
      closedAt := some env.now
      closeReason := some opts.closeReason
      inventoryApplied := true }
  let closesChat : Bool := opts.isUnsafe ∨ opts.actor = .moderator
  let db := db.updateConversation locks.conversationId fun c =>
    { c with
      status := if closesChat then .readonly else c.status
      expiresAt := some (env.now + conversationGraceMs) }
  let db ← db.transitionRequest m.requestId locks.request.status opts.actor.route.1
    opts.actor.route.2 (some opts.reason) env.now fun row =>
      -- The helper's cancellation reopens the request; the others close it.
      { row with closedAt := if opts.actor = .helper then row.closedAt else some env.now }
  let db := db.forgetLocation m opts
  let db := db.applyCancellation m opts env.now
  let db := db.insertSystemMessage env locks.conversationId
    (opts.cancellerUserId.getD m.requesterId) "match.cancelled"
  return (opts.actor.effects matchId m, db)

def cancelMatchInTx (env : Env) (matchId : MatchId) (opts : CancelOptions) (db : Db) :
    Outcome (List Effect × Db) := do
  let locks ← found (db.lockMatchRows matchId) errors.notFound
  db.cancelMatchLocked env matchId locks opts

/-- A participant cancels. -/
def cancelMatch (env : Env) (matchId : MatchId) (viewerUserId : UserId) (reason : CancelReason)
    (note : Option String) (db : Db) : Outcome (List Effect × Db) := do
  let locks ← found (db.lockMatchRows matchId) errors.notFound
  let side ← found (locks.matchRow.sideOf viewerUserId) errors.notFound
  db.cancelMatchLocked env matchId locks
    { actor := if side = .requester then .requester else .helper
      cancellerUserId := some viewerUserId
      reason := reason.token
      isUnsafe := reason = .isUnsafe
      note := note }

/-- The moderation cancel, also run by sweeps and blocks. -/
def cancelMatchForModeration (env : Env) (matchId : MatchId) (reason : String) (db : Db) :
    Outcome (List Effect × Db) :=
  db.cancelMatchInTx env matchId
    { actor := .moderator, cancellerUserId := none, reason := reason, isUnsafe := false }

end Db
end Sahay
