import Sahay.Server.Requests

/-!
# Moderation, account deletion, blocks

`moderate` of `modules/admin/service.ts`, the deletion processor of
`workers/data-request.ts` and `blockViaMatch` of `modules/safety/service.ts`.
Each ends active matches by a sweep that runs after its own commit: the matches
are listed in the transaction and handed on as one cancellation each.
-/

namespace Sahay

/-! ## Allowlist -/

def moderatorMaxSuspendHours : ℕ := 168

def ModerationActionKind.isAdminOnly : ModerationActionKind → Bool
  | .unsuspend | .eventDisable => true
  | _ => false

/-- Moderators may suspend only for a bounded time. -/
def actionAllowedForRole (action : ModerationActionKind) (role : UserRole)
    (durationHours : Option ℕ) : Bool :=
  match role with
  | .admin => true
  | .user => false
  | .moderator =>
      if action.isAdminOnly then false
      else if action = .suspend then durationHours.any fun h => h ≤ moderatorMaxSuspendHours
      else true

def ModerationActionKind.token : ModerationActionKind → String
  | .warn => "warn"
  | .restrictRequests => "restrict_requests"
  | .restrictHelping => "restrict_helping"
  | .suspend => "suspend"
  | .unsuspend => "unsuspend"
  | .eventPause => "event_pause"
  | .eventUnpause => "event_unpause"
  | .eventDisable => "event_disable"
  | .eventApprovePublic => "event_approve_public"
  | .eventRejectPublic => "event_reject_public"
  | .matchCancel => "match_cancel"
  | .reportResolve => "report_resolve"
  | .reportDismiss => "report_dismiss"

/-- `zAdminModerate`. -/
structure AdminModerateInput where
  action : ModerationActionKind
  targetUserId : Option UserId := none
  targetEventId : Option EventId := none
  targetMatchId : Option MatchId := none
  reportId : Option ReportId := none
  reason : String
  durationHours : Option ℕ := none

/-- What an action records about its target. -/
structure ActionFields where
  targetUserId : Option UserId := none
  targetEventId : Option EventId := none
  targetMatchId : Option MatchId := none
  reportId : Option ReportId := none
  expiresAt : Option Time := none

/-- The end of a timed measure; without a duration, or with the duration zero, it has none. -/
def expiryAfterHours (now : Time) (durationHours : Option ℕ) : Option Time :=
  (durationHours.filter fun h => h ≠ 0).map fun h => now + h * 3600000

/-- `notifyModerationOutcome`. -/
def moderationOutcome (userId : UserId) (actionId : ActionId) : Effect :=
  .notify userId "moderation_outcome" "notifications.moderation_outcome"
    "moderation.outcomeBody" (some ("mod:" ++ toString actionId))

namespace Db

variable (db : Db)

/-! ## Transaction bodies shared by the sweeps -/

def activeMatchesOf (env : Env) (userId : UserId) : List MatchId :=
  env.selectIds db.matchRows fun _ m =>
    m.status = .active && (m.requesterId = userId || m.helperId = userId)

/-- Supersede a request's open offers and move it on; the row is read under the
lock that the loop's query took. -/
def closeOpenRequest (env : Env) (target : RequestStatus) (actor : TransitionActor)
    (reason : String) (requestId : RequestId) : Outcome Db := do
  let request ← found (db.requests.lookup requestId) errors.notFound
  let db := db.supersedeOffers requestId env.now
  db.transitionRequest requestId request.status target actor (some reason) env.now fun row =>
    { row with closedAt := some env.now }

/-- The loop over open requests of an event or of a user. -/
def closeOpenRequests (env : Env) (target : RequestStatus) (actor : TransitionActor)
    (reason : String) : List RequestId → Db → Outcome Db
  | [], db => return db
  | id :: ids, db => do
      let db ← db.closeOpenRequest env target actor reason id
      closeOpenRequests env target actor reason ids db

/-! ## Moderation -/

/-- Append the moderation action and its audit entry. -/
def recordAction (env : Env) (actorId : UserId) (input : AdminModerateInput)
    (fields : ActionFields) (target : String) : ActionId × Db :=
  let actionId := db.moderationActions.freshKey env.uuid.moderationAction
  let row : ModerationAction :=
    { actorId := some actorId
      action := input.action
      targetUserId := fields.targetUserId
      targetEventId := fields.targetEventId
      targetMatchId := fields.targetMatchId
      reportId := fields.reportId
      reason := input.reason
      expiresAt := fields.expiresAt
      createdAt := env.now }
  let entry : AuditEntry :=
    { actorId := some actorId
      action := input.action.token
      target := some target
      reason := some input.reason
      createdAt := env.now }
  (actionId, { db with
    moderationActions := db.moderationActions.put actionId row
    auditLog := db.auditLog ++ [entry] })

def requireUser (userId : Option UserId) : Outcome UserId := do
  let userId ← found userId (errors.validation { field := some "targetUserId" })
  let _ ← found (db.users.lookup userId) errors.notFound
  return userId

/-- The target of an action on an event. -/
def requireEvent (eventId : Option EventId) : Outcome EventId := do
  let eventId ← found eventId (errors.validation { field := some "targetEventId" })
  let _ ← found (db.events.lookup eventId) errors.notFound
  return eventId

/-- An action that rewrites the user's row, records itself and notifies the user. -/
def moderateUser (env : Env) (actorId : UserId) (input : AdminModerateInput)
    (expiresAt : Option Time) (set : User → User) : Outcome (List Effect × Db) := do
  let userId ← db.requireUser input.targetUserId
  let db := { db with users := db.users.modify userId set }
  let (actionId, db) := db.recordAction env actorId input
    { targetUserId := some userId, expiresAt := expiresAt } ("user:" ++ toString userId)
  return ([moderationOutcome userId actionId], db)

/-- An action that rewrites the event's row and records itself. -/
def moderateEvent (env : Env) (actorId : UserId) (input : AdminModerateInput)
    (set : Event → Event) : Outcome (ActionId × EventId × Db) := do
  let eventId ← db.requireEvent input.targetEventId
  let db := { db with events := db.events.modify eventId set }
  let (actionId, db) := db.recordAction env actorId input
    { targetEventId := some eventId } ("event:" ++ toString eventId)
  return (actionId, eventId, db)

/-- Suspend: revoke the sessions, switch availability off, and list the active
matches for the sweep. -/
def suspend (env : Env) (actorId : UserId) (input : AdminModerateInput) :
    Outcome (List Effect × Db) := do
  let userId ← db.requireUser input.targetUserId
  let suspendedUntil := expiryAfterHours env.now input.durationHours
  let setUser (user : User) : User :=
    { user with status := .suspended, suspendedUntil := suspendedUntil }
  let isLive (_ : SessionId) (s : Session) : Bool := s.userId = userId && s.revokedAt.isNone
  let revoke (s : Session) : Session := { s with revokedAt := some env.now }
  let switchOff (a : Availability) : Availability :=
    { a with isOn := false, «until» := none, updatedAt := env.now }
  let db := { db with
    users := db.users.modify userId setUser
    sessions := db.sessions.updateWhere isLive revoke
    availability := db.availability.updateWhere (fun key _ => key.1 = userId) switchOff }
  let activeMatches := db.activeMatchesOf env userId
  let (actionId, db) := db.recordAction env actorId input
    { targetUserId := some userId, expiresAt := suspendedUntil } ("user:" ++ toString userId)
  return (activeMatches.map (fun id => .cancelMatchForModeration id "moderation_suspend") ++
    [moderationOutcome userId actionId], db)

/-- Disable an event: its open requests end here, its matches by the sweep. -/
def disableEvent (env : Env) (actorId : UserId) (input : AdminModerateInput) :
    Outcome (List Effect × Db) := do
  let eventId ← db.requireEvent input.targetEventId
  let disable (event : Event) : Event := { event with status := .disabled }
  let db := { db with events := db.events.modify eventId disable }
  let opened := env.selectIds db.requests fun _ r => r.eventId = eventId && r.status.isOpen
  let db ← closeOpenRequests env .moderated .moderator input.reason opened db
  let activeMatches := env.selectIds db.matchRows fun _ m =>
    m.eventId = eventId && m.status = .active
  let (_, db) := db.recordAction env actorId input
    { targetEventId := some eventId } ("event:" ++ toString eventId)
  return (activeMatches.map fun id => .cancelMatchForModeration id "event_disabled", db)

def moderateReport (env : Env) (actorId : UserId) (input : AdminModerateInput)
    (status : ReportStatus) : Outcome (List Effect × Db) := do
  let reportId ← found input.reportId (errors.validation { field := some "reportId" })
  let report ← found (db.reports.lookup reportId) errors.notFound
  let resolve (row : Report) : Report :=
    { row with
      status := status
      resolution := some input.reason
      resolvedBy := some actorId
      resolvedAt := some env.now }
  let db := { db with reports := db.reports.modify reportId resolve }
  let (actionId, db) := db.recordAction env actorId input
    { reportId := some reportId
      targetUserId := report.subjectUserId
      targetEventId := report.subjectEventId } ("report:" ++ toString reportId)
  return ((report.reporterId.map fun id => moderationOutcome id actionId).toList, db)

/-- The transaction of a moderation action, and what follows its commit. -/
def moderate (env : Env) (actor : AuthContext) (input : AdminModerateInput) :
    Outcome (List Effect × Db) := do
  ensure (actionAllowedForRole input.action actor.role input.durationHours) errors.forbidden
  let actorId := actor.userId
  let expiresAt := expiryAfterHours env.now input.durationHours
  match input.action with
  | .warn => db.moderateUser env actorId input none fun user => user
  | .restrictRequests =>
      db.moderateUser env actorId input expiresAt fun user => { user with canRequest := false }
  | .restrictHelping =>
      db.moderateUser env actorId input expiresAt fun user => { user with canHelp := false }
  | .suspend => db.suspend env actorId input
  | .unsuspend =>
      db.moderateUser env actorId input none fun user =>
        { user with
          status := .active, suspendedUntil := none, canRequest := true, canHelp := true }
  | .eventPause =>
      let (_, _, db) ← db.moderateEvent env actorId input fun event =>
        { event with matchingPaused := true }
      return ([], db)
  | .eventUnpause =>
      let (_, _, db) ← db.moderateEvent env actorId input fun event =>
        { event with matchingPaused := false }
      return ([], db)
  | .eventApprovePublic =>
      let (_, _, db) ← db.moderateEvent env actorId input fun event =>
        { event with publicApproved := true }
      return ([], db)
  | .eventRejectPublic =>
      let (actionId, eventId, db) ← db.moderateEvent env actorId input fun event =>
        { event with publicApproved := false }
      let creator := (db.events.lookup eventId).bind Event.createdBy
      return ((creator.map fun id => moderationOutcome id actionId).toList, db)
  | .eventDisable => db.disableEvent env actorId input
  | .matchCancel =>
      let matchId ← found input.targetMatchId
        (errors.validation { field := some "targetMatchId" })
      let m ← found (db.matchRows.lookup matchId) errors.notFound
      let (_, db) := db.recordAction env actorId input
        { targetMatchId := some matchId } ("match:" ++ toString matchId)
      return (if m.status = .active then [.cancelMatchForModeration matchId input.reason]
        else [], db)
  | .reportResolve => db.moderateReport env actorId input .resolved
  | .reportDismiss => db.moderateReport env actorId input .dismissed

/-! ## Account deletion -/

def deletionSweep (env : Env) (userId : UserId) : List Effect :=
  (db.activeMatchesOf env userId).map fun id => .cancelMatchForModeration id "account_deleted"

def deletionCancelRequests (env : Env) (userId : UserId) : Outcome Db :=
  let opened := env.selectIds db.requests fun _ r => r.requesterId = userId && r.status.isOpen
  closeOpenRequests env .cancelled .system "account_deleted" opened db

/-- Step 4: stock collapses to what is still reserved. -/
def deletionZeroInventory (env : Env) (userId : UserId) : Outcome Db :=
  let zero (item : InventoryItem) : InventoryItem :=
    { item with qtyOnHand := item.qtyReserved, active := false, updatedAt := env.now }
  let owned := db.inventoryItems.select fun _ item => item.userId = userId
  if owned.all fun e => (zero e.2).check then
    return { db with inventoryItems :=
      db.inventoryItems.updateWhere (fun _ item => item.userId = userId) zero }
  else throw (.checkViolation .inventoryItems)

/-- The statements of steps 3 to 7 other than the inventory's; each commits by
itself. -/
inductive DeletionStatement
  | sessions | pushTokens | availability | memberLocations
  | notifications | notificationPrefs | blocks
  /-- Step 7, with the fresh avatar seed. -/
  | anonymize (avatarSeed : String)

def deletionStatement (env : Env) (userId : UserId) : DeletionStatement → Db
  | .sessions =>
      { db with sessions := db.sessions.deleteWhere fun _ s => s.userId = userId }
  | .pushTokens =>
      { db with pushTokens := db.pushTokens.deleteWhere fun _ t => t.userId = userId }
  | .availability =>
      { db with availability := db.availability.deleteWhere fun key _ => key.1 = userId }
  | .memberLocations =>
      { db with memberLocations := db.memberLocations.deleteWhere fun key _ => key.1 = userId }
  | .notifications =>
      { db with notifications := db.notifications.deleteWhere fun _ n => n.userId = userId }
  | .notificationPrefs => { db with notificationPrefs := db.notificationPrefs.drop userId }
  | .blocks => { db with blocks := db.blocks.deleteWhere fun key _ => key.1 = userId }
  | .anonymize avatarSeed =>
      let scrub (user : User) : User :=
        { user with
          pseudonym := "Deleted User"
          avatarSeed := avatarSeed
          phoneEnc := none
          phoneHmac := none
          phoneVerifiedAt := none
          emailEnc := none
          emailHmac := none
          emailVerifiedAt := none
          status := .deleted
          deletedAt := some env.now }
      { db with users := db.users.modify userId scrub }

/-! ## Blocks -/

/-- `loadMatchForParticipant`: the match, and the user on its other side. -/
def matchPeer (matchId : MatchId) (userId : UserId) : Outcome (Match × UserId) := do
  let m ← found (db.matchRows.lookup matchId) errors.notFound
  let side ← found (m.sideOf userId) errors.notFound
  return (m, if side = .requester then m.helperId else m.requesterId)

/-- Block the counterpart of a match, and cancel that match if it is active. -/
def blockViaMatch (env : Env) (userId : UserId) (matchId : MatchId) :
    Outcome (List Effect × Db) := do
  let (m, blockedId) ← db.matchPeer matchId userId
  let db :=
    if (userId, blockedId) ∈ db.blocks then db
    else { db with blocks := db.blocks.put (userId, blockedId) { createdAt := env.now } }
  return (if m.status = .active then [.cancelMatchForModeration matchId "blocked"] else [], db)

end Db
end Sahay
