import Sahay.Refinement.Accounts
import Sahay.Server.Upkeep

/-!
# What is written in the directory

Whatever the backend does in the directory, but for its replacement, is a run of the writes
below: rows of users are rewritten without a look at their credentials, a volunteer signs up,
sessions are opened, revoked and dropped, locations are shared and forgotten.  So what each of
these keeps every operation, sweep and job keeps.
-/

namespace Sahay

/-- The act is not the replacement of the directory that stands for other modules. -/
def UpkeepAct.keepsDirectory : UpkeepAct → Bool
  | .act (.op (.directory _)) => false
  | _ => true

def UpkeepAct.opens (act : UpkeepAct) (tokenHash : String) : Prop :=
  match act with
  | .act (.verifyOtp _ _ draws) | .act (.loginWithPassword _ _ draws) =>
      draws.tokenHash = tokenHash
  | _ => False

def User.credentials (user : User) : Option String × Option String × Bool :=
  (user.username, user.passwordHash, user.mustChangePassword)

def User.detached (user : User) : User := { user with emailHmac := none, emailEnc := none }

def MemberLocation.sharedAt (env : Env) (coords : Coords) : MemberLocation :=
  { geog := coarsen coords
    updatedAt := env.now
    expiresAt := env.now + env.platform.locationTtlMinutes * 60000 }

/-- A row after a write that gives nobody an address and brings no deleted account back. -/
structure User.Rewrites (user user' : User) : Prop where
  credentials : user'.credentials = user.credentials
  address : user'.emailHmac = user.emailHmac ∧ user'.deletedAt = user.deletedAt ∨
    user'.emailHmac = none

/-- The users once a new one has signed up, to whom the one that held the address has lost it. -/
def signedUp (users : Table UserId User) (holder : Option UserId) (id : UserId) (user : User) :
    Table UserId User :=
  (holder.elim users fun id => users.modify id User.detached).put id user

/-- A statement on the directory.  `signs` tells the tokens of the sessions that it may open,
`shares` the members whose location it may store. -/
inductive DirectoryWrite (env : Env) (signs : String → Prop) (shares : UserId × EventId → Prop)
    (dir : Directory) : Directory → Prop
  | users (f : UserId → User → User) (hf : ∀ id user, User.Rewrites user (f id user)) :
      DirectoryWrite env signs shares dir { dir with users := dir.users.mapVal f }
  | signUp (id : UserId) (user : User) (holder : Option UserId)
      (hid : id ∉ dir.users)
      (hholder : holder =
        (dir.users.first fun _ row => row.emailHmac = user.emailHmac).map Prod.fst)
      (hcredentials : user.credentials = (none, none, false))
      (hlive : user.deletedAt = none) :
      DirectoryWrite env signs shares dir { dir with users := signedUp dir.users holder id user }
  | openSession (id : SessionId) (s : Session)
      (hid : id ∉ dir.sessions)
      (hsigns : signs s.tokenHash) :
      DirectoryWrite env signs shares dir { dir with sessions := dir.sessions.put id s }
  | revoke (p : SessionId → Session → Bool) (now : Time) :
      DirectoryWrite env signs shares dir { dir with
        sessions := dir.sessions.updateWhere p fun s => { s with revokedAt := some now } }
  | dropSessions (p : SessionId → Session → Bool) :
      DirectoryWrite env signs shares dir { dir with sessions := dir.sessions.deleteWhere p }
  | share (t : Table (UserId × EventId) MemberLocation) (key : UserId × EventId) (coords : Coords)
      (hshares : shares key)
      (ht : ∀ key', t.lookup key' =
        if key' = key then some (.sharedAt env coords) else dir.memberLocations.lookup key') :
      DirectoryWrite env signs shares dir { dir with memberLocations := t }
  | forget (t : Table (UserId × EventId) MemberLocation)
      (ht : ∀ key l, t.lookup key = some l → dir.memberLocations.lookup key = some l) :
      DirectoryWrite env signs shares dir { dir with memberLocations := t }
  | events (f : EventId → Event → Event) :
      DirectoryWrite env signs shares dir { dir with events := dir.events.mapVal f }
  | availability (t : Table (UserId × EventId) Availability) :
      DirectoryWrite env signs shares dir { dir with availability := t }
  | blocks (t : Table (UserId × UserId) Block) :
      DirectoryWrite env signs shares dir { dir with blocks := t }

abbrev DirectoryRun (env : Env) (signs : String → Prop) (shares : UserId × EventId → Prop) :
    Directory → Directory → Prop :=
  Relation.ReflTransGen (DirectoryWrite env signs shares)

variable {env : Env} {signs : String → Prop} {shares : UserId × EventId → Prop}

theorem DirectoryRun.invariant {P : Directory → Prop}
    (hstep : ∀ dir dir', P dir → DirectoryWrite env signs shares dir dir' → P dir')
    {dir dir' : Directory} (hdir : P dir) (h : DirectoryRun env signs shares dir dir') :
    P dir' := by
  induction h with
  | refl => exact hdir
  | tail _ hlast ih => exact hstep _ _ ih hlast

theorem DirectoryRun.of_eq {dir dir' : Directory} (h : dir' = dir) :
    DirectoryRun env signs shares dir dir' := h ▸ .refl

theorem User.Rewrites.refl (user : User) : user.Rewrites user := ⟨rfl, .inl ⟨rfl, rfl⟩⟩

namespace Db

variable {db db' : Db} {effects : List Effect}

/-! ## Operations that leave the directory as it is -/

theorem updateInventoryItem_toDirectory {id : ItemId} {set : InventoryItem → InventoryItem}
    (h : db.updateInventoryItem id set = .ok db') : db'.toDirectory = db.toDirectory := by
  obtain ⟨item, -, -, rfl⟩ := updateInventoryItem_ok.mp h
  rfl

theorem transitionRequest_toDirectory {id : RequestId} {source target : RequestStatus}
    {actor : TransitionActor} {reason : Option String} {now : Time} {set : Request → Request}
    (h : db.transitionRequest id source target actor reason now set = .ok db') :
    db'.toDirectory = db.toDirectory := by
  obtain ⟨-, r, -, -, rfl⟩ := transitionRequest_ok.mp h
  rfl

theorem addInventory_toDirectory {userId : UserId} {eventId : EventId} {input : AddInventoryInput}
    {itemId : ItemId} (h : db.addInventory env userId eventId input = .ok (itemId, db')) :
    db'.toDirectory = db.toDirectory := by
  rcases addInventory_ok h with ⟨-, rfl⟩ | ⟨item, -, rfl⟩ <;> rfl

theorem deleteInventory_toDirectory {userId : UserId} {itemId : ItemId}
    (h : db.deleteInventory env userId itemId = .ok db') : db'.toDirectory = db.toDirectory := by
  simp only [deleteInventory, bind_ok] at h
  obtain ⟨-, -, h⟩ := h
  split_ifs at h
  · exact updateInventoryItem_toDirectory h
  · obtain rfl := pure_ok.mp h
    rfl

theorem renewRequest_toDirectory {userId : UserId} {requestId : RequestId}
    {expiresInMinutes : ℕ}
    (h : db.renewRequest env userId requestId expiresInMinutes = .ok (effects, db')) :
    db'.toDirectory = db.toDirectory := by
  simp only [renewRequest, bind_ok, pure_ok, Prod.mk.injEq] at h
  obtain ⟨request, -, -, -, mid, hmove, -, rfl⟩ := h
  exact transitionRequest_toDirectory hmove

theorem continueRequest_toDirectory {userId : UserId} {requestId : RequestId}
    {continueSearching : Bool}
    (h : db.continueRequest env userId requestId continueSearching = .ok (effects, db')) :
    db'.toDirectory = db.toDirectory := by
  simp only [continueRequest, bind_ok] at h
  obtain ⟨request, -, -, -, h⟩ := h
  split_ifs at h
  · simp only [bind_ok, pure_ok, Prod.mk.injEq] at h
    obtain ⟨-, -, mid, hmove, -, rfl⟩ := h
    exact transitionRequest_toDirectory hmove
  all_goals
    simp only [bind_ok, pure_ok, Prod.mk.injEq] at h
    obtain ⟨mid, hmove, -, rfl⟩ := h
    exact transitionRequest_toDirectory hmove

theorem closeOpenRequests_toDirectory {target : RequestStatus} {actor : TransitionActor}
    {reason : String} {ids : List RequestId}
    (h : closeOpenRequests env target actor reason ids db = .ok db') :
    db'.toDirectory = db.toDirectory := by
  induction ids generalizing db with
  | nil =>
      obtain rfl := pure_ok.mp h
      rfl
  | cons id ids ih =>
      obtain ⟨mid, hclose, hrest⟩ := bind_ok.mp h
      simp only [closeOpenRequest, bind_ok] at hclose
      obtain ⟨request, -, hmove⟩ := hclose
      have hmoved := transitionRequest_toDirectory hmove
      exact (ih hrest).trans hmoved

theorem acceptOffer_toDirectory {helperId : UserId} {offerId : OfferId} {draws : List (ℕ × ℕ)}
    {outcome : AcceptOutcome}
    (h : db.acceptOffer env helperId offerId draws = .ok (outcome, effects, db')) :
    db'.toDirectory = db.toDirectory := by
  simp only [acceptOffer, bind_ok] at h
  obtain ⟨offer, -, request, -, -, -, item, -, h⟩ := h
  generalize computeReserveQty offer.qty (request.qty - request.qtyFulfilled)
    (if item.active = true then item.qtyOnHand - item.qtyReserved else 0)
    ((db.categories.lookup request.categoryId).elim false Category.fractional) = q at h
  by_cases hnone : q ≤ 0
  · rw [if_pos hnone] at h
    simp only [bind_ok, pure_ok, Prod.mk.injEq] at h
    obtain ⟨mid, hmove, -, -, rfl⟩ := h
    have hmoved := transitionRequest_toDirectory hmove
    exact hmoved
  · rw [if_neg hnone] at h
    simp only [bind_ok, pure_ok, Prod.mk.injEq] at h
    obtain ⟨reserved, hreserve, aliases, -, -, -, mid, hmove, -, -, rfl⟩ := h
    have hmoved := transitionRequest_toDirectory hmove
    have hreserved := updateInventoryItem_toDirectory hreserve
    exact hmoved.trans hreserved

theorem expireOffer_toDirectory {offerId : OfferId}
    (h : db.expireOffer env offerId = .ok (effects, db')) : db'.toDirectory = db.toDirectory := by
  cases expireOffer_cases h with
  | keeps _ => rfl
  | resumes _ _ _ _ _ hmove =>
      have hmoved := transitionRequest_toDirectory hmove
      exact hmoved
  | closes _ _ _ _ => rfl

/-! ### Matching passes -/

section Matching

variable {requestId : RequestId} {request : Request} {event : Event} {choices : PassChoices}

theorem search_toDirectory
    (h : db.search env requestId request event choices = .ok (effects, db')) :
    db'.toDirectory = db.toDirectory := by
  unfold search at h
  split at h
  · obtain ⟨-, r', -, -, -, rfl⟩ := createOffer_ok.mp h
    rfl
  · rcases widenOrRetry_ok.mp h with ⟨-, r, -, -, -, rfl⟩ | ⟨-, -, rfl⟩ <;> rfl

theorem runMatchPass_toDirectory
    (h : db.runMatchPass env requestId choices = .ok (effects, db')) :
    db'.toDirectory = db.toDirectory := by
  cases runMatchPass_cases h with
  | idle _ => rfl
  | expires _ _ _ hexpire =>
      simp only [expireRequest, bind_ok, pure_ok, Prod.mk.injEq] at hexpire
      obtain ⟨mid, hmove, -, rfl⟩ := hexpire
      have hmoved := transitionRequest_toDirectory hmove
      exact hmoved
  | defers _ _ _ _ => rfl
  | resumes hr hopen hunexpired hevent hactive hunpaused hresume =>
      cases resumeSearch_cases hresume with
      | waits _ _ => rfl
      | sweeps _ hover hsweep hsearch =>
          have hswept := transitionRequest_toDirectory hsweep
          refine (search_toDirectory hsearch).trans (hswept.trans ?_)
          split <;> rfl
      | searches hoffering hsearch => exact search_toDirectory hsearch

end Matching

/-! ### Matches and chats -/

section Matches

variable {matchId : MatchId} {locks : MatchLocks}

theorem settleLocked_toDirectory {opts : SettleOptions}
    (h : db.settleLocked env matchId locks opts = .ok (effects, db')) :
    db'.toDirectory = db.toDirectory := by
  unfold settleLocked at h
  cases happlied : locks.matchRow.inventoryApplied with
  | true =>
      simp only [happlied, if_true, bind_ok, pure_ok, Prod.mk.injEq] at h
      obtain ⟨_, rfl, mid, hmove, -, rfl⟩ := h
      simp only [insertSystemMessage_toDirectory, applySettlement_toDirectory]
      have hmoved := transitionRequest_toDirectory hmove
      exact hmoved
  | false =>
      simp only [happlied, Bool.false_eq_true, if_false, bind_ok, pure_ok, Prod.mk.injEq] at h
      obtain ⟨released, hrelease, mid, hmove, -, rfl⟩ := h
      simp only [insertSystemMessage_toDirectory, applySettlement_toDirectory]
      have hmoved := transitionRequest_toDirectory hmove
      have hreleased := updateInventoryItem_toDirectory hrelease
      exact hmoved.trans hreleased

theorem confirmCompletion_toDirectory {viewerUserId : UserId} {qty : ConfirmQty}
    (h : db.confirmCompletion env matchId viewerUserId qty = .ok (effects, db')) :
    db'.toDirectory = db.toDirectory := by
  cases confirmCompletion_cases h with
  | replays _ _ _ => rfl
  | first _ _ _ _ _ _ _ => rfl
  | second _ _ _ _ _ _ _ hsettle =>
      have hsettled := settleLocked_toDirectory hsettle
      exact hsettled

theorem autoFinalizeMatch_toDirectory
    (h : db.autoFinalizeMatch env matchId = .ok (effects, db')) :
    db'.toDirectory = db.toDirectory := by
  rcases db.autoFinalizeMatch_cases env matchId with
    ⟨hidle, -⟩ | ⟨locks, side, qty, -, -, -, -, -, hsettle⟩
  · obtain ⟨-, rfl⟩ := Prod.mk.inj (pure_ok.mp (hidle.symm.trans h))
    rfl
  · rw [hsettle] at h
    exact settleLocked_toDirectory h

theorem sendMessage_toDirectory {conversationId : ConversationId} {viewerUserId : UserId}
    {input : SendMessageInput}
    (h : db.sendMessage env conversationId viewerUserId input = .ok (effects, db')) :
    db'.toDirectory = db.toDirectory := by
  simp only [sendMessage, bind_ok] at h
  obtain ⟨context, -, h⟩ := h
  by_cases hreplay : (db.findMessage viewerUserId input.clientMsgId).isSome
  · rw [if_pos hreplay] at h
    obtain ⟨-, rfl⟩ := Prod.mk.inj (pure_ok.mp h)
    rfl
  · rw [if_neg hreplay] at h
    simp only [bind_ok, pure_ok, Prod.mk.injEq] at h
    obtain ⟨-, -, -, -, -, rfl⟩ := h
    rfl

end Matches

/-! ## Operations that write it -/

theorem stopReceiving_run (db : Db) (userId : UserId) (eventId : EventId) (now : Time) :
    DirectoryRun env signs shares db.toDirectory
      (db.stopReceiving userId eventId now).toDirectory :=
  .single (.availability _)

theorem declineOffer_run {helperId : UserId} {offerId : OfferId} {alsoStopReceiving : Bool}
    (h : db.declineOffer env helperId offerId alsoStopReceiving = .ok (effects, db')) :
    DirectoryRun env signs shares db.toDirectory db'.toDirectory := by
  have hstopped (mid : Db) (eventId : EventId) (hmid : mid.toDirectory = db.toDirectory) :
      DirectoryRun env signs shares db.toDirectory
        (if alsoStopReceiving then mid.stopReceiving helperId eventId env.now
          else mid).toDirectory := by
    rw [← hmid]
    split_ifs
    · exact stopReceiving_run mid helperId eventId env.now
    · exact .refl
  simp only [declineOffer, bind_ok] at h
  obtain ⟨offer, -, request, -, h⟩ := h
  by_cases hoffering : request.status = .offering
  · rw [if_pos hoffering] at h
    simp only [bind_ok, pure_ok, Prod.mk.injEq] at h
    obtain ⟨mid, hmove, -, rfl⟩ := h
    have hmoved := transitionRequest_toDirectory hmove
    exact hstopped _ _ hmoved
  · rw [if_neg hoffering] at h
    simp only [bind_ok, pure_ok, Prod.mk.injEq] at h
    obtain ⟨mid, rfl, -, rfl⟩ := h
    exact hstopped ((db.closeOffer offerId .declined env.now).applyOfferResponded helperId env.now)
      _ rfl

theorem forgetLocation_run (db : Db) (m : Match) (opts : CancelOptions) :
    DirectoryRun env signs shares db.toDirectory (db.forgetLocation m opts).toDirectory := by
  unfold forgetLocation
  split
  · refine .single (.forget _ fun key l hl => ?_)
    rw [Table.lookup_drop] at hl
    split_ifs at hl
    exact hl
  · exact .refl

theorem cancelMatchLocked_run {matchId : MatchId} {locks : MatchLocks} {opts : CancelOptions}
    (h : db.cancelMatchLocked env matchId locks opts = .ok (effects, db')) :
    DirectoryRun env signs shares db.toDirectory db'.toDirectory := by
  have hforgets {mid : Db} (hmid : mid.toDirectory = db.toDirectory) :
      DirectoryRun env signs shares db.toDirectory
        (mid.forgetLocation locks.matchRow opts).toDirectory :=
    hmid ▸ forgetLocation_run mid locks.matchRow opts
  simp only [cancelMatchLocked, bind_ok] at h
  obtain ⟨-, -, h⟩ := h
  cases happlied : locks.matchRow.inventoryApplied with
  | true =>
      simp only [happlied, if_true, bind_ok, pure_ok, Prod.mk.injEq] at h
      obtain ⟨_, rfl, mid, hmove, -, rfl⟩ := h
      simp only [insertSystemMessage_toDirectory, applyCancellation_toDirectory]
      have hmoved := transitionRequest_toDirectory hmove
      exact hforgets hmoved
  | false =>
      simp only [happlied, Bool.false_eq_true, if_false, bind_ok, pure_ok, Prod.mk.injEq] at h
      obtain ⟨released, hrelease, mid, hmove, -, rfl⟩ := h
      simp only [insertSystemMessage_toDirectory, applyCancellation_toDirectory]
      have hmoved := transitionRequest_toDirectory hmove
      have hreleased := updateInventoryItem_toDirectory hrelease
      exact hforgets (hmoved.trans hreleased)

theorem cancelMatchInTx_run {matchId : MatchId} {opts : CancelOptions}
    (h : db.cancelMatchInTx env matchId opts = .ok (effects, db')) :
    DirectoryRun env signs shares db.toDirectory db'.toDirectory := by
  obtain ⟨locks, -, h⟩ := bind_ok.mp h
  exact cancelMatchLocked_run h

theorem cancelMatch_run {matchId : MatchId} {viewerUserId : UserId} {reason : CancelReason}
    {note : Option String}
    (h : db.cancelMatch env matchId viewerUserId reason note = .ok (effects, db')) :
    DirectoryRun env signs shares db.toDirectory db'.toDirectory := by
  simp only [cancelMatch, bind_ok] at h
  obtain ⟨locks, -, side, -, h⟩ := h
  exact cancelMatchLocked_run h

theorem cancelRequest_run {userId : UserId} {requestId : RequestId}
    (h : db.cancelRequest env userId requestId = .ok (effects, db')) :
    DirectoryRun env signs shares db.toDirectory db'.toDirectory := by
  simp only [cancelRequest, bind_ok] at h
  obtain ⟨r, -, h⟩ := h
  split_ifs at h
  · obtain ⟨matchId, -, h⟩ := bind_ok.mp h
    exact cancelMatchInTx_run h
  · simp only [bind_ok, pure_ok, Prod.mk.injEq] at h
    obtain ⟨-, -, mid, hmove, -, rfl⟩ := h
    have hmoved := transitionRequest_toDirectory hmove
    exact .of_eq hmoved

theorem upsertMemberLocation_run (db : Db) {userId : UserId} {eventId : EventId}
    (hshares : shares (userId, eventId)) (coords : Coords) :
    DirectoryRun env signs shares db.toDirectory
      (db.upsertMemberLocation env userId eventId coords).toDirectory := by
  refine .single (.share _ (userId, eventId) coords hshares fun key => ?_)
  rw [Table.lookup_upsert]
  split_ifs
  · cases db.memberLocations.lookup (userId, eventId) <;> rfl
  · rfl

/-- The step signs a request of the member in the event. -/
def OpensRequest (db db' : Db) (key : UserId × EventId) : Prop :=
  ∃ id r, id ∉ db.requests ∧ db'.requests.lookup id = some r ∧ r.requesterId = key.1 ∧
    r.eventId = key.2 ∧ r.status = .searching

theorem createRequest_run {auth : AuthContext} {input : CreateRequestInput}
    (h : db.createRequest env auth input = .ok (effects, db')) :
    DirectoryRun env signs (db.OpensRequest db') db.toDirectory db'.toDirectory := by
  rcases createRequest_ok.mp h with ⟨-, -, rfl⟩ | ⟨-, ticket, hticket, -, hinsert⟩
  · exact .refl
  · have hnew := (prepareRequest_new hticket).1
    simp only [insertRequest, bind_ok, ensure_ok, pure_ok, Prod.mk.injEq] at hinsert
    obtain ⟨-, -, -, -, -, rfl⟩ := hinsert
    split
    · refine upsertMemberLocation_run db ?_ _
      refine ⟨db.requests.freshKey env.uuid.request, { ticket.row with createdAt := env.now },
        Table.freshKey_notMem _ _, ?_, rfl, rfl, hnew⟩
      exact (Table.lookup_put _ _ _ _).trans (if_pos rfl)
    · exact .refl

theorem blockViaMatch_run {userId : UserId} {matchId : MatchId}
    (h : db.blockViaMatch env userId matchId = .ok (effects, db')) :
    DirectoryRun env signs shares db.toDirectory db'.toDirectory := by
  simp only [blockViaMatch, bind_ok, pure_ok, Prod.mk.injEq] at h
  obtain ⟨peer, -, -, rfl⟩ := h
  split_ifs
  · exact .refl
  · exact .single (.blocks _)

/-! ## Moderation -/

theorem modifyUser_write (dir : Directory) (userId : UserId) {set : User → User}
    (hset : ∀ user, User.Rewrites user (set user)) :
    DirectoryWrite env signs shares dir { dir with users := dir.users.modify userId set } := by
  refine .users _ fun id user => ?_
  split_ifs
  · exact hset user
  · exact .refl user

theorem updateUsers_write (dir : Directory) (p : UserId → User → Bool) {set : User → User}
    (hset : ∀ user, User.Rewrites user (set user)) :
    DirectoryWrite env signs shares dir { dir with users := dir.users.updateWhere p set } := by
  refine .users _ fun id user => ?_
  split_ifs
  · exact hset user
  · exact .refl user

theorem moderateUser_run {actorId : UserId} {input : AdminModerateInput}
    {expiresAt : Option Time} {set : User → User}
    (hset : ∀ user, User.Rewrites user (set user))
    (h : db.moderateUser env actorId input expiresAt set = .ok (effects, db')) :
    DirectoryRun env signs shares db.toDirectory db'.toDirectory := by
  simp only [moderateUser, bind_ok, pure_ok, Prod.mk.injEq] at h
  obtain ⟨userId, -, -, rfl⟩ := h
  exact .single (modifyUser_write _ userId hset)

theorem suspend_run {actorId : UserId} {input : AdminModerateInput}
    (h : db.suspend env actorId input = .ok (effects, db')) :
    DirectoryRun env signs shares db.toDirectory db'.toDirectory := by
  simp only [suspend, bind_ok, pure_ok, Prod.mk.injEq] at h
  obtain ⟨userId, -, -, rfl⟩ := h
  let suspended (user : User) : User :=
    { user with
      status := .suspended, suspendedUntil := expiryAfterHours env.now input.durationHours }
  let isLive (_ : SessionId) (s : Session) : Bool := s.userId = userId && s.revokedAt.isNone
  have husers : DirectoryWrite env signs shares db.toDirectory
      { db.toDirectory with users := db.users.modify userId suspended } :=
    modifyUser_write _ userId fun user => ⟨rfl, .inl ⟨rfl, rfl⟩⟩
  refine (Relation.ReflTransGen.single husers).tail (.revoke isLive env.now) |>.tail ?_
  exact .availability _

theorem moderateEvent_run {actorId : UserId} {input : AdminModerateInput} {set : Event → Event}
    {actionId : ActionId} {eventId : EventId}
    (h : db.moderateEvent env actorId input set = .ok (actionId, eventId, db')) :
    DirectoryRun env signs shares db.toDirectory db'.toDirectory := by
  simp only [moderateEvent, bind_ok, pure_ok, Prod.mk.injEq] at h
  obtain ⟨id, -, -, -, rfl⟩ := h
  exact .single (.events _)

theorem disableEvent_run {actorId : UserId} {input : AdminModerateInput}
    (h : db.disableEvent env actorId input = .ok (effects, db')) :
    DirectoryRun env signs shares db.toDirectory db'.toDirectory := by
  simp only [disableEvent, bind_ok, pure_ok, Prod.mk.injEq] at h
  obtain ⟨eventId, -, mid, hclose, -, rfl⟩ := h
  have hclosed := closeOpenRequests_toDirectory hclose
  simp only [recordAction_toDirectory]
  rw [hclosed]
  exact .single (.events _)

theorem moderateReport_run {actorId : UserId} {input : AdminModerateInput} {status : ReportStatus}
    (h : db.moderateReport env actorId input status = .ok (effects, db')) :
    DirectoryRun env signs shares db.toDirectory db'.toDirectory := by
  simp only [moderateReport, bind_ok, pure_ok, Prod.mk.injEq] at h
  obtain ⟨reportId, -, report, -, -, rfl⟩ := h
  exact .refl

theorem moderate_run {auth : AuthContext} {input : AdminModerateInput}
    (h : db.moderate env auth input = .ok (effects, db')) :
    DirectoryRun env signs shares db.toDirectory db'.toDirectory := by
  simp only [moderate, bind_ok] at h
  obtain ⟨-, -, h⟩ := h
  cases haction : input.action <;> simp only [haction] at h
  case warn | restrictRequests | restrictHelping | unsuspend =>
    refine moderateUser_run ?_ h
    exact fun user => ⟨rfl, .inl ⟨rfl, rfl⟩⟩
  case suspend => exact suspend_run h
  case eventPause | eventUnpause | eventApprovePublic | eventRejectPublic =>
    simp only [bind_ok, pure_ok, Prod.mk.injEq] at h
    obtain ⟨r, hmoderate, -, rfl⟩ := h
    exact moderateEvent_run hmoderate
  case eventDisable => exact disableEvent_run h
  case matchCancel =>
    simp only [bind_ok, pure_ok, Prod.mk.injEq] at h
    obtain ⟨matchId, -, m, -, -, rfl⟩ := h
    exact .refl
  case reportResolve | reportDismiss => exact moderateReport_run h

/-! ## Deletion and sweeps -/

theorem deletionStatement_run (db : Db) (userId : UserId) (statement : DeletionStatement) :
    DirectoryRun env signs shares db.toDirectory
      (db.deletionStatement env userId statement).toDirectory := by
  cases statement with
  | sessions => exact .single (.dropSessions _)
  | availability => exact .single (.availability _)
  | memberLocations =>
      refine .single (.forget _ fun key l hl => ?_)
      rw [Table.lookup_deleteWhere] at hl
      exact (Option.filter_eq_some_iff.mp hl).1
  | blocks => exact .single (.blocks _)
  | anonymize avatarSeed =>
      exact .single (modifyUser_write _ userId fun user => ⟨rfl, .inr rfl⟩)
  | _ => exact .refl

theorem lifecycleStatement_run (db : Db) (statement : LifecycleStatement) :
    DirectoryRun env signs shares db.toDirectory
      (db.lifecycleStatement env statement).toDirectory := by
  cases statement with
  | activate | complete | archive => exact .single (.events _)
  | switchOff => exact .single (.availability _)
  | liftSuspensions | restoreFlags =>
      exact .single (updateUsers_write _ _ fun user => ⟨rfl, .inl ⟨rfl, rfl⟩⟩)

theorem upkeepStatement_run (db : Db) (statement : UpkeepStatement) :
    DirectoryRun env signs shares db.toDirectory
      (db.upkeepStatement env statement).toDirectory := by
  cases statement with
  | purgeLocations =>
      refine .single (.forget _ fun key l hl => ?_)
      rw [Table.lookup_deleteWhere] at hl
      exact (Option.filter_eq_some_iff.mp hl).1
  | lapseAvailability | endAvailability => exact .single (.availability _)
  | purgeSessions => exact .single (.dropSessions _)
  | lifecycle statement => exact lifecycleStatement_run db statement
  | _ => exact .refl

/-! ## Every operation -/

theorem exec_directoryRun {op : Op} (hop : (UpkeepAct.act (.op op)).keepsDirectory)
    (h : db.exec env op = .ok (effects, db')) :
    DirectoryRun env signs (db.OpensRequest db') db.toDirectory db'.toDirectory := by
  cases op <;> simp only [exec] at h
  case directory dir => cases hop
  case addInventory token eventId input =>
    obtain ⟨auth, -, -, h⟩ := asUser_ok h
    obtain ⟨⟨itemId, mid⟩, hadd, hpure⟩ := bind_ok.mp (silently_ok h).1
    obtain rfl := pure_ok.mp hpure
    exact .of_eq (addInventory_toDirectory hadd)
  case updateInventory token itemId input =>
    obtain ⟨auth, -, -, h⟩ := asUser_ok h
    obtain ⟨item, -, h⟩ := bind_ok.mp (silently_ok h).1
    obtain ⟨-, -, h⟩ := bind_ok.mp h
    exact .of_eq (updateInventoryItem_toDirectory h)
  case deleteInventory token itemId =>
    obtain ⟨auth, -, -, h⟩ := asUser_ok h
    exact .of_eq (deleteInventory_toDirectory (silently_ok h).1)
  case createRequest token input =>
    obtain ⟨auth, -, -, h⟩ := asUser_ok h
    exact createRequest_run h
  case cancelRequest token requestId =>
    obtain ⟨auth, -, -, h⟩ := asUser_ok h
    exact cancelRequest_run h
  case renewRequest token requestId expiresInMinutes =>
    obtain ⟨auth, -, -, h⟩ := asUser_ok h
    exact .of_eq (renewRequest_toDirectory h)
  case continueRequest token requestId continueSearching =>
    obtain ⟨auth, -, -, h⟩ := asUser_ok h
    exact .of_eq (continueRequest_toDirectory h)
  case runMatchPass requestId choices => exact .of_eq (runMatchPass_toDirectory h)
  case acceptOffer token offerId draws =>
    obtain ⟨auth, -, -, h⟩ := asUser_ok h
    simp only [bind_ok, pure_ok, Prod.mk.injEq] at h
    obtain ⟨r, haccept, -, rfl⟩ := h
    exact .of_eq (acceptOffer_toDirectory haccept)
  case declineOffer token offerId alsoStopReceiving =>
    obtain ⟨auth, -, -, h⟩ := asUser_ok h
    exact declineOffer_run h
  case expireOffer offerId => exact .of_eq (expireOffer_toDirectory h)
  case setMeetingState token matchId state =>
    obtain ⟨auth, -, -, h⟩ := asUser_ok h
    have hset := (silently_ok h).1
    simp only [setMeetingState, bind_ok, pure_ok] at hset
    obtain ⟨-, -, -, -, -, -, rfl⟩ := hset
    exact .refl
  case confirmCompletion token matchId qty =>
    obtain ⟨auth, -, -, h⟩ := asUser_ok h
    exact .of_eq (confirmCompletion_toDirectory h)
  case autoFinalizeMatch matchId => exact .of_eq (autoFinalizeMatch_toDirectory h)
  case cancelMatch token matchId reason note =>
    obtain ⟨auth, -, -, h⟩ := asUser_ok h
    exact cancelMatch_run h
  case cancelMatchForModeration matchId reason => exact cancelMatchInTx_run h
  case moderate token input =>
    obtain ⟨auth, -, h⟩ := bind_ok.mp h
    exact moderate_run h
  case deletionCancelRequests userId =>
    exact .of_eq (closeOpenRequests_toDirectory (silently_ok h).1)
  case deletionZeroInventory userId =>
    have hzero := (silently_ok h).1
    simp only [deletionZeroInventory] at hzero
    split_ifs at hzero
    obtain rfl := pure_ok.mp hzero
    exact .refl
  case deletionStatement userId statement =>
    obtain ⟨-, rfl⟩ := Prod.mk.inj (pure_ok.mp h)
    exact deletionStatement_run db userId statement
  case blockViaMatch token matchId =>
    obtain ⟨auth, -, -, h⟩ := asUser_ok h
    exact blockViaMatch_run h
  case sendMessage token conversationId input =>
    obtain ⟨auth, -, -, h⟩ := asUser_ok h
    exact .of_eq (sendMessage_toDirectory h)

end Db

/-! ## Every act of the backend -/

namespace Backend

variable {lib : TextLib} {b b' : Backend}

theorem accountForEmail_run {email : String} {draws : LoginDraws} {userId : UserId}
    (h : b.accountForEmail env lib email draws = .ok (userId, b')) :
    DirectoryRun env signs shares b.toDirectory b'.toDirectory := by
  unfold accountForEmail at h
  split at h
  · rename_i holder row hfirst
    split_ifs at h
    · obtain ⟨-, rfl⟩ := Prod.mk.inj (pure_ok.mp h)
      exact .refl
    · simp only [createAccount, bind_ok, pure_ok, Prod.mk.injEq] at h
      obtain ⟨-, -, rfl, rfl⟩ := h
      refine .single (.signUp _ _ (some holder) ?_ ?_ rfl rfl)
      · intro hmem
        exact Table.freshKey_notMem _ _ (Table.mem_modify.mpr hmem)
      · rw [hfirst]
        rfl
  · rename_i hfirst
    simp only [createAccount, bind_ok, pure_ok, Prod.mk.injEq] at h
    obtain ⟨-, -, rfl, rfl⟩ := h
    refine .single (.signUp _ _ none (Table.freshKey_notMem _ _) ?_ rfl rfl)
    rw [hfirst]
    rfl

theorem insertSession_run (b : Backend) (userId : UserId) {draws : LoginDraws}
    (hsigns : signs draws.tokenHash) :
    DirectoryRun env signs shares b.toDirectory
      (b.insertSession env userId draws).toDirectory :=
  .single (.openSession _ _ (Table.freshKey_notMem _ _) hsigns)

/-- Whatever an act does, but for replacing the directory, is a run of writes. -/
theorem upkeepStep_run (b : Backend) {act : UpkeepAct} (hact : act.keepsDirectory) :
    DirectoryRun env act.opens
      (b.toDb.OpensRequest (b.upkeepStep lib (env, act)).toDb) b.toDirectory
      (b.upkeepStep lib (env, act)).toDirectory := by
  have hcommit {result : Outcome Backend} {signs : String → Prop}
      {shares : UserId × EventId → Prop}
      (hok : ∀ b', result = .ok b' →
        DirectoryRun env signs shares b.toDirectory b'.toDirectory) :
      DirectoryRun env signs shares b.toDirectory (b.commit result).toDirectory := by
    cases result with
    | ok b' => exact hok b' rfl
    | error e => exact .refl
  cases act with
  | act act =>
      cases act with
      | op op =>
          change DirectoryRun env _ (b.toDb.OpensRequest (b.toDb.step (env, op))) _
            (b.toDb.step (env, op)).toDirectory
          rcases b.toDb.step_cases (env, op) with ⟨effects, h⟩ | h
          · exact Db.exec_directoryRun hact h
          · exact .of_eq (congrArg Db.toDirectory h)
      | lifecycle statement => exact Db.lifecycleStatement_run b.toDb statement
      | createAppeal userId moderationActionId body uuid =>
          refine hcommit fun b' h => ?_
          simp only [Backend.createAppeal, bind_ok, pure_ok] at h
          obtain ⟨-, -, -, -, -, -, rfl⟩ := h
          exact .refl
      | resolveAppeal actorId appealId outcome reason =>
          refine hcommit fun b' h => ?_
          simp only [Backend.resolveAppeal, bind_ok, pure_ok] at h
          obtain ⟨appeal, -, action, -, -, -, rfl⟩ := h
          unfold resolvedUsers
          split
          · refine .single (Db.modifyUser_write _ _ fun user => ?_)
            unfold Backend.overturn
            split
            · split_ifs
              · exact ⟨rfl, .inl ⟨rfl, rfl⟩⟩
              · exact .refl user
            · exact ⟨rfl, .inl ⟨rfl, rfl⟩⟩
            · exact ⟨rfl, .inl ⟨rfl, rfl⟩⟩
            · exact .refl user
          · exact .refl
      | requestAccountDeletion userId confirmPseudonym uuid =>
          refine hcommit fun b' h => ?_
          simp only [Backend.requestAccountDeletion, bind_ok, pure_ok] at h
          obtain ⟨-, -, -, -, rfl⟩ := h
          refine (Relation.ReflTransGen.single (.revoke (fun _ s => s.userId = userId &&
            s.revokedAt.isNone) env.now)).tail ?_
          exact Db.modifyUser_write _ userId fun user => ⟨rfl, .inl ⟨rfl, rfl⟩⟩
      | finishDataRequest id => exact .refl
      | verifyOtp email consumed draws =>
          refine hcommit fun b' h => ?_
          simp only [Backend.verifyOtp, bind_ok, pure_ok] at h
          obtain ⟨-, -, ⟨userId, mid⟩, haccount, rfl⟩ := h
          exact (accountForEmail_run haccount).trans (insertSession_run mid userId rfl)
      | loginWithPassword username password draws =>
          refine hcommit fun b' h => ?_
          simp only [Backend.loginWithPassword, bind_ok, pure_ok] at h
          obtain ⟨⟨userId, user⟩, -, -, -, -, -, -, -, rfl⟩ := h
          exact insertSession_run b userId rfl
      | emergencyShutdown actorId reason => exact .single (.events _)
  | statement statement => exact Db.upkeepStatement_run b.toDb statement
  | patchEvent actorId eventId patch =>
      simp only [upkeepStep]
      split
      · rename_i db hpatch
        simp only [Db.adminPatchEvent, bind_ok, pure_ok] at hpatch
        obtain ⟨-, -, -, -, -, -, rfl⟩ := hpatch
        exact .single (.events _)
      · exact .refl

end Backend
end Sahay
