import Sahay.Refinement.Matching
import Sahay.Refinement.System

/-!
# What becomes of the active items

Only adding an item and updating one can make an item active.  Every other operation
leaves the stock alone or rewrites items that keep their owner, their event and whether
they are active, or deactivates or deletes them.
-/

namespace Sahay

def Op.stocks : Op → Bool
  | .addInventory .. | .updateInventory .. => true
  | _ => false

namespace Db

/-- How many active items the user has in the event. -/
def activeItems (db : Db) (userId : UserId) (eventId : EventId) : ℕ :=
  db.inventoryItems.count fun _ item =>
    item.userId = userId && item.eventId = eventId && item.active

/-- Every active item was active before, with the same owner and in the same event. -/
def KeepsActiveItems (db db' : Db) : Prop :=
  Table.Inherits (fun item : InventoryItem => item.active = true) InventoryItem.identity
    db.inventoryItems db'.inventoryItems

variable {db db' db'' : Db}

theorem KeepsActiveItems.of_eq (h : db'.inventoryItems = db.inventoryItems) :
    KeepsActiveItems db db' := by
  rw [KeepsActiveItems, h]
  exact .refl _ _ _

theorem KeepsActiveItems.congr (h : KeepsActiveItems db db')
    (hitems : db''.inventoryItems = db'.inventoryItems) : KeepsActiveItems db db'' := by
  rwa [KeepsActiveItems, hitems]

theorem KeepsActiveItems.activeItems_le (h : KeepsActiveItems db db') (userId : UserId)
    (eventId : EventId) : db'.activeItems userId eventId ≤ db.activeItems userId eventId := by
  apply Table.count_le_count
  intro itemId item' hi' hp
  simp only [Bool.and_eq_true, decide_eq_true_eq] at hp ⊢
  obtain ⟨⟨howner, hevent⟩, hactive⟩ := hp
  obtain ⟨item, hi, hactive, hid⟩ := h itemId item' hi' hactive
  simp only [InventoryItem.identity, Prod.mk.injEq] at hid
  exact ⟨item, hi, ⟨hid.1 ▸ howner, hid.2.1 ▸ hevent⟩, hactive⟩

/-! ## Statements -/

variable {env : Env} {effects : List Effect}

theorem updateInventoryItem_keepsActiveItems {id : ItemId}
    {set : InventoryItem → InventoryItem} (h : db.updateInventoryItem id set = .ok db')
    (hset : ∀ item, (set item).active = true → item.active = true)
    (hid : ∀ item, (set item).identity = item.identity) : KeepsActiveItems db db' := by
  obtain ⟨item, hi, -, rfl⟩ := updateInventoryItem_ok.mp h
  exact .replace hi fun hactive => ⟨hset item hactive, hid item⟩

theorem transitionRequest_inventoryItems {id : RequestId} {source target : RequestStatus}
    {actor : TransitionActor} {reason : Option String} {now : Time} {set : Request → Request}
    (h : db.transitionRequest id source target actor reason now set = .ok db') :
    db'.inventoryItems = db.inventoryItems := by
  obtain ⟨-, r, -, -, rfl⟩ := transitionRequest_ok.mp h
  rfl

theorem closeOpenRequests_inventoryItems {target : RequestStatus} {actor : TransitionActor}
    {reason : String} {ids : List RequestId}
    (h : closeOpenRequests env target actor reason ids db = .ok db') :
    db'.inventoryItems = db.inventoryItems := by
  induction ids generalizing db with
  | nil =>
      obtain rfl := pure_ok.mp h
      rfl
  | cons id ids ih =>
      obtain ⟨mid, hclose, hrest⟩ := bind_ok.mp h
      simp only [closeOpenRequest, bind_ok] at hclose
      obtain ⟨request, -, hmove⟩ := hclose
      have hmid := transitionRequest_inventoryItems hmove
      exact (ih hrest).trans hmid

/-! ## Requests -/

theorem createRequest_inventoryItems {auth : AuthContext} {input : CreateRequestInput}
    (h : db.createRequest env auth input = .ok (effects, db')) :
    db'.inventoryItems = db.inventoryItems := by
  rcases createRequest_ok.mp h with ⟨-, -, rfl⟩ | ⟨-, ticket, -, -, hinsert⟩
  · rfl
  · rw [(insertRequest_ok hinsert).2.1]

theorem renewRequest_inventoryItems {userId : UserId} {requestId : RequestId}
    {expiresInMinutes : ℕ}
    (h : db.renewRequest env userId requestId expiresInMinutes = .ok (effects, db')) :
    db'.inventoryItems = db.inventoryItems := by
  simp only [renewRequest, bind_ok, pure_ok, Prod.mk.injEq] at h
  obtain ⟨request, -, -, -, mid, hmove, -, rfl⟩ := h
  exact transitionRequest_inventoryItems hmove

theorem continueRequest_inventoryItems {userId : UserId} {requestId : RequestId}
    {continueSearching : Bool}
    (h : db.continueRequest env userId requestId continueSearching = .ok (effects, db')) :
    db'.inventoryItems = db.inventoryItems := by
  simp only [continueRequest, bind_ok] at h
  obtain ⟨request, -, -, -, h⟩ := h
  split_ifs at h
  · simp only [bind_ok, pure_ok, Prod.mk.injEq] at h
    obtain ⟨-, -, mid, hmove, -, rfl⟩ := h
    exact transitionRequest_inventoryItems hmove
  all_goals
    simp only [bind_ok, pure_ok, Prod.mk.injEq] at h
    obtain ⟨mid, hmove, -, rfl⟩ := h
    exact transitionRequest_inventoryItems hmove

/-! ## Offers and passes -/

variable {requestId : RequestId} {request : Request} {event : Event} {choices : PassChoices}

theorem declineOffer_inventoryItems {helperId : UserId} {offerId : OfferId}
    {alsoStopReceiving : Bool}
    (h : db.declineOffer env helperId offerId alsoStopReceiving = .ok (effects, db')) :
    db'.inventoryItems = db.inventoryItems := by
  have hstopped (mid : Db) (eventId : EventId) :
      (if alsoStopReceiving then mid.stopReceiving helperId eventId env.now
        else mid).inventoryItems = mid.inventoryItems := by
    split_ifs <;> rfl
  simp only [declineOffer, bind_ok] at h
  obtain ⟨offer, -, request, -, h⟩ := h
  by_cases hoffering : request.status = .offering
  · rw [if_pos hoffering] at h
    simp only [bind_ok, pure_ok, Prod.mk.injEq] at h
    obtain ⟨mid, hmove, -, rfl⟩ := h
    have hmid := transitionRequest_inventoryItems hmove
    exact (hstopped mid _).trans hmid
  · rw [if_neg hoffering] at h
    simp only [bind_ok, pure_ok, Prod.mk.injEq] at h
    obtain ⟨_, rfl, -, rfl⟩ := h
    exact hstopped _ _

theorem expireOffer_inventoryItems {offerId : OfferId}
    (h : db.expireOffer env offerId = .ok (effects, db')) :
    db'.inventoryItems = db.inventoryItems := by
  cases expireOffer_cases h with
  | keeps _ => rfl
  | resumes _ _ _ _ _ hmove =>
      have hmid := transitionRequest_inventoryItems hmove
      exact hmid
  | closes _ _ _ _ => rfl

theorem search_inventoryItems
    (h : db.search env requestId request event choices = .ok (effects, db')) :
    db'.inventoryItems = db.inventoryItems := by
  unfold search at h
  split at h
  · obtain ⟨-, r, -, -, -, rfl⟩ := createOffer_ok.mp h
    rfl
  · rcases widenOrRetry_ok.mp h with ⟨-, r, -, -, -, rfl⟩ | ⟨-, -, rfl⟩ <;> rfl

theorem sweepOverdueOffer_inventoryItems
    (h : db.sweepOverdueOffer env requestId request = .ok db') :
    db'.inventoryItems = db.inventoryItems := by
  refine (transitionRequest_inventoryItems h).trans ?_
  cases db.openOffer requestId <;> rfl

theorem runMatchPass_inventoryItems
    (h : db.runMatchPass env requestId choices = .ok (effects, db')) :
    db'.inventoryItems = db.inventoryItems := by
  cases runMatchPass_cases h with
  | idle _ => rfl
  | expires _ _ _ hexpire =>
      simp only [expireRequest, bind_ok, pure_ok, Prod.mk.injEq] at hexpire
      obtain ⟨mid, hmove, -, rfl⟩ := hexpire
      have hmid := transitionRequest_inventoryItems hmove
      exact hmid
  | defers _ _ _ _ => rfl
  | resumes _ _ _ _ _ _ hresume =>
      cases resumeSearch_cases hresume with
      | waits _ _ => rfl
      | sweeps _ _ hsweep hsearch =>
          exact (search_inventoryItems hsearch).trans (sweepOverdueOffer_inventoryItems hsweep)
      | searches _ hsearch => exact search_inventoryItems hsearch

theorem acceptOffer_keepsActiveItems {helperId : UserId} {offerId : OfferId}
    {draws : List (ℕ × ℕ)} {outcome : AcceptOutcome}
    (h : db.acceptOffer env helperId offerId draws = .ok (outcome, effects, db')) :
    KeepsActiveItems db db' := by
  simp only [acceptOffer, bind_ok] at h
  obtain ⟨offer, -, request, -, -, -, item, -, h⟩ := h
  generalize computeReserveQty offer.qty (request.qty - request.qtyFulfilled)
    (if item.active = true then item.qtyOnHand - item.qtyReserved else 0)
    ((db.categories.lookup request.categoryId).elim false Category.fractional) = q at h
  by_cases hnone : q ≤ 0
  · rw [if_pos hnone] at h
    simp only [bind_ok, pure_ok, Prod.mk.injEq] at h
    obtain ⟨mid, hmove, -, -, rfl⟩ := h
    have hmid := transitionRequest_inventoryItems hmove
    exact .of_eq hmid
  · rw [if_neg hnone] at h
    simp only [bind_ok, pure_ok, Prod.mk.injEq] at h
    obtain ⟨reserved, hreserve, aliases, -, -, -, mid, hmove, -, -, rfl⟩ := h
    have hreserved : KeepsActiveItems db reserved :=
      updateInventoryItem_keepsActiveItems hreserve (fun _ hactive => hactive) fun _ => rfl
    have hmid := transitionRequest_inventoryItems hmove
    exact hreserved.congr hmid

/-! ## Matches -/

variable {matchId : MatchId} {locks : MatchLocks}

theorem settleLocked_keepsActiveItems {opts : SettleOptions}
    (h : db.settleLocked env matchId locks opts = .ok (effects, db')) :
    KeepsActiveItems db db' := by
  unfold settleLocked at h
  cases happlied : locks.matchRow.inventoryApplied with
  | true =>
      simp only [happlied, if_true, bind_ok, pure_ok, Prod.mk.injEq] at h
      obtain ⟨_, rfl, mid, hmove, -, rfl⟩ := h
      have hmid := transitionRequest_inventoryItems hmove
      refine .of_eq ?_
      simp only [insertSystemMessage_toExchange, applySettlement_toExchange]
      exact hmid
  | false =>
      simp only [happlied, Bool.false_eq_true, if_false, bind_ok, pure_ok, Prod.mk.injEq] at h
      obtain ⟨released, hrelease, mid, hmove, -, rfl⟩ := h
      have hreleased : KeepsActiveItems db released :=
        updateInventoryItem_keepsActiveItems hrelease (fun _ hactive => hactive) fun _ => rfl
      have hmid := transitionRequest_inventoryItems hmove
      refine hreleased.congr ?_
      simp only [insertSystemMessage_toExchange, applySettlement_toExchange]
      exact hmid

theorem confirmCompletion_keepsActiveItems {viewerUserId : UserId} {qty : ConfirmQty}
    (h : db.confirmCompletion env matchId viewerUserId qty = .ok (effects, db')) :
    KeepsActiveItems db db' := by
  cases confirmCompletion_cases h with
  | replays _ _ _ => exact .of_eq rfl
  | first _ _ _ _ _ _ _ => exact .of_eq rfl
  | second _ _ _ _ _ _ _ hsettle =>
      have hsettled := settleLocked_keepsActiveItems hsettle
      exact hsettled

theorem autoFinalizeMatch_keepsActiveItems
    (h : db.autoFinalizeMatch env matchId = .ok (effects, db')) : KeepsActiveItems db db' := by
  rcases db.autoFinalizeMatch_cases env matchId with
    ⟨hidle, -⟩ | ⟨locks, side, qty, -, -, -, -, -, hsettle⟩
  · obtain ⟨-, rfl⟩ := Prod.mk.inj (pure_ok.mp (hidle.symm.trans h))
    exact .of_eq rfl
  · rw [hsettle] at h
    exact settleLocked_keepsActiveItems h

theorem cancelMatchLocked_keepsActiveItems {opts : CancelOptions}
    (h : db.cancelMatchLocked env matchId locks opts = .ok (effects, db')) :
    KeepsActiveItems db db' := by
  simp only [cancelMatchLocked, bind_ok] at h
  obtain ⟨-, -, h⟩ := h
  cases happlied : locks.matchRow.inventoryApplied with
  | true =>
      simp only [happlied, if_true, bind_ok, pure_ok, Prod.mk.injEq] at h
      obtain ⟨_, rfl, mid, hmove, -, rfl⟩ := h
      have hmid := transitionRequest_inventoryItems hmove
      refine .of_eq ?_
      simp only [insertSystemMessage_toExchange, applyCancellation_toExchange,
        forgetLocation_toExchange]
      exact hmid
  | false =>
      simp only [happlied, Bool.false_eq_true, if_false, bind_ok, pure_ok, Prod.mk.injEq] at h
      obtain ⟨released, hrelease, mid, hmove, -, rfl⟩ := h
      have hreleased : KeepsActiveItems db released :=
        updateInventoryItem_keepsActiveItems hrelease (fun _ hactive => hactive) fun _ => rfl
      have hmid := transitionRequest_inventoryItems hmove
      refine hreleased.congr ?_
      simp only [insertSystemMessage_toExchange, applyCancellation_toExchange,
        forgetLocation_toExchange]
      exact hmid

theorem cancelMatchInTx_keepsActiveItems {opts : CancelOptions}
    (h : db.cancelMatchInTx env matchId opts = .ok (effects, db')) : KeepsActiveItems db db' := by
  simp only [cancelMatchInTx, bind_ok] at h
  obtain ⟨locks, -, h⟩ := h
  exact cancelMatchLocked_keepsActiveItems h

theorem cancelMatch_keepsActiveItems {viewerUserId : UserId} {reason : CancelReason}
    {note : Option String}
    (h : db.cancelMatch env matchId viewerUserId reason note = .ok (effects, db')) :
    KeepsActiveItems db db' := by
  simp only [cancelMatch, bind_ok] at h
  obtain ⟨locks, -, side, -, h⟩ := h
  exact cancelMatchLocked_keepsActiveItems h

theorem cancelRequest_keepsActiveItems {userId : UserId}
    (h : db.cancelRequest env userId requestId = .ok (effects, db')) :
    KeepsActiveItems db db' := by
  simp only [cancelRequest, bind_ok] at h
  obtain ⟨r, -, h⟩ := h
  split_ifs at h
  · simp only [bind_ok] at h
    obtain ⟨matchId, -, h⟩ := h
    exact cancelMatchInTx_keepsActiveItems h
  · simp only [bind_ok, pure_ok, Prod.mk.injEq] at h
    obtain ⟨-, -, mid, hmove, -, rfl⟩ := h
    have hmid := transitionRequest_inventoryItems hmove
    exact .of_eq hmid

/-! ## Deletion and moderation -/

theorem deleteInventory_keepsActiveItems {userId : UserId} {itemId : ItemId}
    (h : db.deleteInventory env userId itemId = .ok db') : KeepsActiveItems db db' := by
  simp only [deleteInventory, bind_ok] at h
  obtain ⟨-, -, h⟩ := h
  split_ifs at h
  · exact updateInventoryItem_keepsActiveItems h (fun _ hactive => by cases hactive) fun _ => rfl
  · obtain rfl := pure_ok.mp h
    intro id item hi hactive
    rw [Table.lookup_drop] at hi
    split_ifs at hi
    exact ⟨item, hi, hactive, rfl⟩

theorem deletionZeroInventory_keepsActiveItems {userId : UserId}
    (h : db.deletionZeroInventory env userId = .ok db') : KeepsActiveItems db db' := by
  simp only [deletionZeroInventory] at h
  split_ifs at h
  obtain rfl := pure_ok.mp h
  exact .updateWhere _ _ fun _ hactive => by cases hactive

theorem moderate_inventoryItems {auth : AuthContext} {input : AdminModerateInput}
    (h : db.moderate env auth input = .ok (effects, db')) :
    db'.inventoryItems = db.inventoryItems := by
  simp only [moderate, bind_ok] at h
  obtain ⟨-, -, h⟩ := h
  cases haction : input.action <;> simp only [haction] at h
  case warn | restrictRequests | restrictHelping | unsuspend =>
    rw [(moderateUser_silent h).1]
  case suspend => rw [(suspend_silent h).1]
  case eventPause | eventUnpause | eventApprovePublic | eventRejectPublic =>
    simp only [bind_ok, pure_ok, Prod.mk.injEq] at h
    obtain ⟨r, hmoderate, -, rfl⟩ := h
    rw [(moderateEvent_silent hmoderate).1]
  case eventDisable =>
    simp only [disableEvent, bind_ok, pure_ok, Prod.mk.injEq] at h
    obtain ⟨eventId, -, mid, hclose, -, rfl⟩ := h
    have hmid := closeOpenRequests_inventoryItems hclose
    exact hmid
  case matchCancel =>
    simp only [bind_ok, pure_ok, Prod.mk.injEq] at h
    obtain ⟨matchId, -, m, -, -, rfl⟩ := h
    rfl
  case reportResolve | reportDismiss => rw [(moderateReport_silent h).1]

theorem blockViaMatch_inventoryItems {userId : UserId}
    (h : db.blockViaMatch env userId matchId = .ok (effects, db')) :
    db'.inventoryItems = db.inventoryItems := by
  simp only [blockViaMatch, bind_ok, pure_ok, Prod.mk.injEq] at h
  obtain ⟨peer, -, -, rfl⟩ := h
  split_ifs <;> rfl

theorem sendMessage_inventoryItems {conversationId : ConversationId} {viewerUserId : UserId}
    {input : SendMessageInput}
    (h : db.sendMessage env conversationId viewerUserId input = .ok (effects, db')) :
    db'.inventoryItems = db.inventoryItems := by
  simp only [sendMessage, bind_ok] at h
  obtain ⟨context, -, h⟩ := h
  by_cases hreplay : (db.findMessage viewerUserId input.clientMsgId).isSome
  · rw [if_pos hreplay] at h
    obtain ⟨-, rfl⟩ := Prod.mk.inj (pure_ok.mp h)
    rfl
  · rw [if_neg hreplay] at h
    simp only [bind_ok, pure_ok, Prod.mk.injEq] at h
    obtain ⟨-, -, -, -, -, rfl⟩ := h
    rfl

/-! ## Every operation -/

theorem exec_keepsActiveItems {op : Op} (hop : op.stocks = false)
    (h : db.exec env op = .ok (effects, db')) : KeepsActiveItems db db' := by
  cases op <;> simp only [exec] at h
  case directory dir =>
    have hreplace := (silently_ok h).1
    simp only [replaceDirectory, bind_ok, pure_ok] at hreplace
    obtain ⟨-, -, rfl⟩ := hreplace
    exact .of_eq rfl
  case addInventory | updateInventory => cases hop
  case deleteInventory token itemId =>
    obtain ⟨auth, -, -, h⟩ := asUser_ok h
    exact deleteInventory_keepsActiveItems (silently_ok h).1
  case createRequest token input =>
    obtain ⟨auth, -, -, h⟩ := asUser_ok h
    exact .of_eq (createRequest_inventoryItems h)
  case cancelRequest token requestId =>
    obtain ⟨auth, -, -, h⟩ := asUser_ok h
    exact cancelRequest_keepsActiveItems h
  case renewRequest token requestId expiresInMinutes =>
    obtain ⟨auth, -, -, h⟩ := asUser_ok h
    exact .of_eq (renewRequest_inventoryItems h)
  case continueRequest token requestId continueSearching =>
    obtain ⟨auth, -, -, h⟩ := asUser_ok h
    exact .of_eq (continueRequest_inventoryItems h)
  case runMatchPass requestId choices => exact .of_eq (runMatchPass_inventoryItems h)
  case acceptOffer token offerId draws =>
    obtain ⟨auth, -, -, h⟩ := asUser_ok h
    simp only [bind_ok, pure_ok, Prod.mk.injEq] at h
    obtain ⟨r, haccept, -, rfl⟩ := h
    exact acceptOffer_keepsActiveItems haccept
  case declineOffer token offerId alsoStopReceiving =>
    obtain ⟨auth, -, -, h⟩ := asUser_ok h
    exact .of_eq (declineOffer_inventoryItems h)
  case expireOffer offerId => exact .of_eq (expireOffer_inventoryItems h)
  case setMeetingState token matchId state =>
    obtain ⟨auth, -, -, h⟩ := asUser_ok h
    have hset := (silently_ok h).1
    simp only [setMeetingState, bind_ok, pure_ok] at hset
    obtain ⟨-, -, -, -, -, -, rfl⟩ := hset
    exact .of_eq rfl
  case confirmCompletion token matchId qty =>
    obtain ⟨auth, -, -, h⟩ := asUser_ok h
    exact confirmCompletion_keepsActiveItems h
  case autoFinalizeMatch matchId => exact autoFinalizeMatch_keepsActiveItems h
  case cancelMatch token matchId reason note =>
    obtain ⟨auth, -, -, h⟩ := asUser_ok h
    exact cancelMatch_keepsActiveItems h
  case cancelMatchForModeration matchId reason => exact cancelMatchInTx_keepsActiveItems h
  case moderate token input =>
    obtain ⟨auth, -, h⟩ := bind_ok.mp h
    exact .of_eq (moderate_inventoryItems h)
  case deletionCancelRequests userId =>
    exact .of_eq (closeOpenRequests_inventoryItems (silently_ok h).1)
  case deletionZeroInventory userId =>
    exact deletionZeroInventory_keepsActiveItems (silently_ok h).1
  case deletionStatement userId statement =>
    obtain ⟨-, rfl⟩ := Prod.mk.inj (pure_ok.mp h)
    cases statement <;> exact .of_eq rfl
  case blockViaMatch token matchId =>
    obtain ⟨auth, -, -, h⟩ := asUser_ok h
    exact .of_eq (blockViaMatch_inventoryItems h)
  case sendMessage token conversationId input =>
    obtain ⟨auth, -, -, h⟩ := asUser_ok h
    exact .of_eq (sendMessage_inventoryItems h)

end Db
end Sahay
