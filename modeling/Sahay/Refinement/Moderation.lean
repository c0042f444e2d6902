import Sahay.Refinement.Requests

/-!
# Moderation, deletion, blocks and messages refine the lifecycle

Of a moderation action only the disabling of an event touches the exchange; of
account deletion the cancellation of open requests and the inventory's collapse.
-/

namespace Sahay

namespace Db

variable {db db' : Db} {env : Env} {effects : List Effect} {c : Ctx}

/-! ## Moderation -/

section Record

variable (db) (actorId : UserId) (input : AdminModerateInput) (fields : ActionFields)
  (target : String)

@[simp] theorem recordAction_toExchange :
    (db.recordAction env actorId input fields target).2.toExchange = db.toExchange := rfl

@[simp] theorem recordAction_toDirectory :
    (db.recordAction env actorId input fields target).2.toDirectory = db.toDirectory := rfl

end Record

variable {actorId : UserId} {input : AdminModerateInput}

theorem moderateUser_silent {expiresAt : Option Time} {set : User → User}
    (h : db.moderateUser env actorId input expiresAt set = .ok (effects, db')) :
    db'.toExchange = db.toExchange ∧ db'.categories = db.categories := by
  simp only [moderateUser, bind_ok, pure_ok, Prod.mk.injEq] at h
  obtain ⟨userId, -, -, rfl⟩ := h
  exact ⟨rfl, rfl⟩

theorem moderateEvent_silent {set : Event → Event} {actionId : ActionId} {eventId : EventId}
    (h : db.moderateEvent env actorId input set = .ok (actionId, eventId, db')) :
    db'.toExchange = db.toExchange ∧ db'.categories = db.categories := by
  simp only [moderateEvent, bind_ok, pure_ok, Prod.mk.injEq] at h
  obtain ⟨eventId, -, -, -, rfl⟩ := h
  exact ⟨rfl, rfl⟩

theorem suspend_silent (h : db.suspend env actorId input = .ok (effects, db')) :
    db'.toExchange = db.toExchange ∧ db'.categories = db.categories := by
  simp only [suspend, bind_ok, pure_ok, Prod.mk.injEq] at h
  obtain ⟨userId, -, -, rfl⟩ := h
  exact ⟨rfl, rfl⟩

theorem moderateReport_silent {status : ReportStatus}
    (h : db.moderateReport env actorId input status = .ok (effects, db')) :
    db'.toExchange = db.toExchange ∧ db'.categories = db.categories := by
  simp only [moderateReport, bind_ok, pure_ok, Prod.mk.injEq] at h
  obtain ⟨reportId, -, report, -, -, rfl⟩ := h
  exact ⟨rfl, rfl⟩

theorem disableEvent_refines (hnow : c.now = env.now)
    (h : db.disableEvent env actorId input = .ok (effects, db')) : Refines c db db' := by
  simp only [disableEvent, bind_ok, pure_ok, Prod.mk.injEq] at h
  obtain ⟨eventId, -, mid, hclose, -, rfl⟩ := h
  have hrun : Refines c { db with events := db.events.modify eventId _ } mid :=
    closeOpenRequests_refines hnow rfl (fun _ _ hp => (Bool.and_eq_true_iff.mp hp).2) hclose
  exact ⟨hrun.run, hrun.single.imp_left fun hquiet => ⟨hquiet.1, hquiet.2, hquiet.3⟩,
    hrun.categories⟩

theorem moderate_refines {auth : AuthContext} (hnow : c.now = env.now)
    (h : db.moderate env auth input = .ok (effects, db')) : Refines c db db' := by
  simp only [moderate, bind_ok, ensure_ok] at h
  obtain ⟨-, -, h⟩ := h
  cases haction : input.action <;> simp only [haction] at h
  case warn | restrictRequests | restrictHelping | unsuspend =>
    exact .silent (moderateUser_silent h).1 (moderateUser_silent h).2
  case suspend => exact .silent (suspend_silent h).1 (suspend_silent h).2
  case eventPause | eventUnpause | eventApprovePublic | eventRejectPublic =>
    simp only [bind_ok, pure_ok, Prod.mk.injEq] at h
    obtain ⟨r, hmoderate, -, rfl⟩ := h
    exact .silent (moderateEvent_silent hmoderate).1 (moderateEvent_silent hmoderate).2
  case eventDisable => exact disableEvent_refines hnow h
  case matchCancel =>
    simp only [bind_ok, pure_ok, Prod.mk.injEq] at h
    obtain ⟨matchId, -, m, -, -, rfl⟩ := h
    exact .silent rfl rfl
  case reportResolve | reportDismiss =>
    exact .silent (moderateReport_silent h).1 (moderateReport_silent h).2

/-! ## Account deletion -/

theorem deletionCancelRequests_refines {userId : UserId} (hnow : c.now = env.now)
    (h : db.deletionCancelRequests env userId = .ok db') : Refines c db db' :=
  closeOpenRequests_refines hnow rfl (fun _ _ hp => (Bool.and_eq_true_iff.mp hp).2) h

theorem deletionZeroInventory_refines {userId : UserId}
    (hrestocks : c.op.restocks = true) (h : db.deletionZeroInventory env userId = .ok db') :
    Refines c db db' := by
  simp only [deletionZeroInventory] at h
  split_ifs at h with hchecks
  obtain rfl := pure_ok.mp h
  refine .step (.editItems _ hrestocks fun id item hi => ?_) rfl
  by_cases howner : item.userId = userId
  · simp only [howner, decide_true, if_true]
    refine .inr ⟨by simp [InventoryItem.identity, howner], rfl, ?_⟩
    have hcheck := List.all_eq_true.mp hchecks (id, item)
      (Table.mem_select.mpr ⟨hi, decide_eq_true howner⟩)
    exact of_decide_eq_true hcheck
  · simp only [howner, decide_false, Bool.false_eq_true, if_false]
    exact .inl rfl

theorem deletionStatement_refines {userId : UserId} {statement : DeletionStatement} :
    Refines c db (db.deletionStatement env userId statement) := by
  cases statement <;> exact .silent rfl rfl

/-! ## Blocks and messages -/

theorem blockViaMatch_refines {userId : UserId} {matchId : MatchId}
    (h : db.blockViaMatch env userId matchId = .ok (effects, db')) : Refines c db db' := by
  simp only [blockViaMatch, bind_ok, pure_ok, Prod.mk.injEq] at h
  obtain ⟨peer, -, -, rfl⟩ := h
  split_ifs
  · exact .silent rfl rfl
  · exact .silent rfl rfl

theorem sendMessage_refines {conversationId : ConversationId} {viewerUserId : UserId}
    {message : SendMessageInput}
    (h : db.sendMessage env conversationId viewerUserId message = .ok (effects, db')) :
    Refines c db db' := by
  simp only [sendMessage, bind_ok] at h
  obtain ⟨context, -, h⟩ := h
  by_cases hreplay : (db.findMessage viewerUserId message.clientMsgId).isSome
  · rw [if_pos hreplay] at h
    obtain ⟨-, rfl⟩ := Prod.mk.inj (pure_ok.mp h)
    exact .silent rfl rfl
  · rw [if_neg hreplay] at h
    simp only [bind_ok, ensure_ok, pure_ok, Prod.mk.injEq] at h
    obtain ⟨-, -, -, -, -, rfl⟩ := h
    exact .silent rfl rfl

end Db
end Sahay
