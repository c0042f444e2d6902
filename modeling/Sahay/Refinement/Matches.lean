import Sahay.Refinement.Offers

/-!
# Confirmation, settlement and cancellation refine the lifecycle

The bodies of `modules/matches/service.ts` on the rows that `lockMatchRows` read.
In a consistent exchange an active match has not been applied and its request is
matched, so each body is one lifecycle step.
-/

namespace Sahay

namespace Db

variable {db db' : Db} {env : Env} {op : Op} {matchId : MatchId} {locks : MatchLocks}
  {effects : List Effect}

theorem setMeetingState_refines {viewerUserId : UserId} {state : MeetingState}
    {caller : Option UserId} (h : db.setMeetingState matchId viewerUserId state = .ok db') :
    Refines (db.ctx env caller op) db db' := by
  simp only [setMeetingState, bind_ok, found_ok, ensure_ok, pure_ok] at h
  obtain ⟨m, hm, side, hside, ⟨⟩, hactive, rfl⟩ := h
  rw [updateMatch_eq hm]
  exact .step (.meet matchId m side state hm hactive) rfl

/-! ## Settlement -/

theorem Locked.unapplied (hl : db.Locked matchId locks) (hx : db.toExchange.Consistent)
    (hactive : locks.matchRow.status = .active) : locks.matchRow.inventoryApplied = false :=
  (hx.wellFormed matchId _ hl.matchRow).unapplied hactive

theorem Locked.matched (hl : db.Locked matchId locks) (hx : db.toExchange.Consistent)
    (hactive : locks.matchRow.status = .active) : locks.request.status = .matched :=
  hx.coupled.matched hl.matchRow hactive hl.request

theorem Confirms.inventoryApplied {m m' : Match} (h : m.Confirms m') :
    m'.inventoryApplied = m.inventoryApplied := by
  rcases h with rfl | ⟨side, qty, -, -, -, rfl⟩
  · rfl
  · exact m.setConfirmedQty_inventoryApplied side qty

theorem settleLocked_refines {opts : SettleOptions} {m' : Match} {caller : Option UserId}
    (hx : db.toExchange.Consistent) (hl : db.Locked matchId locks)
    (hactive : locks.matchRow.status = .active) (hconfirms : locks.matchRow.Confirms m')
    (hfinal : m'.finalQty = some opts.finalQty)
    (h : { db with matchRows := db.matchRows.replace matchId m' }.settleLocked env matchId
      { locks with matchRow := m' } opts = .ok (effects, db')) :
    Refines (db.ctx env caller op) db db' := by
  have hunapplied : m'.inventoryApplied = false :=
    (Confirms.inventoryApplied hconfirms).trans (hl.unapplied hx hactive)
  have hmatched := hl.matched hx hactive
  obtain ⟨conversation, hc, hcm⟩ := hl.conversation
  have hrow := hl.matchRow
  have hrequest := hl.request
  have hitem := hl.item
  obtain ⟨m, request, item, fractional, cid⟩ := locks
  simp only [settleLocked, hunapplied, Bool.false_eq_true, if_false, bind_ok,
    updateInventoryItem_ok, transitionRequest_ok, pure_ok, Prod.mk.injEq, decide_eq_true_eq,
    hconfirms.inventoryItemId, hconfirms.requestId, hconfirms.qtyReserved] at h
  obtain ⟨_, ⟨item', hi', hcheckItem, rfl⟩, _, ⟨hcan, r', hr', hcheck, rfl⟩, -, rfl⟩ := h
  obtain rfl : item = item' := Option.some.inj (hitem.symm.trans hi')
  obtain rfl : request = r' := Option.some.inj (hrequest.symm.trans hr')
  have hstep := Lifecycle.settle (c := db.ctx env caller op) matchId m m' request item cid
    conversation opts.finalQty opts.disputed opts.closeReason opts.actor hrow hactive hconfirms
    hfinal hrequest hmatched hitem hc hcm
  have hgrace := Table.modify_eq_replace hc fun c =>
    { c with expiresAt := some (env.now + conversationGraceMs) }
  refine .step ?_ ?_
  · simp only [insertSystemMessage_toExchange, applySettlement_toExchange, updateMatch,
      updateConversation, Table.modify_replace, moved, hgrace]
    exact hstep
  · simp only [insertSystemMessage_toDirectory, applySettlement_toDirectory]
    rfl

theorem Locked.replace_matchRow (hl : db.Locked matchId locks) :
    { db with matchRows := db.matchRows.replace matchId locks.matchRow } = db := by
  rw [Table.replace_self hl.matchRow]

/-- Both quantities of a match with a second confirmation. -/
theorem setConfirmedQty_finalQty {m : Match} {side : Side} {qty other : Qty}
    (hother : m.confirmedQty side.other = some other) :
    (m.setConfirmedQty side qty).finalQty =
      some (min (if side = .requester then qty else other)
        (if side = .helper then qty else other)) := by
  cases side with
  | requester =>
      have hhelper : m.helperConfirmedQty = some other := hother
      simp [Match.finalQty, Match.setConfirmedQty, hhelper]
  | helper =>
      have hrequester : m.requesterConfirmedQty = some other := hother
      simp [Match.finalQty, Match.setConfirmedQty, hrequester]

/-- The options of the settlement by two confirmations. -/
def confirmOptions (side : Side) (viewerUserId : UserId) (qty other : Qty) : SettleOptions :=
  let requesterQty := if side = .requester then qty else other
  let helperQty := if side = .helper then qty else other
  { finalQty := min requesterQty helperQty
    disputed := requesterQty ≠ helperQty
    closeReason := if requesterQty ≠ helperQty then "disputed_quantities" else "confirmed"
    actor := side.actor
    senderUserId := viewerUserId
    requesterConfirmedPositive := 0 < requesterQty }

/-- The courses of a confirmation. -/
inductive Confirming (db : Db) (env : Env) (matchId : MatchId) (viewerUserId : UserId)
    (qty : ConfirmQty) : List Effect → Db → Prop
  | replays {locks : MatchLocks} {side : Side} (hlocks : db.lockMatchRows matchId = some locks)
      (hside : locks.matchRow.sideOf viewerUserId = some side)
      (hmine : locks.matchRow.confirmedQty side = some qty.1) :
      Confirming db env matchId viewerUserId qty [] db
  | first {locks : MatchLocks} {side : Side} (hlocks : db.lockMatchRows matchId = some locks)
      (hside : locks.matchRow.sideOf viewerUserId = some side)
      (hactive : locks.matchRow.status = .active)
      (hmine : locks.matchRow.confirmedQty side = none)
      (hmax : qty.1 ≤ locks.matchRow.qtyReserved)
      (hwhole : locks.fractional = true ∨ qty.1.isInt = true)
      (hother : locks.matchRow.confirmedQty side.other = none) :
      Confirming db env matchId viewerUserId qty
        [.finalizeJob matchId finalizeAfterFirstConfirmationMs]
        { db with
          matchRows := db.matchRows.replace matchId
            (locks.matchRow.setConfirmedQty side qty.1) }
  | second {locks : MatchLocks} {side : Side} {other : Qty} {effects : List Effect} {db' : Db}
      (hlocks : db.lockMatchRows matchId = some locks)
      (hside : locks.matchRow.sideOf viewerUserId = some side)
      (hactive : locks.matchRow.status = .active)
      (hmine : locks.matchRow.confirmedQty side = none)
      (hmax : qty.1 ≤ locks.matchRow.qtyReserved)
      (hwhole : locks.fractional = true ∨ qty.1.isInt = true)
      (hother : locks.matchRow.confirmedQty side.other = some other)
      (hsettle : { db with
          matchRows := db.matchRows.replace matchId
            (locks.matchRow.setConfirmedQty side qty.1) }.settleLocked env matchId
        { locks with matchRow := locks.matchRow.setConfirmedQty side qty.1 }
        (confirmOptions side viewerUserId qty.1 other) = .ok (effects, db')) :
      Confirming db env matchId viewerUserId qty effects db'

theorem confirmCompletion_cases {viewerUserId : UserId} {qty : ConfirmQty}
    (h : db.confirmCompletion env matchId viewerUserId qty = .ok (effects, db')) :
    Confirming db env matchId viewerUserId qty effects db' := by
  simp only [confirmCompletion, bind_ok, found_ok] at h
  obtain ⟨locks, hlocks, side, hside, h⟩ := h
  by_cases hreplay : (locks.matchRow.confirmedQty side).isSome ∨ locks.matchRow.status ≠ .active
  · rw [if_pos hreplay] at h
    simp only [bind_ok, ensure_ok, pure_ok, Prod.mk.injEq] at h
    obtain ⟨-, hmine, rfl, rfl⟩ := h
    exact .replays hlocks hside hmine
  · rw [if_neg hreplay] at h
    rw [not_or, Bool.not_eq_true, Option.isSome_eq_false_iff, Option.isNone_iff_eq_none,
      not_not] at hreplay
    obtain ⟨hmine, hactive⟩ := hreplay
    simp only [bind_ok, ensure_ok] at h
    obtain ⟨-, hmax, -, hwhole, h⟩ := h
    rw [updateMatch_eq (lockMatchRows_some hlocks).matchRow] at h
    cases hother : locks.matchRow.confirmedQty side.other with
    | none =>
        simp only [hother, pure_ok, Prod.mk.injEq] at h
        obtain ⟨rfl, rfl⟩ := h
        exact .first hlocks hside hactive hmine hmax hwhole hother
    | some other =>
        simp only [hother] at h
        refine .second hlocks hside hactive hmine hmax hwhole hother (Eq.trans ?_ h)
        simp [confirmOptions]

theorem confirmCompletion_refines {viewerUserId : UserId} {qty : ConfirmQty}
    {caller : Option UserId} (hx : db.toExchange.Consistent)
    (h : db.confirmCompletion env matchId viewerUserId qty = .ok (effects, db')) :
    Refines (db.ctx env caller op) db db' := by
  cases confirmCompletion_cases h with
  | replays _ _ _ => exact .silent rfl rfl
  | @first locks side hlocks _ hactive hmine hmax _ hother =>
      exact .step (.confirm matchId locks.matchRow side qty.1 (lockMatchRows_some hlocks).matchRow
        hactive hmine hother ⟨qty.2.1, hmax⟩) rfl
  | @second locks side _ _ _ hlocks _ hactive hmine hmax _ hother hsettle =>
      exact settleLocked_refines hx (lockMatchRows_some hlocks) hactive
        (.inr ⟨side, qty.1, hmine, qty.2.1, hmax, rfl⟩) (setConfirmedQty_finalQty hother) hsettle

/-- The options of the settlement with the one quantity that was reported. -/
def finalizeOptions (m : Match) (side : Side) (qty : Qty) : SettleOptions :=
  { finalQty := qty
    disputed := false
    closeReason := "auto_finalized_unconfirmed_peer"
    actor := .system
    senderUserId := if side = .requester then m.requesterId else m.helperId
    requesterConfirmedPositive := side = .requester ∧ 0 < qty }

theorem finalQty_single {m : Match} {side : Side} {qty : Qty}
    (hmine : m.confirmedQty side = some qty) (hother : m.confirmedQty side.other = none) :
    m.finalQty = some qty := by
  cases side with
  | requester =>
      have hrequester : m.requesterConfirmedQty = some qty := hmine
      have hhelper : m.helperConfirmedQty = none := hother
      simp [Match.finalQty, hrequester, hhelper]
  | helper =>
      have hrequester : m.requesterConfirmedQty = none := hother
      have hhelper : m.helperConfirmedQty = some qty := hmine
      simp [Match.finalQty, hrequester, hhelper]

/-- An active match with exactly one confirmation is settled, every other one left alone. -/
theorem autoFinalizeMatch_cases (db : Db) (env : Env) (matchId : MatchId) :
    (db.autoFinalizeMatch env matchId = .ok ([], db) ∧
      ∀ locks, db.lockMatchRows matchId = some locks → locks.matchRow.status = .active →
        locks.matchRow.inventoryApplied = false → ∀ side qty,
          locks.matchRow.confirmedQty side = some qty →
            locks.matchRow.confirmedQty side.other ≠ none) ∨
    ∃ locks side qty, db.lockMatchRows matchId = some locks ∧
      locks.matchRow.status = .active ∧ locks.matchRow.inventoryApplied = false ∧
      locks.matchRow.confirmedQty side = some qty ∧
      locks.matchRow.confirmedQty side.other = none ∧
      db.autoFinalizeMatch env matchId =
        db.settleLocked env matchId locks (finalizeOptions locks.matchRow side qty) := by
  unfold autoFinalizeMatch
  cases hlocks : db.lockMatchRows matchId with
  | none => exact .inl ⟨rfl, fun _ h => by cases h⟩
  | some locks =>
      dsimp only
      by_cases hdone : locks.matchRow.status ≠ .active ∨ locks.matchRow.inventoryApplied = true
      · rw [if_pos hdone]
        refine .inl ⟨rfl, fun locks' h hactive hunapplied => ?_⟩
        obtain rfl := Option.some.inj h
        rcases hdone with hinactive | happlied
        · exact absurd hactive hinactive
        · cases happlied.symm.trans hunapplied
      · rw [if_neg hdone]
        rw [not_or, not_not, Bool.not_eq_true] at hdone
        obtain ⟨hactive, hunapplied⟩ := hdone
        cases hrequester : locks.matchRow.requesterConfirmedQty with
        | none =>
            cases hhelper : locks.matchRow.helperConfirmedQty with
            | none =>
                refine .inl ⟨rfl, fun locks' h _ _ side qty hmine => ?_⟩
                obtain rfl := Option.some.inj h
                cases side with
                | requester => cases hrequester.symm.trans hmine
                | helper => cases hhelper.symm.trans hmine
            | some qty =>
                exact .inr ⟨locks, .helper, qty, rfl, hactive, hunapplied, hhelper, hrequester, rfl⟩
        | some qty =>
            cases hhelper : locks.matchRow.helperConfirmedQty with
            | none =>
                exact .inr
                  ⟨locks, .requester, qty, rfl, hactive, hunapplied, hrequester, hhelper, rfl⟩
            | some other =>
                refine .inl ⟨rfl, fun locks' h _ _ side qty _ hnone => ?_⟩
                obtain rfl := Option.some.inj h
                cases side with
                | requester => cases hhelper.symm.trans hnone
                | helper => cases hrequester.symm.trans hnone

theorem autoFinalizeMatch_refines {caller : Option UserId} (hx : db.toExchange.Consistent)
    (h : db.autoFinalizeMatch env matchId = .ok (effects, db')) :
    Refines (db.ctx env caller op) db db' := by
  rcases db.autoFinalizeMatch_cases env matchId with
    ⟨hidle, -⟩ | ⟨locks, side, qty, hlocks, hactive, -, hmine, hother, hsettle⟩
  · obtain ⟨-, rfl⟩ := Prod.mk.inj (pure_ok.mp (hidle.symm.trans h))
    exact .silent rfl rfl
  · have hl := lockMatchRows_some hlocks
    rw [hsettle, ← hl.replace_matchRow] at h
    exact settleLocked_refines hx hl hactive (.inl rfl) (finalQty_single hmine hother) h

/-! ## Cancellation -/

theorem CancelOptions.matchStatus_isCancelled (opts : CancelOptions) :
    opts.matchStatus.isCancelled = true := by
  unfold CancelOptions.matchStatus
  split_ifs <;> rfl

theorem cancelMatchLocked_refines {opts : CancelOptions} {caller : Option UserId}
    (hx : db.toExchange.Consistent) (hl : db.Locked matchId locks)
    (h : db.cancelMatchLocked env matchId locks opts = .ok (effects, db')) :
    Refines (db.ctx env caller op) db db' := by
  simp only [cancelMatchLocked, bind_ok, ensure_ok] at h
  obtain ⟨⟨⟩, hactive, h⟩ := h
  have hunapplied := hl.unapplied hx hactive
  have hmatched := hl.matched hx hactive
  obtain ⟨conversation, hc, hcm⟩ := hl.conversation
  have hrow := hl.matchRow
  have hrequest := hl.request
  have hitem := hl.item
  obtain ⟨m, request, item, fractional, cid⟩ := locks
  simp only at hunapplied
  simp only [hunapplied, Bool.false_eq_true, if_false, bind_ok, updateInventoryItem_ok,
    transitionRequest_ok, pure_ok, Prod.mk.injEq] at h
  obtain ⟨_, ⟨item', hi', hcheckItem, rfl⟩, _, ⟨hcan, r', hr', hcheck, rfl⟩, -, rfl⟩ := h
  obtain rfl : item = item' := Option.some.inj (hitem.symm.trans hi')
  obtain rfl : request = r' := Option.some.inj (hrequest.symm.trans hr')
  have hstep := Lifecycle.cancel (c := db.ctx env caller op) matchId m request item cid conversation
    { conversation with
      status := if decide (opts.isUnsafe = true ∨ opts.actor = .moderator) = true then .readonly
        else conversation.status
      expiresAt := some (env.now + conversationGraceMs) }
    opts.actor opts.matchStatus opts.closeReason opts.reason hrow hactive
    (CancelOptions.matchStatus_isCancelled opts) hrequest hmatched hitem hc hcm hcm
  have hrow' := Table.modify_eq_replace hrow fun row =>
    row.cancelledAs opts.matchStatus opts.closeReason env.now
  have hgrace := Table.modify_eq_replace hc fun c =>
    { c with
      status := if decide (opts.isUnsafe = true ∨ opts.actor = .moderator) = true then .readonly
        else c.status
      expiresAt := some (env.now + conversationGraceMs) }
  refine .step ?_ ?_
  · simp only [insertSystemMessage_toExchange, applyCancellation_toExchange,
      forgetLocation_toExchange, updateMatch, updateConversation, moved, hgrace]
    simp only [Match.cancelledAs] at hrow'
    rw [hrow']
    exact hstep
  · simp only [insertSystemMessage_toDirectory, applyCancellation_toDirectory,
      forgetLocation_categories]
    rfl

theorem cancelMatchInTx_refines {opts : CancelOptions} {caller : Option UserId}
    (hx : db.toExchange.Consistent)
    (h : db.cancelMatchInTx env matchId opts = .ok (effects, db')) :
    Refines (db.ctx env caller op) db db' := by
  simp only [cancelMatchInTx, bind_ok, found_ok] at h
  obtain ⟨locks, hlocks, h⟩ := h
  exact cancelMatchLocked_refines hx (lockMatchRows_some hlocks) h

theorem cancelMatch_refines {viewerUserId : UserId} {reason : CancelReason}
    {note : Option String} {caller : Option UserId} (hx : db.toExchange.Consistent)
    (h : db.cancelMatch env matchId viewerUserId reason note = .ok (effects, db')) :
    Refines (db.ctx env caller op) db db' := by
  simp only [cancelMatch, bind_ok, found_ok] at h
  obtain ⟨locks, hlocks, side, hside, h⟩ := h
  exact cancelMatchLocked_refines hx (lockMatchRows_some hlocks) h

theorem cancelMatchForModeration_refines {reason : String} {caller : Option UserId}
    (hx : db.toExchange.Consistent)
    (h : db.cancelMatchForModeration env matchId reason = .ok (effects, db')) :
    Refines (db.ctx env caller op) db db' :=
  cancelMatchInTx_refines hx h

end Db
end Sahay
