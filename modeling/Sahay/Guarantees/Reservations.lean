import Sahay.Refinement.System

/-!
# Reservations are conserved

What an item has reserved is what its active matches hold, in every reached
state.  So the CHECKs on the item's row, which guard the same bounds, never stop
a match from being settled or cancelled.
-/

namespace Sahay

namespace Db

variable {db : Db} {env : Env} {matchId : MatchId} {locks : MatchLocks}

/-- The CHECKs of `inventory_items` have refused an update. -/
abbrev itemCheckFailed : TxError := .checkViolation .inventoryItems

/-! ## Which statements can fail the check -/

theorem updateInventoryItem_checkFailed {id : ItemId} {set : InventoryItem → InventoryItem}
    (h : db.updateInventoryItem id set = .error itemCheckFailed) :
    ∃ item, db.inventoryItems.lookup id = some item ∧ ¬(set item).check := by
  simp only [updateInventoryItem, bind_error, found_error, found_ok, ensure_error, pure_error,
    errors.notFound, reduceCtorEq, and_false, exists_false, or_false, false_or, and_true] at h
  exact h

theorem transitionRequest_not_checkFailed {id : RequestId} {source target : RequestStatus}
    {actor : TransitionActor} {reason : Option String} {now : Time} {set : Request → Request} :
    db.transitionRequest id source target actor reason now set ≠ .error itemCheckFailed := by
  intro h
  simp only [transitionRequest, updateRequest, bind_error, found_error, ensure_error, pure_error,
    errors.notFound, errors.conflict, reduceCtorEq, TxError.checkViolation.injEq, and_false,
    exists_false, or_false] at h

theorem settleLocked_not_checkFailed {opts : SettleOptions} {m' : Match}
    (hx : db.toExchange.Consistent) (hl : db.Locked matchId locks)
    (hactive : locks.matchRow.status = .active) (hconfirms : locks.matchRow.Confirms m')
    (hfinal : m'.finalQty = some opts.finalQty) :
    { db with matchRows := db.matchRows.replace matchId m' }.settleLocked env matchId
      { locks with matchRow := m' } opts ≠ .error itemCheckFailed := by
  intro h
  have hunapplied : m'.inventoryApplied = false :=
    (Confirms.inventoryApplied hconfirms).trans (hl.unapplied hx hactive)
  have hsound := hx.booked.captured hx.wellFormed hl.matchRow hactive hl.item hconfirms hfinal
  have hitem := hl.item
  obtain ⟨m, request, item, fractional, cid⟩ := locks
  simp only [settleLocked, hunapplied, Bool.false_eq_true, if_false, bind_error,
    transitionRequest_not_checkFailed, pure_error, and_false, exists_false, or_false] at h
  obtain ⟨item', hi', hcheck⟩ := updateInventoryItem_checkFailed h
  rw [hconfirms.inventoryItemId] at hi'
  obtain rfl : item = item' := Option.some.inj (hitem.symm.trans hi')
  refine hcheck ⟨?_, ?_, ?_⟩
  · exact hsound.2.1.trans hsound.2.2
  · rw [hconfirms.qtyReserved]
    exact hsound.2.1
  · rw [hconfirms.qtyReserved]
    exact hsound.2.2

theorem cancelMatchLocked_not_checkFailed {opts : CancelOptions} (hx : db.toExchange.Consistent)
    (hl : db.Locked matchId locks) :
    db.cancelMatchLocked env matchId locks opts ≠ .error itemCheckFailed := by
  intro h
  simp only [cancelMatchLocked, bind_error, ensure_error, ensure_ok, errors.conflict, reduceCtorEq,
    and_false, false_or] at h
  obtain ⟨-, hactive, h⟩ := h
  have hunapplied := hl.unapplied hx hactive
  have hsound := hx.booked.released hx.wellFormed hl.matchRow hactive hl.item
  have hitem := hl.item
  obtain ⟨m, request, item, fractional, cid⟩ := locks
  simp only at hunapplied
  simp only [hunapplied, Bool.false_eq_true, if_false, bind_error,
    transitionRequest_not_checkFailed, pure_error, and_false, exists_false, or_false] at h
  obtain ⟨item', hi', hcheck⟩ := updateInventoryItem_checkFailed h
  obtain rfl : item = item' := Option.some.inj (hitem.symm.trans hi')
  exact hcheck ⟨hsound.2.1.trans hsound.2.2, hsound.2.1, hsound.2.2⟩

theorem confirmCompletion_not_checkFailed {viewerUserId : UserId} {qty : ConfirmQty}
    (hx : db.toExchange.Consistent) :
    db.confirmCompletion env matchId viewerUserId qty ≠ .error itemCheckFailed := by
  intro h
  simp only [confirmCompletion, bind_error, found_error, found_ok, errors.notFound, reduceCtorEq,
    and_false, false_or] at h
  obtain ⟨locks, hlocks, side, hside, h⟩ := h
  have hl := lockMatchRows_some hlocks
  by_cases hreplay : (locks.matchRow.confirmedQty side).isSome ∨ locks.matchRow.status ≠ .active
  · rw [if_pos hreplay] at h
    simp only [bind_error, ensure_error, pure_error, errors.conflict, reduceCtorEq, and_false,
      exists_false, or_false] at h
  · rw [if_neg hreplay] at h
    rw [not_or, Bool.not_eq_true, Option.isSome_eq_false_iff, Option.isNone_iff_eq_none,
      not_not] at hreplay
    obtain ⟨hmine, hactive⟩ := hreplay
    simp only [bind_error, ensure_error, ensure_ok, errors.validation, reduceCtorEq, and_false,
      false_or] at h
    obtain ⟨-, hmax, -, -, h⟩ := h
    rw [updateMatch_eq hl.matchRow] at h
    cases hother : locks.matchRow.confirmedQty side.other with
    | none => simp only [hother, pure_error] at h
    | some other =>
        simp only [hother] at h
        exact settleLocked_not_checkFailed hx hl hactive
          (.inr ⟨side, qty.1, hmine, qty.2.1, hmax, rfl⟩) (setConfirmedQty_finalQty hother) h

theorem autoFinalizeMatch_not_checkFailed (hx : db.toExchange.Consistent) :
    db.autoFinalizeMatch env matchId ≠ .error itemCheckFailed := by
  intro h
  rcases db.autoFinalizeMatch_cases env matchId with
    ⟨hidle, -⟩ | ⟨locks, side, qty, hlocks, hactive, -, hmine, hother, hsettle⟩
  · cases hidle.symm.trans h
  · have hl := lockMatchRows_some hlocks
    rw [hsettle, ← hl.replace_matchRow] at h
    exact settleLocked_not_checkFailed hx hl hactive (.inl rfl) (finalQty_single hmine hother) h

theorem cancelMatchInTx_not_checkFailed {opts : CancelOptions} (hx : db.toExchange.Consistent) :
    db.cancelMatchInTx env matchId opts ≠ .error itemCheckFailed := by
  intro h
  simp only [cancelMatchInTx, bind_error, found_error, found_ok, errors.notFound, reduceCtorEq,
    and_false, false_or] at h
  obtain ⟨locks, hlocks, h⟩ := h
  exact cancelMatchLocked_not_checkFailed hx (lockMatchRows_some hlocks) h

theorem cancelMatch_not_checkFailed {viewerUserId : UserId} {reason : CancelReason}
    {note : Option String} (hx : db.toExchange.Consistent) :
    db.cancelMatch env matchId viewerUserId reason note ≠ .error itemCheckFailed := by
  intro h
  simp only [cancelMatch, bind_error, found_error, found_ok, errors.notFound, reduceCtorEq,
    and_false, false_or] at h
  obtain ⟨locks, hlocks, side, hside, h⟩ := h
  exact cancelMatchLocked_not_checkFailed hx (lockMatchRows_some hlocks) h

theorem cancelRequest_not_checkFailed {userId : UserId} {requestId : RequestId}
    (hx : db.toExchange.Consistent) :
    db.cancelRequest env userId requestId ≠ .error itemCheckFailed := by
  intro h
  simp only [cancelRequest, lockOwnRequest, bind_error, found_error, errors.notFound,
    reduceCtorEq, and_false, false_or] at h
  obtain ⟨r, -, h⟩ := h
  split_ifs at h with hmatched
  · simp only [bind_error, found_error, errors.conflict, reduceCtorEq, and_false, false_or] at h
    obtain ⟨activeMatchId, -, h⟩ := h
    exact cancelMatchInTx_not_checkFailed hx h
  · simp only [bind_error, ensure_error, errors.conflict, reduceCtorEq, and_false, false_or,
      transitionRequest_not_checkFailed, pure_error, exists_false] at h

/-! ## Operations that end matches -/

def endsMatch : Op → Bool
  | .confirmCompletion .. | .autoFinalizeMatch .. | .cancelMatch .. | .cancelRequest ..
  | .cancelMatchForModeration .. => true
  | _ => false

theorem authenticate_not_checkFailed {token : String} :
    db.authenticate env.now token ≠ .error itemCheckFailed := by
  intro h
  simp only [Directory.authenticate, bind_error, found_error, ensure_error, pure_error,
    errors.unauthorized, errors.accountRestricted, errors.passwordChangeRequired, reduceCtorEq,
    and_false, exists_false, or_false] at h

theorem asUser_not_checkFailed {token : String} {body : AuthContext → Outcome (List Effect × Db)}
    (hbody : ∀ auth, body auth ≠ .error itemCheckFailed) :
    db.asUser env token body ≠ .error itemCheckFailed := by
  intro h
  rcases bind_error.mp h with hauth | ⟨auth, -, h⟩
  · exact authenticate_not_checkFailed hauth
  · exact hbody auth h

theorem exec_not_checkFailed {op : Op} (hx : db.toExchange.Consistent)
    (hop : endsMatch op = true) : db.exec env op ≠ .error itemCheckFailed := by
  cases op with
  | cancelRequest => exact asUser_not_checkFailed fun _ => cancelRequest_not_checkFailed hx
  | confirmCompletion =>
      exact asUser_not_checkFailed fun _ => confirmCompletion_not_checkFailed hx
  | autoFinalizeMatch => exact autoFinalizeMatch_not_checkFailed hx
  | cancelMatch => exact asUser_not_checkFailed fun _ => cancelMatch_not_checkFailed hx
  | cancelMatchForModeration => exact cancelMatchInTx_not_checkFailed hx
  | _ => exact absurd hop Bool.false_ne_true

/-! ## Conservation -/

def reservedByMatches (db : Db) (id : ItemId) : Qty :=
  db.matchRows.sum fun _ m =>
    if m.status = .active ∧ m.inventoryItemId = id then m.qtyReserved else 0

theorem held_eq_reservedByMatches (db : Db) (id : ItemId) :
    Escrow.held Match.hold db.matchRows id = db.reservedByMatches id := by
  apply Table.sum_congr
  intro mid m _
  by_cases hactive : m.status = .active <;> simp [Match.hold, Escrow.amountOn, hactive]

/-- In every reached state an item's reservation is the sum over its active
matches and within its stock, and the row's CHECKs never abort an operation that
settles or cancels a match. -/
theorem reservations_conserved (h : db.Reached) :
    (∀ id item, db.inventoryItems.lookup id = some item →
      item.qtyReserved = db.reservedByMatches id ∧
        0 ≤ item.qtyReserved ∧ item.qtyReserved ≤ item.qtyOnHand) ∧
      ∀ env op, endsMatch op = true → db.exec env op ≠ .error itemCheckFailed := by
  have hx := (Reached.consistent h).exchange
  constructor
  · intro id item hi
    have hsound := hx.booked id item hi
    rw [held_eq_reservedByMatches] at hsound
    exact hsound
  · exact fun env op hop => exec_not_checkFailed hx hop

/-- An item with an active match on it, and the confirmation of that match. -/
theorem reservations_conserved_oneMatch :
    let db := runFrom Db.step Db.empty SmallEvent.oneMatch
    (db.inventoryItems.lookup 10).map InventoryItem.qtyReserved = some 2 ∧
      (∀ id item, db.inventoryItems.lookup id = some item →
        item.qtyReserved = db.reservedByMatches id ∧
          0 ≤ item.qtyReserved ∧ item.qtyReserved ≤ item.qtyOnHand) ∧
      ∀ env op, endsMatch op = true → db.exec env op ≠ .error itemCheckFailed :=
  ⟨by decide +kernel, reservations_conserved ⟨SmallEvent.oneMatch, rfl⟩⟩

end Db
end Sahay
