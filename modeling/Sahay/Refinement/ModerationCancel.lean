import Sahay.Refinement.System

/-!
# The moderation cancel of an active match

In a consistent database every guard and CHECK of `cancelMatchForModeration` holds
for an active match, so the cancellation commits; for any other match it throws.
What it leaves is a closed match with a read-only conversation.
-/

namespace Sahay

namespace Db

variable {db db' : Db} {env : Env} {matchId : MatchId} {m : Match} {reason : String}
  {effects : List Effect}

theorem conversationOf_isSome {cid : ConversationId} {conversation : Conversation}
    (hcid : db.conversations.lookup cid = some conversation)
    (hmatch : conversation.matchId = matchId) : ∃ cid, db.conversationOf matchId = some cid := by
  rw [conversationOf]
  cases hfirst : db.conversations.first fun _ c => c.matchId = matchId with
  | some entry => exact ⟨entry.1, rfl⟩
  | none =>
      have hmiss := Table.first_none.mp hfirst cid conversation hcid
      simp [hmatch] at hmiss

theorem lockMatchRows_isSome (hx : db.Consistent) (hm : db.matchRows.lookup matchId = some m) :
    ∃ locks, db.lockMatchRows matchId = some locks ∧ locks.matchRow = m := by
  have hlinked := hx.exchange.linked.matchRows matchId m hm
  obtain ⟨r, hr, -, -⟩ := hlinked.request
  obtain ⟨item, hi⟩ := hx.exchange.linked.item hm
  obtain ⟨category, hcategory⟩ := Table.mem_iff_exists.mp (hx.category _ r hr)
  obtain ⟨_, conversation, hcid, hmatch⟩ := hlinked.conversation
  obtain ⟨cid, hcid⟩ := conversationOf_isSome hcid hmatch
  exact ⟨⟨m, r, item, category.fractional, cid⟩,
    by simp [lockMatchRows, hm, hr, hi, hcategory, hcid], rfl⟩

theorem cancelMatchForModeration_commits (env : Env) (reason : String) (hx : db.Consistent)
    (hm : db.matchRows.lookup matchId = some m) (hactive : m.status = .active) :
    ∃ effects db', db.cancelMatchForModeration env matchId reason = .ok (effects, db') := by
  obtain ⟨locks, hlocks, rfl⟩ := lockMatchRows_isSome hx hm
  have hl := lockMatchRows_some hlocks
  have hunapplied := hl.unapplied hx.exchange hactive
  have hmatched := hl.matched hx.exchange hactive
  have hreleased := hx.exchange.booked.released hx.exchange.wellFormed hm hactive hl.item
  have hcheck := (hx.exchange.fulfilled _ _ hl.request).check
  obtain ⟨m, request, item, fractional, cid⟩ := locks
  simp only at hunapplied hmatched hreleased hcheck hactive
  rw [cancelMatchForModeration, cancelMatchInTx, hlocks, found_some, bind_ok_left,
    cancelMatchLocked, ensure_pos hactive, bind_ok_left]
  simp only [hunapplied, hmatched, CancelActor.route, Bool.false_eq_true, if_false, bind_ok,
    updateInventoryItem_ok, transitionRequest_ok, pure_ok, Prod.mk.injEq]
  exact ⟨_, _, _,
    ⟨item, hl.item, ⟨hreleased.2.1.trans hreleased.2.2, hreleased.2⟩, rfl⟩, _,
    ⟨by decide, request, hl.request, hcheck, rfl⟩, rfl, rfl⟩

/-- A moderation cancel that commits, table by table. -/
theorem cancelMatchForModeration_rows (hx : db.toExchange.Consistent)
    (h : db.cancelMatchForModeration env matchId reason = .ok (effects, db')) :
    ∃ m r item cid c, db.matchRows.lookup matchId = some m ∧ m.status = .active ∧
      db.requests.lookup m.requestId = some r ∧ r.status = .matched ∧
      db.inventoryItems.lookup m.inventoryItemId = some item ∧
      db.conversations.lookup cid = some c ∧ c.matchId = matchId ∧
      db' = { db with
        inventoryItems := db.inventoryItems.replace m.inventoryItemId
          { item with qtyReserved := item.qtyReserved - m.qtyReserved, updatedAt := env.now }
        matchRows :=
          db.matchRows.replace matchId (m.cancelledAs .cancelledModeration reason env.now)
        conversations := db.conversations.replace cid
          { c with status := .readonly, expiresAt := some (env.now + conversationGraceMs) }
        requests := db.requests.replace m.requestId
          { r with status := .moderated, closedAt := some env.now }
        requestTransitions := db.requestTransitions ++
          [⟨m.requestId, some .matched, .moderated, .moderator, some reason, env.now⟩]
        messages := db.messages.put (db.messages.freshKey env.uuid.message)
          { conversationId := cid
            senderId := m.requesterId
            kind := .system
            body := "match.cancelled"
            createdAt := env.now } } := by
  simp only [cancelMatchForModeration, cancelMatchInTx, cancelMatchLocked, bind_ok, found_ok,
    ensure_ok] at h
  obtain ⟨locks, hlocks, ⟨⟩, hactive, h⟩ := h
  have hl := lockMatchRows_some hlocks
  have hunapplied := hl.unapplied hx hactive
  have hmatched := hl.matched hx hactive
  obtain ⟨c, hc, hcm⟩ := hl.conversation
  have hrow := hl.matchRow
  have hrequest := hl.request
  have hitem := hl.item
  obtain ⟨m, request, item, fractional, cid⟩ := locks
  simp only at hunapplied hmatched hc hrow hrequest hitem hactive
  simp only [hunapplied, hmatched, Bool.false_eq_true, if_false, bind_ok, updateInventoryItem_ok,
    transitionRequest_ok, pure_ok, Prod.mk.injEq] at h
  obtain ⟨_, ⟨item', hi', hcheckItem, rfl⟩, _, ⟨hcan, r', hr', hcheck, rfl⟩, -, rfl⟩ := h
  obtain rfl := Option.some.inj (hitem.symm.trans hi')
  obtain rfl := Option.some.inj (hrequest.symm.trans hr')
  refine ⟨m, request, item, cid, c, hrow, hactive, hrequest, hmatched, hitem, hc, hcm, ?_⟩
  rw [← Table.modify_eq_replace hrow fun row =>
      row.cancelledAs .cancelledModeration reason env.now,
    ← Table.modify_eq_replace hc fun c =>
      { c with status := .readonly, expiresAt := some (env.now + conversationGraceMs) }]
  rfl

/-- What has committed has closed an active match and its chat. -/
theorem cancelMatchForModeration_ok (hx : db.toExchange.Consistent)
    (h : db.cancelMatchForModeration env matchId reason = .ok (effects, db')) :
    ∃ m cid conversation, db.matchRows.lookup matchId = some m ∧ m.status = .active ∧
      db'.matchRows =
        db.matchRows.replace matchId (m.cancelledAs .cancelledModeration reason env.now) ∧
      db.conversations.lookup cid = some conversation ∧ conversation.matchId = matchId ∧
      db'.conversations = db.conversations.replace cid
        { conversation with
          status := .readonly, expiresAt := some (env.now + conversationGraceMs) } := by
  obtain ⟨m, r, item, cid, c, hm, hactive, -, -, -, hc, hmatch, rfl⟩ :=
    cancelMatchForModeration_rows hx h
  exact ⟨m, cid, c, hm, hactive, rfl, hc, hmatch, rfl⟩

end Db
end Sahay
