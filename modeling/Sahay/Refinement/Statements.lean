import Sahay.Lifecycle.Origins

/-!
# Statements, inverted

What a successful statement has read and written.  The operations are opened with
these and never unfold a statement; each statement keeps what it does not name.
-/

namespace Sahay

namespace Db

variable {db db' : Db}

theorem updateRequest_ok {id : RequestId} {set : Request → Request} :
    db.updateRequest id set = .ok db' ↔ ∃ r, db.requests.lookup id = some r ∧ (set r).check ∧
      { db with requests := db.requests.replace id (set r) } = db' := by
  simp only [updateRequest, bind_ok, found_ok, ensure_ok, pure_ok]
  constructor
  · rintro ⟨r, hr, ⟨⟩, hcheck, rfl⟩
    exact ⟨r, hr, hcheck, by rw [Table.modify_eq_replace hr]⟩
  · rintro ⟨r, hr, hcheck, rfl⟩
    exact ⟨r, hr, ⟨⟩, hcheck, by rw [Table.modify_eq_replace hr]⟩

theorem updateInventoryItem_ok {id : ItemId} {set : InventoryItem → InventoryItem} :
    db.updateInventoryItem id set = .ok db' ↔ ∃ item, db.inventoryItems.lookup id = some item ∧
      (set item).check ∧
      { db with inventoryItems := db.inventoryItems.replace id (set item) } = db' := by
  simp only [updateInventoryItem, bind_ok, found_ok, ensure_ok, pure_ok]
  constructor
  · rintro ⟨item, hi, ⟨⟩, hcheck, rfl⟩
    exact ⟨item, hi, hcheck, by rw [Table.modify_eq_replace hi]⟩
  · rintro ⟨item, hi, hcheck, rfl⟩
    exact ⟨item, hi, ⟨⟩, hcheck, by rw [Table.modify_eq_replace hi]⟩

/-- A transition writes one row and one audit entry. -/
def moved (db : Db) (id : RequestId) (source : RequestStatus) (r' : Request)
    (target : RequestStatus) (actor : TransitionActor) (reason : Option String) (now : Time) :
    Db :=
  { db with
    requests := db.requests.replace id r'
    requestTransitions := db.requestTransitions ++
      [⟨id, some source, target, actor, reason, now⟩] }

theorem transitionRequest_ok {id : RequestId} {source target : RequestStatus}
    {actor : TransitionActor} {reason : Option String} {now : Time} {set : Request → Request} :
    db.transitionRequest id source target actor reason now set = .ok db' ↔
      canTransition (some source) target = true ∧ ∃ r, db.requests.lookup id = some r ∧
        (set { r with status := target }).check ∧
        db.moved id source (set { r with status := target }) target actor reason now = db' := by
  simp only [transitionRequest, bind_ok, ensure_ok, updateRequest_ok, pure_ok, moved]
  constructor
  · rintro ⟨⟨⟩, hcan, _, ⟨r, hr, hcheck, rfl⟩, rfl⟩
    exact ⟨hcan, r, hr, hcheck, rfl⟩
  · rintro ⟨hcan, r, hr, hcheck, rfl⟩
    exact ⟨⟨⟩, hcan, _, ⟨r, hr, hcheck, rfl⟩, rfl⟩

theorem closeOffer_eq {oid : OfferId} {o : MatchOffer} (h : db.matchOffers.lookup oid = some o)
    (status : OfferStatus) (now : Time) :
    db.closeOffer oid status now =
      { db with matchOffers :=
          db.matchOffers.replace oid { o with status := status, respondedAt := some now } } := by
  rw [closeOffer, Table.modify_eq_replace h]

theorem updateMatch_eq {mid : MatchId} {m : Match} (h : db.matchRows.lookup mid = some m)
    (set : Match → Match) :
    db.updateMatch mid set = { db with matchRows := db.matchRows.replace mid (set m) } := by
  rw [updateMatch, Table.modify_eq_replace h]

theorem lockPendingOffer_ok {env : Env} {helperId : UserId} {offerId : OfferId} {o : MatchOffer} :
    db.lockPendingOffer env helperId offerId = .ok o ↔
      db.matchOffers.lookup offerId = some o ∧ o.helperId = helperId ∧ o.status = .offered ∧
        env.now < o.respondBy := by
  simp only [lockPendingOffer, bind_ok, found_ok, ensure_ok, pure_ok, Option.filter_eq_some_iff,
    decide_eq_true_eq]
  constructor
  · rintro ⟨o, ⟨ho, hhelper⟩, ⟨⟩, hoffered, ⟨⟩, htime, rfl⟩
    exact ⟨ho, hhelper, hoffered, htime⟩
  · rintro ⟨ho, hhelper, hoffered, htime⟩
    exact ⟨o, ⟨ho, hhelper⟩, ⟨⟩, hoffered, ⟨⟩, htime, rfl⟩

theorem lockOwnRequest_ok {userId : UserId} {requestId : RequestId} {r : Request} :
    db.lockOwnRequest userId requestId = .ok r ↔
      db.requests.lookup requestId = some r ∧ r.requesterId = userId := by
  simp only [lockOwnRequest, found_ok, Option.filter_eq_some_iff, decide_eq_true_eq]

theorem conversationOf_some {matchId : MatchId} {cid : ConversationId}
    (h : db.conversationOf matchId = some cid) :
    ∃ c, db.conversations.lookup cid = some c ∧ c.matchId = matchId := by
  obtain ⟨⟨cid', c⟩, hfirst, rfl⟩ := Option.map_eq_some_iff.mp h
  obtain ⟨hc, hp⟩ := Table.first_some hfirst
  exact ⟨c, hc, by simpa using hp⟩

/-! ## Counters, locations and messages are outside the exchange -/

section Frame

variable (db)

@[simp] theorem insertSystemMessage_toExchange (env : Env) (cid : ConversationId)
    (senderId : UserId) (bodyKey : String) :
    (db.insertSystemMessage env cid senderId bodyKey).toExchange = db.toExchange := rfl

@[simp] theorem insertSystemMessage_toDirectory (env : Env) (cid : ConversationId)
    (senderId : UserId) (bodyKey : String) :
    (db.insertSystemMessage env cid senderId bodyKey).toDirectory = db.toDirectory := rfl

@[simp] theorem applySettlement_toExchange (m : Match) (opts : SettleOptions) (now : Time) :
    (db.applySettlement m opts now).toExchange = db.toExchange := by
  unfold applySettlement
  split_ifs
  · rfl
  · exact ((bump_toExchange _ _ _ _).trans (bump_toExchange _ _ _ _)).trans
      (bump_toExchange db _ _ _)
  · exact bump_toExchange db _ _ _

@[simp] theorem applySettlement_toDirectory (m : Match) (opts : SettleOptions) (now : Time) :
    (db.applySettlement m opts now).toDirectory = db.toDirectory := by
  unfold applySettlement
  split_ifs
  · rfl
  · exact ((bump_toDirectory _ _ _ _).trans (bump_toDirectory _ _ _ _)).trans
      (bump_toDirectory db _ _ _)
  · exact bump_toDirectory db _ _ _

@[simp] theorem forgetLocation_toExchange (m : Match) (opts : CancelOptions) :
    (db.forgetLocation m opts).toExchange = db.toExchange := by
  unfold forgetLocation
  split <;> rfl

@[simp] theorem forgetLocation_categories (m : Match) (opts : CancelOptions) :
    (db.forgetLocation m opts).categories = db.categories := by
  unfold forgetLocation
  split <;> rfl

@[simp] theorem applyCancellation_toExchange (m : Match) (opts : CancelOptions) (now : Time) :
    (db.applyCancellation m opts now).toExchange = db.toExchange := by
  unfold applyCancellation
  split_ifs <;> rfl

@[simp] theorem applyCancellation_toDirectory (m : Match) (opts : CancelOptions) (now : Time) :
    (db.applyCancellation m opts now).toDirectory = db.toDirectory := by
  unfold applyCancellation
  split_ifs <;> rfl

end Frame

/-! ## Locked rows -/

/-- The rows that `lockMatchRows` returns are the rows of the match. -/
structure Locked (db : Db) (matchId : MatchId) (locks : MatchLocks) : Prop where
  matchRow : db.matchRows.lookup matchId = some locks.matchRow
  request : db.requests.lookup locks.matchRow.requestId = some locks.request
  item : db.inventoryItems.lookup locks.matchRow.inventoryItemId = some locks.item
  category : ∃ category, db.categories.lookup locks.request.categoryId = some category ∧
    category.fractional = locks.fractional
  conversation : ∃ c, db.conversations.lookup locks.conversationId = some c ∧ c.matchId = matchId

theorem lockMatchRows_some {matchId : MatchId} {locks : MatchLocks}
    (h : db.lockMatchRows matchId = some locks) : db.Locked matchId locks := by
  simp only [lockMatchRows, Option.bind_eq_bind, Option.bind_eq_some_iff, Option.pure_def,
    Option.some.injEq] at h
  obtain ⟨m, hm, r, hr, item, hi, category, hcat, cid, hcid, rfl⟩ := h
  exact ⟨hm, hr, hi, ⟨category, hcat, rfl⟩, conversationOf_some hcid⟩

end Db
end Sahay
