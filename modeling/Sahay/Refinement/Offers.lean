import Sahay.Refinement.Statements

/-!
# Inventory and offers refine the lifecycle

What `addInventory`, `updateInventory`, `deleteInventory`, `declineOffer` and
`acceptOffer` do to the exchange when they commit.
-/

namespace Sahay

namespace Db

def ctx (db : Db) (env : Env) (caller : Option UserId) (op : Op) : Ctx :=
  ⟨db.toDirectory, env.now, caller, op⟩

/-- Stock and matches are left alone, and no request enters the pool. -/
structure Quiet (db db' : Db) : Prop where
  inventoryItems : db'.inventoryItems = db.inventoryItems
  matchRows : db'.matchRows = db.matchRows
  pool : db.toExchange.KeepsPool db'.toExchange

theorem Quiet.of_requests {db db' : Db} (hitems : db'.inventoryItems = db.inventoryItems)
    (hmatches : db'.matchRows = db.matchRows) (hrequests : db'.requests = db.requests) :
    Quiet db db' :=
  ⟨hitems, hmatches, by rw [Exchange.KeepsPool, hrequests]; exact .refl _ _ _⟩

theorem Quiet.trans {db db' db'' : Db} (h : Quiet db db') (h' : Quiet db' db'') :
    Quiet db db'' :=
  ⟨h'.inventoryItems.trans h.inventoryItems, h'.matchRows.trans h.matchRows,
    h.pool.trans h'.pool⟩

/-- A committed transaction is a run of lifecycle steps; a transaction that is
not quiet is one step.  No category is removed. -/
structure Refines (c : Ctx) (db db' : Db) : Prop where
  run : LifecycleRun c db.toExchange db'.toExchange
  single : Quiet db db' ∨ Lifecycle c db.toExchange db'.toExchange
  categories : ∀ id ∈ db.categories, id ∈ db'.categories

variable {db db' : Db} {c : Ctx} {op : Op}

theorem Refines.step (h : Lifecycle c db.toExchange db'.toExchange)
    (hcat : db'.categories = db.categories) : Refines c db db' :=
  ⟨.single h, .inr h, fun _ hid => hcat ▸ hid⟩

theorem Refines.silent (h : db'.toExchange = db.toExchange)
    (hcat : db'.categories = db.categories) : Refines c db db' where
  run := by rw [h]
  single := .inl (.of_requests (congrArg Exchange.inventoryItems h)
    (congrArg Exchange.matchRows h) (congrArg Exchange.requests h))
  categories := fun _ hid => hcat ▸ hid

/-! ## Inventory -/

/-- The row that `addInventory` inserts, below the cap. -/
structure AddsItem (db : Db) (userId : UserId) (eventId : EventId) (input : AddInventoryInput)
    (itemId : ItemId) (item : InventoryItem) : Prop where
  fresh : itemId ∉ db.inventoryItems
  owner : item.userId = userId
  event : item.eventId = eventId
  keyed : item.idempotencyKey = input.idempotencyKey
  unreserved : item.qtyReserved = 0
  nonneg : 0 ≤ item.qtyOnHand
  below : (db.inventoryItems.count fun _ item =>
    item.userId = userId && item.eventId = eventId && item.active) <
      Limits.maxInventoryItemsPerEvent

/-- Adding an item writes one new row, unless its key already names one. -/
theorem addInventory_ok {env : Env} {userId : UserId} {eventId : EventId}
    {input : AddInventoryInput} {itemId : ItemId}
    (h : db.addInventory env userId eventId input = .ok (itemId, db')) :
    (db.itemByIdempotencyKey userId input.idempotencyKey = some itemId ∧ db' = db) ∨
      ∃ item, db.AddsItem userId eventId input itemId item ∧
        db' = { db with inventoryItems := db.inventoryItems.put itemId item } := by
  unfold addInventory at h
  split at h
  · rename_i existing hexisting
    obtain ⟨rfl, rfl⟩ := Prod.mk.inj (pure_ok.mp h)
    exact .inl ⟨hexisting, rfl⟩
  · simp only [bind_ok, found_ok, ensure_ok, pure_ok, Prod.mk.injEq] at h
    obtain ⟨event, -, -, -, membership, -, effective, -, -, -, -, -, -, hbelow, rfl, rfl⟩ := h
    exact .inr ⟨_, ⟨Table.freshKey_notMem _ _, rfl, rfl, rfl, rfl, input.qty.2.1.le, hbelow⟩, rfl⟩

theorem addInventory_refines {env : Env} {userId : UserId} {eventId : EventId}
    {input : AddInventoryInput} {itemId : ItemId} {caller : Option UserId}
    (h : db.addInventory env userId eventId input = .ok (itemId, db')) :
    Refines (db.ctx env caller op) db db' := by
  rcases addInventory_ok h with ⟨-, rfl⟩ | ⟨item, hadds, rfl⟩
  · exact .silent rfl rfl
  · exact .step (.addItem itemId item hadds.fresh hadds.unreserved hadds.nonneg) rfl

/-- An edit of one item is an edit of the table. -/
theorem editItem_lifecycle (hrestocks : c.op.restocks = true) {itemId : ItemId}
    {item item' : InventoryItem}
    (hi : db.inventoryItems.lookup itemId = some item) (hid : item'.identity = item.identity)
    (hreserved : item'.qtyReserved = item.qtyReserved) (hcheck : item'.check) :
    Lifecycle c db.toExchange
      { db.toExchange with inventoryItems := db.inventoryItems.replace itemId item' } := by
  refine .editItems (fun k row => if k = itemId then item' else row) hrestocks
    fun k row hrow => ?_
  split_ifs with hk
  · subst hk
    obtain rfl := Option.some.inj (hi.symm.trans hrow)
    exact .inr ⟨hid, hreserved, hcheck⟩
  · exact .inl rfl

theorem updateInventory_refines {env : Env} {userId : UserId} {itemId : ItemId}
    {input : UpdateInventoryInput} {caller : Option UserId} (hrestocks : op.restocks = true)
    (h : db.updateInventory env userId itemId input = .ok db') :
    Refines (db.ctx env caller op) db db' := by
  simp only [updateInventory, bind_ok, found_ok, ensure_ok, updateInventoryItem_ok] at h
  obtain ⟨-, -, -, -, item, hi, hcheck, rfl⟩ := h
  exact .step (editItem_lifecycle hrestocks hi rfl rfl hcheck) rfl

theorem deleteInventory_refines {env : Env} {userId : UserId} {itemId : ItemId}
    {caller : Option UserId} (hrestocks : op.restocks = true)
    (h : db.deleteInventory env userId itemId = .ok db') :
    Refines (db.ctx env caller op) db db' := by
  simp only [deleteInventory, bind_ok, found_ok] at h
  obtain ⟨-, -, h⟩ := h
  split_ifs at h with hused
  · obtain ⟨item, hi, hcheck, rfl⟩ := updateInventoryItem_ok.mp h
    exact .step (editItem_lifecycle hrestocks hi rfl rfl hcheck) rfl
  · obtain rfl := pure_ok.mp h
    rw [not_or, Bool.not_eq_true, Bool.not_eq_true, Option.isSome_eq_false_iff,
      Option.isSome_eq_false_iff, Option.isNone_iff_eq_none, Option.isNone_iff_eq_none,
      Table.first_none, Table.first_none] at hused
    refine .step (.dropItem itemId hrestocks (fun oid o ho => ?_) fun mid m hm => ?_) rfl
    · simpa using hused.1 oid o ho
    · simpa using hused.2 mid m hm

/-! ## Offers -/

theorem declineOffer_refines {env : Env} {helperId : UserId} {offerId : OfferId}
    {alsoStopReceiving : Bool} {effects : List Effect} {caller : Option UserId}
    (hx : db.toExchange.Consistent)
    (h : db.declineOffer env helperId offerId alsoStopReceiving = .ok (effects, db')) :
    Refines (db.ctx env caller op) db db' := by
  simp only [declineOffer, bind_ok, found_ok, lockPendingOffer_ok] at h
  obtain ⟨o, ⟨ho, hhelper, hoffered, htime⟩, r, hr, h⟩ := h
  have hoffering : r.status = .offering := hx.coupled.offering ho hoffered hr
  rw [if_pos hoffering, closeOffer_eq ho] at h
  simp only [bind_ok, transitionRequest_ok, pure_ok, Prod.mk.injEq] at h
  obtain ⟨_, ⟨hcan, r', hr', hcheck, rfl⟩, -, rfl⟩ := h
  obtain rfl : r = r' := Option.some.inj (hr.symm.trans hr')
  have hstep := Lifecycle.closeOffer (c := db.ctx env caller op) offerId o r .declined .helper
    (some "offer-declined") ho hoffered (.inl rfl) hr hoffering
  split_ifs <;> exact .step hstep rfl

theorem computeReserveQty_pos {offerQty need available : Qty} {fractional : Bool}
    (h : 0 < computeReserveQty offerQty need available fractional) :
    computeReserveQty offerQty need available fractional ≤ offerQty ∧
      computeReserveQty offerQty need available fractional ≤ need ∧
      computeReserveQty offerQty need available fractional ≤ available := by
  have hle : computeReserveQty offerQty need available fractional ≤
      min offerQty (min need available) := by
    unfold computeReserveQty at h ⊢
    simp only at h ⊢
    split_ifs at h ⊢ with hfractional hpos hpos
    · exact le_refl _
    · exact absurd h (lt_irrefl 0)
    · exact Int.floor_le _
    · exact absurd h (lt_irrefl 0)
  exact ⟨hle.trans (min_le_left _ _), hle.trans ((min_le_right _ _).trans (min_le_left _ _)),
    hle.trans ((min_le_right _ _).trans (min_le_right _ _))⟩

theorem acceptOffer_refines {env : Env} {helperId : UserId} {offerId : OfferId}
    {draws : List (ℕ × ℕ)} {outcome : AcceptOutcome} {effects : List Effect}
    (hop : ∃ token draws, op = .acceptOffer token offerId draws)
    (h : db.acceptOffer env helperId offerId draws = .ok (outcome, effects, db')) :
    Refines (db.ctx env (some helperId) op) db db' := by
  simp only [acceptOffer, bind_ok, found_ok, ensure_ok, lockPendingOffer_ok] at h
  obtain ⟨o, ⟨ho, hhelper, hoffered, htime⟩, r, hr, ⟨⟩, hoffering, item, hi, h⟩ := h
  generalize hq : computeReserveQty o.qty (r.qty - r.qtyFulfilled)
    (if item.active = true then item.qtyOnHand - item.qtyReserved else 0)
    ((db.categories.lookup r.categoryId).elim false Category.fractional) = q at h
  by_cases hnone : q ≤ 0
  · rw [if_pos hnone, closeOffer_eq ho] at h
    simp only [bind_ok, transitionRequest_ok, pure_ok, Prod.mk.injEq] at h
    obtain ⟨_, ⟨hcan, r', hr', hcheck, rfl⟩, -, -, rfl⟩ := h
    obtain rfl : r = r' := Option.some.inj (hr.symm.trans hr')
    exact .step (.closeOffer offerId o r .expired .system (some "insufficient-inventory") ho
      hoffered (.inr rfl) hr hoffering) rfl
  · rw [if_neg hnone] at h
    simp only [bind_ok, updateInventoryItem_ok, found_ok, ensure_ok, transitionRequest_ok,
      pure_ok, Prod.mk.injEq] at h
    obtain ⟨_, ⟨item', hi', hcheckItem, rfl⟩, aliases, haliases, ⟨⟩, hfirst, _,
      ⟨hcan, r', hr', hcheck, rfl⟩, -, -, rfl⟩ := h
    obtain rfl : item = item' := Option.some.inj (hi.symm.trans hi')
    obtain rfl : r = r' := Option.some.inj (hr.symm.trans hr')
    have hbounds := computeReserveQty_pos (hq ▸ not_le.mp hnone)
    rw [hq] at hbounds
    have hfree : q ≤ item.qtyOnHand - item.qtyReserved := by
      have havailable := hbounds.2.2
      split_ifs at havailable
      · exact havailable
      · exact absurd havailable hnone
    have hm : (o.newMatch offerId r helperId q aliases env.now).Opens offerId o r :=
      ⟨rfl, rfl, rfl, rfl, hhelper.symm, rfl, rfl, rfl, fun side => by cases side <;> rfl⟩
    have hstep := Lifecycle.accept (c := db.ctx env (some helperId) op) offerId o r item
      (db.matchRows.freshKey env.uuid.matchRow) _ (db.conversations.freshKey env.uuid.conversation)
      ho hoffered ⟨congrArg some hhelper.symm, hop⟩ hr hoffering hi (Table.freshKey_notMem _ _) hm
      (Table.freshKey_notMem _ _) (not_le.mp hnone) hbounds.2.1 hfree htime
    refine .step ?_ rfl
    have hclose := Table.modify_eq_replace ho fun o =>
      { o with status := .accepted, respondedAt := some env.now }
    simp only [closeOffer, hclose]
    exact hstep

end Db
end Sahay
