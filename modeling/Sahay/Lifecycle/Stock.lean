import Sahay.Lib.Escrow
import Sahay.Lifecycle.Coupling

/-!
# Stock as accounts with holds

An inventory item is an account, an active match a hold on it.  Accepting places
a hold, cancelling releases it, settling captures the final quantity; owners
restock above what is held.  The books of the exchange are sound in every state.
-/

namespace Sahay

open Escrow

/-! ## Well-formed matches -/

/-- What the row of a match promises by itself. -/
structure Match.WellFormed (m : Match) : Prop where
  reserved : 0 < m.qtyReserved
  confirmed : ∀ side q, m.confirmedQty side = some q → 0 ≤ q ∧ q ≤ m.qtyReserved
  unapplied : m.status = .active → m.inventoryApplied = false
  awaits : m.status = .active → ∃ side, m.confirmedQty side = none
  settled : m.status.isSettled = true → ∃ q, m.finalQty = some q

namespace Match

variable {m m' : Match}

@[simp] theorem confirmedQty_requester (m : Match) :
    m.confirmedQty .requester = m.requesterConfirmedQty := rfl

@[simp] theorem confirmedQty_helper (m : Match) :
    m.confirmedQty .helper = m.helperConfirmedQty := rfl

theorem confirmedQty_set (m : Match) (side side' : Side) (qty : Qty) :
    (m.setConfirmedQty side qty).confirmedQty side' =
      if side' = side then some qty else m.confirmedQty side' := by
  cases side <;> cases side' <;> rfl

@[simp] theorem setConfirmedQty_qtyReserved (m : Match) (side : Side) (qty : Qty) :
    (m.setConfirmedQty side qty).qtyReserved = m.qtyReserved := by
  cases side <;> rfl

@[simp] theorem setConfirmedQty_status (m : Match) (side : Side) (qty : Qty) :
    (m.setConfirmedQty side qty).status = m.status := by
  cases side <;> rfl

@[simp] theorem setConfirmedQty_inventoryApplied (m : Match) (side : Side) (qty : Qty) :
    (m.setConfirmedQty side qty).inventoryApplied = m.inventoryApplied := by
  cases side <;> rfl

theorem finalQty_confirmed {q : Qty} (h : m.finalQty = some q) :
    ∃ side, m.confirmedQty side = some q := by
  unfold finalQty at h
  split at h
  next a b ha hb =>
    rcases min_choice a b with hmin | hmin <;> rw [hmin] at h
    · exact ⟨.requester, ha.trans h⟩
    · exact ⟨.helper, hb.trans h⟩
  next a ha hb => exact ⟨.requester, ha.trans h⟩
  next b ha hb => exact ⟨.helper, hb.trans h⟩
  next => cases h

theorem Confirms.bounds (hm : m.WellFormed) (h : m.Confirms m') (side : Side) (q : Qty)
    (hq : m'.confirmedQty side = some q) : 0 ≤ q ∧ q ≤ m'.qtyReserved := by
  rcases h with rfl | ⟨side', qty, -, hpos, hle, rfl⟩
  · exact hm.confirmed side q hq
  · rw [confirmedQty_set] at hq
    rw [setConfirmedQty_qtyReserved]
    split_ifs at hq
    · rw [← Option.some.inj hq]
      exact ⟨hpos, hle⟩
    · exact hm.confirmed side q hq

theorem Confirms.qtyReserved (h : m.Confirms m') : m'.qtyReserved = m.qtyReserved := by
  have hid := h.identity
  simp only [Match.identity, Prod.mk.injEq] at hid
  exact hid.2.2.2.2.2.2

theorem Confirms.inventoryItemId (h : m.Confirms m') :
    m'.inventoryItemId = m.inventoryItemId := by
  have hid := h.identity
  simp only [Match.identity, Prod.mk.injEq] at hid
  exact hid.2.2.2.2.2.1

theorem Confirms.requestId (h : m.Confirms m') : m'.requestId = m.requestId := by
  have hid := h.identity
  simp only [Match.identity, Prod.mk.injEq] at hid
  exact hid.1

theorem Confirms.final_bounds (hm : m.WellFormed) (h : m.Confirms m') {final : Qty}
    (hfinal : m'.finalQty = some final) : 0 ≤ final ∧ final ≤ m.qtyReserved := by
  obtain ⟨side, hside⟩ := finalQty_confirmed hfinal
  have hbounds := h.bounds hm side final hside
  rwa [h.qtyReserved] at hbounds

end Match

def Exchange.WellFormed (x : Exchange) : Prop :=
  ∀ mid m, x.matchRows.lookup mid = some m → m.WellFormed

theorem MatchStatus.isCancelled.not_settled {s : MatchStatus} (h : s.isCancelled = true) :
    s.isSettled = false := by
  revert h
  cases s <;> decide

theorem Lifecycle.wellFormed {c : Ctx} {x x' : Exchange} (h : Lifecycle c x x')
    (hw : x.WellFormed) : x'.WellFormed := by
  cases h with
  | accept oid o r item mid m cid ho hoffered hcaller hr hoffering hi hmid hm hcid hpos =>
      apply Table.forall_put hw
      constructor
      · exact hpos
      · intro side q hq
        rw [hm.unconfirmed] at hq
        cases hq
      · exact fun _ => hm.inventoryApplied
      · exact fun _ => ⟨.requester, hm.unconfirmed _⟩
      · intro hsettled
        rw [hm.status] at hsettled
        cases hsettled
  | confirm mid m side qty hm hactive hmine hother hqty =>
      have hold := hw mid m hm
      apply Table.forall_replace hw
      constructor
      · simpa using hold.reserved
      · exact Match.Confirms.bounds hold (.inr ⟨side, qty, hmine, hqty.1, hqty.2, rfl⟩)
      · simpa using hold.unapplied
      · refine fun _ => ⟨side.other, ?_⟩
        rw [Match.confirmedQty_set, if_neg (by cases side <;> decide), hother]
      · intro hsettled
        rw [Match.setConfirmedQty_status, hactive] at hsettled
        cases hsettled
  | settle mid m m' r item cid conversation final disputed closeReason actor hm hactive
      hconfirms hfinal =>
      have hold := hw mid m hm
      apply Table.forall_replace hw
      constructor
      · exact hconfirms.qtyReserved ▸ hold.reserved
      · exact fun side q hq => hconfirms.bounds hold side q (by cases side <;> exact hq)
      · exact fun hactive' => absurd hactive' (settledMatchStatus_ne_active _ _)
      · exact fun hactive' => absurd hactive' (settledMatchStatus_ne_active _ _)
      · exact fun _ => ⟨final, hfinal⟩
  | cancel mid m r item cid conversation conversation' canceller status closeReason reason hm
      hactive hstatus =>
      have hold := hw mid m hm
      apply Table.forall_replace hw
      constructor
      · exact hold.reserved
      · exact fun side q hq => hold.confirmed side q (by cases side <;> exact hq)
      · exact fun hactive' => absurd hactive' (MatchStatus.isCancelled.ne_active hstatus)
      · exact fun hactive' => absurd hactive' (MatchStatus.isCancelled.ne_active hstatus)
      · intro hsettled
        have hnot : status.isSettled = true := hsettled
        rw [MatchStatus.isCancelled.not_settled hstatus] at hnot
        cases hnot
  | meet mid m side state hm hactive =>
      have hold := hw mid m hm
      apply Table.forall_replace hw
      cases side <;>
        exact ⟨hold.reserved, fun side q hq => hold.confirmed side q (by cases side <;> exact hq),
          hold.unapplied, hold.awaits, hold.settled⟩
  | _ => exact hw

/-! ## The books -/

def Match.hold (m : Match) : Option (ItemId × Qty) :=
  if m.status = .active then some (m.inventoryItemId, m.qtyReserved) else none

def InventoryItem.account (item : InventoryItem) : Account Qty :=
  ⟨item.qtyOnHand, item.qtyReserved⟩

theorem Match.hold_active {m : Match} (h : m.status = .active) :
    m.hold = some (m.inventoryItemId, m.qtyReserved) :=
  if_pos h

theorem Match.hold_closed {m : Match} (h : m.status ≠ .active) : m.hold = none :=
  if_neg h

/-- What an item has reserved is what its active matches hold, within its stock. -/
def Exchange.Booked (x : Exchange) : Prop :=
  ∀ id item, x.inventoryItems.lookup id = some item →
    Sound (held Match.hold x.matchRows id) item.account

variable {x : Exchange}

/-- One account and the holds on it move together; the other accounts stay. -/
theorem Exchange.Booked.move (hb : x.Booked) {id : ItemId} {item' : InventoryItem}
    {matchRows : Table MatchId Match}
    (hsound : Sound (held Match.hold matchRows id) item'.account)
    (hframe : ∀ k, k ≠ id → held Match.hold matchRows k = held Match.hold x.matchRows k) :
    ∀ k row, (x.inventoryItems.replace id item').lookup k = some row →
      Sound (held Match.hold matchRows k) row.account := by
  intro k row hrow
  rw [Table.lookup_modify] at hrow
  obtain ⟨old, hold, hnew⟩ := Option.map_eq_some_iff.mp hrow
  split_ifs at hnew with hk
  · rwa [hk, ← hnew]
  · rw [hframe k hk, ← hnew]
    exact hb k old hold

theorem held_close {t : Table MatchId Match} {mid : MatchId} {m : Match}
    (h : t.lookup mid = some m) (hm : m.status = .active) (m' : Match) (hm' : m'.status ≠ .active)
    (k : ItemId) :
    held Match.hold (t.replace mid m') k =
      held Match.hold t k - if m.inventoryItemId = k then m.qtyReserved else 0 := by
  rw [held_replace _ h, Match.hold_active hm, Match.hold_closed hm']
  simp [amountOn]

theorem Exchange.Linked.held_absent (hl : x.Linked) {id : ItemId} (hid : id ∉ x.inventoryItems) :
    held Match.hold x.matchRows id = 0 := by
  apply held_eq_zero
  intro mid m hm
  obtain ⟨item, hi⟩ := hl.item hm
  have hne : m.inventoryItemId ≠ id := by
    rintro rfl
    exact hid (Table.mem_iff_exists.mpr ⟨item, hi⟩)
  by_cases hactive : m.status = .active
  · rw [Match.hold_active hactive, amountOn_ne hne]
  · rw [Match.hold_closed hactive, amountOn_none]

theorem Exchange.WellFormed.reserved_le_held (hw : x.WellFormed) {mid : MatchId} {m : Match}
    (hm : x.matchRows.lookup mid = some m) (hactive : m.status = .active) :
    m.qtyReserved ≤ held Match.hold x.matchRows m.inventoryItemId := by
  refine amount_le_held Match.hold (fun i r k amount hr hhold => ?_) hm (Match.hold_active hactive)
  by_cases ha : r.status = .active
  · rw [Match.hold_active ha] at hhold
    obtain ⟨-, rfl⟩ := Prod.mk.inj (Option.some.inj hhold)
    exact (hw i r hr).reserved.le
  · rw [Match.hold_closed ha] at hhold
    cases hhold

/-- A settlement captures the final quantity of its hold. -/
theorem Exchange.Booked.captured (hb : x.Booked) (hw : x.WellFormed) {mid : MatchId} {m m' : Match}
    {item : InventoryItem} {final : Qty} (hm : x.matchRows.lookup mid = some m)
    (hactive : m.status = .active) (hi : x.inventoryItems.lookup m.inventoryItemId = some item)
    (hconfirms : m.Confirms m') (hfinal : m'.finalQty = some final) :
    Sound (held Match.hold x.matchRows m.inventoryItemId - m.qtyReserved)
      ⟨item.qtyOnHand - final, item.qtyReserved - m.qtyReserved⟩ :=
  (hb _ item hi).capture (hw.reserved_le_held hm hactive)
    (hconfirms.final_bounds (hw mid m hm) hfinal).2

theorem Exchange.Booked.released (hb : x.Booked) (hw : x.WellFormed) {mid : MatchId} {m : Match}
    {item : InventoryItem} (hm : x.matchRows.lookup mid = some m) (hactive : m.status = .active)
    (hi : x.inventoryItems.lookup m.inventoryItemId = some item) :
    Sound (held Match.hold x.matchRows m.inventoryItemId - m.qtyReserved)
      ⟨item.qtyOnHand, item.qtyReserved - m.qtyReserved⟩ :=
  (hb _ item hi).release (hw mid m hm).reserved.le (hw.reserved_le_held hm hactive)

theorem Lifecycle.booked {c : Ctx} {x' : Exchange} (h : Lifecycle c x x') (hl : x.Linked)
    (hw : x.WellFormed) (hb : x.Booked) : x'.Booked := by
  cases h with
  | addItem id item hid hreserved honHand =>
      apply Table.forall_put hb
      rw [hl.held_absent hid, InventoryItem.account, hreserved]
      exact Sound.opened honHand
  | editItems f hrestocks hf =>
      intro id row hrow
      rw [Table.lookup_mapVal] at hrow
      obtain ⟨item, hi, rfl⟩ := Option.map_eq_some_iff.mp hrow
      rcases hf id item hi with heq | ⟨-, hreserved, hcheck⟩
      · rw [heq]
        exact hb id item hi
      · rw [InventoryItem.account, hreserved]
        exact (hb id item hi).restock (hreserved.symm.trans_le hcheck.2.2)
  | dropItem id =>
      intro k row hrow
      rw [Table.lookup_drop] at hrow
      split_ifs at hrow
      exact hb k row hrow
  | accept oid o r item mid m cid ho hoffered hcaller hr hoffering hi hmid hm hcid hpos hneed
      hfree =>
      have hheld (k : ItemId) : held Match.hold (x.matchRows.put mid m) k =
          held Match.hold x.matchRows k +
            if o.inventoryItemId = k then m.qtyReserved else 0 := by
        rw [held_put _ hmid, Match.hold_active hm.status, hm.inventoryItemId]
        rfl
      apply hb.move
      · simp only [Exchange.moveRequest_matchRows, hheld, if_true]
        exact (hb _ item hi).place hpos.le hfree
      · intro k hk
        simp only [Exchange.moveRequest_matchRows, hheld, if_neg (Ne.symm hk), add_zero]
  | confirm mid m side qty hm hactive =>
      have hsame : (m.setConfirmedQty side qty).hold = m.hold := by cases side <;> rfl
      intro id item hi
      simp only [held_replace_same Match.hold hm hsame]
      exact hb id item hi
  | settle mid m m' r item cid conversation final disputed closeReason actor hm hactive
      hconfirms hfinal hr hmatched hi =>
      have hheld := held_close hm hactive (m'.settledAs (settledMatchStatus disputed
        (r.qty ≤ r.qtyFulfilled + final)) closeReason c.now) (settledMatchStatus_ne_active _ _)
      apply hb.move
      · simp only [Exchange.moveRequest_matchRows, hheld, if_true]
        exact hb.captured hw hm hactive hi hconfirms hfinal
      · intro k hk
        simp only [Exchange.moveRequest_matchRows, hheld, if_neg (Ne.symm hk), sub_zero]
  | cancel mid m r item cid conversation conversation' canceller status closeReason reason hm
      hactive hstatus hr hmatched hi =>
      have hheld := held_close hm hactive (m.cancelledAs status closeReason c.now)
        (MatchStatus.isCancelled.ne_active hstatus)
      apply hb.move
      · simp only [Exchange.moveRequest_matchRows, hheld, if_true]
        exact hb.released hw hm hactive hi
      · intro k hk
        simp only [Exchange.moveRequest_matchRows, hheld, if_neg (Ne.symm hk), sub_zero]
  | meet mid m side state hm hactive =>
      have hsame : (m.setMeetingState side state).hold = m.hold := by cases side <;> rfl
      intro id item hi
      simp only [held_replace_same Match.hold hm hsame]
      exact hb id item hi
  | _ => exact hb

end Sahay
