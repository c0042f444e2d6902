import Sahay.Lifecycle.Conversations
import Sahay.Lifecycle.Stock

/-!
# Fulfilment

What a request has received is the sum of what its settled matches took, and an
active match never promises more than is still missing.  With the references,
the conversations, the coupling and the books this is the invariant of the exchange.
-/

namespace Sahay

/-! ## What settled matches gave -/

/-- What a match has given to the request `rid`. -/
def Match.gave (m : Match) (rid : RequestId) : Qty :=
  if m.requestId = rid ∧ m.status.isSettled then m.finalQty.getD 0 else 0

/-- What all matches have given to the request `rid`. -/
def settledSum (t : Table MatchId Match) (rid : RequestId) : Qty := t.sum fun _ m => m.gave rid

theorem Match.gave_eq_zero {m : Match} (h : m.status.isSettled = false) (rid : RequestId) :
    m.gave rid = 0 := by
  simp [gave, h]

section Sum

variable {t : Table MatchId Match} {mid : MatchId} {m m' : Match}

theorem settledSum_replace_open (h : t.lookup mid = some m) (hm : m.status.isSettled = false)
    (hm' : m'.status.isSettled = false) (rid : RequestId) :
    settledSum (t.replace mid m') rid = settledSum t rid := by
  have hsum := Table.sum_replace h m' fun _ m => m.gave rid
  rw [Match.gave_eq_zero hm, Match.gave_eq_zero hm', add_zero, add_zero] at hsum
  exact hsum

theorem settledSum_settle (h : t.lookup mid = some m) (hm : m.status.isSettled = false)
    (m' : Match) (hm' : m'.status.isSettled = true) {final : Qty}
    (hfinal : m'.finalQty = some final) (rid : RequestId) :
    settledSum (t.replace mid m') rid =
      settledSum t rid + if m'.requestId = rid then final else 0 := by
  have hsum := Table.sum_replace h m' fun _ m => m.gave rid
  rw [Match.gave_eq_zero hm, add_zero] at hsum
  rw [settledSum, hsum, settledSum]
  simp [Match.gave, hm', hfinal]

theorem settledSum_put (hmid : mid ∉ t) (hm : m.status.isSettled = false) (rid : RequestId) :
    settledSum (t.put mid m) rid = settledSum t rid := by
  rw [settledSum, Table.sum_put hmid, Match.gave_eq_zero hm, zero_add, settledSum]

end Sum

/-! ## The invariant -/

/-- What the row of a request and its matches promise together. -/
structure Request.Fulfils (rid : RequestId) (r : Request) (t : Table MatchId Match) : Prop where
  check : r.check
  total : r.qtyFulfilled = settledSum t rid
  promised : ∀ mid m, t.lookup mid = some m → m.requestId = rid → m.status = .active →
    m.qtyReserved ≤ r.qty - r.qtyFulfilled

def Exchange.Fulfilled (x : Exchange) : Prop :=
  ∀ rid r, x.requests.lookup rid = some r → r.Fulfils rid x.matchRows

variable {x : Exchange}

theorem Request.Fulfils.congr {rid : RequestId} {r r' : Request} {t : Table MatchId Match}
    (h : r.Fulfils rid t) (hqty : r'.qty = r.qty) (hfulfilled : r'.qtyFulfilled = r.qtyFulfilled) :
    r'.Fulfils rid t := by
  constructor
  · rw [Request.check, hqty, hfulfilled]
    exact h.check
  · rw [hfulfilled, h.total]
  · rw [hqty, hfulfilled]
    exact h.promised

theorem Request.Fulfils.rematch {rid : RequestId} {r : Request} {t t' : Table MatchId Match}
    (h : r.Fulfils rid t) (hsum : settledSum t' rid = settledSum t rid)
    (hpromised : ∀ mid m, t'.lookup mid = some m → m.requestId = rid → m.status = .active →
      m.qtyReserved ≤ r.qty - r.qtyFulfilled) : r.Fulfils rid t' :=
  ⟨h.check, by rw [hsum, h.total], hpromised⟩

theorem Exchange.Fulfilled.move {t : Table MatchId Match} (hf : ∀ rid r,
      x.requests.lookup rid = some r → r.Fulfils rid t)
    {id : RequestId} {r r' : Request} (hr : x.requests.lookup id = some r)
    (hqty : r'.qty = r.qty) (hfulfilled : r'.qtyFulfilled = r.qtyFulfilled) :
    ∀ rid row, (x.requests.replace id r').lookup rid = some row → row.Fulfils rid t :=
  Table.forall_replace hf ((hf id r hr).congr hqty hfulfilled)

/-- Rewriting a match that is open before and not settled after, within its
reservation, keeps every request fulfilled. -/
theorem Exchange.Fulfilled.rematch (hf : x.Fulfilled) {mid : MatchId} {m : Match}
    (hm : x.matchRows.lookup mid = some m) (hactive : m.status = .active) (m' : Match)
    (hsettled : m'.status.isSettled = false) (hrequest : m'.requestId = m.requestId)
    (hreserved : m'.qtyReserved = m.qtyReserved) :
    ∀ rid r, x.requests.lookup rid = some r → r.Fulfils rid (x.matchRows.replace mid m') := by
  intro rid r hr
  refine (hf rid r hr).rematch (settledSum_replace_open hm (by rw [hactive]; rfl) hsettled rid) ?_
  refine Table.forall_replace (hf rid r hr).promised fun hrid _ => ?_
  rw [hreserved]
  exact (hf rid r hr).promised mid m hm (hrequest ▸ hrid) hactive

theorem Request.Fulfils.settled {rid : RequestId} {r : Request} {t : Table MatchId Match}
    (h : r.Fulfils rid t) {final : Qty} (hpos : 0 ≤ final)
    (hle : final ≤ r.qty - r.qtyFulfilled) :
    0 < r.qty ∧ 0 ≤ r.qtyFulfilled + final ∧ r.qtyFulfilled + final ≤ r.qty := by
  obtain ⟨hqty, hfulfilled, -⟩ := h.check
  exact ⟨hqty, add_nonneg hfulfilled hpos, by linarith⟩

/-- The only active match of a matched request. -/
theorem Exchange.Coupled.unique (hc : x.Coupled) {r : Request} {mid mid' : MatchId}
    {m m' : Match} (hm : x.matchRows.lookup mid = some m) (hactive : m.status = .active)
    (hr : x.requests.lookup m.requestId = some r) (hmatched : r.status = .matched)
    (hm' : x.matchRows.lookup mid' = some m') (hactive' : m'.status = .active)
    (hrequest : m'.requestId = m.requestId) : mid' = mid := by
  have hcount := (hc m.requestId).2
  rw [statusOf_some hr, hmatched, if_pos rfl] at hcount
  exact Table.eq_of_count_le_one hcount.le hm' hm (by simp [hrequest, hactive']) (by simp [hactive])

theorem Exchange.Linked.no_match (hl : x.Linked) {id : RequestId} (hid : id ∉ x.requests)
    {mid : MatchId} {m : Match} (hm : x.matchRows.lookup mid = some m) : m.requestId ≠ id := by
  rintro rfl
  obtain ⟨r, hr, -⟩ := (hl.matchRows mid m hm).request
  exact hid (Table.mem_iff_exists.mpr ⟨r, hr⟩)

theorem Lifecycle.fulfilled {c : Ctx} {x' : Exchange} (h : Lifecycle c x x') (hl : x.Linked)
    (hc : x.Coupled) (hw : x.WellFormed) (hf : x.Fulfilled) : x'.Fulfilled := by
  cases h with
  | addItem | editItems | dropItem => exact hf
  | openRequest id r hid hcaller hcategory hstatus hcheck hfulfilled =>
      apply Table.forall_put hf
      constructor
      · exact hcheck
      · rw [hfulfilled, eq_comm]
        apply Table.sum_eq_zero
        intro mid m hm
        simp [Match.gave, hl.no_match hid hm]
      · intro mid m hm hrid
        exact absurd hrid (hl.no_match hid hm)
  | closeRequest id r target actor reason hr => exact Exchange.Fulfilled.move hf hr rfl rfl
  | createOffer oid o r item hoid hoffered hr => exact Exchange.Fulfilled.move hf hr rfl rfl
  | closeOffer oid o r status actor reason ho hoffered hstatus hr =>
      exact Exchange.Fulfilled.move hf hr rfl rfl
  | accept oid o r item mid m cid ho hoffered hcaller hr hoffering hi hmid hm hcid hpos hneed =>
      refine Exchange.Fulfilled.move (x := x) (fun rid row hrow => ?_) hr rfl rfl
      have hrow' := hf rid row hrow
      refine hrow'.rematch (settledSum_put hmid (by rw [hm.status]; rfl) rid) ?_
      refine Table.forall_put hrow'.promised fun hrid _ => ?_
      rw [hm.requestId] at hrid
      rw [← hrid, hr] at hrow
      rwa [← Option.some.inj hrow]
  | confirm mid m side qty hm hactive =>
      exact hf.rematch hm hactive _ (by rw [Match.setConfirmedQty_status, hactive]; rfl)
        (by cases side <;> rfl) (by cases side <;> rfl)
  | settle mid m m' r item cid conversation final disputed closeReason actor hm hactive
      hconfirms hfinal hr hmatched =>
      have hbounds := hconfirms.final_bounds (hw mid m hm) hfinal
      have hold := hf m.requestId r hr
      have hpromised := hold.promised mid m hm rfl hactive
      have hsum := settledSum_settle hm (by rw [hactive]; rfl)
        (m'.settledAs (settledMatchStatus disputed (r.qty ≤ r.qtyFulfilled + final)) closeReason
          c.now) (settledMatchStatus_isSettled _ _) hfinal
      have hrequest : (m'.settledAs (settledMatchStatus disputed
        (r.qty ≤ r.qtyFulfilled + final)) closeReason c.now).requestId = m.requestId :=
        hconfirms.requestId
      rw [hrequest] at hsum
      intro rid row hrow
      rw [Exchange.moveRequest_requests, Table.lookup_replace hr] at hrow
      by_cases hk : rid = m.requestId
      · rw [if_pos hk] at hrow
        obtain rfl := Option.some.inj hrow
        subst hk
        constructor
        · exact hold.settled hbounds.1 (hbounds.2.trans hpromised)
        · rw [Exchange.moveRequest_matchRows, hsum, if_pos rfl, hold.total]
        · -- Every other match of the request is closed already.
          intro mid₂ m₂ hm₂ hrid hactive₂
          rw [Exchange.moveRequest_matchRows, Table.lookup_replace hm] at hm₂
          split_ifs at hm₂ with hmid
          · obtain rfl := Option.some.inj hm₂
            exact absurd hactive₂ (settledMatchStatus_ne_active _ _)
          · exact absurd (hc.unique hm hactive hr hmatched hm₂ hactive₂ hrid) hmid
      · rw [if_neg hk] at hrow
        refine (hf rid row hrow).rematch ?_ ?_
        · rw [Exchange.moveRequest_matchRows, hsum, if_neg (Ne.symm hk), add_zero]
        · refine Table.forall_replace (hf rid row hrow).promised fun _ hactive' => ?_
          exact absurd hactive' (settledMatchStatus_ne_active _ _)
  | cancel mid m r item cid conversation conversation' canceller status closeReason reason hm
      hactive hstatus hr =>
      have hrematch := hf.rematch hm hactive (m.cancelledAs status closeReason c.now)
        (MatchStatus.isCancelled.not_settled hstatus) rfl rfl
      exact Exchange.Fulfilled.move hrematch hr rfl rfl
  | reopen id r expiresAt reason hr => exact Exchange.Fulfilled.move hf hr rfl rfl
  | conclude id r target hr => exact Exchange.Fulfilled.move hf hr rfl rfl
  | widen id r radius hr => exact Exchange.Fulfilled.move hf hr rfl rfl
  | meet mid m side state hm hactive =>
      refine hf.rematch hm hactive _ ?_ (by cases side <;> rfl) (by cases side <;> rfl)
      cases side <;> simp [Match.setMeetingState, hactive, MatchStatus.isSettled]

/-! ## All invariants together -/

structure Exchange.Consistent (x : Exchange) : Prop where
  linked : x.Linked
  conversed : x.Conversed
  coupled : x.Coupled
  wellFormed : x.WellFormed
  booked : x.Booked
  fulfilled : x.Fulfilled

theorem Lifecycle.consistent {c : Ctx} {x' : Exchange} (h : Lifecycle c x x')
    (hx : x.Consistent) : x'.Consistent where
  linked := h.linked hx.linked
  conversed := h.conversed hx.conversed
  coupled := h.coupled hx.coupled
  wellFormed := h.wellFormed hx.wellFormed
  booked := h.booked hx.linked hx.wellFormed hx.booked
  fulfilled := h.fulfilled hx.linked hx.coupled hx.wellFormed hx.fulfilled

theorem LifecycleRun.consistent {c : Ctx} {x' : Exchange} (h : LifecycleRun c x x')
    (hx : x.Consistent) : x'.Consistent :=
  h.invariant (fun _ _ hx h => h.consistent hx) hx

theorem Exchange.consistent_empty : ({} : Exchange).Consistent where
  linked := ⟨fun _ _ h => by simp at h, fun _ _ h => by simp at h⟩
  conversed := ⟨fun _ _ h => by simp at h, fun _ _ _ _ h => by simp at h⟩
  coupled := fun _ => ⟨rfl, rfl⟩
  wellFormed := fun _ _ h => by simp at h
  booked := fun _ _ h => by simp at h
  fulfilled := fun _ _ h => by simp at h

end Sahay
