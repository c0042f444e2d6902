import Sahay.Lifecycle.Linked

/-!
# Coupling of the three machines

A request, its offers and its matches have a status each.  They are coupled when
a request in offering has exactly one open offer, a request in matched exactly
one active match, and every other request neither.
-/

namespace Sahay

/-! ## What is counted -/

def statusOf (t : Table RequestId Request) (rid : RequestId) : Option RequestStatus :=
  (t.lookup rid).map Request.status

def openCount (t : Table OfferId MatchOffer) (rid : RequestId) : ℕ :=
  t.count fun _ o => o.requestId = rid && o.status = .offered

def activeCount (t : Table MatchId Match) (rid : RequestId) : ℕ :=
  t.count fun _ m => m.requestId = rid && m.status = .active

def CoupledAt (status : Option RequestStatus) (openOffers activeMatches : ℕ) : Prop :=
  openOffers = (if status = some .offering then 1 else 0) ∧
    activeMatches = (if status = some .matched then 1 else 0)

def Exchange.Coupled (x : Exchange) : Prop :=
  ∀ rid, CoupledAt (statusOf x.requests rid) (openCount x.matchOffers rid)
    (activeCount x.matchRows rid)

/-! ## How updates move the counts -/

section Requests

variable {t : Table RequestId Request} {id : RequestId} {r : Request}

theorem statusOf_some (h : t.lookup id = some r) : statusOf t id = some r.status := by
  rw [statusOf, h]
  rfl

theorem statusOf_replace (h : t.lookup id = some r) (r' : Request) (rid : RequestId) :
    statusOf (t.replace id r') rid = if rid = id then some r'.status else statusOf t rid := by
  rw [statusOf, Table.lookup_replace h]
  split_ifs <;> rfl

theorem statusOf_put (r : Request) (rid : RequestId) :
    statusOf (t.put id r) rid = if rid = id then some r.status else statusOf t rid := by
  rw [statusOf, Table.lookup_put]
  split_ifs <;> rfl

end Requests

section Offers

variable {t : Table OfferId MatchOffer} {oid : OfferId} {o : MatchOffer}

theorem openCount_put (hoid : oid ∉ t) (ho : o.status = .offered) (rid : RequestId) :
    openCount (t.put oid o) rid = openCount t rid + if o.requestId = rid then 1 else 0 := by
  rw [openCount, Table.count_put hoid, add_comm, openCount]
  simp [ho]

theorem openCount_answer (h : t.lookup oid = some o) (ho : o.status = .offered) (o' : MatchOffer)
    (ho' : o'.status ≠ .offered) (rid : RequestId) :
    openCount (t.replace oid o') rid + (if o.requestId = rid then 1 else 0) = openCount t rid := by
  have hcount := Table.count_replace h o' fun _ o => o.requestId = rid && o.status = .offered
  simp only [ho, ho', decide_true, decide_false, Bool.and_true, Bool.and_false,
    decide_eq_true_eq, Bool.false_eq_true, if_false, add_zero] at hcount
  exact hcount

theorem openCount_supersede (x : Exchange) (id : RequestId) (now : Time) (rid : RequestId) :
    openCount (x.supersede id now).matchOffers rid =
      if rid = id then 0 else openCount x.matchOffers rid := by
  simp only [openCount, Exchange.supersede, Table.updateWhere, Table.count, Table.sum_mapVal]
  split_ifs with hk
  · subst hk
    apply Table.sum_eq_zero
    intro oid o ho
    by_cases hopen : (decide (o.requestId = rid) && decide (o.status = .offered)) = true <;>
      simp [hopen]
  · apply Table.sum_congr
    intro oid o ho
    by_cases hopen : (decide (o.requestId = id) && decide (o.status = .offered)) = true
    · have hne : o.requestId ≠ rid := by
        rintro rfl
        simp only [Bool.and_eq_true, decide_eq_true_eq] at hopen
        exact hk hopen.1
      simp [hopen, hne]
    · simp [hopen]

end Offers

section Matches

variable {t : Table MatchId Match} {mid : MatchId} {m : Match}

theorem activeCount_put (hmid : mid ∉ t) (hm : m.status = .active) (rid : RequestId) :
    activeCount (t.put mid m) rid = activeCount t rid + if m.requestId = rid then 1 else 0 := by
  rw [activeCount, Table.count_put hmid, add_comm, activeCount]
  simp [hm]

theorem activeCount_close (h : t.lookup mid = some m) (hm : m.status = .active) (m' : Match)
    (hm' : m'.status ≠ .active) (rid : RequestId) :
    activeCount (t.replace mid m') rid + (if m.requestId = rid then 1 else 0) =
      activeCount t rid := by
  have hcount := Table.count_replace h m' fun _ m => m.requestId = rid && m.status = .active
  simp only [hm, hm', decide_true, decide_false, Bool.and_true, Bool.and_false,
    decide_eq_true_eq, Bool.false_eq_true, if_false, add_zero] at hcount
  exact hcount

theorem activeCount_same (h : t.lookup mid = some m) (m' : Match)
    (hrequest : m'.requestId = m.requestId) (hstatus : m'.status = m.status) (rid : RequestId) :
    activeCount (t.replace mid m') rid = activeCount t rid := by
  have hcount := Table.count_replace h m' fun _ m => m.requestId = rid && m.status = .active
  rw [hrequest, hstatus] at hcount
  exact Nat.add_right_cancel hcount

end Matches

/-! ## Closed rows -/

theorem settledMatchStatus_isSettled (disputed covered : Bool) :
    (settledMatchStatus disputed covered).isSettled = true := by
  cases disputed <;> cases covered <;> rfl

theorem settledMatchStatus_ne_active (disputed covered : Bool) :
    settledMatchStatus disputed covered ≠ .active := by
  cases disputed <;> cases covered <;> decide

theorem MatchStatus.isCancelled.ne_active {s : MatchStatus} (h : s.isCancelled = true) :
    s ≠ .active := by
  rintro rfl
  exact absurd h (by decide)

theorem settledRequestStatus_closed (r : Request) (q : Qty) :
    settledRequestStatus r q ≠ .offering ∧ settledRequestStatus r q ≠ .matched := by
  unfold settledRequestStatus
  split_ifs <;> decide

theorem CancelActor.route_closed (actor : CancelActor) :
    actor.route.1 ≠ .offering ∧ actor.route.1 ≠ .matched := by
  cases actor <;> decide

theorem RequestStatus.isActive.closed {s : RequestStatus} (h : s.isActive = false) :
    s ≠ .offering ∧ s ≠ .matched := by
  cases s <;> simp_all [RequestStatus.isActive]

/-! ## What the coupling says of single rows -/

section Rows

variable {x : Exchange} {r : Request}

theorem Exchange.Coupled.offering (hc : x.Coupled) {oid : OfferId} {o : MatchOffer}
    (ho : x.matchOffers.lookup oid = some o) (hopen : o.status = .offered)
    (hr : x.requests.lookup o.requestId = some r) : r.status = .offering := by
  have hpos : 0 < openCount x.matchOffers o.requestId :=
    Table.count_pos_iff.mpr ⟨oid, o, ho, by simp [hopen]⟩
  rw [(hc o.requestId).1, statusOf_some hr] at hpos
  by_contra hne
  simp [hne] at hpos

theorem Exchange.Coupled.matched (hc : x.Coupled) {mid : MatchId} {m : Match}
    (hm : x.matchRows.lookup mid = some m) (hactive : m.status = .active)
    (hr : x.requests.lookup m.requestId = some r) : r.status = .matched := by
  have hpos : 0 < activeCount x.matchRows m.requestId :=
    Table.count_pos_iff.mpr ⟨mid, m, hm, by simp [hactive]⟩
  rw [(hc m.requestId).2, statusOf_some hr] at hpos
  by_contra hne
  simp [hne] at hpos

theorem Exchange.Coupled.exists_open (hc : x.Coupled) {rid : RequestId}
    (hr : x.requests.lookup rid = some r) (hoffering : r.status = .offering) :
    ∃ oid o, x.matchOffers.lookup oid = some o ∧ o.requestId = rid ∧ o.status = .offered := by
  have hone := (hc rid).1
  rw [statusOf_some hr, hoffering, if_pos rfl] at hone
  obtain ⟨oid, o, ho, hp⟩ := Table.count_pos_iff.mp (hone ▸ Nat.one_pos)
  simp only [Bool.and_eq_true, decide_eq_true_eq] at hp
  exact ⟨oid, o, ho, hp.1, hp.2⟩

theorem Exchange.Coupled.exists_active (hc : x.Coupled) {rid : RequestId}
    (hr : x.requests.lookup rid = some r) (hmatched : r.status = .matched) :
    ∃ mid m, x.matchRows.lookup mid = some m ∧ m.requestId = rid ∧ m.status = .active := by
  have hone := (hc rid).2
  rw [statusOf_some hr, hmatched, if_pos rfl] at hone
  obtain ⟨mid, m, hm, hp⟩ := Table.count_pos_iff.mp (hone ▸ Nat.one_pos)
  simp only [Bool.and_eq_true, decide_eq_true_eq] at hp
  exact ⟨mid, m, hm, hp.1, hp.2⟩

end Rows

/-! ## Steps preserve the coupling -/

def RequestStatus.openOffers (s : RequestStatus) : ℕ := if s = .offering then 1 else 0

def RequestStatus.activeMatches (s : RequestStatus) : ℕ := if s = .matched then 1 else 0

/-- When a request's status moves, the coupling is kept by counts that move with it. -/
theorem Exchange.Coupled.move {x : Exchange} (hc : x.Coupled) {id : RequestId} {r : Request}
    (hr : x.requests.lookup id = some r) (r' : Request) {rid : RequestId}
    {openOffers activeMatches : ℕ}
    (hoffers : openOffers + (if id = rid then r.status.openOffers else 0) =
      openCount x.matchOffers rid + (if id = rid then r'.status.openOffers else 0))
    (hmatches : activeMatches + (if id = rid then r.status.activeMatches else 0) =
      activeCount x.matchRows rid + (if id = rid then r'.status.activeMatches else 0)) :
    CoupledAt (statusOf (x.requests.replace id r') rid) openOffers activeMatches := by
  have hrid := hc rid
  rw [statusOf_replace hr]
  by_cases hk : rid = id
  · subst hk
    rw [statusOf_some hr] at hrid
    simp only [CoupledAt, RequestStatus.openOffers, RequestStatus.activeMatches, if_true,
      Option.some.injEq] at hrid hoffers hmatches ⊢
    omega
  · simp only [if_neg (Ne.symm hk), if_neg hk, add_zero] at hoffers hmatches ⊢
    rwa [hoffers, hmatches]

theorem RequestStatus.openOffers_eq_zero {s : RequestStatus} (h : s ≠ .offering) :
    s.openOffers = 0 :=
  if_neg h

theorem RequestStatus.activeMatches_eq_zero {s : RequestStatus} (h : s ≠ .matched) :
    s.activeMatches = 0 :=
  if_neg h

/-- A move among statuses that are neither offering nor matched. -/
theorem Exchange.Coupled.move_closed {x : Exchange} (hc : x.Coupled) {id : RequestId}
    {r r' : Request} (hr : x.requests.lookup id = some r)
    (h : r.status ≠ .offering ∧ r.status ≠ .matched)
    (h' : r'.status ≠ .offering ∧ r'.status ≠ .matched) (rid : RequestId) :
    CoupledAt (statusOf (x.requests.replace id r') rid) (openCount x.matchOffers rid)
      (activeCount x.matchRows rid) := by
  apply hc.move hr
  · rw [RequestStatus.openOffers_eq_zero h.1, RequestStatus.openOffers_eq_zero h'.1]
  · rw [RequestStatus.activeMatches_eq_zero h.2, RequestStatus.activeMatches_eq_zero h'.2]

theorem Exchange.Coupled.close {x : Exchange} (hc : x.Coupled) {id : RequestId} {r r' : Request}
    (hr : x.requests.lookup id = some r) (hopen : r.status.isOpen = true)
    (h' : r'.status ≠ .offering ∧ r'.status ≠ .matched) (now : Time) (rid : RequestId) :
    CoupledAt (statusOf (x.requests.replace id r') rid)
      (openCount (x.supersede id now).matchOffers rid) (activeCount x.matchRows rid) := by
  have hmatched : r.status ≠ .matched := by
    intro hm
    rw [hm] at hopen
    exact absurd hopen (by decide)
  apply hc.move hr
  · rw [openCount_supersede, RequestStatus.openOffers_eq_zero h'.1]
    by_cases hk : rid = id
    · subst hk
      have hcount := (hc rid).1
      rw [statusOf_some hr] at hcount
      simp [hcount, RequestStatus.openOffers]
    · simp [hk, Ne.symm hk]
  · rw [RequestStatus.activeMatches_eq_zero hmatched, RequestStatus.activeMatches_eq_zero h'.2]

theorem Lifecycle.coupled {c : Ctx} {x x' : Exchange} (h : Lifecycle c x x')
    (hc : x.Coupled) : x'.Coupled := by
  intro rid
  cases h with
  | addItem | editItems | dropItem => exact hc rid
  | openRequest id r hid hcaller hcategory hstatus =>
      have hrid := hc rid
      simp only [statusOf_put]
      split_ifs with hk
      · subst hk
        have hnone : statusOf x.requests rid = none := by
          rw [statusOf, AList.lookup_eq_none.mpr hid]
          rfl
        simpa [CoupledAt, hstatus, hnone] using hrid
      · exact hrid
  | closeRequest id r target actor reason hr hopen htarget =>
      exact hc.close hr hopen (RequestStatus.isActive.closed htarget) c.now rid
  | createOffer oid o r item hoid hoffered hr hsearching =>
      apply hc.move hr
      · have hoffers := openCount_put hoid hoffered rid
        simpa [hsearching, RequestStatus.openOffers] using hoffers
      · simp [hsearching, RequestStatus.activeMatches]
  | closeOffer oid o r status actor reason ho hoffered hstatus hr hoffering =>
      apply hc.move hr
      · have hanswered : status ≠ .offered := by rcases hstatus with rfl | rfl <;> decide
        have hoffers := openCount_answer ho hoffered
          { o with status := status, respondedAt := some c.now } hanswered rid
        simpa [hoffering, RequestStatus.openOffers] using hoffers
      · simp [hoffering, RequestStatus.activeMatches]
  | accept oid o r item mid m cid ho hoffered hcaller hr hoffering hi hmid hm =>
      apply hc.move hr
      · have hoffers := openCount_answer ho hoffered
          { o with status := .accepted, respondedAt := some c.now } (by simp) rid
        simpa [hoffering, RequestStatus.openOffers] using hoffers
      · have hmatches := activeCount_put hmid hm.status rid
        rw [hm.requestId] at hmatches
        simpa [hoffering, RequestStatus.activeMatches] using hmatches
  | confirm mid m side qty hm =>
      have hsame := activeCount_same hm (m.setConfirmedQty side qty)
        (by cases side <;> rfl) (by cases side <;> rfl) rid
      simpa only [hsame] using hc rid
  | settle mid m m' r item cid conversation final disputed closeReason actor hm hactive
      hconfirms hfinal hr hmatched =>
      have hclosed := settledRequestStatus_closed r (r.qtyFulfilled + final)
      apply hc.move hr
      · simp [hmatched, RequestStatus.openOffers, hclosed.1]
      · have hmatches := activeCount_close hm hactive
            (m'.settledAs (settledMatchStatus disputed (r.qty ≤ r.qtyFulfilled + final))
              closeReason c.now)
            (settledMatchStatus_ne_active _ _) rid
        simpa [hmatched, RequestStatus.activeMatches, hclosed.2] using hmatches
  | cancel mid m r item cid conversation conversation' canceller status closeReason reason hm
      hactive hstatus hr hmatched =>
      have hclosed := canceller.route_closed
      apply hc.move hr
      · simp [hmatched, RequestStatus.openOffers, hclosed.1]
      · have hmatches := activeCount_close hm hactive (m.cancelledAs status closeReason c.now)
            (MatchStatus.isCancelled.ne_active hstatus) rid
        simpa [hmatched, RequestStatus.activeMatches, hclosed.2] using hmatches
  | reopen id r expiresAt reason hr hcaller =>
      exact hc.move_closed hr (RequestStatus.isActive.closed hcaller.inactive)
        (by simp [Request.reopened]) rid
  | conclude id r target hr hstatus htarget =>
      refine hc.move_closed hr (by simp [hstatus]) ?_ rid
      rcases htarget with rfl | rfl <;> simp
  | widen id r radius hr hsearching =>
      exact hc.move_closed hr (by simp [hsearching]) (by simp [hsearching]) rid
  | meet mid m side state hm =>
      have hsame := activeCount_same hm (m.setMeetingState side state)
        (by cases side <;> rfl) (by cases side <;> rfl) rid
      simpa only [hsame] using hc rid

end Sahay
