import Sahay.Lifecycle.Answers
import Sahay.Refinement.Jobs

/-!
# What a delivery leaves

In a consistent database no guard and no CHECK stops the operation of a message, and
once it has run its row no longer waits for that message, unless it has enqueued
it again.
-/

namespace Sahay

namespace Db

variable {db db' : Db} {env : Env} {effects : List Effect} {requestId : RequestId}
  {request : Request} {event : Event} {choices : PassChoices}

/-! ## Jobs commit -/

theorem expireRequest_commits (env : Env) (hx : db.toExchange.Consistent)
    (hr : db.requests.lookup requestId = some request) (hopen : request.status.isOpen = true) :
    ∃ effects db', db.expireRequest env requestId request = .ok (effects, db') := by
  have hcheck := (hx.fulfilled requestId request hr).check
  refine expireRequest_commits_of env hr hcheck hopen fun hoffering => ?_
  obtain ⟨oid, o, ho, hrid, -⟩ := hx.coupled.exists_open hr hoffering
  exact ⟨oid, o, ho, hrid⟩

theorem search_commits (env : Env) (event : Event) (choices : PassChoices)
    (hr : db.requests.lookup requestId = some request) (hsearching : request.status = .searching)
    (hcheck : request.check) :
    ∃ effects db', db.search env requestId request event choices = .ok (effects, db') := by
  unfold search
  split
  · exact ⟨_, _, createOffer_ok.mpr ⟨by rw [hsearching]; rfl, request, hr, hcheck, rfl, rfl⟩⟩
  · by_cases hring : request.currentRadiusM < event.maxMatchRadiusM
    · exact ⟨_, _, widenOrRetry_ok.mpr (.inl ⟨hring, request, hr, hcheck, rfl, rfl⟩)⟩
    · exact ⟨_, _, widenOrRetry_ok.mpr (.inr ⟨hring, rfl, rfl⟩)⟩

theorem sweepOverdueOffer_commits (env : Env) (hr : db.requests.lookup requestId = some request)
    (hoffering : request.status = .offering) (hcheck : request.check) :
    ∃ db', db.sweepOverdueOffer env requestId request = .ok db' := by
  refine ⟨_, transitionRequest_ok.mpr ⟨by rw [hoffering]; rfl, request, ?_, hcheck, rfl⟩⟩
  split <;> exact hr

theorem resumeSearch_commits (env : Env) (event : Event) (choices : PassChoices)
    (hx : db.toExchange.Consistent) (hr : db.requests.lookup requestId = some request)
    (hopen : request.status.isOpen = true) :
    ∃ effects db', db.resumeSearch env requestId request event choices = .ok (effects, db') := by
  have hcheck := (hx.fulfilled requestId request hr).check
  unfold resumeSearch
  by_cases hoffering : request.status = .offering
  · rw [if_pos hoffering]
    split_ifs
    · exact ⟨_, _, rfl⟩
    · obtain ⟨swept, hsweep⟩ := sweepOverdueOffer_commits env hr hoffering hcheck
      obtain ⟨-, -, -, hr'⟩ := sweepOverdueOffer_step (c := db.ctx env none (.runMatchPass requestId
        choices)) hx rfl hr hoffering hsweep
      rw [hsweep, bind_ok_left]
      exact search_commits env event choices hr' rfl hcheck
  · rw [if_neg hoffering]
    have hsearching := (searching_or_offering hopen).resolve_right hoffering
    exact search_commits env event choices hr hsearching hcheck

theorem runMatchPass_commits (env : Env) (requestId : RequestId) (choices : PassChoices)
    (hx : db.toExchange.Consistent) :
    ∃ effects db', db.runMatchPass env requestId choices = .ok (effects, db') := by
  unfold runMatchPass
  cases hr : db.requests.lookup requestId with
  | none => exact ⟨_, _, rfl⟩
  | some request =>
      simp only
      cases hopen : request.status.isOpen with
      | false => exact ⟨_, _, rfl⟩
      | true =>
          simp only [Bool.not_true, Bool.false_eq_true, if_false]
          split_ifs
          · exact expireRequest_commits env hx hr hopen
          · split
            · split_ifs
              · exact ⟨_, _, rfl⟩
              · exact resumeSearch_commits env _ choices hx hr hopen
            · exact ⟨_, _, rfl⟩

theorem expireOffer_commits (env : Env) (offerId : OfferId) (hx : db.toExchange.Consistent) :
    ∃ effects db', db.expireOffer env offerId = .ok (effects, db') := by
  unfold expireOffer
  cases ho : db.matchOffers.lookup offerId with
  | none => exact ⟨_, _, rfl⟩
  | some o =>
      simp only
      split_ifs
      · exact ⟨_, _, rfl⟩
      · split
        · rename_i r hr
          split_ifs with hoffering
          · simp only [bind_ok, transitionRequest_ok, pure_ok, Prod.mk.injEq]
            exact ⟨_, _, _, ⟨by rw [hoffering]; rfl, r, hr, (hx.fulfilled _ r hr).check, rfl⟩,
              rfl, rfl⟩
          · exact ⟨_, _, rfl⟩
        · exact ⟨_, _, rfl⟩

/-- What a settlement of the match, now with the row `m'`, makes of the item, the request,
the match and the counters. -/
structure Settles (db : Db) (matchId : MatchId) (m' : Match) (opts : SettleOptions) (now : Time)
    (r : Request) (item : InventoryItem) (db' : Db) : Prop where
  inventoryItems : db'.inventoryItems = db.inventoryItems.replace m'.inventoryItemId
    { item with
      qtyOnHand := item.qtyOnHand - opts.finalQty
      qtyReserved := item.qtyReserved - m'.qtyReserved
      updatedAt := now }
  requests : db'.requests = db.requests.replace m'.requestId
    { r with
      status := settledRequestStatus r (r.qtyFulfilled + opts.finalQty)
      qtyFulfilled := r.qtyFulfilled + opts.finalQty
      closedAt :=
        if r.qty ≤ r.qtyFulfilled + opts.finalQty then some now
        else r.closedAt }
  matchRows : db'.matchRows = db.matchRows.replace matchId
    (m'.settledAs
      (settledMatchStatus opts.disputed (r.qty ≤ r.qtyFulfilled + opts.finalQty))
      opts.closeReason now)
  reliabilityStats : db'.reliabilityStats = (db.applySettlement m' opts now).reliabilityStats

theorem settleLocked_settles (env : Env) {matchId : MatchId} {locks : MatchLocks} {m' : Match}
    {opts : SettleOptions} (hx : db.toExchange.Consistent) (hl : db.Locked matchId locks)
    (hactive : locks.matchRow.status = .active) (hconfirms : locks.matchRow.Confirms m')
    (hfinal : m'.finalQty = some opts.finalQty) :
    ∃ effects db', { db with matchRows := db.matchRows.replace matchId m' }.settleLocked env
        matchId { locks with matchRow := m' } opts = .ok (effects, db') ∧
      db.Settles matchId m' opts env.now locks.request locks.item db' := by
  have hunapplied : m'.inventoryApplied = false :=
    (Confirms.inventoryApplied hconfirms).trans (hl.unapplied hx hactive)
  have hmatched := hl.matched hx hactive
  have hcaptured := hx.booked.captured hx.wellFormed hl.matchRow hactive hl.item hconfirms hfinal
  have hfulfils := hx.fulfilled _ _ hl.request
  have hbounds := Match.Confirms.final_bounds (hx.wellFormed _ _ hl.matchRow) hconfirms hfinal
  have hneed := hfulfils.promised _ _ hl.matchRow rfl hactive
  have hcheck := hfulfils.settled hbounds.1 (hbounds.2.trans hneed)
  have hcan (q : Qty) : canTransition (some .matched) (settledRequestStatus locks.request q) =
      true := by
    unfold settledRequestStatus
    split_ifs <;> rfl
  have hrequest := hl.request
  have hitem := hl.item
  rw [← hconfirms.requestId] at hrequest
  rw [← hconfirms.inventoryItemId] at hitem
  rw [← hconfirms.qtyReserved] at hcaptured
  simp only [settleLocked, hunapplied, hmatched, Bool.false_eq_true, if_false, bind_ok,
    updateInventoryItem_ok, transitionRequest_ok, pure_ok, Prod.mk.injEq]
  refine ⟨_, _, ⟨_, ⟨locks.item, hitem, ⟨hcaptured.2.1.trans hcaptured.2.2, hcaptured.2⟩, rfl⟩, _,
    ⟨hcan _, locks.request, hrequest, hcheck, rfl⟩, rfl, rfl⟩, ?_⟩
  constructor
  · simp only [insertSystemMessage_toExchange, applySettlement_toExchange]
    rfl
  · simp only [insertSystemMessage_toExchange, applySettlement_toExchange, decide_eq_true_eq]
    rfl
  · simp only [insertSystemMessage_toExchange, applySettlement_toExchange, moved, updateMatch,
      updateConversation, Table.modify_replace]
    rfl
  · simp only [applySettlement]
    split_ifs <;> rfl

theorem settleLocked_commits (env : Env) {matchId : MatchId} {locks : MatchLocks}
    {opts : SettleOptions} (hx : db.toExchange.Consistent) (hl : db.Locked matchId locks)
    (hactive : locks.matchRow.status = .active)
    (hfinal : locks.matchRow.finalQty = some opts.finalQty) :
    ∃ effects db', db.settleLocked env matchId locks opts = .ok (effects, db') := by
  obtain ⟨effects, db', h, -⟩ := settleLocked_settles env hx hl hactive (.inl rfl) hfinal
  rw [hl.replace_matchRow] at h
  exact ⟨effects, db', h⟩

theorem autoFinalizeMatch_commits (env : Env) (matchId : MatchId) (hx : db.toExchange.Consistent) :
    ∃ effects db', db.autoFinalizeMatch env matchId = .ok (effects, db') := by
  rcases db.autoFinalizeMatch_cases env matchId with
    ⟨hidle, -⟩ | ⟨locks, side, qty, hlocks, hactive, -, hmine, hother, hsettle⟩
  · exact ⟨_, _, hidle⟩
  · rw [hsettle]
    exact settleLocked_commits env hx (lockMatchRows_some hlocks) hactive
      (finalQty_single hmine hother)

theorem job_commits (env : Env) (j : Job) (choices : PassChoices) (hx : db.toExchange.Consistent) :
    ∃ effects db', db.exec env (j.op choices) = .ok (effects, db') := by
  cases j with
  | matching requestId => exact runMatchPass_commits env requestId choices hx
  | offerTimeout offerId => exact expireOffer_commits env offerId hx
  | finalize matchId => exact autoFinalizeMatch_commits env matchId hx

/-! ## What still waits was enqueued again -/

theorem resumeSearch_serves (hr : db.requests.lookup requestId = some request)
    (h : db.resumeSearch env requestId request event choices = .ok (effects, db'))
    (hwaits : db'.Waits (.matching requestId)) :
    db'.Served (enqueued env.now effects) (.matching requestId) := by
  cases resumeSearch_cases h with
  | waits hoffering _ =>
      obtain ⟨row, hrow, hsearching⟩ := hwaits
      obtain rfl := Option.some.inj (hr.symm.trans hrow)
      cases hoffering.symm.trans hsearching
  | sweeps _ _ _ hsearch => exact search_serves hsearch hwaits
  | searches _ hsearch => exact search_serves hsearch hwaits

theorem expireRequest_settles (h : db.expireRequest env requestId request = .ok (effects, db')) :
    ¬db'.Waits (.matching requestId) := by
  rintro ⟨row, hrow, hsearching⟩
  simp only [expireRequest, bind_ok, transitionRequest_ok, pure_ok, Prod.mk.injEq] at h
  obtain ⟨_, ⟨-, r', hr', -, rfl⟩, -, rfl⟩ := h
  obtain rfl := Option.some.inj
    (((Table.lookup_replace hr' _ _).trans (if_pos rfl)).symm.trans hrow)
  simp only at hsearching
  split_ifs at hsearching

theorem runMatchPass_serves (h : db.runMatchPass env requestId choices = .ok (effects, db'))
    (hwaits : db'.Waits (.matching requestId)) :
    db'.Served (enqueued env.now effects) (.matching requestId) := by
  cases runMatchPass_cases h with
  | idle hidle =>
      obtain ⟨row, hrow, hsearching⟩ := hwaits
      have hclosed := hidle row hrow
      rw [hsearching] at hclosed
      cases hclosed
  | expires _ _ _ hexpire => exact absurd hwaits (expireRequest_settles hexpire)
  | defers _ _ _ _ => exact served_matching (List.mem_singleton_self _)
  | resumes hr _ _ _ _ _ hresume => exact resumeSearch_serves hr hresume hwaits

theorem expireOffer_answers {offerId : OfferId} {due : Time}
    (hripe : db.Ripe ⟨.offerTimeout offerId, due⟩) (hdue : due ≤ env.now)
    (h : db.expireOffer env offerId = .ok (effects, db')) :
    ¬db'.Waits (.offerTimeout offerId) := by
  rintro ⟨row, hrow, hoffered⟩
  obtain ⟨o, ho, hrespond⟩ := hripe
  have hclosed := (Table.lookup_replace ho { o with
    status := .expired, respondedAt := some env.now } offerId).trans (if_pos rfl)
  have hrows : db'.matchOffers = (db.closeOffer offerId .expired env.now).matchOffers := by
    cases expireOffer_cases h with
    | keeps hkept =>
        obtain rfl := Option.some.inj (ho.symm.trans hrow)
        exact absurd (hkept o ho hoffered) (not_lt.mpr (hrespond.trans hdue))
    | resumes _ _ _ _ _ hmove =>
        obtain ⟨-, r', -, -, rfl⟩ := transitionRequest_ok.mp hmove
        rfl
    | closes _ _ _ _ => rfl
  rw [hrows, closeOffer_eq ho] at hrow
  obtain rfl := Option.some.inj (hclosed.symm.trans hrow)
  cases hoffered

theorem autoFinalizeMatch_settles {matchId : MatchId} (hx : db.Consistent)
    (h : db.autoFinalizeMatch env matchId = .ok (effects, db')) :
    ¬db'.Waits (.finalize matchId) := by
  rintro ⟨row, hrow, hactive, side, hmine, hpeer⟩
  rcases db.autoFinalizeMatch_cases env matchId with
    ⟨hidle, hnone⟩ | ⟨locks, side, qty, hlocks, -, hunapplied, -, -, hsettle⟩
  · obtain ⟨-, rfl⟩ := Prod.mk.inj (pure_ok.mp (hidle.symm.trans h))
    obtain ⟨locks, hlocks, rfl⟩ := lockMatchRows_isSome hx hrow
    obtain ⟨qty, hqty⟩ := Option.isSome_iff_exists.mp hmine
    have hunapplied := (lockMatchRows_some hlocks).unapplied hx.exchange hactive
    exact hnone locks hlocks hactive hunapplied side qty hqty hpeer
  · have hl := lockMatchRows_some hlocks
    rw [hsettle, ← hl.replace_matchRow] at h
    obtain ⟨-, -, covered, -, -, -, hrows, -⟩ := settleLocked_ok hunapplied h
    rw [hrows, Table.lookup_replace hl.matchRow, if_pos rfl] at hrow
    obtain rfl := Option.some.inj hrow
    exact settledMatchStatus_ne_active (finalizeOptions locks.matchRow side qty).disputed covered
      hactive

/-- Once a ripe message has been delivered in time, its row waits for it no more, or
the delivery has enqueued it again. -/
theorem delivery_serves {p : Pending} (hx : db.Consistent) (hripe : db.Ripe p)
    (hdue : p.notBefore ≤ env.now) (h : db.exec env (p.job.op choices) = .ok (effects, db'))
    (hwaits : db'.Waits p.job) : db'.Served (enqueued env.now effects) p.job := by
  obtain ⟨job, due⟩ := p
  cases job with
  | matching requestId => exact runMatchPass_serves h hwaits
  | offerTimeout offerId => exact absurd hwaits (expireOffer_answers hripe hdue h)
  | finalize matchId => exact absurd hwaits (autoFinalizeMatch_settles hx h)

end Db
end Sahay
