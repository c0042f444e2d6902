import Sahay.Refinement.ModerationCancel
import Sahay.Server.Jobs

/-!
# What a transaction wakes

Whatever waits for a message after a transaction waited for it before, or the
transaction has enqueued it.  And only a matching pass asks anybody: after any other
transaction the offers are those from before it.
-/

namespace Sahay

/-! ## Transactions that leave nothing new waiting -/

namespace Exchange

/-- The offer was there in `x`, and if it is open it was open with this deadline. -/
def OldOffer (x : Exchange) (oid : OfferId) (o' : MatchOffer) : Prop :=
  ∃ o, x.matchOffers.lookup oid = some o ∧ o.requestId = o'.requestId ∧
    (o'.status = .offered → o.status = .offered ∧ o.respondBy = o'.respondBy)

/-- Nobody has been asked: every offer of `x'` is an old one. -/
def Unasked (x x' : Exchange) : Prop :=
  ∀ oid o', x'.matchOffers.lookup oid = some o' → x.OldOffer oid o'

variable {x x' x'' : Exchange}

theorem Unasked.of_eq (h : x'.matchOffers = x.matchOffers) : x.Unasked x' :=
  fun _ o' ho' => ⟨o', h ▸ ho', rfl, fun hoffered => ⟨hoffered, rfl⟩⟩

theorem OldOffer.trans {oid : OfferId} {o'' : MatchOffer} (h : x.Unasked x')
    (h' : x'.OldOffer oid o'') : x.OldOffer oid o'' := by
  obtain ⟨o', ho', hrid', hopen'⟩ := h'
  obtain ⟨o, ho, hrid, hopen⟩ := h oid o' ho'
  refine ⟨o, ho, hrid.trans hrid', fun hoffered => ?_⟩
  obtain ⟨hoffered', hrespond'⟩ := hopen' hoffered
  obtain ⟨hoffered, hrespond⟩ := hopen hoffered'
  exact ⟨hoffered, hrespond.trans hrespond'⟩

theorem Unasked.trans (h : x.Unasked x') (h' : x'.Unasked x'') : x.Unasked x'' :=
  fun oid o'' ho'' => (h' oid o'' ho'').trans h

theorem Unasked.answer {oid : OfferId} {o : MatchOffer} (ho : x.matchOffers.lookup oid = some o)
    (status : OfferStatus) (now : Time) (hstatus : status ≠ .offered)
    (h : x'.matchOffers =
      x.matchOffers.replace oid { o with status := status, respondedAt := some now }) :
    x.Unasked x' := by
  intro k row hrow
  rw [h, Table.lookup_replace ho] at hrow
  split_ifs at hrow with hk
  · obtain rfl := Option.some.inj hrow
    exact ⟨o, hk ▸ ho, rfl, fun hoffered => absurd hoffered hstatus⟩
  · exact Unasked.of_eq rfl k row hrow

theorem Unasked.supersede (x : Exchange) (id : RequestId) (now : Time) :
    x.Unasked (x.supersede id now) := by
  intro k row hrow
  rw [Exchange.supersede, Table.lookup_updateWhere] at hrow
  obtain ⟨o, ho, rfl⟩ := Option.map_eq_some_iff.mp hrow
  split_ifs
  · exact ⟨o, ho, rfl, fun hoffered => by cases hoffered⟩
  · exact Unasked.of_eq rfl k o ho

/-- Every row of `x'` that waits for a message waited for it in `x`, and nobody has
been asked. -/
structure Calm (x x' : Exchange) : Prop where
  requests : Table.Inherits (fun r : Request => r.status = .searching) (fun _ => ())
    x.requests x'.requests
  unasked : x.Unasked x'
  matchRows : Table.Inherits Match.AwaitsPeer (fun _ => ()) x.matchRows x'.matchRows

end Exchange

namespace Exchange.Calm

variable {x x' x'' : Exchange}

theorem of_tables (hrequests : x'.requests = x.requests) (hoffers : x'.matchOffers = x.matchOffers)
    (hmatches : x'.matchRows = x.matchRows) : x.Calm x' := by
  constructor
  · rw [hrequests]
    exact .refl _ _ _
  · exact .of_eq hoffers
  · rw [hmatches]
    exact .refl _ _ _

theorem of_eq (h : x' = x) : x.Calm x' := h ▸ .of_tables rfl rfl rfl

theorem trans (h : x.Calm x') (h' : x'.Calm x'') : x.Calm x'' :=
  ⟨h.requests.trans h'.requests, h.unasked.trans h'.unasked, h.matchRows.trans h'.matchRows⟩

end Exchange.Calm

def Op.passes (op : Op) (requestId : RequestId) : Prop :=
  ∃ choices, op = .runMatchPass requestId choices

theorem Match.AwaitsPeer.of_closed {m : Match} (h : m.status ≠ .active) : ¬m.AwaitsPeer :=
  fun hawaits => h hawaits.1

namespace Db

variable {db db' : Db} {env : Env} {effects : List Effect} {jobs : List Pending}

/-- The message about an offer waits until the offer can be timed out. -/
def Ripe (db : Db) (p : Pending) : Prop :=
  match p.job with
  | .offerTimeout offerId =>
      ∃ o, db.matchOffers.lookup offerId = some o ∧ o.respondBy ≤ p.notBefore
  | _ => True

def Served (db : Db) (pending : List Pending) (j : Job) : Prop :=
  ∃ p ∈ pending, p.job = j ∧ db.Ripe p

theorem Served.append_left {pending pending' : List Pending} {j : Job}
    (h : db.Served pending j) : db.Served (pending ++ pending') j := by
  obtain ⟨p, hp, hjob, hripe⟩ := h
  exact ⟨p, List.mem_append_left _ hp, hjob, hripe⟩

theorem Served.append_right {pending pending' : List Pending} {j : Job}
    (h : db.Served pending' j) : db.Served (pending ++ pending') j := by
  obtain ⟨p, hp, hjob, hripe⟩ := h
  exact ⟨p, List.mem_append_right _ hp, hjob, hripe⟩

theorem Served.of_mem {e : Effect} {p : Pending} (h : e ∈ effects)
    (hp : e.pending? env.now = some p) (hripe : db.Ripe p) :
    db.Served (enqueued env.now effects) p.job :=
  ⟨p, List.mem_filterMap.mpr ⟨e, h, hp⟩, rfl, hripe⟩

theorem served_matching {rid : RequestId} {delay : ℕ} (h : Effect.matchJob rid delay ∈ effects) :
    db.Served (enqueued env.now effects) (.matching rid) :=
  .of_mem (p := ⟨.matching rid, env.now + delay⟩) h rfl trivial

/-- Every row of `db'` that waits for a message waited for it in `db`, or a ripe
one is among `jobs`. -/
def Woken (db db' : Db) (jobs : List Pending) : Prop :=
  ∀ j, db'.Waits j → db.Waits j ∨ db'.Served jobs j

/-- What every transaction but a matching pass does. -/
structure Wakes (db db' : Db) (jobs : List Pending) : Prop where
  woken : Woken db db' jobs
  unasked : db.toExchange.Unasked db'.toExchange

theorem waits_of_unasked {oid : OfferId} (h : db.toExchange.Unasked db'.toExchange)
    (hwaits : db'.Waits (.offerTimeout oid)) : db.Waits (.offerTimeout oid) := by
  obtain ⟨o', ho', hoffered'⟩ := hwaits
  obtain ⟨o, ho, -, hopen⟩ := h oid o' ho'
  exact ⟨o, ho, (hopen hoffered').1⟩

/-- A transaction that is calm but for one request, for which it enqueues a pass. -/
theorem Wakes.of_request {rid : RequestId} {r r' : Request} {x : Exchange}
    (hx : db.toExchange.Calm x) (hr : x.requests.lookup rid = some r)
    (hrequests : db'.requests = x.requests.replace rid r')
    (hoffers : db'.matchOffers = x.matchOffers) (hmatches : db'.matchRows = x.matchRows)
    (hjob : r'.status = .searching → db'.Served jobs (.matching rid)) : Wakes db db' jobs := by
  have hunasked : db.toExchange.Unasked db'.toExchange := hx.unasked.trans (.of_eq hoffers)
  refine ⟨fun j hj => ?_, hunasked⟩
  cases j with
  | matching rid' =>
      obtain ⟨row, hrow, hsearching⟩ := hj
      rw [hrequests, Table.lookup_replace hr] at hrow
      split_ifs at hrow with hk
      · obtain rfl := Option.some.inj hrow
        exact .inr (hk ▸ hjob hsearching)
      · obtain ⟨r₀, hr₀, hsearching, -⟩ := hx.requests rid' row hrow hsearching
        exact .inl ⟨r₀, hr₀, hsearching⟩
  | offerTimeout oid => exact .inl (waits_of_unasked hunasked hj)
  | finalize mid =>
      obtain ⟨m', hm', hawaits⟩ := hj
      rw [hmatches] at hm'
      obtain ⟨m, hm, hawaits, -⟩ := hx.matchRows mid m' hm' hawaits
      exact .inl ⟨m, hm, hawaits⟩

theorem Wakes.of_calm (h : db.toExchange.Calm db'.toExchange) : Wakes db db' jobs := by
  refine ⟨fun j hj => .inl ?_, h.unasked⟩
  cases j with
  | matching rid =>
      obtain ⟨r', hr', hsearching⟩ := hj
      obtain ⟨r, hr, hsearching, -⟩ := h.requests rid r' hr' hsearching
      exact ⟨r, hr, hsearching⟩
  | offerTimeout oid => exact waits_of_unasked h.unasked hj
  | finalize mid =>
      obtain ⟨m', hm', hawaits⟩ := hj
      obtain ⟨m, hm, hawaits, -⟩ := h.matchRows mid m' hm' hawaits
      exact ⟨m, hm, hawaits⟩

theorem Wakes.congr {mid : Db} (hx : db'.toExchange = mid.toExchange)
    (h : Wakes db mid jobs) : Wakes db db' jobs := by
  refine ⟨fun j hj => ?_, hx ▸ h.unasked⟩
  have hwaits : mid.Waits j := by
    cases j <;> simpa only [Waits, hx] using hj
  rcases h.woken j hwaits with hbefore | ⟨p, hp, hjob, hripe⟩
  · exact .inl hbefore
  · refine .inr ⟨p, hp, hjob, ?_⟩
    simpa only [Ripe, hx] using hripe

/-! ## Offers and requests -/

theorem calm_answer {x : Exchange} {oid : OfferId} {o : MatchOffer}
    (ho : x.matchOffers.lookup oid = some o) (status : OfferStatus) (now : Time)
    (hstatus : status ≠ .offered) :
    x.Calm { x with matchOffers :=
      x.matchOffers.replace oid { o with status := status, respondedAt := some now } } where
  requests := .refl _ _ _
  unasked := .answer ho status now hstatus rfl
  matchRows := .refl _ _ _

theorem calm_supersede (x : Exchange) (id : RequestId) (now : Time) :
    x.Calm (x.supersede id now) where
  requests := .refl _ _ _
  unasked := .supersede x id now
  matchRows := .refl _ _ _

theorem calm_move {x x' : Exchange} {id : RequestId} {r r' : Request}
    (hr : x.requests.lookup id = some r) (hrequests : x'.requests = x.requests.replace id r')
    (hoffers : x'.matchOffers = x.matchOffers) (hmatches : x'.matchRows = x.matchRows)
    (hstatus : r'.status ≠ .searching) : x.Calm x' := by
  constructor
  · rw [hrequests]
    exact .replace hr fun hsearching => absurd hsearching hstatus
  · exact .of_eq hoffers
  · rw [hmatches]
    exact .refl _ _ _

theorem declineOffer_wakes {helperId : UserId} {offerId : OfferId} {alsoStopReceiving : Bool}
    (h : db.declineOffer env helperId offerId alsoStopReceiving = .ok (effects, db')) :
    Wakes db db' (enqueued env.now effects) := by
  simp only [declineOffer, bind_ok, found_ok, lockPendingOffer_ok] at h
  obtain ⟨o, ⟨ho, -, -, -⟩, r, hr, h⟩ := h
  rw [closeOffer_eq ho] at h
  have hcalm := calm_answer ho .declined env.now (by decide)
  by_cases hoffering : r.status = .offering
  · rw [if_pos hoffering] at h
    simp only [bind_ok, transitionRequest_ok, pure_ok, Prod.mk.injEq] at h
    obtain ⟨_, ⟨-, r', hr', -, rfl⟩, rfl, rfl⟩ := h
    split_ifs <;> exact .of_request hcalm hr' rfl rfl rfl fun _ =>
      served_matching (List.mem_singleton_self _)
  · rw [if_neg hoffering] at h
    simp only [bind_ok, pure_ok, Prod.mk.injEq] at h
    obtain ⟨_, rfl, -, rfl⟩ := h
    split_ifs <;> exact .of_calm hcalm

theorem acceptOffer_wakes {helperId : UserId} {offerId : OfferId} {draws : List (ℕ × ℕ)}
    {outcome : AcceptOutcome}
    (h : db.acceptOffer env helperId offerId draws = .ok (outcome, effects, db')) :
    Wakes db db' (enqueued env.now effects) := by
  simp only [acceptOffer, bind_ok, found_ok, ensure_ok, lockPendingOffer_ok] at h
  obtain ⟨o, ⟨ho, hhelper, hoffered, htime⟩, r, hr, ⟨⟩, hoffering, item, hi, h⟩ := h
  generalize computeReserveQty o.qty (r.qty - r.qtyFulfilled)
    (if item.active = true then item.qtyOnHand - item.qtyReserved else 0)
    ((db.categories.lookup r.categoryId).elim false Category.fractional) = q at h
  by_cases hnone : q ≤ 0
  · rw [if_pos hnone, closeOffer_eq ho] at h
    simp only [bind_ok, transitionRequest_ok, pure_ok, Prod.mk.injEq] at h
    obtain ⟨_, ⟨-, r', hr', -, rfl⟩, -, rfl, rfl⟩ := h
    exact .of_request (calm_answer ho .expired env.now (by decide)) hr' rfl rfl rfl fun _ =>
      served_matching (List.mem_singleton_self _)
  · rw [if_neg hnone] at h
    simp only [bind_ok, updateInventoryItem_ok, found_ok, ensure_ok, transitionRequest_ok,
      pure_ok, Prod.mk.injEq] at h
    obtain ⟨_, ⟨item', hi', -, rfl⟩, aliases, -, ⟨⟩, -, _, ⟨-, r', hr', -, rfl⟩, -, -, rfl⟩ := h
    have hclose := Table.modify_eq_replace ho fun o =>
      { o with status := .accepted, respondedAt := some env.now }
    refine .of_calm ⟨.replace hr' fun hsearching => ?_, ?_, ?_⟩
    · cases hsearching
    · simp only [closeOffer, hclose]
      exact .answer ho .accepted env.now (by decide) rfl
    · exact .put fun hawaits => by
        obtain ⟨-, side, hside, -⟩ := hawaits
        cases side <;> cases hside

/-! ## Requests -/

theorem createRequest_wakes {auth : AuthContext} {input : CreateRequestInput}
    (h : db.createRequest env auth input = .ok (effects, db')) :
    Wakes db db' (enqueued env.now effects) := by
  rcases createRequest_ok.mp h with ⟨-, -, rfl⟩ | ⟨-, ticket, -, -, h⟩
  · exact .of_calm (.of_tables rfl rfl rfl)
  · obtain ⟨-, hexchange, -⟩ := insertRequest_ok h
    have hmatching : db'.Served (enqueued env.now effects)
        (.matching (db.requests.freshKey env.uuid.request)) := by
      simp only [insertRequest, bind_ok, pure_ok, Prod.mk.injEq] at h
      obtain ⟨-, -, -, -, rfl, -⟩ := h
      split <;> exact served_matching List.mem_cons_self
    have hrequests := congrArg Exchange.requests hexchange
    have hoffers := congrArg Exchange.matchOffers hexchange
    have hmatches := congrArg Exchange.matchRows hexchange
    simp only at hrequests hoffers hmatches
    refine ⟨fun j hj => ?_, .of_eq hoffers⟩
    cases j with
    | matching rid =>
        obtain ⟨r, hr, hsearching⟩ := hj
        rw [hrequests, Table.lookup_put] at hr
        split_ifs at hr with hk
        · exact .inr (hk ▸ hmatching)
        · exact .inl ⟨r, hr, hsearching⟩
    | offerTimeout oid => exact .inl (by simpa only [Waits, hoffers] using hj)
    | finalize mid => exact .inl (by simpa only [Waits, hmatches] using hj)

theorem renewRequest_wakes {userId : UserId} {requestId : RequestId} {expiresInMinutes : ℕ}
    (h : db.renewRequest env userId requestId expiresInMinutes = .ok (effects, db')) :
    Wakes db db' (enqueued env.now effects) := by
  simp only [renewRequest, bind_ok, ensure_ok, transitionRequest_ok, pure_ok,
    Prod.mk.injEq] at h
  obtain ⟨r, -, -, -, _, ⟨-, r', hr', -, rfl⟩, rfl, rfl⟩ := h
  exact .of_request (.of_tables rfl rfl rfl) hr' rfl rfl rfl fun _ =>
    served_matching List.mem_cons_self

theorem continueRequest_wakes {userId : UserId} {requestId : RequestId}
    {continueSearching : Bool}
    (h : db.continueRequest env userId requestId continueSearching = .ok (effects, db')) :
    Wakes db db' (enqueued env.now effects) := by
  simp only [continueRequest, bind_ok, ensure_ok] at h
  obtain ⟨r, -, -, -, h⟩ := h
  cases continueSearching with
  | true =>
      simp only [if_true, bind_ok, transitionRequest_ok, pure_ok, Prod.mk.injEq] at h
      obtain ⟨-, -, _, ⟨-, r', hr', -, rfl⟩, rfl, rfl⟩ := h
      exact .of_request (.of_tables rfl rfl rfl) hr' rfl rfl rfl fun _ =>
        served_matching List.mem_cons_self
  | false =>
      simp only [Bool.false_eq_true, if_false, bind_ok, transitionRequest_ok, pure_ok,
        Prod.mk.injEq] at h
      obtain ⟨_, ⟨-, r', hr', -, rfl⟩, -, rfl⟩ := h
      refine .of_calm (calm_move hr' rfl rfl rfl ?_)
      split_ifs <;> simp

theorem closeOpenRequest_calm {target : RequestStatus} {actor : TransitionActor} {reason : String}
    {requestId : RequestId} (htarget : target ≠ .searching)
    (h : db.closeOpenRequest env target actor reason requestId = .ok db') :
    db.toExchange.Calm db'.toExchange := by
  simp only [closeOpenRequest, bind_ok, found_ok, transitionRequest_ok] at h
  obtain ⟨r, -, -, r', hr', -, rfl⟩ := h
  exact (calm_supersede _ requestId env.now).trans (calm_move hr' rfl rfl rfl htarget)

theorem closeOpenRequests_calm {target : RequestStatus} {actor : TransitionActor}
    {reason : String} {ids : List RequestId} (htarget : target ≠ .searching)
    (h : closeOpenRequests env target actor reason ids db = .ok db') :
    db.toExchange.Calm db'.toExchange := by
  induction ids generalizing db with
  | nil =>
      obtain rfl := pure_ok.mp h
      exact .of_tables rfl rfl rfl
  | cons id ids ih =>
      obtain ⟨db₁, hclose, h⟩ := bind_ok.mp h
      exact (closeOpenRequest_calm htarget hclose).trans (ih h)

/-! ## Matches -/

variable {matchId : MatchId} {locks : MatchLocks}

theorem setMeetingState_wakes {viewerUserId : UserId} {state : MeetingState}
    (h : db.setMeetingState matchId viewerUserId state = .ok db') : Wakes db db' jobs := by
  simp only [setMeetingState, bind_ok, found_ok, ensure_ok, pure_ok] at h
  obtain ⟨m, hm, side, -, ⟨⟩, hactive, rfl⟩ := h
  rw [updateMatch_eq hm]
  refine .of_calm ⟨.refl _ _ _, .of_eq rfl, .replace hm fun hawaits => ⟨?_, rfl⟩⟩
  refine ⟨hactive, ?_⟩
  cases side <;> exact hawaits.2

theorem calm_closeMatch {x : Exchange} {m : Match} (hm : x.matchRows.lookup matchId = some m)
    (m' : Match) (hclosed : m'.status ≠ .active) :
    x.Calm { x with matchRows := x.matchRows.replace matchId m' } where
  requests := .refl _ _ _
  unasked := .of_eq rfl
  matchRows := .replace hm fun hawaits => absurd hawaits (Match.AwaitsPeer.of_closed hclosed)

theorem settleLocked_ok {opts : SettleOptions} {m' : Match}
    (hunapplied : m'.inventoryApplied = false)
    (h : { db with matchRows := db.matchRows.replace matchId m' }.settleLocked env matchId
      { locks with matchRow := m' } opts = .ok (effects, db')) :
    ∃ r r' covered, db.requests.lookup m'.requestId = some r ∧
      db'.requests = db.requests.replace m'.requestId r' ∧
      db'.matchOffers = db.matchOffers ∧
      db'.matchRows = db.matchRows.replace matchId
        (m'.settledAs (settledMatchStatus opts.disputed covered) opts.closeReason env.now) ∧
      (r'.status = .searching → Effect.matchJob m'.requestId 0 ∈ effects) := by
  simp only [settleLocked, hunapplied, Bool.false_eq_true, if_false, bind_ok,
    updateInventoryItem_ok, transitionRequest_ok, pure_ok, Prod.mk.injEq] at h
  obtain ⟨_, ⟨item, -, -, rfl⟩, _, ⟨-, r, hr, -, rfl⟩, rfl, rfl⟩ := h
  let covered : Bool := locks.request.qty ≤ locks.request.qtyFulfilled + opts.finalQty
  refine ⟨r, { r with
    status := settledRequestStatus locks.request (locks.request.qtyFulfilled + opts.finalQty)
    qtyFulfilled := locks.request.qtyFulfilled + opts.finalQty
    closedAt := if covered then some env.now else r.closedAt }, covered, hr, ?_, ?_, ?_,
    fun hsearching => ?_⟩
  · simp only [insertSystemMessage_toExchange, applySettlement_toExchange]
    rfl
  · simp only [insertSystemMessage_toExchange, applySettlement_toExchange]
    rfl
  · simp only [insertSystemMessage_toExchange, applySettlement_toExchange, moved, updateMatch,
      updateConversation, Table.modify_replace]
    rfl
  · rw [if_pos hsearching]
    exact List.mem_singleton_self _

theorem settleLocked_wakes {opts : SettleOptions} {m m' : Match}
    (hm : db.matchRows.lookup matchId = some m) (hunapplied : m'.inventoryApplied = false)
    (h : { db with matchRows := db.matchRows.replace matchId m' }.settleLocked env matchId
      { locks with matchRow := m' } opts = .ok (effects, db')) :
    Wakes db db' (enqueued env.now effects) := by
  obtain ⟨r, r', covered, hr, hrequests, hoffers, hmatches, hjob⟩ := settleLocked_ok hunapplied h
  exact .of_request (calm_closeMatch hm _ (settledMatchStatus_ne_active _ _)) hr hrequests hoffers
    hmatches fun hsearching => served_matching (hjob hsearching)

theorem confirmCompletion_wakes {viewerUserId : UserId} {qty : ConfirmQty}
    (hx : db.toExchange.Consistent)
    (h : db.confirmCompletion env matchId viewerUserId qty = .ok (effects, db')) :
    Wakes db db' (enqueued env.now effects) := by
  cases confirmCompletion_cases h with
  | replays _ _ _ => exact .of_calm (.of_tables rfl rfl rfl)
  | first hlocks _ _ _ _ _ _ =>
      refine ⟨fun j hj => ?_, .of_eq rfl⟩
      cases j with
      | matching rid => exact .inl hj
      | offerTimeout oid => exact .inl hj
      | finalize mid =>
          obtain ⟨m, hm, hawaits⟩ := hj
          rw [Table.lookup_replace (lockMatchRows_some hlocks).matchRow] at hm
          split_ifs at hm with hk
          · subst hk
            exact .inr (.of_mem (p := ⟨.finalize mid, _⟩) (List.mem_singleton_self _) rfl trivial)
          · exact .inl ⟨m, hm, hawaits⟩
  | @second locks side _ _ _ hlocks _ hactive _ _ _ _ hsettle =>
      have hl := lockMatchRows_some hlocks
      exact settleLocked_wakes hl.matchRow
        ((locks.matchRow.setConfirmedQty_inventoryApplied side qty.1).trans
          (hl.unapplied hx hactive)) hsettle

theorem autoFinalizeMatch_wakes
    (h : db.autoFinalizeMatch env matchId = .ok (effects, db')) :
    Wakes db db' (enqueued env.now effects) := by
  rcases db.autoFinalizeMatch_cases env matchId with
    ⟨hidle, -⟩ | ⟨locks, side, qty, hlocks, -, hunapplied, -, -, hsettle⟩
  · obtain ⟨-, rfl⟩ := Prod.mk.inj (pure_ok.mp (hidle.symm.trans h))
    exact .of_calm (.of_tables rfl rfl rfl)
  · have hl := lockMatchRows_some hlocks
    rw [hsettle, ← hl.replace_matchRow] at h
    exact settleLocked_wakes hl.matchRow hunapplied h

theorem CancelActor.reopens {actor : CancelActor} (h : actor.route.1 = .searching) (m : Match) :
    Effect.matchJob m.requestId 0 ∈ actor.effects matchId m := by
  cases actor with
  | helper => exact List.mem_cons_self
  | requester | moderator => cases h

theorem cancelMatchLocked_wakes {opts : CancelOptions} (hx : db.toExchange.Consistent)
    (hl : db.Locked matchId locks)
    (h : db.cancelMatchLocked env matchId locks opts = .ok (effects, db')) :
    Wakes db db' (enqueued env.now effects) := by
  simp only [cancelMatchLocked, bind_ok, ensure_ok] at h
  obtain ⟨⟨⟩, hactive, h⟩ := h
  simp only [hl.unapplied hx hactive, Bool.false_eq_true, if_false, bind_ok,
    updateInventoryItem_ok, transitionRequest_ok, pure_ok, Prod.mk.injEq] at h
  obtain ⟨_, ⟨item, -, -, rfl⟩, _, ⟨-, r, hr, -, rfl⟩, rfl, rfl⟩ := h
  have hclosed := calm_closeMatch hl.matchRow (locks.matchRow.cancelledAs opts.matchStatus
    opts.closeReason env.now)
    (MatchStatus.isCancelled.ne_active (CancelOptions.matchStatus_isCancelled opts))
  refine .congr ((insertSystemMessage_toExchange _ _ _ _ _).trans
    ((applyCancellation_toExchange _ _ _ _).trans (forgetLocation_toExchange _ _ _)))
    (.of_request hclosed hr rfl rfl ?_ fun hsearching => ?_)
  · simp only [moved, updateMatch, updateConversation, Table.modify_eq_replace hl.matchRow]
    rfl
  · exact served_matching (CancelActor.reopens hsearching _)

theorem cancelMatchInTx_wakes {opts : CancelOptions} (hx : db.toExchange.Consistent)
    (h : db.cancelMatchInTx env matchId opts = .ok (effects, db')) :
    Wakes db db' (enqueued env.now effects) := by
  simp only [cancelMatchInTx, bind_ok, found_ok] at h
  obtain ⟨locks, hlocks, h⟩ := h
  exact cancelMatchLocked_wakes hx (lockMatchRows_some hlocks) h

theorem cancelMatch_wakes {viewerUserId : UserId} {reason : CancelReason} {note : Option String}
    (hx : db.toExchange.Consistent)
    (h : db.cancelMatch env matchId viewerUserId reason note = .ok (effects, db')) :
    Wakes db db' (enqueued env.now effects) := by
  simp only [cancelMatch, bind_ok, found_ok] at h
  obtain ⟨locks, hlocks, side, -, h⟩ := h
  exact cancelMatchLocked_wakes hx (lockMatchRows_some hlocks) h

theorem cancelRequest_wakes {userId : UserId} {requestId : RequestId}
    (hx : db.toExchange.Consistent)
    (h : db.cancelRequest env userId requestId = .ok (effects, db')) :
    Wakes db db' (enqueued env.now effects) := by
  simp only [cancelRequest, bind_ok, lockOwnRequest_ok] at h
  obtain ⟨r, -, h⟩ := h
  split_ifs at h with hmatched
  · simp only [bind_ok, found_ok] at h
    obtain ⟨matchId, -, h⟩ := h
    exact cancelMatchInTx_wakes hx h
  · simp only [bind_ok, ensure_ok, transitionRequest_ok, pure_ok, Prod.mk.injEq] at h
    obtain ⟨-, -, _, ⟨-, r', hr', -, rfl⟩, -, rfl⟩ := h
    exact .of_calm
      ((calm_supersede _ requestId env.now).trans (calm_move hr' rfl rfl rfl (by simp)))

/-! ## Passes and timeouts -/

variable {requestId : RequestId} {request : Request} {event : Event} {choices : PassChoices}

theorem expireRequest_wakes (h : db.expireRequest env requestId request = .ok (effects, db')) :
    Wakes db db' jobs := by
  simp only [expireRequest, bind_ok, transitionRequest_ok, pure_ok, Prod.mk.injEq] at h
  obtain ⟨_, ⟨-, r', hr', -, rfl⟩, -, rfl⟩ := h
  refine .of_calm ((calm_supersede _ requestId env.now).trans (calm_move hr' rfl rfl rfl ?_))
  split_ifs <;> simp

theorem createOffer_woken {w : Candidate} {offerQty : Qty}
    (h : db.createOffer env requestId request event w offerQty = .ok (effects, db')) :
    Woken db db' (enqueued env.now effects) := by
  obtain ⟨-, r', hr', -, rfl, rfl⟩ := createOffer_ok.mp h
  intro j hj
  cases j with
  | matching rid =>
      obtain ⟨r, hr, hsearching⟩ := hj
      obtain ⟨r, hr, hsearching, -⟩ := Table.Inherits.replace (p := fun r => r.status = .searching)
        (g := fun _ => ()) hr' (fun hsearching => by cases hsearching) rid r hr hsearching
      exact .inl ⟨r, hr, hsearching⟩
  | offerTimeout oid =>
      obtain ⟨o, ho, hoffered⟩ := hj
      by_cases hk : oid = db.matchOffers.freshKey env.uuid.matchOffer
      · subst hk
        refine .inr (.of_mem (p := ⟨.offerTimeout _, _⟩) List.mem_cons_self rfl ?_)
        refine ⟨_, (Table.lookup_put _ _ _ _).trans (if_pos rfl), ?_⟩
        refine Int.add_le_add_left ?_ env.now
        exact_mod_cast Nat.le_add_right _ offerTimeoutSlackMs
      · exact .inl ⟨o, ((Table.lookup_put _ _ _ _).trans (if_neg hk)).symm.trans ho, hoffered⟩
  | finalize mid => exact .inl hj

theorem widenOrRetry_wakes (env : Env)
    (h : db.widenOrRetry requestId request event = .ok (effects, db')) :
    Wakes db db' (enqueued env.now effects) := by
  rcases widenOrRetry_ok.mp h with ⟨-, r', hr', -, rfl, rfl⟩ | ⟨-, -, rfl⟩
  · exact .of_request (.of_tables rfl rfl rfl) hr' rfl rfl rfl fun _ =>
      served_matching (List.mem_singleton_self _)
  · exact .of_calm (.of_tables rfl rfl rfl)

theorem search_woken (h : db.search env requestId request event choices = .ok (effects, db')) :
    Woken db db' (enqueued env.now effects) := by
  unfold search at h
  split at h
  · exact createOffer_woken h
  · exact (widenOrRetry_wakes env h).woken

theorem search_offers (h : db.search env requestId request event choices = .ok (effects, db'))
    {oid : OfferId} {o : MatchOffer} (ho : db'.matchOffers.lookup oid = some o) :
    db.toExchange.OldOffer oid o ∨ o.requestId = requestId := by
  unfold search at h
  split at h
  · obtain ⟨-, r', hr', -, -, rfl⟩ := createOffer_ok.mp h
    have hput := (Table.lookup_put _ _ _ _).symm.trans ho
    split_ifs at hput with hk
    · obtain rfl := Option.some.inj hput
      exact .inr rfl
    · exact .inl (Exchange.Unasked.of_eq rfl oid o hput)
  · exact .inl ((widenOrRetry_wakes env h).unasked oid o ho)

theorem search_serves (h : db.search env requestId request event choices = .ok (effects, db'))
    (hwaits : db'.Waits (.matching requestId)) :
    db'.Served (enqueued env.now effects) (.matching requestId) := by
  unfold search at h
  split at h
  · obtain ⟨-, r', hr', -, rfl, rfl⟩ := createOffer_ok.mp h
    obtain ⟨r, hr, hsearching⟩ := hwaits
    obtain rfl := Option.some.inj
      (((Table.lookup_replace hr' _ _).trans (if_pos rfl)).symm.trans hr)
    cases hsearching
  · rcases widenOrRetry_ok.mp h with ⟨-, r', -, -, rfl, -⟩ | ⟨-, rfl, -⟩
    · exact served_matching (List.mem_singleton_self _)
    · exact served_matching (List.mem_singleton_self _)

theorem sweepOverdueOffer_wakes (h : db.sweepOverdueOffer env requestId request = .ok db') :
    Wakes db db' [⟨.matching requestId, env.now⟩] := by
  simp only [sweepOverdueOffer, transitionRequest_ok] at h
  obtain ⟨-, r', hr', -, rfl⟩ := h
  cases hopen : db.openOffer requestId with
  | none =>
      simp only [hopen] at hr' ⊢
      exact .of_request (.of_tables rfl rfl rfl) hr' rfl rfl rfl fun _ =>
        ⟨_, List.mem_singleton_self _, rfl, trivial⟩
  | some e =>
      have ho := (Table.first_some hopen).1
      simp only [hopen, closeOffer_eq ho] at hr' ⊢
      exact .of_request (calm_answer ho .expired env.now (by decide)) hr' rfl rfl rfl fun _ =>
        ⟨_, List.mem_singleton_self _, rfl, trivial⟩

theorem resumeSearch_woken
    (h : db.resumeSearch env requestId request event choices = .ok (effects, db')) :
    Woken db db' (enqueued env.now effects) := by
  cases resumeSearch_cases h with
  | waits _ _ => exact fun _ hj => .inl hj
  | sweeps _ _ hsweep hsearch =>
      intro j hj
      rcases search_woken hsearch j hj with hwaits | hserved
      · rcases (sweepOverdueOffer_wakes hsweep).woken j hwaits with hbefore | ⟨p, hp, rfl, -⟩
        · exact .inl hbefore
        · obtain rfl := List.mem_singleton.mp hp
          exact .inr (search_serves hsearch hj)
      · exact .inr hserved
  | searches _ hsearch => exact search_woken hsearch

theorem resumeSearch_offers
    (h : db.resumeSearch env requestId request event choices = .ok (effects, db'))
    {oid : OfferId} {o : MatchOffer} (ho : db'.matchOffers.lookup oid = some o) :
    db.toExchange.OldOffer oid o ∨ o.requestId = requestId := by
  cases resumeSearch_cases h with
  | waits _ _ => exact .inl (Exchange.Unasked.of_eq rfl oid o ho)
  | sweeps _ _ hsweep hsearch =>
      exact (search_offers hsearch ho).imp_left fun hold =>
        hold.trans (sweepOverdueOffer_wakes hsweep).unasked
  | searches _ hsearch => exact search_offers hsearch ho

def Asks (db : Db) (requestId : RequestId) : Prop :=
  ∃ request event, db.requests.lookup requestId = some request ∧
    db.events.lookup request.eventId = some event ∧ event.status = .active ∧
    event.matchingPaused = false

/-- A pass comes to its search only in an active event that is not paused; else it
asks nobody. -/
theorem runMatchPass_asks (h : db.runMatchPass env requestId choices = .ok (effects, db')) :
    Wakes db db' (enqueued env.now effects) ∨ db.Asks requestId ∧ ∃ request event,
      db.resumeSearch env requestId request event choices = .ok (effects, db') := by
  cases runMatchPass_cases h with
  | idle _ => exact .inl (.of_calm (.of_eq rfl))
  | expires _ _ _ hexpire => exact .inl (expireRequest_wakes hexpire)
  | defers _ _ _ _ => exact .inl (.of_calm (.of_eq rfl))
  | resumes hr _ _ hevent hactive hunpaused hresume =>
      exact .inr ⟨⟨_, _, hr, hevent, hactive, hunpaused⟩, _, _, hresume⟩

theorem runMatchPass_woken (h : db.runMatchPass env requestId choices = .ok (effects, db')) :
    Woken db db' (enqueued env.now effects) := by
  rcases runMatchPass_asks h with hwakes | ⟨-, request, event, hsearch⟩
  · exact hwakes.woken
  · exact resumeSearch_woken hsearch

theorem runMatchPass_offers (h : db.runMatchPass env requestId choices = .ok (effects, db'))
    {oid : OfferId} {o : MatchOffer} (ho : db'.matchOffers.lookup oid = some o) :
    db.toExchange.OldOffer oid o ∨ o.requestId = requestId ∧ db.Asks requestId := by
  rcases runMatchPass_asks h with hwakes | ⟨hasks, request, event, hsearch⟩
  · exact .inl (hwakes.unasked oid o ho)
  · exact (resumeSearch_offers hsearch ho).imp_right fun hrid => ⟨hrid, hasks⟩

theorem expireOffer_wakes {offerId : OfferId}
    (h : db.expireOffer env offerId = .ok (effects, db')) :
    Wakes db db' (enqueued env.now effects) := by
  cases expireOffer_cases h with
  | keeps _ => exact .of_calm (.of_tables rfl rfl rfl)
  | resumes ho _ _ _ _ hmove =>
      simp only [closeOffer_eq ho, transitionRequest_ok] at hmove
      obtain ⟨-, r', hr', -, rfl⟩ := hmove
      exact .of_request (calm_answer ho .expired env.now (by decide)) hr' rfl rfl rfl fun _ =>
        served_matching (List.mem_singleton_self _)
  | closes ho _ _ _ =>
      rw [closeOffer_eq ho]
      exact .of_calm (calm_answer ho .expired env.now (by decide))

/-! ## Every operation -/

theorem addInventory_calm {userId : UserId} {eventId : EventId} {input : AddInventoryInput}
    {itemId : ItemId} (h : db.addInventory env userId eventId input = .ok (itemId, db')) :
    db.toExchange.Calm db'.toExchange := by
  rcases addInventory_ok h with ⟨-, rfl⟩ | ⟨item, -, rfl⟩
  · exact .of_eq rfl
  · exact .of_tables rfl rfl rfl

theorem updateInventoryItem_calm {itemId : ItemId} {set : InventoryItem → InventoryItem}
    (h : db.updateInventoryItem itemId set = .ok db') : db.toExchange.Calm db'.toExchange := by
  obtain ⟨item, -, -, rfl⟩ := updateInventoryItem_ok.mp h
  exact .of_tables rfl rfl rfl

theorem deleteInventory_calm {userId : UserId} {itemId : ItemId}
    (h : db.deleteInventory env userId itemId = .ok db') : db.toExchange.Calm db'.toExchange := by
  simp only [deleteInventory, bind_ok] at h
  obtain ⟨-, -, h⟩ := h
  split_ifs at h
  · exact updateInventoryItem_calm h
  · obtain rfl := pure_ok.mp h
    exact .of_tables rfl rfl rfl

theorem moderate_calm {auth : AuthContext} {input : AdminModerateInput}
    (h : db.moderate env auth input = .ok (effects, db')) : db.toExchange.Calm db'.toExchange := by
  simp only [moderate, bind_ok] at h
  obtain ⟨-, -, h⟩ := h
  cases haction : input.action <;> simp only [haction] at h
  case warn | restrictRequests | restrictHelping | unsuspend =>
    exact .of_eq (moderateUser_silent h).1
  case suspend => exact .of_eq (suspend_silent h).1
  case eventPause | eventUnpause | eventApprovePublic | eventRejectPublic =>
    simp only [bind_ok, pure_ok, Prod.mk.injEq] at h
    obtain ⟨r, hmoderate, -, rfl⟩ := h
    exact .of_eq (moderateEvent_silent hmoderate).1
  case eventDisable =>
    simp only [disableEvent, bind_ok, pure_ok, Prod.mk.injEq] at h
    obtain ⟨eventId, -, mid, hclose, -, rfl⟩ := h
    have hcalm := closeOpenRequests_calm (by decide) hclose
    exact hcalm
  case matchCancel =>
    simp only [bind_ok, pure_ok, Prod.mk.injEq] at h
    obtain ⟨matchId, -, m, -, -, rfl⟩ := h
    exact .of_eq rfl
  case reportResolve | reportDismiss => exact .of_eq (moderateReport_silent h).1

theorem deletionZeroInventory_calm {userId : UserId}
    (h : db.deletionZeroInventory env userId = .ok db') : db.toExchange.Calm db'.toExchange := by
  simp only [deletionZeroInventory] at h
  split_ifs at h
  obtain rfl := pure_ok.mp h
  exact .of_tables rfl rfl rfl

theorem sendMessage_calm {conversationId : ConversationId} {viewerUserId : UserId}
    {message : SendMessageInput}
    (h : db.sendMessage env conversationId viewerUserId message = .ok (effects, db')) :
    db.toExchange.Calm db'.toExchange := by
  simp only [sendMessage, bind_ok] at h
  obtain ⟨context, -, h⟩ := h
  by_cases hreplay : (db.findMessage viewerUserId message.clientMsgId).isSome
  · rw [if_pos hreplay] at h
    obtain ⟨-, rfl⟩ := Prod.mk.inj (pure_ok.mp h)
    exact .of_eq rfl
  · rw [if_neg hreplay] at h
    simp only [bind_ok, pure_ok, Prod.mk.injEq] at h
    obtain ⟨-, -, -, -, -, rfl⟩ := h
    exact .of_eq rfl

theorem exec_wakes {op : Op} (hx : db.toExchange.Consistent) (hop : ∀ rid, ¬op.passes rid)
    (h : db.exec env op = .ok (effects, db')) : Wakes db db' (enqueued env.now effects) := by
  cases op <;> simp only [exec] at h
  case directory dir =>
    have hreplace := (silently_ok h).1
    simp only [replaceDirectory, bind_ok, pure_ok] at hreplace
    obtain ⟨-, -, rfl⟩ := hreplace
    exact .of_calm (.of_eq rfl)
  case addInventory token eventId input =>
    obtain ⟨auth, -, -, h⟩ := asUser_ok h
    obtain ⟨⟨itemId, db₁⟩, hadd, hpure⟩ := bind_ok.mp (silently_ok h).1
    obtain rfl := pure_ok.mp hpure
    exact .of_calm (addInventory_calm hadd)
  case updateInventory token itemId input =>
    obtain ⟨auth, -, -, h⟩ := asUser_ok h
    obtain ⟨item, -, h⟩ := bind_ok.mp (silently_ok h).1
    obtain ⟨-, -, h⟩ := bind_ok.mp h
    exact .of_calm (updateInventoryItem_calm h)
  case deleteInventory token itemId =>
    obtain ⟨auth, -, -, h⟩ := asUser_ok h
    exact .of_calm (deleteInventory_calm (silently_ok h).1)
  case createRequest token input =>
    obtain ⟨auth, -, -, h⟩ := asUser_ok h
    exact createRequest_wakes h
  case cancelRequest token requestId =>
    obtain ⟨auth, -, -, h⟩ := asUser_ok h
    exact cancelRequest_wakes hx h
  case renewRequest token requestId expiresInMinutes =>
    obtain ⟨auth, -, -, h⟩ := asUser_ok h
    exact renewRequest_wakes h
  case continueRequest token requestId continueSearching =>
    obtain ⟨auth, -, -, h⟩ := asUser_ok h
    exact continueRequest_wakes h
  case runMatchPass requestId choices => exact absurd ⟨choices, rfl⟩ (hop requestId)
  case acceptOffer token offerId draws =>
    obtain ⟨auth, -, -, h⟩ := asUser_ok h
    simp only [bind_ok, pure_ok, Prod.mk.injEq] at h
    obtain ⟨r, haccept, rfl, rfl⟩ := h
    exact acceptOffer_wakes haccept
  case declineOffer token offerId alsoStopReceiving =>
    obtain ⟨auth, -, -, h⟩ := asUser_ok h
    exact declineOffer_wakes h
  case expireOffer offerId => exact expireOffer_wakes h
  case setMeetingState token matchId state =>
    obtain ⟨auth, -, -, h⟩ := asUser_ok h
    exact setMeetingState_wakes (silently_ok h).1
  case confirmCompletion token matchId qty =>
    obtain ⟨auth, -, -, h⟩ := asUser_ok h
    exact confirmCompletion_wakes hx h
  case autoFinalizeMatch matchId => exact autoFinalizeMatch_wakes h
  case cancelMatch token matchId reason note =>
    obtain ⟨auth, -, -, h⟩ := asUser_ok h
    exact cancelMatch_wakes hx h
  case cancelMatchForModeration matchId reason => exact cancelMatchInTx_wakes hx h
  case moderate token input =>
    obtain ⟨auth, -, h⟩ := bind_ok.mp h
    exact .of_calm (moderate_calm h)
  case deletionCancelRequests userId =>
    exact .of_calm (closeOpenRequests_calm (by decide) (silently_ok h).1)
  case deletionZeroInventory userId =>
    exact .of_calm (deletionZeroInventory_calm (silently_ok h).1)
  case deletionStatement userId statement =>
    obtain ⟨-, rfl⟩ := Prod.mk.inj (pure_ok.mp h)
    cases statement <;> exact .of_calm (.of_eq rfl)
  case blockViaMatch token matchId =>
    obtain ⟨auth, -, -, h⟩ := asUser_ok h
    simp only [blockViaMatch, bind_ok, pure_ok, Prod.mk.injEq] at h
    obtain ⟨peer, -, -, rfl⟩ := h
    split_ifs <;> exact .of_calm (.of_eq rfl)
  case sendMessage token conversationId input =>
    obtain ⟨auth, -, -, h⟩ := asUser_ok h
    exact .of_calm (sendMessage_calm h)

theorem exec_woken {op : Op} (hx : db.toExchange.Consistent)
    (h : db.exec env op = .ok (effects, db')) : Woken db db' (enqueued env.now effects) := by
  by_cases hop : ∃ rid, op.passes rid
  · obtain ⟨rid, choices, rfl⟩ := hop
    exact runMatchPass_woken h
  · exact (exec_wakes hx (not_exists.mp hop) h).woken

/-- Only a matching pass asks anybody, and only for a request of an active event that is
not paused. -/
theorem exec_offers {op : Op} (hx : db.toExchange.Consistent)
    (h : db.exec env op = .ok (effects, db')) {oid : OfferId} {o : MatchOffer}
    (ho : db'.matchOffers.lookup oid = some o) :
    db.toExchange.OldOffer oid o ∨ op.passes o.requestId ∧ db.Asks o.requestId := by
  by_cases hop : ∃ rid, op.passes rid
  · obtain ⟨rid, choices, rfl⟩ := hop
    refine (runMatchPass_offers h ho).imp_right ?_
    rintro ⟨rfl, hasks⟩
    exact ⟨⟨choices, rfl⟩, hasks⟩
  · exact .inl ((exec_wakes hx (not_exists.mp hop) h).unasked oid o ho)

end Db
end Sahay
