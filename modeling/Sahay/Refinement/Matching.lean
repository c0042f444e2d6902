import Sahay.Refinement.Requests

/-!
# Matching passes and timeouts refine the lifecycle

Whoever wins a pass satisfies the candidate query, so the offer it gets is a
lifecycle step.  A pass that sweeps an overdue offer first is two steps.
-/

namespace Sahay

/-! ## From the winner back to the query -/

theorem mem_distinctOnHelper {last : Option UserId} {cs : List Candidate} {w : Candidate}
    (h : w ∈ distinctOnHelper last cs) : w ∈ cs := by
  induction cs generalizing last with
  | nil => exact h
  | cons c cs ih =>
      unfold distinctOnHelper at h
      split_ifs at h
      · exact List.mem_cons_of_mem _ (ih h)
      · rcases List.mem_cons.mp h with rfl | htail
        · exact List.mem_cons_self
        · exact List.mem_cons_of_mem _ (ih htail)

theorem mem_rankCandidates {cs : List Candidate} {rng : ℕ → ℚ} {w : Candidate}
    (h : w ∈ rankCandidates cs rng) : w ∈ cs := by
  obtain ⟨s, hs, rfl⟩ := List.mem_map.mp h
  obtain ⟨e, he, rfl⟩ := List.mem_map.mp ((List.perm_insertionSort _ _).mem_iff.mp hs)
  exact List.fst_mem_of_mem_zipIdx he

namespace Db

variable {db db' : Db} {env : Env} {op : Op} {requestId : RequestId} {request : Request}
  {event : Event} {choices : PassChoices} {effects : List Effect} {c : Ctx}

theorem mem_candidates {w : Candidate}
    (h : w ∈ db.candidates env requestId request event choices) :
    ∃ item, db.inventoryItems.lookup w.itemId = some item ∧ w.helperId = item.userId ∧
      db.candidateEligible env requestId request event item = true := by
  have hdistinct := (List.perm_insertionSort _ _).mem_iff.mp (List.mem_of_mem_take h)
  have hinner := mem_distinctOnHelper ((choices.scanHelpers.perm _).mem_iff.mp hdistinct)
  have hrows := (choices.scanItems.perm _).mem_iff.mp
    ((List.perm_insertionSort _ _).mem_iff.mp hinner)
  obtain ⟨e, he, rfl⟩ := List.mem_map.mp hrows
  obtain ⟨hi, heligible⟩ := Table.mem_select.mp he
  exact ⟨e.2, hi, rfl, heligible⟩

theorem winner_some {w : Candidate} {offerQty : Qty}
    (h : db.winner env requestId request event choices = some (w, offerQty)) :
    (∃ item, db.inventoryItems.lookup w.itemId = some item ∧ w.helperId = item.userId ∧
      db.candidateEligible env requestId request event item = true) ∧
      0 < offerQty ∧ offerQty ≤ request.qty - request.qtyFulfilled := by
  obtain ⟨w', hw', hqty⟩ := List.exists_of_findSome?_eq_some h
  simp only at hqty
  split_ifs at hqty with hnone
  obtain ⟨rfl, rfl⟩ := Prod.mk.inj (Option.some.inj hqty)
  refine ⟨mem_candidates (mem_rankCandidates hw'), not_le.mp hnone, ?_⟩
  unfold offerQtyFor
  simp only
  split_ifs
  · exact min_le_left _ _
  · exact (Int.floor_le _).trans (min_le_left _ _)

theorem pairEligible_iff {requesterId helperId : UserId} :
    db.pairEligible requestId requesterId helperId = true ↔
      helperId ≠ requesterId ∧ (helperId, requesterId) ∉ db.blocks ∧
        (requesterId, helperId) ∉ db.blocks ∧
        ∀ oid o, db.matchOffers.lookup oid = some o → o.requestId = requestId →
          o.helperId ≠ helperId := by
  simp only [pairEligible, Bool.and_eq_true, decide_eq_true_eq, Bool.not_eq_true',
    Option.isSome_eq_false_iff, Option.isNone_iff_eq_none, Table.first_none, and_assoc,
    Bool.and_eq_false_iff, decide_eq_false_iff_not]
  simp only [← imp_iff_not_or]

/-! ## What the steps of a pass write -/

theorem searching_or_offering (hopen : request.status.isOpen = true) :
    request.status = .searching ∨ request.status = .offering := by
  revert hopen
  cases request.status <;> decide

theorem offerCount_pos_iff {now : Time} :
    0 < ((db.supersedeOffers requestId now).matchOffers.count fun _ o => o.requestId = requestId) ↔
      ∃ oid o, db.matchOffers.lookup oid = some o ∧ o.requestId = requestId := by
  rw [Table.count_pos_iff]
  constructor
  · rintro ⟨oid, o', ho', hrid⟩
    obtain ⟨o, ho, rfl⟩ := Option.map_eq_some_iff.mp
      ((Table.lookup_updateWhere _ _ _ _).symm.trans ho')
    refine ⟨oid, o, ho, ?_⟩
    rw [decide_eq_true_eq] at hrid
    split_ifs at hrid <;> exact hrid
  · rintro ⟨oid, o, ho, hrid⟩
    refine ⟨oid, _, (Table.lookup_updateWhere _ _ _ _).trans (congrArg _ ho), ?_⟩
    rw [decide_eq_true_eq]
    dsimp only
    split_ifs <;> exact hrid

/-- An open request can be ended, one in the status offering as long as it has an offer. -/
theorem expireRequest_commits_of (env : Env) (hr : db.requests.lookup requestId = some request)
    (hcheck : request.check) (hopen : request.status.isOpen = true)
    (hlegal : request.status = .offering →
      ∃ oid o, db.matchOffers.lookup oid = some o ∧ o.requestId = requestId) :
    ∃ effects db', db.expireRequest env requestId request = .ok (effects, db') := by
  have hcan : canTransition (some request.status)
      (if 0 < ((db.supersedeOffers requestId env.now).matchOffers.count fun _ o =>
        o.requestId = requestId) then .expired else .noMatch) = true := by
    rcases searching_or_offering hopen with hsearching | hoffering
    · rw [hsearching]
      split_ifs <;> rfl
    · rw [if_pos (offerCount_pos_iff.mpr (hlegal hoffering)), hoffering]
      rfl
  simp only [expireRequest, bind_ok, transitionRequest_ok, pure_ok, Prod.mk.injEq]
  exact ⟨_, _, _, ⟨hcan, request, hr, hcheck, rfl⟩, rfl, rfl⟩

/-- The offer of a pass to its winner. -/
def newOffer (env : Env) (requestId : RequestId) (event : Event) (w : Candidate)
    (offerQty : Qty) : MatchOffer :=
  { requestId := requestId
    helperId := w.helperId
    inventoryItemId := w.itemId
    qty := offerQty
    proximity := bucketForDistanceM w.distanceM
    offeredAt := env.now
    respondBy := env.now + event.offerResponseSeconds * 1000 }

def offeredRow (request r : Request) : Request :=
  { r with status := .offering, attemptCount := request.attemptCount + 1 }

theorem createOffer_ok {w : Candidate} {offerQty : Qty} :
    db.createOffer env requestId request event w offerQty = .ok (effects, db') ↔
      canTransition (some request.status) .offering = true ∧
        ∃ r, db.requests.lookup requestId = some r ∧ (offeredRow request r).check ∧
          [.offerTimeoutJob (db.matchOffers.freshKey env.uuid.matchOffer)
              (event.offerResponseSeconds * 1000 + offerTimeoutSlackMs),
            .notify w.helperId "match_offer" "offer.title" "notifications.vaguePreview"
              (some ("offer:" ++ toString (db.matchOffers.freshKey env.uuid.matchOffer)))] =
            effects ∧
          (({ db with
              matchOffers := db.matchOffers.put (db.matchOffers.freshKey env.uuid.matchOffer)
                (newOffer env requestId event w offerQty) } : Db).moved requestId request.status
            (offeredRow request r) .offering .system (some "offer-created")
            env.now).applyOfferReceived w.helperId env.now = db' := by
  simp only [createOffer, bind_ok, transitionRequest_ok, pure_ok, Prod.mk.injEq]
  constructor
  · rintro ⟨_, ⟨hcan, r, hr, hcheck, rfl⟩, heffects, hdb⟩
    exact ⟨hcan, r, hr, hcheck, heffects, hdb⟩
  · rintro ⟨hcan, r, hr, hcheck, heffects, hdb⟩
    exact ⟨_, ⟨hcan, r, hr, hcheck, rfl⟩, heffects, hdb⟩

def widenedRow (request : Request) (event : Event) (r : Request) : Request :=
  { r with
    currentRadiusM :=
      min (request.currentRadiusM * Limits.radiusExpansionFactor) event.maxMatchRadiusM }

theorem widenOrRetry_ok :
    db.widenOrRetry requestId request event = .ok (effects, db') ↔
      (request.currentRadiusM < event.maxMatchRadiusM ∧
        ∃ r, db.requests.lookup requestId = some r ∧ (widenedRow request event r).check ∧
          [.matchJob requestId 0] = effects ∧
          { db with
            requests := db.requests.replace requestId (widenedRow request event r) } = db') ∨
      (¬request.currentRadiusM < event.maxMatchRadiusM ∧
        [.matchJob requestId noCandidateRetryDelayMs] = effects ∧ db = db') := by
  unfold widenOrRetry
  split_ifs with hring
  · simp only [bind_ok, updateRequest_ok, pure_ok, Prod.mk.injEq, hring, true_and, not_true,
      false_and, or_false]
    constructor
    · rintro ⟨_, ⟨r, hr, hcheck, rfl⟩, heffects, hdb⟩
      exact ⟨r, hr, hcheck, heffects, hdb⟩
    · rintro ⟨r, hr, hcheck, heffects, hdb⟩
      exact ⟨_, ⟨r, hr, hcheck, rfl⟩, heffects, hdb⟩
  · simp only [pure_ok, Prod.mk.injEq, hring, false_and, not_false_eq_true, true_and, false_or]

/-- The courses of a pass over an open request in an active event. -/
inductive Resumes (db : Db) (env : Env) (requestId : RequestId) (request : Request)
    (event : Event) (choices : PassChoices) : List Effect → Db → Prop
  | waits (hoffering : request.status = .offering)
      (hwaiting : ((db.openOffer requestId).any fun o => env.now < o.2.respondBy) = true) :
      Resumes db env requestId request event choices [] db
  | sweeps {swept db' : Db} {effects : List Effect} (hoffering : request.status = .offering)
      (hover : ((db.openOffer requestId).any fun o => env.now < o.2.respondBy) = false)
      (hsweep : db.sweepOverdueOffer env requestId request = .ok swept)
      (hsearch : swept.search env requestId { request with status := .searching } event choices =
        .ok (effects, db')) :
      Resumes db env requestId request event choices effects db'
  | searches {db' : Db} {effects : List Effect} (hoffering : request.status ≠ .offering)
      (hsearch : db.search env requestId request event choices = .ok (effects, db')) :
      Resumes db env requestId request event choices effects db'

theorem resumeSearch_cases
    (h : db.resumeSearch env requestId request event choices = .ok (effects, db')) :
    Resumes db env requestId request event choices effects db' := by
  unfold resumeSearch at h
  by_cases hoffering : request.status = .offering
  · rw [if_pos hoffering] at h
    split_ifs at h with hwaiting
    · obtain ⟨rfl, rfl⟩ := Prod.mk.inj (pure_ok.mp h)
      exact .waits hoffering hwaiting
    · obtain ⟨swept, hsweep, hsearch⟩ := bind_ok.mp h
      rw [Bool.not_eq_true] at hwaiting
      exact .sweeps hoffering hwaiting hsweep hsearch
  · rw [if_neg hoffering] at h
    exact .searches hoffering h

/-- The courses of a pass. -/
inductive Passes (db : Db) (env : Env) (requestId : RequestId) (choices : PassChoices) :
    List Effect → Db → Prop
  | idle (hidle : ∀ request, db.requests.lookup requestId = some request →
        request.status.isOpen = false) :
      Passes db env requestId choices [] db
  | expires {request : Request} {db' : Db} {effects : List Effect}
      (hr : db.requests.lookup requestId = some request)
      (hopen : request.status.isOpen = true) (hexpired : request.expiresAt ≤ env.now)
      (hexpire : db.expireRequest env requestId request = .ok (effects, db')) :
      Passes db env requestId choices effects db'
  | defers {request : Request} (hr : db.requests.lookup requestId = some request)
      (hopen : request.status.isOpen = true) (hunexpired : env.now < request.expiresAt)
      (hdeferred : ∀ event, db.events.lookup request.eventId = some event →
        event.status = .active → event.matchingPaused = true) :
      Passes db env requestId choices [.matchJob requestId pausedRetryDelayMs] db
  | resumes {request : Request} {event : Event} {db' : Db} {effects : List Effect}
      (hr : db.requests.lookup requestId = some request)
      (hopen : request.status.isOpen = true) (hunexpired : env.now < request.expiresAt)
      (hevent : db.events.lookup request.eventId = some event)
      (hactive : event.status = .active) (hunpaused : event.matchingPaused = false)
      (hresume : db.resumeSearch env requestId request event choices = .ok (effects, db')) :
      Passes db env requestId choices effects db'

theorem runMatchPass_cases (h : db.runMatchPass env requestId choices = .ok (effects, db')) :
    Passes db env requestId choices effects db' := by
  unfold runMatchPass at h
  cases hr : db.requests.lookup requestId with
  | none =>
      simp only [hr, pure_ok, Prod.mk.injEq] at h
      obtain ⟨rfl, rfl⟩ := h
      exact .idle fun request hrequest => by cases hr.symm.trans hrequest
  | some request =>
      simp only [hr] at h
      split_ifs at h with hclosed hexpired
      · obtain ⟨rfl, rfl⟩ := Prod.mk.inj (pure_ok.mp h)
        refine .idle fun request' hrequest => ?_
        obtain rfl := Option.some.inj (hr.symm.trans hrequest)
        exact (Bool.not_eq_true' _).mp hclosed
      · exact .expires hr (by simpa using hclosed) hexpired h
      · have hopen : request.status.isOpen = true := by simpa using hclosed
        cases hevent : db.events.lookup request.eventId with
        | none =>
            simp only [hevent, pure_ok, Prod.mk.injEq] at h
            obtain ⟨rfl, rfl⟩ := h
            refine .defers hr hopen (not_le.mp hexpired) fun event hevent' => ?_
            cases hevent.symm.trans hevent'
        | some event =>
            simp only [hevent] at h
            split_ifs at h with hdeferred
            · obtain ⟨rfl, rfl⟩ := Prod.mk.inj (pure_ok.mp h)
              refine .defers hr hopen (not_le.mp hexpired) fun event' hevent' hactive => ?_
              obtain rfl := Option.some.inj (hevent.symm.trans hevent')
              exact hdeferred.resolve_left (not_not.mpr hactive)
            · rw [not_or, not_not, Bool.not_eq_true] at hdeferred
              exact .resumes hr hopen (not_le.mp hexpired) hevent hdeferred.1 hdeferred.2 h

/-- The courses of an offer timeout. -/
inductive Lapses (db : Db) (env : Env) (offerId : OfferId) : List Effect → Db → Prop
  | keeps (hkept : ∀ o, db.matchOffers.lookup offerId = some o →
        o.status = .offered → env.now < o.respondBy) :
      Lapses db env offerId [] db
  | resumes {o : MatchOffer} {r : Request} {db' : Db}
      (ho : db.matchOffers.lookup offerId = some o) (hoffered : o.status = .offered)
      (hover : o.respondBy ≤ env.now) (hr : db.requests.lookup o.requestId = some r)
      (hoffering : r.status = .offering)
      (hmove : (db.closeOffer offerId .expired env.now).transitionRequest o.requestId r.status
        .searching .system (some "offer-timeout") env.now = .ok db') :
      Lapses db env offerId [.matchJob o.requestId 0] db'
  | closes {o : MatchOffer} (ho : db.matchOffers.lookup offerId = some o)
      (hoffered : o.status = .offered) (hover : o.respondBy ≤ env.now)
      (hnone : ∀ r, db.requests.lookup o.requestId = some r → r.status ≠ .offering) :
      Lapses db env offerId [.matchJob o.requestId 0] (db.closeOffer offerId .expired env.now)

theorem expireOffer_cases {offerId : OfferId}
    (h : db.expireOffer env offerId = .ok (effects, db')) :
    Lapses db env offerId effects db' := by
  unfold expireOffer at h
  cases ho : db.matchOffers.lookup offerId with
  | none =>
      simp only [ho, pure_ok, Prod.mk.injEq] at h
      obtain ⟨rfl, rfl⟩ := h
      exact .keeps fun o ho' => by cases ho.symm.trans ho'
  | some o =>
      simp only [ho] at h
      by_cases hstale : o.status ≠ .offered ∨ env.now < o.respondBy
      · rw [if_pos hstale] at h
        obtain ⟨rfl, rfl⟩ := Prod.mk.inj (pure_ok.mp h)
        refine .keeps fun o' ho' hoffered => ?_
        obtain rfl := Option.some.inj (ho.symm.trans ho')
        exact hstale.resolve_left (not_not.mpr hoffered)
      · rw [if_neg hstale] at h
        rw [not_or, not_not, not_lt] at hstale
        cases hr : db.requests.lookup o.requestId with
        | none =>
            simp only [hr, pure_ok, Prod.mk.injEq] at h
            obtain ⟨rfl, rfl⟩ := h
            exact .closes ho hstale.1 hstale.2 fun r hr' => by cases hr.symm.trans hr'
        | some r =>
            simp only [hr] at h
            by_cases hoffering : r.status = .offering
            · rw [if_pos hoffering] at h
              simp only [bind_ok, pure_ok, Prod.mk.injEq] at h
              obtain ⟨_, hmove, rfl, rfl⟩ := h
              exact .resumes ho hstale.1 hstale.2 hr hoffering hmove
            · rw [if_neg hoffering] at h
              obtain ⟨rfl, rfl⟩ := Prod.mk.inj (pure_ok.mp h)
              refine .closes ho hstale.1 hstale.2 fun r' hr' => ?_
              exact Option.some.inj (hr.symm.trans hr') ▸ hoffering

/-! ## Steps of a pass -/

theorem expireRequest_refines (hnow : c.now = env.now)
    (hr : db.requests.lookup requestId = some request) (hopen : request.status.isOpen = true)
    (h : db.expireRequest env requestId request = .ok (effects, db')) : Refines c db db' := by
  simp only [expireRequest, bind_ok, pure_ok, Prod.mk.injEq] at h
  obtain ⟨_, h, -, rfl⟩ := h
  obtain ⟨hstep, -, -, hcategories⟩ :=
    supersedeOffers_transition hnow hr hopen (by split_ifs <;> rfl) h
  exact .step hstep hcategories

theorem createOffer_refines {w : Candidate} {offerQty : Qty} (hnow : c.now = env.now)
    (hblocks : c.dir.blocks = db.blocks)
    (hr : db.requests.lookup requestId = some request) (hsearching : request.status = .searching)
    (hwinner : db.winner env requestId request event choices = some (w, offerQty))
    (h : db.createOffer env requestId request event w offerQty = .ok (effects, db')) :
    Refines c db db' := by
  obtain ⟨⟨item, hi, howner, heligible⟩, hpos, hneed⟩ := winner_some hwinner
  simp only [candidateEligible, itemEligible, Bool.and_eq_true, decide_eq_true_eq] at heligible
  obtain ⟨⟨⟨-, hpair⟩, ⟨⟨⟨hevent, hcategory⟩, -⟩, -⟩, -⟩, -⟩ := heligible
  rw [← howner, pairEligible_iff] at hpair
  obtain ⟨hpeer, hblocked, hblocked', hasked⟩ := hpair
  obtain ⟨-, r', hr', -, -, rfl⟩ := createOffer_ok.mp h
  obtain rfl : request = r' := Option.some.inj (hr.symm.trans hr')
  have hstep := Lifecycle.createOffer (c := c) (x := db.toExchange)
    (db.matchOffers.freshKey env.uuid.matchOffer) (newOffer env requestId event w offerQty)
    request item (Table.freshKey_notMem _ _) rfl hr hsearching hi howner.symm hevent hcategory
    hpeer hasked (by rwa [hblocks]) (by rwa [hblocks]) ⟨hpos, hneed⟩
  rw [hnow] at hstep
  exact .step hstep rfl

theorem widenOrRetry_refines (hr : db.requests.lookup requestId = some request)
    (hsearching : request.status = .searching)
    (h : db.widenOrRetry requestId request event = .ok (effects, db')) : Refines c db db' := by
  rcases widenOrRetry_ok.mp h with ⟨-, r', hr', -, -, rfl⟩ | ⟨-, -, rfl⟩
  · obtain rfl : request = r' := Option.some.inj (hr.symm.trans hr')
    exact .step (.widen requestId request _ hr hsearching) rfl
  · exact .silent rfl rfl

theorem search_refines (hnow : c.now = env.now) (hblocks : c.dir.blocks = db.blocks)
    (hr : db.requests.lookup requestId = some request) (hsearching : request.status = .searching)
    (h : db.search env requestId request event choices = .ok (effects, db')) :
    Refines c db db' ∧ Quiet db db' := by
  unfold search at h
  split at h
  · rename_i w offerQty hwinner
    refine ⟨createOffer_refines hnow hblocks hr hsearching hwinner h, ?_⟩
    obtain ⟨-, r', hr', -, -, rfl⟩ := createOffer_ok.mp h
    obtain rfl : request = r' := Option.some.inj (hr.symm.trans hr')
    exact ⟨rfl, rfl, .replace hr fun _ => ⟨by rw [hsearching]; rfl, rfl⟩⟩
  · refine ⟨widenOrRetry_refines hr hsearching h, ?_⟩
    rcases widenOrRetry_ok.mp h with ⟨-, r', hr', -, -, rfl⟩ | ⟨-, -, rfl⟩
    · obtain rfl : request = r' := Option.some.inj (hr.symm.trans hr')
      exact ⟨rfl, rfl, .replace hr fun hactive => ⟨hactive, rfl⟩⟩
    · exact .of_requests rfl rfl rfl

/-- The sweep answers the one open offer of a request in offering. -/
theorem sweepOverdueOffer_step (hx : db.toExchange.Consistent) (hnow : c.now = env.now)
    (hr : db.requests.lookup requestId = some request) (hoffering : request.status = .offering)
    (h : db.sweepOverdueOffer env requestId request = .ok db') :
    Lifecycle c db.toExchange db'.toExchange ∧ Quiet db db' ∧
      db'.toDirectory = db.toDirectory ∧
      db'.requests.lookup requestId = some { request with status := .searching } := by
  obtain ⟨oid, o, ho, hrid, hoffered⟩ :
      ∃ oid o, db.openOffer requestId = some (oid, o) ∧ o.requestId = requestId ∧
        o.status = .offered := by
    obtain ⟨oid, o, ho, hrid, hoffered⟩ := hx.coupled.exists_open hr hoffering
    cases hopen : db.openOffer requestId with
    | none => exact absurd (Table.first_none.mp hopen oid o ho) (by simp [hrid, hoffered])
    | some e =>
        obtain ⟨-, hp⟩ := Table.first_some hopen
        simp only [Bool.and_eq_true, decide_eq_true_eq] at hp
        exact ⟨e.1, e.2, rfl, hp.1, hp.2⟩
  subst hrid
  have hrow := (Table.first_some ho).1
  simp only [sweepOverdueOffer, ho, closeOffer_eq hrow, transitionRequest_ok] at h
  obtain ⟨-, r', hr', -, rfl⟩ := h
  obtain rfl : request = r' := Option.some.inj (hr.symm.trans hr')
  have hstep := Lifecycle.closeOffer (c := c) oid o request .expired .system
    (some "offer-timeout") hrow hoffered (.inr rfl) hr hoffering
  rw [hnow] at hstep
  refine ⟨hstep, ⟨rfl, rfl, .replace hr fun _ => ⟨by rw [hoffering]; rfl, rfl⟩⟩, rfl, ?_⟩
  exact (Table.lookup_replace hr _ _).trans (if_pos rfl)

theorem resumeSearch_refines {caller : Option UserId} (hx : db.toExchange.Consistent)
    (hr : db.requests.lookup requestId = some request) (hopen : request.status.isOpen = true)
    (h : db.resumeSearch env requestId request event choices = .ok (effects, db')) :
    Refines (db.ctx env caller op) db db' := by
  cases resumeSearch_cases h with
  | waits _ _ => exact .silent rfl rfl
  | sweeps hoffering _ hsweep hsearch =>
      obtain ⟨hstep, hquiet, hdirectory, hr'⟩ :=
        sweepOverdueOffer_step (c := db.ctx env caller op) hx rfl hr hoffering hsweep
      obtain ⟨hsearched, hquiet'⟩ := search_refines (c := db.ctx env caller op) rfl
        (congrArg Directory.blocks hdirectory.symm) hr' rfl hsearch
      exact
        { run := .head hstep hsearched.run
          single := .inl (hquiet.trans hquiet')
          categories := fun id hid => hsearched.categories id
            ((congrArg Directory.categories hdirectory).symm ▸ hid) }
  | searches hoffering hsearch =>
      have hsearching := (searching_or_offering hopen).resolve_right hoffering
      exact (search_refines rfl rfl hr hsearching hsearch).1

theorem runMatchPass_refines {caller : Option UserId} (hx : db.toExchange.Consistent)
    (h : db.runMatchPass env requestId choices = .ok (effects, db')) :
    Refines (db.ctx env caller op) db db' := by
  cases runMatchPass_cases h with
  | idle _ => exact .silent rfl rfl
  | expires hr hopen _ hexpire => exact expireRequest_refines rfl hr hopen hexpire
  | defers _ _ _ _ => exact .silent rfl rfl
  | resumes hr hopen _ _ _ _ hresume => exact resumeSearch_refines hx hr hopen hresume

theorem expireOffer_refines {offerId : OfferId} {caller : Option UserId}
    (hx : db.toExchange.Consistent) (h : db.expireOffer env offerId = .ok (effects, db')) :
    Refines (db.ctx env caller op) db db' := by
  cases expireOffer_cases h with
  | keeps _ => exact .silent rfl rfl
  | @resumes o r _ ho hoffered _ hr hoffering hmove =>
      simp only [closeOffer_eq ho, transitionRequest_ok] at hmove
      obtain ⟨-, r', hr', -, rfl⟩ := hmove
      obtain rfl : r = r' := Option.some.inj (hr.symm.trans hr')
      exact .step (.closeOffer offerId o r .expired .system (some "offer-timeout") ho hoffered
        (.inr rfl) hr hoffering) rfl
  | closes ho hoffered _ hnone =>
      obtain ⟨r, hr, -⟩ := (hx.linked.offers offerId _ ho).request
      exact absurd (hx.coupled.offering ho hoffered hr) (hnone r hr)

end Db
end Sahay
