import Sahay.Refinement.Matches

/-!
# The requester's operations and the sweeps refine the lifecycle

`modules/requests/service.ts`, and the loops over open requests that moderation
and account deletion run.
-/

namespace Sahay

namespace Db

variable {db db' : Db} {env : Env} {op : Op} {requestId : RequestId} {effects : List Effect}

/-! ## Creation -/

/-- What the checks before the transaction establish. -/
structure Prepared (db : Db) (auth : AuthContext) (input : CreateRequestInput)
    (ticket : RequestTicket) : Prop where
  event : ∃ event, db.resolveEvent input.eventId = some event ∧ event.status = .active ∧
    event.matchingPaused = false
  membership : ∃ membership, db.getMembership input.eventId auth.userId = some membership ∧
    membership.banned = false
  account : auth.canRequest = true ∧ auth.status = .active
  category : ticket.row.categoryId ∈ db.categories
  eventId : ticket.row.eventId = input.eventId
  requesterId : ticket.row.requesterId = auth.userId
  idempotencyKey : ticket.row.idempotencyKey = input.idempotencyKey
  status : ticket.row.status = .searching
  qtyFulfilled : ticket.row.qtyFulfilled = 0

theorem prepareRequest_prepared {auth : AuthContext} {input : CreateRequestInput}
    {ticket : RequestTicket} (h : db.prepareRequest env auth input = .ok ticket) :
    db.Prepared auth input ticket := by
  simp only [prepareRequest, bind_ok, found_ok, ensure_ok, pure_ok] at h
  obtain ⟨event, hevent, membership, hmembership, -, hbanned, -, -, -, hactive, -, hmatching, -,
    haccount, effective, heffective, -, -, -, -, -, -, rfl⟩ := h
  obtain ⟨-, hcategory⟩ := db.effectiveCategory_some heffective
  exact
    { event := ⟨event, hevent, hactive, hmatching⟩
      membership := ⟨membership, hmembership, hbanned⟩
      account := haccount
      category := Table.mem_iff_exists.mpr ⟨_, hcategory⟩
      eventId := rfl
      requesterId := rfl
      idempotencyKey := rfl
      status := rfl
      qtyFulfilled := rfl }

theorem prepareRequest_new {auth : AuthContext} {input : CreateRequestInput}
    {ticket : RequestTicket} (h : db.prepareRequest env auth input = .ok ticket) :
    ticket.row.status = .searching ∧ ticket.row.closedAt = none ∧ ticket.row.attemptCount = 0 := by
  simp only [prepareRequest, bind_ok, pure_ok] at h
  obtain ⟨-, -, -, -, -, -, -, -, -, -, -, -, -, -, -, -, -, -, -, -, -, -, rfl⟩ := h
  exact ⟨rfl, rfl, rfl⟩

theorem insertRequest_ok {ticket : RequestTicket}
    (h : db.insertRequest env ticket = .ok (effects, db')) :
    ticket.row.check ∧
      db'.toExchange = { db.toExchange with
        requests := db.requests.put (db.requests.freshKey env.uuid.request)
          { ticket.row with createdAt := env.now }
        requestTransitions := db.requestTransitions ++
          [⟨db.requests.freshKey env.uuid.request, none, .searching, .requester, some "created",
            env.now⟩] } ∧
      db'.categories = db.categories := by
  unfold insertRequest at h
  cases hcoords : ticket.coords with
  | none =>
      simp only [hcoords, bind_ok, ensure_ok, pure_ok, Prod.mk.injEq] at h
      obtain ⟨-, -, -, hcheck, -, rfl⟩ := h
      exact ⟨hcheck, rfl, rfl⟩
  | some coords =>
      simp only [hcoords, bind_ok, ensure_ok, pure_ok, Prod.mk.injEq] at h
      obtain ⟨-, -, -, hcheck, -, rfl⟩ := h
      exact ⟨hcheck, rfl, rfl⟩

theorem insertRequest_refines {ticket : RequestTicket}
    (hop : ∃ token input, op = .createRequest token input)
    (hcategory : ticket.row.categoryId ∈ db.categories) (hstatus : ticket.row.status = .searching)
    (hfulfilled : ticket.row.qtyFulfilled = 0)
    (h : db.insertRequest env ticket = .ok (effects, db')) :
    Refines (db.ctx env (some ticket.row.requesterId) op) db db' := by
  obtain ⟨hcheck, hexchange, hcategories⟩ := insertRequest_ok h
  refine .step ?_ hcategories
  rw [hexchange]
  exact .openRequest _ { ticket.row with createdAt := env.now } (Table.freshKey_notMem _ _)
    ⟨rfl, hop⟩ hcategory hstatus hcheck hfulfilled

/-- A replay creates nothing; a new request has passed its checks and the cap. -/
theorem createRequest_ok {auth : AuthContext} {input : CreateRequestInput} :
    db.createRequest env auth input = .ok (effects, db') ↔
      ((db.findByIdempotencyKey auth.userId input.idempotencyKey).isSome = true ∧
        [] = effects ∧ db = db') ∨
      (db.findByIdempotencyKey auth.userId input.idempotencyKey = none ∧
        ∃ ticket, db.prepareRequest env auth input = .ok ticket ∧
          db.countActiveRequests auth.userId < Limits.maxActiveRequestsPerUser ∧
          db.insertRequest env ticket = .ok (effects, db')) := by
  unfold createRequest
  cases hreplay : db.findByIdempotencyKey auth.userId input.idempotencyKey with
  | some row => simp [pure_ok]
  | none => simp [bind_ok, ensure_ok]

theorem createRequest_refines {auth : AuthContext} {input : CreateRequestInput}
    (hop : ∃ token input, op = .createRequest token input)
    (h : db.createRequest env auth input = .ok (effects, db')) :
    Refines (db.ctx env (some auth.userId) op) db db' := by
  rcases createRequest_ok.mp h with ⟨-, -, rfl⟩ | ⟨-, ticket, hprepare, -, hinsert⟩
  · exact .silent rfl rfl
  · have hp := prepareRequest_prepared hprepare
    rw [← hp.requesterId]
    exact insertRequest_refines hop hp.category hp.status hp.qtyFulfilled hinsert

/-! ## Ending, renewing and continuing a request -/

/-- Ending an open request, with its offers superseded. -/
theorem supersedeOffers_transition {r : Request} {target : RequestStatus}
    {actor : TransitionActor} {reason : Option String} {c : Ctx} (hnow : c.now = env.now)
    (hr : db.requests.lookup requestId = some r) (hopen : r.status.isOpen = true)
    (htarget : target.isActive = false)
    (h : (db.supersedeOffers requestId env.now).transitionRequest requestId r.status target actor
      reason env.now (fun row => { row with closedAt := some env.now }) = .ok db') :
    Lifecycle c db.toExchange db'.toExchange ∧ Quiet db db' ∧
      db'.requests = db.requests.replace requestId
        { r with status := target, closedAt := some env.now } ∧
      db'.categories = db.categories := by
  obtain ⟨hcan, r', hr', -, rfl⟩ := transitionRequest_ok.mp h
  obtain rfl : r = r' := Option.some.inj (hr.symm.trans hr')
  rw [← hnow]
  exact ⟨.closeRequest requestId r target actor reason hr hopen htarget hcan,
    ⟨rfl, rfl, .replace hr fun _ => ⟨RequestStatus.isActive_of_isOpen hopen, rfl⟩⟩, rfl, rfl⟩

theorem cancelRequest_refines {userId : UserId} {caller : Option UserId}
    (hx : db.toExchange.Consistent)
    (h : db.cancelRequest env userId requestId = .ok (effects, db')) :
    Refines (db.ctx env caller op) db db' := by
  simp only [cancelRequest, bind_ok, lockOwnRequest_ok] at h
  obtain ⟨r, ⟨hr, howner⟩, h⟩ := h
  split_ifs at h with hmatched
  · simp only [bind_ok, found_ok] at h
    obtain ⟨matchId, -, h⟩ := h
    exact cancelMatchInTx_refines hx h
  · simp only [bind_ok, ensure_ok, pure_ok, Prod.mk.injEq] at h
    obtain ⟨-, hopen, _, h, -, rfl⟩ := h
    obtain ⟨hstep, -, -, hcategories⟩ :=
      supersedeOffers_transition (c := db.ctx env caller op) rfl hr hopen rfl h
    exact .step hstep hcategories

theorem renewRequest_refines {userId : UserId} {expiresInMinutes : ℕ}
    (hop : ∃ token minutes, op = .renewRequest token requestId minutes)
    (h : db.renewRequest env userId requestId expiresInMinutes = .ok (effects, db')) :
    Refines (db.ctx env (some userId) op) db db' := by
  simp only [renewRequest, bind_ok, lockOwnRequest_ok, ensure_ok, transitionRequest_ok, pure_ok,
    Prod.mk.injEq] at h
  obtain ⟨r, ⟨hr, howner⟩, -, hrenewable, _, ⟨-, r', hr', -, rfl⟩, -, rfl⟩ := h
  obtain rfl : r = r' := Option.some.inj (hr.symm.trans hr')
  exact .step (.reopen requestId r (env.now + expiresInMinutes * 60000) "renew" hr
    ⟨congrArg some howner.symm, .inl ⟨hrenewable, hop⟩⟩) rfl

theorem continueRequest_refines {userId : UserId} {continueSearching : Bool}
    (hop : ∃ token, op = .continueRequest token requestId continueSearching)
    (h : db.continueRequest env userId requestId continueSearching = .ok (effects, db')) :
    Refines (db.ctx env (some userId) op) db db' := by
  simp only [continueRequest, bind_ok, lockOwnRequest_ok, ensure_ok] at h
  obtain ⟨r, ⟨hr, howner⟩, -, hpart, h⟩ := h
  cases continueSearching with
  | true =>
      simp only [if_true, bind_ok, ensure_ok, transitionRequest_ok, pure_ok, Prod.mk.injEq] at h
      obtain ⟨-, -, _, ⟨-, r', hr', -, rfl⟩, -, rfl⟩ := h
      obtain rfl : r = r' := Option.some.inj (hr.symm.trans hr')
      exact .step (.reopen requestId r (env.now + 15 * 60000) "continue" hr
        ⟨congrArg some howner.symm, .inr ⟨hpart, hop⟩⟩) rfl
  | false =>
      simp only [Bool.false_eq_true, if_false, bind_ok, transitionRequest_ok, pure_ok,
        Prod.mk.injEq] at h
      obtain ⟨_, ⟨-, r', hr', -, rfl⟩, -, rfl⟩ := h
      obtain rfl : r = r' := Option.some.inj (hr.symm.trans hr')
      refine .step (.conclude requestId r _ hr hpart ?_) rfl
      split_ifs
      · exact .inl rfl
      · exact .inr rfl

/-! ## Sweeps over open requests -/

/-- Each turn of the loop ends one request and leaves the others open. -/
theorem closeOpenRequests_run {target : RequestStatus} {actor : TransitionActor}
    {reason : String} {c : Ctx} (hnow : c.now = env.now) (htarget : target.isActive = false)
    {ids : List RequestId} (hnodup : ids.Nodup)
    (hopen : ∀ id ∈ ids, ∀ r, db.requests.lookup id = some r → r.status.isOpen = true)
    (h : closeOpenRequests env target actor reason ids db = .ok db') :
    LifecycleRun c db.toExchange db'.toExchange ∧ Quiet db db' ∧
      db'.categories = db.categories := by
  induction ids generalizing db with
  | nil =>
      obtain rfl := pure_ok.mp h
      exact ⟨.refl, .of_requests rfl rfl rfl, rfl⟩
  | cons id ids ih =>
      simp only [closeOpenRequests, closeOpenRequest, bind_ok, found_ok] at h
      obtain ⟨mid, ⟨r, hr, hmove⟩, h⟩ := h
      obtain ⟨hstep, hquiet, hrequests, hcategories⟩ :=
        supersedeOffers_transition hnow hr (hopen id List.mem_cons_self r hr) htarget hmove
      obtain ⟨hid, hnodup⟩ := List.nodup_cons.mp hnodup
      obtain ⟨hrun, hquiet', hcategories'⟩ := ih hnodup (fun id' hid' r' hr' => by
        have hne : id' ≠ id := ne_of_mem_of_not_mem hid' hid
        rw [hrequests, Table.lookup_replace hr, if_neg hne] at hr'
        exact hopen id' (List.mem_cons_of_mem _ hid') r' hr') h
      exact ⟨.head hstep hrun, hquiet.trans hquiet', hcategories'.trans hcategories⟩

theorem closeOpenRequests_refines {target : RequestStatus} {actor : TransitionActor}
    {reason : String} {c : Ctx} (hnow : c.now = env.now) (htarget : target.isActive = false)
    {p : RequestId → Request → Bool} (hp : ∀ id r, p id r = true → r.status.isOpen = true)
    (h : closeOpenRequests env target actor reason (env.selectIds db.requests p) db = .ok db') :
    Refines c db db' := by
  have hnodup : (env.selectIds db.requests p).Nodup :=
    (env.scan.perm _).nodup_iff.mpr (Table.nodup_select _ _)
  obtain ⟨hrun, hquiet, hcategories⟩ := closeOpenRequests_run hnow htarget hnodup
    (fun id hid r hr => by
      obtain ⟨r', hr', hpr⟩ := Env.mem_selectIds.mp hid
      obtain rfl : r' = r := Option.some.inj (hr'.symm.trans hr)
      exact hp id _ hpr) h
  exact ⟨hrun, .inl hquiet, fun _ hid => hcategories ▸ hid⟩

end Db
end Sahay
