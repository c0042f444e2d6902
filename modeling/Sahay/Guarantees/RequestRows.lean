import Sahay.Refinement.System

/-!
# The derived columns of a request

`closed_at`, `qty_fulfilled` and `attempt_count` are written by hand beside the status, in
five modules.  They always fit it: a request has a closing time exactly while it is closed,
a status of fulfilment says what has been received, and the attempts are the offers made.
-/

namespace Sahay

def RequestStatus.isClosed : RequestStatus → Bool
  | .fulfilled | .cancelled | .expired | .noMatch | .moderated => true
  | .searching | .offering | .matched | .partiallyFulfilled | .disputed => false

/-- The columns of a request that go with its status. -/
structure Request.Coherent (r : Request) : Prop where
  closedAt : r.closedAt.isSome = true ↔ r.status.isClosed = true
  inPart : r.status = .partiallyFulfilled → 0 < r.qtyFulfilled ∧ r.qtyFulfilled < r.qty
  fulfilled : r.status = .fulfilled → 0 < r.qtyFulfilled

def Exchange.attempts (x : Exchange) (rid : RequestId) : ℕ :=
  x.matchOffers.count fun _ o => o.requestId = rid

def Exchange.RowsCoherent (x : Exchange) : Prop :=
  ∀ rid r, x.requests.lookup rid = some r → r.Coherent ∧ r.attemptCount = x.attempts rid

/-! ## Rows -/

theorem Request.Coherent.underWay {r : Request} (hactive : r.status.isActive = true)
    (hnone : r.closedAt = none) : r.Coherent where
  closedAt := by
    have hclosed : r.status.isClosed = false := by
      revert hactive
      cases r.status <;> decide
    simp [hclosed, hnone]
  inPart h := by
    rw [h] at hactive
    cases hactive
  fulfilled h := by
    rw [h] at hactive
    cases hactive

theorem Request.Coherent.ended {r : Request} (hclosed : r.status.isClosed = true)
    (hsome : r.closedAt.isSome = true) (hfulfilled : r.status = .fulfilled → 0 < r.qtyFulfilled) :
    r.Coherent where
  closedAt := by simp [hclosed, hsome]
  inPart h := by
    rw [h] at hclosed
    cases hclosed
  fulfilled := hfulfilled

theorem Request.Coherent.closedAt_none {r : Request} (h : r.Coherent)
    (hclosed : r.status.isClosed = false) : r.closedAt = none := by
  rw [← Option.not_isSome_iff_eq_none, h.closedAt, hclosed]
  decide

theorem isClosed_of_canTransition {source target : RequestStatus} (hopen : source.isOpen = true)
    (hinactive : target.isActive = false) (hcan : canTransition (some source) target = true) :
    target.isClosed = true ∧ target ≠ .fulfilled := by
  revert hopen hinactive hcan
  cases source <;> cases target <;> decide

/-! ## Offers -/

variable {x x' : Exchange} {c : Ctx} {rid : RequestId}

theorem Exchange.attempts_replace {oid : OfferId} {o o' : MatchOffer}
    (ho : x.matchOffers.lookup oid = some o) (hrequest : o'.requestId = o.requestId)
    (rid : RequestId) :
    ((x.matchOffers.replace oid o').count fun _ o => o.requestId = rid) = x.attempts rid := by
  have hcount := Table.count_replace ho o' fun _ o => o.requestId = rid
  rw [hrequest, Nat.add_right_cancel_iff] at hcount
  exact hcount

theorem Exchange.attempts_supersede (id : RequestId) (now : Time) (rid : RequestId) :
    (x.supersede id now).attempts rid = x.attempts rid := by
  unfold Exchange.attempts Exchange.supersede Table.updateWhere Table.count
  rw [Table.sum_mapVal]
  apply Table.sum_congr
  intro oid o _
  dsimp only
  split_ifs <;> rfl

/-! ## Steps -/

theorem Exchange.RowsCoherent.move (hx : x.RowsCoherent) {r r' : Request}
    (hr : x.requests.lookup rid = some r) (hrequests : x'.requests = x.requests.replace rid r')
    (hoffers : ∀ id, x'.attempts id = x.attempts id) (hcoherent : r'.Coherent)
    (hattempts : r'.attemptCount = r.attemptCount) : x'.RowsCoherent := by
  intro id row hrow
  rw [hoffers]
  rw [hrequests, Table.lookup_replace hr] at hrow
  split_ifs at hrow with hid
  · obtain rfl := Option.some.inj hrow
    exact ⟨hcoherent, by rw [hattempts, (hx rid r hr).2, hid]⟩
  · exact hx id row hrow

theorem Lifecycle.rowsCoherent (h : Lifecycle c x x') (hx : x.Consistent) (hrows : x.RowsCoherent)
    (hold : ∀ token input, c.op ≠ .createRequest token input) : x'.RowsCoherent := by
  cases h with
  | addItem | editItems | dropItem => exact hrows
  | openRequest id r hid hcaller =>
      obtain ⟨-, token, input, hop⟩ := hcaller
      exact absurd hop (hold token input)
  | closeRequest id r target actor reason hr hopen htarget hpermitted =>
      obtain ⟨hclosed, hfulfilled⟩ := isClosed_of_canTransition hopen htarget hpermitted
      refine hrows.move hr rfl (Exchange.attempts_supersede id c.now) ?_ ?_
      · exact .ended hclosed rfl fun h => absurd h hfulfilled
      · rfl
  | createOffer oid o r item hoid hoffered hr hsearching =>
      have hnone := (hrows _ r hr).1.closedAt_none (by rw [hsearching]; rfl)
      intro id row hrow
      have hput := Table.count_put hoid o fun _ o => o.requestId = id
      change _ ∧ row.attemptCount = (x.matchOffers.put oid o).count fun _ o => o.requestId = id
      rw [hput]
      rw [Exchange.moveRequest_requests, Table.lookup_replace hr] at hrow
      split_ifs at hrow with hid
      · obtain rfl := Option.some.inj hrow
        refine ⟨.underWay rfl hnone, ?_⟩
        have hattempts := (hrows _ r hr).2
        rw [if_pos (decide_eq_true hid.symm)]
        change r.attemptCount + 1 = 1 + x.attempts id
        rw [hattempts, hid, Nat.add_comm]
      · have hother : ¬(decide (o.requestId = id) = true) := by
          rw [decide_eq_true_eq]
          exact fun heq => hid heq.symm
        rw [if_neg hother, Nat.zero_add]
        exact hrows id row hrow
  | closeOffer oid o r status actor reason ho hoffered hstatus hr hoffering =>
      have hnone := (hrows _ r hr).1.closedAt_none (by rw [hoffering]; rfl)
      refine hrows.move hr rfl (Exchange.attempts_replace ho rfl) ?_ ?_
      · exact .underWay rfl hnone
      · rfl
  | accept oid o r item mid m cid ho hoffered hcaller hr hoffering =>
      have hnone := (hrows _ r hr).1.closedAt_none (by rw [hoffering]; rfl)
      refine hrows.move hr rfl (Exchange.attempts_replace ho rfl) ?_ ?_
      · exact .underWay rfl hnone
      · rfl
  | confirm | meet => exact hrows
  | settle mid m m' r item cid conversation final disputed closeReason actor hm hactive hconfirms
      hfinal hr hmatched =>
      have hnone := (hrows _ r hr).1.closedAt_none (by rw [hmatched]; rfl)
      refine hrows.move hr rfl (fun _ => rfl) ?_ rfl
      obtain ⟨hqty, -, -⟩ := (hx.fulfilled _ r hr).check
      by_cases hcovered : r.qty ≤ r.qtyFulfilled + final
      · have hstatus : settledRequestStatus r (r.qtyFulfilled + final) = .fulfilled :=
          if_pos hcovered
        rw [hstatus, if_pos hcovered]
        exact .ended rfl rfl fun _ => hqty.trans_le hcovered
      · rw [settledRequestStatus, if_neg hcovered, if_neg hcovered, hnone]
        split_ifs with hpart
        · exact ⟨by simp [RequestStatus.isClosed], fun _ => ⟨hpart, not_le.mp hcovered⟩,
            fun h => by cases h⟩
        · exact .underWay rfl rfl
  | cancel mid m r item cid conversation conversation' canceller status closeReason reason hm
      hactive hstatus hr hmatched =>
      have hnone := (hrows _ r hr).1.closedAt_none (by rw [hmatched]; rfl)
      refine hrows.move hr rfl (fun _ => rfl) ?_ rfl
      cases canceller with
      | requester => exact .ended rfl rfl fun h => by cases h
      | moderator => exact .ended rfl rfl fun h => by cases h
      | helper => exact .underWay rfl hnone
  | reopen id r expiresAt reason hr =>
      refine hrows.move hr rfl (fun _ => rfl) ?_ ?_
      · exact .underWay rfl rfl
      · rfl
  | conclude id r target hr hstatus htarget =>
      have hpart := (hrows _ r hr).1.inPart hstatus
      refine hrows.move hr rfl (fun _ => rfl) ?_ ?_
      · rcases htarget with rfl | rfl
        · exact .ended rfl rfl fun _ => hpart.1
        · exact .ended rfl rfl fun _ => hpart.1
      · rfl
  | widen id r radius hr =>
      have hr' := (hrows _ r hr).1
      refine hrows.move hr rfl (fun _ => rfl) ?_ ?_
      · exact ⟨hr'.closedAt, hr'.inPart, hr'.fulfilled⟩
      · rfl

/-! ## Creation -/

namespace Db

variable {db db' : Db} {env : Env} {effects : List Effect}

theorem createRequest_adds {auth : AuthContext} {input : CreateRequestInput}
    (h : db.createRequest env auth input = .ok (effects, db')) :
    db'.matchOffers = db.matchOffers ∧ (db'.requests = db.requests ∨
      ∃ id row, id ∉ db.requests ∧ db'.requests = db.requests.put id row ∧
        row.status = .searching ∧ row.closedAt = none ∧ row.attemptCount = 0) := by
  rcases createRequest_ok.mp h with ⟨-, -, rfl⟩ | ⟨-, ticket, hticket, -, hinsert⟩
  · exact ⟨rfl, .inl rfl⟩
  · obtain ⟨-, hexchange, -⟩ := insertRequest_ok hinsert
    have hoffers : db'.matchOffers = db.matchOffers := by rw [hexchange]
    have hrequests : db'.requests = db.requests.put (db.requests.freshKey env.uuid.request)
        { ticket.row with createdAt := env.now } := by rw [hexchange]
    exact ⟨hoffers, .inr ⟨_, _, Table.freshKey_notMem _ _, hrequests,
      prepareRequest_new hticket⟩⟩

theorem createRequest_rowsCoherent {auth : AuthContext} {input : CreateRequestInput}
    (hx : db.toExchange.Consistent) (hrows : db.RowsCoherent)
    (h : db.createRequest env auth input = .ok (effects, db')) : db'.RowsCoherent := by
  obtain ⟨hoffers, hsame | ⟨id, row, hid, hput, hstatus, hclosedAt, hattempts⟩⟩ :=
    createRequest_adds h
  · intro rid r hr
    rw [hsame] at hr
    rw [Exchange.attempts, hoffers]
    exact hrows rid r hr
  · intro rid r hr
    rw [Exchange.attempts, hoffers]
    rw [hput, Table.lookup_put] at hr
    split_ifs at hr with hk
    · obtain rfl := Option.some.inj hr
      refine ⟨.underWay (by rw [hstatus]; rfl) hclosedAt, ?_⟩
      rw [hattempts, eq_comm, Table.count_eq_zero_iff]
      intro oid o ho
      obtain ⟨r', hr', -⟩ := (hx.linked.offers oid o ho).request
      rw [decide_eq_false_iff_not]
      intro heq
      rw [heq, hk] at hr'
      exact hid (Table.mem_iff_exists.mpr ⟨r', hr'⟩)
    · exact hrows rid r hr

/-! ## Runs -/

theorem step_rowsCoherent (hx : db.Consistent) (hrows : db.RowsCoherent) (i : Env × Op) :
    (db.step i).RowsCoherent := by
  rcases db.step_cases i with ⟨effects, h⟩ | h
  · by_cases hcreates : ∃ token input, i.2 = .createRequest token input
    · obtain ⟨token, input, hop⟩ := hcreates
      rw [hop] at h
      obtain ⟨auth, -, -, hcreate⟩ := asUser_ok h
      exact createRequest_rowsCoherent hx.exchange hrows hcreate
    · have hold (token : String) (input : CreateRequestInput) : i.2 ≠ .createRequest token input :=
        fun hop => hcreates ⟨token, input, hop⟩
      have hrun := (exec_refines hx.exchange h).run.invariant
        (P := fun x => x.Consistent ∧ x.RowsCoherent)
        (fun x x' hx hstep => ⟨hstep.consistent hx.1, hstep.rowsCoherent hx.1 hx.2 hold⟩)
        ⟨hx.exchange, hrows⟩
      exact hrun.2
  · rw [h]
    exact hrows

theorem Reached.rowsCoherent (h : db.Reached) : db.RowsCoherent := by
  have hboth := Reachable.invariant (P := fun db : Db => db.Consistent ∧ db.RowsCoherent)
    (fun db i hdb => ⟨db.step_consistent i hdb.1, step_rowsCoherent hdb.1 hdb.2 i⟩)
    ⟨empty_consistent, fun rid r hr => by simp [Db.empty] at hr⟩ h
  exact hboth.2

def offersInserted (rid : RequestId) (db : Db) (i : Env × Op) : ℕ :=
  (db.step i).matchOffers.count fun oid o => o.requestId = rid && decide (oid ∉ db.matchOffers)

theorem step_attempts (hx : db.Consistent) (rid : RequestId) (i : Env × Op) :
    (db.step i).attempts rid = db.attempts rid + offersInserted rid db i := by
  apply Table.count_of_keeps (step_keeps hx.exchange i).matchOffers
  intro o o' hid
  rw [MatchOffer.identity, MatchOffer.identity, Prod.mk.injEq] at hid
  rw [hid.1]

/-- In every reached state the columns of a request fit its status, and its attempts are the
offers that have been inserted for it. -/
theorem request_coherent (is : List (Env × Op)) {rid : RequestId} {r : Request}
    (hr : (runFrom step Db.empty is).requests.lookup rid = some r) :
    ((r.closedAt.isSome = true ↔
        r.status ∈ [.fulfilled, .cancelled, .expired, .noMatch, .moderated]) ∧
      (r.status = .partiallyFulfilled → 0 < r.qtyFulfilled ∧ r.qtyFulfilled < r.qty) ∧
      (r.status = .fulfilled → 0 < r.qtyFulfilled)) ∧
    r.attemptCount = sumSteps step (offersInserted rid) Db.empty is := by
  have hrow := Reached.rowsCoherent ⟨is, rfl⟩ rid r hr
  refine ⟨⟨hrow.1.closedAt.trans ?_, hrow.1.inPart, hrow.1.fulfilled⟩, ?_⟩
  · cases r.status <;> decide
  · have hsum := sumSteps_eq (P := Consistent) (f := fun db : Db => db.attempts rid)
      step_consistent (fun db i hdb => step_attempts hdb rid i) empty_consistent is
    calc r.attemptCount
        = (runFrom step Db.empty is).attempts rid := hrow.2
      _ = Db.empty.attempts rid + sumSteps step (offersInserted rid) Db.empty is := hsum
      _ = sumSteps step (offersInserted rid) Db.empty is := Nat.zero_add _

/-- One offer has been made for the request that is matched. -/
theorem request_coherent_oneMatch :
    ∃ r, (runFrom step Db.empty SmallEvent.oneMatch).requests.lookup 20 = some r ∧
      r.status = .matched ∧ r.attemptCount = 1 ∧
      r.attemptCount = sumSteps step (offersInserted 20) Db.empty SmallEvent.oneMatch := by
  have hany : ((runFrom step Db.empty SmallEvent.oneMatch).requests.lookup 20).any
      (fun r => decide (r.status = .matched ∧ r.attemptCount = 1)) = true := by
    decide +kernel
  obtain ⟨r, hr, hrow⟩ := (Option.any_eq_true _ _).mp hany
  have hmatched := of_decide_eq_true hrow
  exact ⟨r, hr, hmatched.1, hmatched.2, (request_coherent SmallEvent.oneMatch hr).2⟩

end Db
end Sahay
