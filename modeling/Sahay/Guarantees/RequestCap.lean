import Sahay.Refinement.System
import Sahay.Server.Creation

/-!
# The cap on a user's active requests

`createRequest` counts the user's active requests and refuses beyond the cap.
Two things get around it: renewing and continuing do not count, and two calls of
`createRequest` can both count before either inserts.  When every insert and
every renewal or continuation happens below the cap, it holds in every state.
-/

namespace Sahay

/-! ## One call alone -/

/-- Without interference the statements of a call do what `createRequest` does in
one step. -/
theorem CreateStage.issueAll_createRequest (env : Env) (auth : AuthContext)
    (input : CreateRequestInput) (db : Db) :
    issueAll env 4 (some (.replay auth input), db) =
      (none, match db.createRequest env auth input with
        | .ok (_, db') => db'
        | .error _ => db) := by
  unfold Db.createRequest
  by_cases hreplay : (db.findByIdempotencyKey auth.userId input.idempotencyKey).isSome
  · simp [issueAll, issue, hreplay, pure, Except.pure]
  · cases hprepare : db.prepareRequest env auth input with
    | error e => simp [issueAll, issue, hreplay, hprepare]
    | ok ticket =>
        have hrequester := (Db.prepareRequest_prepared hprepare).requesterId
        by_cases hcount :
            db.countActiveRequests auth.userId < Limits.maxActiveRequestsPerUser
        · cases hinsert : db.insertRequest env ticket <;>
            simp [issueAll, issue, hreplay, hprepare, hrequester, hcount, hinsert, ensure_pos]
        · simp [issueAll, issue, hreplay, hprepare, hrequester, hcount, ensure_neg]

/-! ## One operation -/

namespace Db

variable {db db' : Db}

/-- Nobody has more requests in the pool than `maxActiveRequestsPerUser`. -/
def RequestCapped (db : Db) : Prop :=
  ∀ userId, db.countActiveRequests userId ≤ Limits.maxActiveRequestsPerUser

theorem countActiveRequests_le (h : db.toExchange.KeepsPool db'.toExchange) (userId : UserId) :
    db'.countActiveRequests userId ≤ db.countActiveRequests userId := by
  apply Table.count_le_count
  intro rid r' hr' hp
  simp only [Bool.and_eq_true, decide_eq_true_eq] at hp ⊢
  obtain ⟨r, hr, hactive, hid⟩ := h rid r' hr' hp.2
  simp only [Request.identity, Prod.mk.injEq] at hid
  exact ⟨r, hr, hid.2.1 ▸ hp.1, hactive⟩

theorem countActiveRequests_put {rid : RequestId} {r' : Request} (hfresh : rid ∉ db.requests)
    (hput : db'.requests = db.requests.put rid r') (userId : UserId) :
    db'.countActiveRequests userId ≤
      db.countActiveRequests userId + if r'.requesterId = userId then 1 else 0 := by
  rw [countActiveRequests, hput, Table.count_put hfresh, add_comm, countActiveRequests]
  by_cases howner : r'.requesterId = userId <;> by_cases hactive : r'.status.isActive = true <;>
    simp [howner, hactive]

theorem countActiveRequests_replace {rid : RequestId} {r r' : Request}
    (hr : db.requests.lookup rid = some r) (howner : r'.requesterId = r.requesterId)
    (hput : db'.requests = db.requests.replace rid r') (userId : UserId) :
    db'.countActiveRequests userId ≤
      db.countActiveRequests userId + if r.requesterId = userId then 1 else 0 := by
  have hcount := Table.count_replace hr r' fun _ r =>
    decide (r.requesterId = userId) && r.status.isActive
  rw [howner] at hcount
  rw [countActiveRequests, hput, countActiveRequests]
  by_cases hk : r.requesterId = userId
  · simp only [hk, decide_true, Bool.true_and, if_true] at hcount ⊢
    split_ifs at hcount <;> omega
  · simp only [hk, decide_false, Bool.false_and, Bool.false_eq_true, if_false] at hcount ⊢
    omega

/-- An owner who renews or continues a request is below the cap. -/
def reopensBelowCap (db : Db) (i : Env × Op) : Bool :=
  let below (rid : RequestId) (reopens : RequestStatus → Bool) : Bool :=
    (db.callerOf i.1 i.2).all fun userId =>
      !((db.lockOwnRequest userId rid).toOption.any fun r => reopens r.status) ||
        decide (db.countActiveRequests userId < Limits.maxActiveRequestsPerUser)
  match i.2 with
  | .renewRequest _ rid _ => below rid RequestStatus.isRenewable
  | .continueRequest _ rid true => below rid fun s => s = .partiallyFulfilled
  | _ => true

theorem reopensBelowCap_reopened {i : Env × Op} {rid : RequestId} {r : Request}
    (hbelow : db.reopensBelowCap i = true) (hcaller : (db.ctxOf i.1 i.2).Reopens rid r)
    (hr : db.requests.lookup rid = some r) :
    db.countActiveRequests r.requesterId < Limits.maxActiveRequestsPerUser := by
  have hlock : db.lockOwnRequest r.requesterId rid = .ok r := lockOwnRequest_ok.mpr ⟨hr, rfl⟩
  obtain ⟨howner, hcall⟩ := hcaller
  change db.callerOf i.1 i.2 = some r.requesterId at howner
  rw [reopensBelowCap, howner] at hbelow
  rcases hcall with ⟨hrenewable, token, minutes, hop⟩ | ⟨hpart, token, hop⟩
  · change i.2 = .renewRequest token rid minutes at hop
    simpa [hop, hlock, Except.toOption, hrenewable] using hbelow
  · change i.2 = .continueRequest token rid true at hop
    simpa [hop, hlock, Except.toOption, hpart] using hbelow

theorem createRequest_below {i : Env × Op} {rid : RequestId} {r' : Request}
    (hcaller : (db.ctxOf i.1 i.2).Creates r'.requesterId) (hfresh : rid ∉ db.requests)
    (hput : (db.step i).requests = db.requests.put rid r') :
    db.countActiveRequests r'.requesterId < Limits.maxActiveRequestsPerUser := by
  have hchanged (h : db.step i = db) : False := by
    rw [h] at hput
    exact hfresh (by rw [hput]; simp)
  obtain ⟨howner, token, input, hop⟩ := hcaller
  change db.callerOf i.1 i.2 = some r'.requesterId at howner
  change i.2 = .createRequest token input at hop
  rcases db.step_cases i with ⟨effects, h⟩ | h
  · rw [hop] at h howner
    obtain ⟨auth, hauth, -, hcreate⟩ := asUser_ok h
    rw [callerOf, Op.token?, Option.bind_some, hauth] at howner
    rw [← (Option.some.inj howner : auth.userId = r'.requesterId)]
    rcases createRequest_ok.mp hcreate with ⟨-, -, hsame⟩ | ⟨-, ticket, -, hcount, -⟩
    · exact (hchanged hsame.symm).elim
    · exact hcount
  · exact (hchanged h).elim

theorem step_requestCapped {i : Env × Op} (hx : db.toExchange.Consistent)
    (hcap : db.RequestCapped) (hbelow : db.reopensBelowCap i = true) :
    (db.step i).RequestCapped := by
  intro userId
  rcases step_pool_before hx i with hkeeps | ⟨-, rid, r', -, hentered⟩
  · exact (countActiveRequests_le hkeeps userId).trans (hcap userId)
  · cases hentered with
    | created hcaller hfresh hput =>
        have hle := countActiveRequests_put hfresh hput userId
        have hone := createRequest_below hcaller hfresh hput
        have hold := hcap userId
        split_ifs at hle with howner
        · subst howner
          omega
        · omega
    | reopened r hcaller hr howner' hput =>
        have hle := countActiveRequests_replace hr howner' hput userId
        have hone := reopensBelowCap_reopened hbelow hcaller hr
        have hold := hcap userId
        split_ifs at hle with howner
        · subst howner
          omega
        · omega

end Db

/-! ## Concurrent creation -/

/-- A ticket is fit to be inserted whenever its turn comes. -/
def CreateStage.Sound (db : Db) : CreateStage → Prop
  | .count _ ticket | .insert _ ticket => ticket.row.categoryId ∈ db.categories ∧
      ticket.row.status = .searching ∧ ticket.row.qtyFulfilled = 0
  | _ => True

theorem CreateStage.Sound.mono {db db' : Db} {stage : CreateStage} (h : stage.Sound db)
    (hcategories : ∀ id ∈ db.categories, id ∈ db'.categories) : stage.Sound db' := by
  cases stage with
  | count input ticket => exact ⟨hcategories _ h.1, h.2⟩
  | insert input ticket => exact ⟨hcategories _ h.1, h.2⟩
  | _ => trivial

namespace Concurrent

variable {s : Concurrent} {i : Env × Act}

structure Sound (s : Concurrent) : Prop where
  consistent : s.db.Consistent
  stages : ∀ id stage, s.creations.lookup id = some stage → stage.Sound s.db

/-- An insert, like a renewal or a continuation, happens below the cap. -/
def entersBelowCap (s : Concurrent) (i : Env × Act) : Bool :=
  match i.2 with
  | .op op => s.db.reopensBelowCap (i.1, op)
  | .call .. => true
  | .statement id =>
      match s.creations.lookup id with
      | some (.insert _ ticket) => s.db.countActiveRequests ticket.row.requesterId <
          Limits.maxActiveRequestsPerUser
      | _ => true

theorem insertRequest_consistent {db db' : Db} {env : Env} {input : CreateRequestInput}
    {ticket : RequestTicket} {effects : List Effect} (hx : db.Consistent)
    (hstage : (CreateStage.insert input ticket).Sound db)
    (h : db.insertRequest env ticket = .ok (effects, db')) :
    db'.Consistent ∧ ∀ id ∈ db.categories, id ∈ db'.categories := by
  have hop : ∃ token input', Op.createRequest "" input = .createRequest token input' := ⟨_, _, rfl⟩
  have hrefines := Db.insertRequest_refines hop hstage.1 hstage.2.1 hstage.2.2 h
  exact ⟨hrefines.consistent hx, hrefines.categories⟩

theorem issue_cases (env : Env) (db : Db) (stage : CreateStage) :
    (stage.issue env db).2 = db ∨ ∃ input ticket effects, stage = .insert input ticket ∧
      db.insertRequest env ticket = .ok (effects, (stage.issue env db).2) := by
  cases stage with
  | replay auth input =>
      simp only [CreateStage.issue]
      split_ifs <;> exact .inl rfl
  | prepare auth input =>
      simp only [CreateStage.issue]
      cases db.prepareRequest env auth input <;> exact .inl rfl
  | count input ticket =>
      simp only [CreateStage.issue]
      split_ifs <;> exact .inl rfl
  | insert input ticket =>
      simp only [CreateStage.issue]
      cases hinsert : db.insertRequest env ticket with
      | error e => exact .inl rfl
      | ok r => exact .inr ⟨input, ticket, r.1, rfl, hinsert⟩

theorem issue_next {env : Env} {db : Db} {stage next : CreateStage} (hstage : stage.Sound db)
    (h : (stage.issue env db).1 = some next) : next.Sound db := by
  cases stage with
  | replay auth input =>
      simp only [CreateStage.issue] at h
      split_ifs at h
      exact Option.some.inj h ▸ trivial
  | prepare auth input =>
      simp only [CreateStage.issue] at h
      cases hprepare : db.prepareRequest env auth input with
      | error e =>
          rw [hprepare] at h
          cases h
      | ok ticket =>
          rw [hprepare] at h
          have hp := Db.prepareRequest_prepared hprepare
          exact Option.some.inj h ▸ ⟨hp.category, hp.status, hp.qtyFulfilled⟩
  | count input ticket =>
      simp only [CreateStage.issue] at h
      split_ifs at h
      exact Option.some.inj h ▸ hstage
  | insert input ticket =>
      simp only [CreateStage.issue] at h
      cases hinsert : db.insertRequest env ticket <;> rw [hinsert] at h <;> cases h

theorem issue_consistent (env : Env) {db : Db} {stage : CreateStage} (hx : db.Consistent)
    (hstage : stage.Sound db) :
    (stage.issue env db).2.Consistent ∧
      ∀ id ∈ db.categories, id ∈ (stage.issue env db).2.categories := by
  rcases issue_cases env db stage with h | ⟨input, ticket, effects, rfl, hinsert⟩
  · rw [h]
    exact ⟨hx, fun _ hid => hid⟩
  · exact insertRequest_consistent hx hstage hinsert

/-- Only an insert changes the counts, by one for its owner. -/
theorem issue_requestCapped {env : Env} {db : Db} {stage : CreateStage} (hcap : db.RequestCapped)
    (hbelow : ∀ input ticket, stage = .insert input ticket →
      db.countActiveRequests ticket.row.requesterId < Limits.maxActiveRequestsPerUser) :
    (stage.issue env db).2.RequestCapped := by
  rcases issue_cases env db stage with h | ⟨input, ticket, effects, hstage, hinsert⟩
  · rwa [h]
  · intro userId
    have hrequests := congrArg Exchange.requests (Db.insertRequest_ok hinsert).2.1
    have hle := Db.countActiveRequests_put (Table.freshKey_notMem _ _) hrequests userId
    have hone := hbelow input ticket hstage
    have hold := hcap userId
    simp only at hle
    split_ifs at hle with howner
    · subst howner
      omega
    · omega

theorem step_sound (hs : s.Sound) : (s.step i).Sound := by
  unfold step
  cases i.2 with
  | op op =>
      exact ⟨s.db.step_consistent _ hs.consistent, fun id stage hstage =>
        (hs.stages id stage hstage).mono (Db.step_categories hs.consistent.exchange _)⟩
  | call token input =>
      simp only
      split
      · exact ⟨hs.consistent, Table.forall_put hs.stages trivial⟩
      · exact hs
  | statement id =>
      simp only
      cases hstage : s.creations.lookup id with
      | none => exact hs
      | some stage =>
          have hsound := hs.stages id stage hstage
          obtain ⟨hconsistent, hcategories⟩ := issue_consistent i.1 hs.consistent hsound
          have hstages : ∀ id' stage', s.creations.lookup id' = some stage' →
              stage'.Sound (stage.issue i.1 s.db).2 :=
            fun id' stage' h => (hs.stages id' stage' h).mono hcategories
          refine ⟨hconsistent, ?_⟩
          simp only
          split
          · rename_i next hnext
            exact Table.forall_replace hstages ((issue_next hsound hnext).mono hcategories)
          · intro id' stage' h
            rw [Table.lookup_drop] at h
            split_ifs at h
            exact hstages id' stage' h

theorem step_requestCapped (hs : s.Sound) (hcap : s.db.RequestCapped)
    (hbelow : s.entersBelowCap i = true) : (s.step i).db.RequestCapped := by
  unfold step
  unfold entersBelowCap at hbelow
  cases hact : i.2 with
  | op op =>
      rw [hact] at hbelow
      exact Db.step_requestCapped hs.consistent.exchange hcap hbelow
  | call token input =>
      simp only
      split <;> exact hcap
  | statement id =>
      simp only
      cases hstage : s.creations.lookup id with
      | none => exact hcap
      | some stage =>
          refine issue_requestCapped hcap fun input ticket hinsert => ?_
          rw [hact] at hbelow
          simpa [hstage, hinsert] using hbelow

/-! ## Runs -/

/-- In a run in which every insert, renewal and continuation happens below the
cap, nobody is ever above it. -/
theorem requestCapped_of_below {is : List (Env × Act)}
    (h : Along step (fun s i => s.entersBelowCap i = true) {} is) :
    (runFrom step {} is).db.RequestCapped := by
  refine (Along.invariant (P := fun s : Concurrent => s.Sound ∧ s.db.RequestCapped) ?_
    ⟨⟨Db.empty_consistent, fun _ _ h => by simp at h⟩, fun userId => Nat.zero_le _⟩ h).2
  exact fun s i ⟨hs, hcap⟩ hbelow => ⟨step_sound hs, step_requestCapped hs hcap hbelow⟩

section Examples

open SmallEvent

/-- User 1 has the requests 21 and 22, and two calls of `createRequest` under way
that have both counted. -/
def twoCounted : List (Env × Act) :=
  [(clock 0, .op (.directory (directory [1] []))),
   (clock 1 21, .op (.createRequest (token 1) (request one "a"))),
   (clock 2 22, .op (.createRequest (token 1) (request one "b"))),
   (clock 3 1, .call (token 1) (request one "c")),
   (clock 3 2, .call (token 1) (request one "d")),
   (clock 4, .statement 1), (clock 4, .statement 2),
   (clock 5, .statement 1), (clock 5, .statement 2),
   (clock 6, .statement 1), (clock 6, .statement 2)]

/-- The first of the two calls inserts. -/
theorem requestCapped_of_below_insert :
    let s := runFrom step {} (twoCounted ++ [(clock 7 23, .statement 1)])
    s.db.countActiveRequests 1 = 3 ∧ s.db.RequestCapped :=
  ⟨by decide +kernel, requestCapped_of_below (by decide +kernel)⟩

def bothInsert : List (Env × Act) :=
  twoCounted ++ [(clock 7 23, .statement 1), (clock 7 24, .statement 2)]

/-- User 1 cancels a request, creates three others and renews the first. -/
def renewedFourth : List (Env × Act) :=
  [(clock 0, .op (.directory (directory [1] []))),
   (clock 1 21, .op (.createRequest (token 1) (request one "a"))),
   (clock 2, .op (.cancelRequest (token 1) 21)),
   (clock 3 22, .op (.createRequest (token 1) (request one "b"))),
   (clock 4 23, .op (.createRequest (token 1) (request one "c"))),
   (clock 5 24, .op (.createRequest (token 1) (request one "d"))),
   (clock 6, .op (.renewRequest (token 1) 21 15))]

/-- Either way user 1 ends up with four active requests. -/
theorem requestCapped_fails :
    ¬(runFrom step {} bothInsert).db.RequestCapped ∧
      ¬(runFrom step {} renewedFourth).db.RequestCapped := by
  have hboth : (runFrom step {} bothInsert).db.countActiveRequests 1 = 4 := by decide +kernel
  have hrenewed : (runFrom step {} renewedFourth).db.countActiveRequests 1 = 4 := by
    decide +kernel
  exact ⟨fun h => absurd (hboth ▸ h 1) (by decide), fun h => absurd (hrenewed ▸ h 1) (by decide)⟩

end Examples

end Concurrent
end Sahay
