import Sahay.Refinement.System

/-!
# Admission to the matching pool

A requester puts a request into searching by creating, renewing or continuing
it.  Creation checks the event, the membership and the account; renewing and
continuing check none of them.  They respect the conditions exactly when these
happen to hold.
-/

namespace Sahay

namespace Db

variable {db db' : Db} {env : Env} {rid : RequestId} {r r' : Request}

/-- The event is active and matching, the owner is a member in good standing and
their account may request. -/
def admissible (db : Db) (now : Time) (r : Request) : Bool :=
  let matching := (db.resolveEvent r.eventId).any fun event =>
    event.status = .active && !event.matchingPaused
  let member := (db.getMembership r.eventId r.requesterId).any fun m => !m.banned
  let account := (db.users.lookup r.requesterId).any fun user =>
    user.effectiveStatus now = .active && user.canRequest
  matching && member && account

theorem admissible_congr {now : Time} (hevent : r'.eventId = r.eventId)
    (howner : r'.requesterId = r.requesterId) : db.admissible now r' = db.admissible now r := by
  rw [admissible, admissible, hevent, howner]

def asksToSearch : Op → Bool
  | .createRequest .. | .renewRequest .. => true
  | .continueRequest _ _ continueSearching => continueSearching
  | _ => false

/-- The request is in searching after the step and was not before. -/
structure EntersSearch (db db' : Db) (rid : RequestId) (r' : Request) : Prop where
  after : db'.requests.lookup rid = some r'
  searching : r'.status = .searching
  before : statusOf db.requests rid ≠ some .searching

/-- The step puts a request into searching that meets the conditions, or it
changes nothing. -/
def RespectsAdmission (db : Db) (i : Env × Op) : Prop :=
  (∃ rid r', EntersSearch db (db.step i) rid r' ∧ db.admissible i.1.now r' = true) ∨
    db.step i = db

/-- A call to renew or continue that the server would serve is one whose request
meets the conditions. -/
def AdmissionAssured (db : Db) (i : Env × Op) : Prop :=
  match i.2 with
  | .renewRequest token rid _ => ∀ auth r, db.authenticate i.1.now token = .ok auth →
      db.lockOwnRequest auth.userId rid = .ok r → r.status.isRenewable = true →
        db.admissible i.1.now r = true
  | .continueRequest token rid _ => ∀ auth r, db.authenticate i.1.now token = .ok auth →
      db.lockOwnRequest auth.userId rid = .ok r → r.status = .partiallyFulfilled →
        0 < r.qty - r.qtyFulfilled → db.admissible i.1.now r = true
  | _ => True

/-! ## Creation -/

theorem Prepared.admissible {token : String} {auth : AuthContext} {input : CreateRequestInput}
    {ticket : RequestTicket} (h : db.Prepared auth input ticket)
    (hauth : db.resolveAuth env.now token = some auth) :
    db.admissible env.now ticket.row = true := by
  obtain ⟨event, hevent, hactive, hmatching⟩ := h.event
  obtain ⟨membership, hmembership, hbanned⟩ := h.membership
  obtain ⟨user, huser, -, hstatus, hcanRequest⟩ := resolveAuth_some hauth
  have hcan := h.account
  rw [hstatus, hcanRequest] at hcan
  rw [Db.admissible, h.eventId, h.requesterId]
  simp [hevent, hactive, hmatching, hmembership, hbanned, huser, hcan.1, hcan.2]

theorem createRequest_respects {i : Env × Op} {token : String} {input : CreateRequestInput}
    (hop : i.2 = .createRequest token input) : db.RespectsAdmission i := by
  rcases db.step_cases i with ⟨effects, h⟩ | h
  · rw [hop] at h
    obtain ⟨auth, hauth, -, hcreate⟩ := asUser_ok h
    rcases createRequest_ok.mp hcreate with ⟨-, -, hsame⟩ | ⟨-, ticket, hprepare, -, hinsert⟩
    · exact .inr hsame.symm
    · have hp := prepareRequest_prepared hprepare
      obtain ⟨-, hexchange, -⟩ := insertRequest_ok hinsert
      have hfresh := Table.freshKey_notMem db.requests i.1.uuid.request
      refine .inl ⟨db.requests.freshKey i.1.uuid.request,
        { ticket.row with createdAt := i.1.now }, ⟨?_, hp.status, ?_⟩, ?_⟩
      · rw [hexchange, Table.lookup_put, if_pos rfl]
      · rw [statusOf, AList.lookup_eq_none.mpr hfresh]
        simp
      · exact (admissible_congr rfl rfl).trans (hp.admissible hauth)
  · exact .inr h

/-! ## Renewing and continuing -/

/-- A renewable request with sound quantities is renewed. -/
theorem renewRequest_commits (env : Env) {userId : UserId} (expiresInMinutes : ℕ)
    (hlock : db.lockOwnRequest userId rid = .ok r) (hrenewable : r.status.isRenewable = true)
    (hcheck : r.check) :
    ∃ effects db' expiresAt,
      db.renewRequest env userId rid expiresInMinutes = .ok (effects, db') ∧
        db'.requests = db.requests.replace rid (r.reopened expiresAt) := by
  have hr := (lockOwnRequest_ok.mp hlock).1
  have hcan : canTransition (some r.status) .searching = true := by
    revert hrenewable
    cases r.status <;> decide
  let expiresAt := env.now + expiresInMinutes * 60000
  refine ⟨enqueueMatching rid expiresAt env.now, db.moved rid r.status (r.reopened expiresAt)
    .searching .requester (some "renew") env.now, expiresAt, ?_, rfl⟩
  simp only [renewRequest, bind_ok, hlock, ensure_ok, transitionRequest_ok, pure_ok]
  exact ⟨r, rfl, ⟨⟩, hrenewable, _, ⟨hcan, r, hr, hcheck, rfl⟩, rfl⟩

theorem continueRequest_commits (env : Env) {userId : UserId}
    (hlock : db.lockOwnRequest userId rid = .ok r) (hpart : r.status = .partiallyFulfilled)
    (hmissing : 0 < r.qty - r.qtyFulfilled) (hcheck : r.check) :
    ∃ effects db' expiresAt, db.continueRequest env userId rid true = .ok (effects, db') ∧
      db'.requests = db.requests.replace rid (r.reopened expiresAt) := by
  have hr := (lockOwnRequest_ok.mp hlock).1
  have hcan : canTransition (some r.status) .searching = true := by
    rw [hpart]
    decide
  let expiresAt := env.now + 15 * 60000
  refine ⟨enqueueMatching rid expiresAt env.now, db.moved rid r.status (r.reopened expiresAt)
    .searching .requester (some "continue") env.now, expiresAt, ?_, rfl⟩
  simp only [continueRequest, bind_ok, hlock, ensure_ok, if_true, transitionRequest_ok, pure_ok]
  exact ⟨r, rfl, ⟨⟩, hpart, ⟨⟩, hmissing, _, ⟨hcan, r, hr, hcheck, rfl⟩, rfl⟩

theorem respects_iff_admissible {i : Env × Op} {effects : List Effect}
    (hexec : db.exec i.1 i.2 = .ok (effects, db')) (hr : db.requests.lookup rid = some r)
    (hbefore : r.status ≠ .searching) (hr' : db'.requests = db.requests.replace rid r')
    (hsearching : r'.status = .searching) (hid : r'.identity = r.identity) :
    db.RespectsAdmission i ↔ db.admissible i.1.now r = true := by
  have hrow : (db.step i).requests.lookup rid = some r' := by
    rw [step_of_ok hexec, hr', Table.lookup_replace hr, if_pos rfl]
  simp only [Request.identity, Prod.mk.injEq] at hid
  have hsame : db.admissible i.1.now r' = db.admissible i.1.now r := admissible_congr hid.1 hid.2.1
  constructor
  · rintro (⟨rid₁, r₁, henters, hadmissible⟩ | hunchanged)
    · obtain ⟨hafter, hsearching₁, hbefore₁⟩ := henters
      have hafter' := hafter
      rw [step_of_ok hexec, hr', Table.lookup_replace hr] at hafter
      split_ifs at hafter with hk
      · subst hk
        rwa [← hsame, Option.some.inj hafter]
      · rw [statusOf_some hafter, hsearching₁] at hbefore₁
        exact absurd rfl hbefore₁
    · rw [hunchanged, hr] at hrow
      exact absurd (Option.some.inj hrow ▸ hsearching) hbefore
  · intro hadmissible
    refine .inl ⟨rid, r', ⟨hrow, hsearching, ?_⟩, hsame.trans hadmissible⟩
    rw [statusOf_some hr]
    exact fun h => hbefore (Option.some.inj h)

theorem RequestStatus.ne_searching_of_isRenewable {s : RequestStatus}
    (h : s.isRenewable = true) : s ≠ .searching := by
  rintro rfl
  exact absurd h (by decide)

theorem renewRequest_respects_iff (hx : db.toExchange.Consistent) {i : Env × Op} {token : String}
    {expiresInMinutes : ℕ} (hop : i.2 = .renewRequest token rid expiresInMinutes) :
    db.RespectsAdmission i ↔ db.AdmissionAssured i := by
  rw [AdmissionAssured, hop]
  constructor
  · intro hrespects auth r hauth hlock hrenewable
    have hr := (lockOwnRequest_ok.mp hlock).1
    obtain ⟨effects, db', expiresAt, hrenew, hrequests⟩ :=
      renewRequest_commits i.1 expiresInMinutes hlock hrenewable
        (hx.fulfilled rid r hr).check
    have hexec : db.exec i.1 i.2 = .ok (effects, db') := by
      rw [hop]
      exact bind_ok.mpr ⟨auth, hauth, hrenew⟩
    exact (respects_iff_admissible hexec hr
      (RequestStatus.ne_searching_of_isRenewable hrenewable) hrequests rfl rfl).mp hrespects
  · intro hassured
    rcases db.step_cases i with ⟨effects, h⟩ | h
    · have hexec := h
      rw [hop] at h
      obtain ⟨auth, hauth, hrenew⟩ := bind_ok.mp h
      simp only [renewRequest, bind_ok, ensure_ok, transitionRequest_ok, pure_ok,
        Prod.mk.injEq] at hrenew
      obtain ⟨r, hlock, -, hrenewable, _, ⟨-, r', hr', -, rfl⟩, -, hstep⟩ := hrenew
      have hr := (lockOwnRequest_ok.mp hlock).1
      obtain rfl : r = r' := Option.some.inj (hr.symm.trans hr')
      have hrequests : (db.step i).requests =
          db.requests.replace rid (r.reopened (i.1.now + expiresInMinutes * 60000)) := by
        rw [← hstep]
        rfl
      exact (respects_iff_admissible hexec hr
        (RequestStatus.ne_searching_of_isRenewable hrenewable) hrequests rfl rfl).mpr
        (hassured auth r hauth hlock hrenewable)
    · exact .inr h

theorem continueRequest_respects_iff (hx : db.toExchange.Consistent) {i : Env × Op}
    {token : String} (hop : i.2 = .continueRequest token rid true) :
    db.RespectsAdmission i ↔ db.AdmissionAssured i := by
  rw [AdmissionAssured, hop]
  constructor
  · intro hrespects auth r hauth hlock hpart hmissing
    have hr := (lockOwnRequest_ok.mp hlock).1
    obtain ⟨effects, db', expiresAt, hcontinue, hrequests⟩ :=
      continueRequest_commits i.1 hlock hpart hmissing (hx.fulfilled rid r hr).check
    have hexec : db.exec i.1 i.2 = .ok (effects, db') := by
      rw [hop]
      exact bind_ok.mpr ⟨auth, hauth, hcontinue⟩
    exact (respects_iff_admissible hexec hr (by rw [hpart]; decide) hrequests rfl rfl).mp
      hrespects
  · intro hassured
    rcases db.step_cases i with ⟨effects, h⟩ | h
    · have hexec := h
      rw [hop] at h
      obtain ⟨auth, hauth, hcontinue⟩ := bind_ok.mp h
      simp only [continueRequest, bind_ok, ensure_ok, if_true, transitionRequest_ok, pure_ok,
        Prod.mk.injEq] at hcontinue
      obtain ⟨r, hlock, -, hpart, -, hmissing, _, ⟨-, r', hr', -, rfl⟩, -, hstep⟩ := hcontinue
      have hr := (lockOwnRequest_ok.mp hlock).1
      obtain rfl : r = r' := Option.some.inj (hr.symm.trans hr')
      have hrequests : (db.step i).requests =
          db.requests.replace rid (r.reopened (i.1.now + 15 * 60000)) := by
        rw [← hstep]
        rfl
      exact (respects_iff_admissible hexec hr (by rw [hpart]; decide) hrequests rfl rfl).mpr
        (hassured auth r hauth hlock hpart hmissing)
    · exact .inr h

/-! ## When admission is respected -/

/-- In every reached state, an operation that asks to search respects the
conditions of admission exactly when a served renewal or continuation is one of
a request that meets them. -/
theorem respectsAdmission_iff (h : db.Reached) (i : Env × Op) (hop : asksToSearch i.2 = true) :
    db.RespectsAdmission i ↔ db.AdmissionAssured i := by
  have hx := (Reached.consistent h).exchange
  cases hcall : i.2 with
  | createRequest token input =>
      rw [AdmissionAssured, hcall]
      exact iff_of_true (createRequest_respects hcall) trivial
  | renewRequest token rid expiresInMinutes => exact renewRequest_respects_iff hx hcall
  | continueRequest token rid continueSearching =>
      rw [hcall] at hop
      obtain rfl : continueSearching = true := hop
      exact continueRequest_respects_iff hx hcall
  | _ => exact absurd hop (by rw [hcall]; exact Bool.false_ne_true)

def cancelledRequest : List (Env × Op) :=
  [(SmallEvent.clock 0, .directory (SmallEvent.directory [1, 9] [9])),
   (SmallEvent.clock 1 20, .createRequest (SmallEvent.token 1)
     (SmallEvent.request SmallEvent.one "a")),
   (SmallEvent.clock 2, .cancelRequest (SmallEvent.token 1) 20)]

def renewal : Env × Op := (SmallEvent.clock 4, .renewRequest (SmallEvent.token 1) 20 15)

theorem respectsAdmission_iff_renewal :
    let db := runFrom step Db.empty cancelledRequest
    statusOf (db.step renewal).requests 20 = some .searching ∧
      (db.RespectsAdmission renewal ↔ db.AdmissionAssured renewal) :=
  ⟨by decide +kernel, respectsAdmission_iff ⟨_, rfl⟩ renewal rfl⟩

/-- The cancelled request of an event whose matching is then paused. -/
def pausedEvent : List (Env × Op) :=
  cancelledRequest ++ [(SmallEvent.clock 3, .moderate (SmallEvent.token 9)
    { action := .eventPause, targetEventId := some 1, reason := "crowding" })]

/-- The renewal in the paused event is served all the same. -/
theorem respectsAdmission_fails :
    ¬(runFrom step Db.empty pausedEvent).RespectsAdmission renewal := by
  rintro (⟨rid, r', henters, hadmissible⟩ | hunchanged)
  · have hnone : ((runFrom step Db.empty pausedEvent).step renewal).requests.count
        (fun _ r => (runFrom step Db.empty pausedEvent).admissible 4 r) = 0 := by decide +kernel
    have hnot := Table.count_eq_zero_iff.mp hnone rid r' henters.after
    exact Bool.false_ne_true (hnot.symm.trans hadmissible)
  · have hsearching : statusOf ((runFrom step Db.empty pausedEvent).step renewal).requests 20 =
        some .searching := by decide +kernel
    have hcancelled : statusOf (runFrom step Db.empty pausedEvent).requests 20 =
        some .cancelled := by decide +kernel
    rw [hunchanged, hcancelled] at hsearching
    cases hsearching

end Db
end Sahay
