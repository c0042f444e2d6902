import Sahay.Guarantees.RequestCap
import Sahay.Refinement.Accounts
import Sahay.Refinement.Jobs

/-!
# Disabled events

Disabling an event closes its open requests and with them their offers.  From then on
nobody is asked in it, so nothing is left to accept and no match is made, though
requests may still be created, renewed and continued in it.  Active matches are those
that the action has listed for its sweep.
-/

namespace Sahay

/-! ## The emptied event -/

namespace Exchange

variable (x : Exchange)

def OfferIn (o : MatchOffer) (eid : EventId) : Prop :=
  ∃ r, x.requests.lookup o.requestId = some r ∧ r.eventId = eid

/-- The event has no open offer, and no active match but for `spared` ones. -/
structure Emptied (eid : EventId) (spared : MatchId → Prop) : Prop where
  offers : ∀ oid o, x.matchOffers.lookup oid = some o → x.OfferIn o eid → o.status ≠ .offered
  matchRows : ∀ mid m, x.matchRows.lookup mid = some m → m.eventId = eid →
    m.status = .active → spared mid

variable {x} {x' : Exchange} {eid : EventId} {spared : MatchId → Prop}

theorem OfferIn.before {o o' : MatchOffer} {r : Request} (hk : x.Keeps x')
    (hr : x.requests.lookup o.requestId = some r) (hrid : o.requestId = o'.requestId)
    (h : x'.OfferIn o' eid) : x.OfferIn o eid := by
  obtain ⟨r', hr', hin⟩ := h
  obtain ⟨r₁, hr₁, hid⟩ := hk.requests _ r hr
  rw [hrid] at hr₁
  obtain rfl := Option.some.inj (hr'.symm.trans hr₁)
  simp only [Request.identity, Prod.mk.injEq] at hid
  exact ⟨r, hr, hid.1.symm.trans hin⟩

theorem Emptied.no_accept {c : Ctx} (h : x.Emptied eid spared) {mid : MatchId} {m : Match}
    {oid : OfferId} {o : MatchOffer} {r : Request} (haccepted : Accepted c x x' mid m oid o r) :
    m.eventId ≠ eid := by
  intro hin
  rw [haccepted.opens.eventId] at hin
  exact h.offers oid o haccepted.offer ⟨r, haccepted.request, hin⟩ haccepted.offered

theorem Emptied.of_tables (h : x.Emptied eid spared) (hrequests : x'.requests = x.requests)
    (hoffers : x'.matchOffers = x.matchOffers) (hmatches : x'.matchRows = x.matchRows) :
    x'.Emptied eid spared := by
  refine ⟨fun oid o ho hin => ?_, fun mid m hm => h.matchRows mid m (hmatches ▸ hm)⟩
  obtain ⟨r, hr, hin⟩ := hin
  exact h.offers oid o (hoffers ▸ ho) ⟨r, hrequests ▸ hr, hin⟩

theorem Emptied.insert (hl : x.Linked) (h : x.Emptied eid spared) {rid : RequestId}
    (hfresh : rid ∉ x.requests) {r : Request} (hrequests : x'.requests = x.requests.put rid r)
    (hoffers : x'.matchOffers = x.matchOffers) (hmatches : x'.matchRows = x.matchRows) :
    x'.Emptied eid spared := by
  refine ⟨fun oid o ho hin => ?_, fun mid m hm => h.matchRows mid m (hmatches ▸ hm)⟩
  rw [hoffers] at ho
  obtain ⟨r₀, hr₀, -⟩ := (hl.offers oid o ho).request
  obtain ⟨r', hr', hin⟩ := hin
  rw [hrequests, Table.lookup_put, if_neg] at hr'
  · exact h.offers oid o ho ⟨r', hr', hin⟩
  · rintro rfl
    exact hfresh (Table.mem_iff_exists.mpr ⟨r₀, hr₀⟩)

end Exchange

def Db.Disabled (db : Db) (eid : EventId) : Prop :=
  ∃ event, db.events.lookup eid = some event ∧ event.status = .disabled

/-! ## Disabling -/

namespace Db

variable {db db' : Db} {env : Env} {effects : List Effect} {eid : EventId}

/-- After the loop over some requests, whatever is open is what it was before and is none
of them. -/
theorem closeOpenRequests_open {target : RequestStatus} {actor : TransitionActor}
    {reason : String} {ids : List RequestId} (htarget : target.isOpen = false)
    (h : closeOpenRequests env target actor reason ids db = .ok db') {rid : RequestId}
    {r' : Request} (hr' : db'.requests.lookup rid = some r') (hopen : r'.status.isOpen = true) :
    rid ∉ ids ∧ db.requests.lookup rid = some r' := by
  induction ids generalizing db with
  | nil =>
      obtain rfl := pure_ok.mp h
      exact ⟨List.not_mem_nil, hr'⟩
  | cons id ids ih =>
      simp only [closeOpenRequests, closeOpenRequest, bind_ok, transitionRequest_ok] at h
      obtain ⟨_, ⟨request, -, -, r, hr, -, rfl⟩, hrest⟩ := h
      obtain ⟨hnot, hmid⟩ := ih hrest
      have hreplaced := (Table.lookup_replace hr _ _).symm.trans hmid
      split_ifs at hreplaced with hk
      · obtain rfl := Option.some.inj hreplaced
        rw [htarget] at hopen
        cases hopen
      · exact ⟨fun hmem => (List.mem_cons.mp hmem).elim hk hnot, hreplaced⟩

/-- What disabling has done to the event when it commits. -/
theorem disableEvent_empties {actorId : UserId} {input : AdminModerateInput}
    (htarget : input.targetEventId = some eid)
    (h : db.disableEvent env actorId input = .ok (effects, db')) :
    (∀ rid r, db'.requests.lookup rid = some r → r.eventId = eid → r.status.isOpen = false) ∧
      ∀ mid m, db'.matchRows.lookup mid = some m → m.eventId = eid → m.status = .active →
        Effect.cancelMatchForModeration mid "event_disabled" ∈ effects := by
  simp only [disableEvent, bind_ok, requireEvent_ok, pure_ok, Prod.mk.injEq] at h
  obtain ⟨eventId, ⟨htarget', event, hevent⟩, mid, hclose, rfl, rfl⟩ := h
  obtain rfl := Option.some.inj (htarget.symm.trans htarget')
  constructor
  · intro rid r hr hin
    by_contra hopen
    rw [Bool.not_eq_false] at hopen
    obtain ⟨hnot, hbefore⟩ := closeOpenRequests_open rfl hclose hr hopen
    exact hnot (Env.mem_selectIds.mpr ⟨r, hbefore, by simp [hin, hopen]⟩)
  · intro mid m hm hin hactive
    exact List.mem_map.mpr ⟨mid, Env.mem_selectIds.mpr ⟨m, hm, by simp [hin, hactive]⟩, rfl⟩

/-- Of a consistent database the event without open requests is emptied. -/
theorem emptied_of_disableEvent {actorId : UserId} {input : AdminModerateInput}
    (hx' : db'.toExchange.Consistent) (htarget : input.targetEventId = some eid)
    (h : db.disableEvent env actorId input = .ok (effects, db')) :
    db'.toExchange.Emptied eid fun mid =>
      Effect.cancelMatchForModeration mid "event_disabled" ∈ effects := by
  obtain ⟨hrequests, hmatches⟩ := disableEvent_empties htarget h
  refine ⟨fun oid o ho hin hoffered => ?_, hmatches⟩
  obtain ⟨r, hr, hevent⟩ := hin
  have hopen := hrequests _ r hr hevent
  rw [hx'.coupled.offering ho hoffered hr] at hopen
  cases hopen

/-! ## One operation -/

def LeavesEvent (db : Db) (eid : EventId) (op : Op) : Prop :=
  ∀ dir, op = .directory dir → dir.events.lookup eid = db.events.lookup eid

theorem Disabled.of_lookup (h : db.Disabled eid)
    (hevents : db'.events.lookup eid = db.events.lookup eid) : db'.Disabled eid := by
  obtain ⟨event, hevent, hdisabled⟩ := h
  exact ⟨event, hevents.trans hevent, hdisabled⟩

theorem onEvent_disabled (input : AdminModerateInput) {event : Event}
    (h : event.status = .disabled) : (input.onEvent event).status = .disabled := by
  unfold AdminModerateInput.onEvent
  cases input.action with
  | eventDisable => rfl
  | _ => exact h

theorem Disabled.step (h : db.Disabled eid) {i : Env × Op} (hleaves : db.LeavesEvent eid i.2) :
    (db.step i).Disabled eid := by
  obtain ⟨env, op⟩ := i
  rcases db.step_cases (env, op) with ⟨effects, hexec⟩ | hsame
  · cases op with
    | directory dir =>
        have hreplace := (silently_ok hexec).1
        simp only [replaceDirectory, bind_ok, pure_ok] at hreplace
        obtain ⟨-, -, hdb⟩ := hreplace
        exact h.of_lookup (hdb ▸ hleaves dir rfl)
    | moderate token input =>
        obtain ⟨-, -, -, hmoderates⟩ := exec_moderate hexec
        cases hmoderates with
        | onUser _ _ _ _ hevents => exact h.of_lookup (by rw [hevents])
        | other _ _ _ hevents => exact h.of_lookup (by rw [hevents])
        | onEvent hkind htarget hevent husers hevents hrecords =>
            rename_i eventId event
            by_cases hk : eid = eventId
            · subst hk
              obtain ⟨event', hevent', hdisabled⟩ := h
              obtain rfl := Option.some.inj (hevent.symm.trans hevent')
              refine ⟨input.onEvent event, ?_, onEvent_disabled input hdisabled⟩
              rw [hevents, Table.lookup_replace hevent, if_pos rfl]
            · refine h.of_lookup ?_
              rw [hevents, Table.lookup_replace hevent, if_neg hk]
    | deletionStatement userId statement =>
        obtain ⟨-, hdb⟩ := Prod.mk.inj (pure_ok.mp hexec)
        refine h.of_lookup ?_
        rw [← hdb]
        cases statement <;> rfl
    | _ => exact h.of_lookup (by rw [(exec_accounts rfl hexec).events])
  · rw [hsame]
    exact h

theorem Disabled.lifecycle (h : db.Disabled eid) (env : Env) (statement : LifecycleStatement) :
    (db.lifecycleStatement env statement).Disabled eid := by
  obtain ⟨event, hevent, hdisabled⟩ := h
  cases statement with
  | activate | complete | archive =>
      refine ⟨event, (Table.lookup_updateWhere _ _ _ _).trans ?_, hdisabled⟩
      rw [hevent, Option.map_some, if_neg]
      simp [Event.isDue, Event.isOver, Event.isPastRetention, hdisabled]
  | _ => exact ⟨event, hevent, hdisabled⟩

variable {spared : MatchId → Prop}

/-- In a disabled event a step asks nobody. -/
theorem step_asks_nobody (hx : db.toExchange.Consistent) (hdisabled : db.Disabled eid)
    (i : Env × Op) {oid : OfferId} {o : MatchOffer}
    (ho : (db.step i).matchOffers.lookup oid = some o)
    (hin : (db.step i).toExchange.OfferIn o eid) :
    db.toExchange.OldOffer oid o := by
  rcases db.step_cases i with ⟨effects, hexec⟩ | hsame
  · rcases exec_offers hx hexec ho with hold | ⟨hpass, hasks⟩
    · exact hold
    · -- A pass would have found the event active.
      exfalso
      obtain ⟨request, event, hrequest, hevent, hactive, -⟩ := hasks
      obtain ⟨r, hr, hreq⟩ := Exchange.OfferIn.before (step_keeps hx i) hrequest rfl hin
      obtain rfl := Option.some.inj (hrequest.symm.trans hr)
      obtain ⟨event', hevent', hstatus⟩ := hdisabled
      obtain rfl := Option.some.inj (hevent.symm.trans (hreq ▸ hevent'))
      rw [hstatus] at hactive
      cases hactive
  · rw [hsame] at ho
    exact Exchange.Unasked.of_eq rfl oid o ho

theorem step_emptied (hx : db.toExchange.Consistent) (hdisabled : db.Disabled eid)
    (h : db.toExchange.Emptied eid spared) (i : Env × Op) :
    (db.step i).toExchange.Emptied eid spared := by
  refine ⟨fun oid o' ho' hin hoffered => ?_, fun mid m' hm' hin hactive => ?_⟩
  · obtain ⟨o, ho, hrid, hopen⟩ := step_asks_nobody hx hdisabled i ho' hin
    obtain ⟨r, hr, -⟩ := (hx.linked.offers oid o ho).request
    exact h.offers oid o ho (.before (step_keeps hx i) hr hrid hin) (hopen hoffered).1
  · rcases step_active_before hx i with hkeeps | ⟨mid₀, m₀, oid, o, r, haccepted⟩
    · obtain ⟨m, hm, hactive, hid⟩ := hkeeps mid m' hm' hactive
      simp only [Match.identity, Prod.mk.injEq] at hid
      exact h.matchRows mid m hm (hid.2.2.1 ▸ hin) hactive
    · have hput := hm'
      rw [haccepted.put, Table.lookup_put] at hput
      split_ifs at hput with hk
      · obtain rfl := Option.some.inj hput
        exact absurd hin (h.no_accept haccepted)
      · exact h.matchRows mid m' hput hin hactive

end Db

/-! ## Runs -/

/-- What can happen around a disabled event: operations, calls of `createRequest` statement
by statement, and the statements of the lifecycle sweep. -/
inductive EventAct
  | act (act : Act)
  | lifecycle (statement : LifecycleStatement)

namespace Concurrent

variable {s : Concurrent} {i : Env × EventAct} {eid : EventId} {spared : MatchId → Prop}

def eventStep (s : Concurrent) (i : Env × EventAct) : Concurrent :=
  match i.2 with
  | .act act => s.step (i.1, act)
  | .lifecycle statement => { s with db := s.db.lifecycleStatement i.1 statement }

def LeavesEvent (eid : EventId) (s : Concurrent) (i : Env × EventAct) : Prop :=
  ∀ op, i.2 = .act (.op op) → s.db.LeavesEvent eid op

/-- The act creates neither an offer nor a match in the event. -/
structure CreatesNothingIn (eid : EventId) (s : Concurrent) (i : Env × EventAct) : Prop where
  offers : ∀ oid o, (s.eventStep i).db.matchOffers.lookup oid = some o →
    (s.eventStep i).db.toExchange.OfferIn o eid → oid ∈ s.db.matchOffers
  matchRows : ∀ mid m, (s.eventStep i).db.matchRows.lookup mid = some m → m.eventId = eid →
    mid ∈ s.db.matchRows

/-- The action that disables the event has just committed and has handed on `effects`. -/
inductive EventDisabled (eid : EventId) : List Effect → Concurrent → Prop
  | intro {s : Concurrent} {env : Env} {token : String} {input : AdminModerateInput}
      {effects : List Effect} {db : Db} (hs : Reachable eventStep {} s)
      (haction : input.action = .eventDisable) (htarget : input.targetEventId = some eid)
      (hcall : s.db.exec env (.moderate token input) = .ok (effects, db)) :
      EventDisabled eid effects { s with db := db }

def ListedBy (effects : List Effect) (mid : MatchId) : Prop :=
  Effect.cancelMatchForModeration mid "event_disabled" ∈ effects

instance (effects : List Effect) (mid : MatchId) : Decidable (ListedBy effects mid) :=
  inferInstanceAs (Decidable (_ ∈ _))

theorem eventStep_sound (hs : s.Sound) : (s.eventStep i).Sound := by
  obtain ⟨env, act | statement⟩ := i
  · exact step_sound hs
  · have hcategories : (s.db.lifecycleStatement env statement).categories = s.db.categories := by
      cases statement <;> rfl
    have hexchange := s.db.lifecycleStatement_toExchange env statement
    refine ⟨⟨?_, fun rid r hr => ?_⟩, fun id stage hstage => ?_⟩
    · exact hexchange.symm ▸ hs.consistent.exchange
    · exact hcategories.symm ▸ hs.consistent.category rid r (hexchange ▸ hr)
    · exact (hs.stages id stage hstage).mono fun id hid => hcategories.symm ▸ hid

/-- The database after a statement of `createRequest`. -/
theorem statement_cases (s : Concurrent) (env : Env) (id : ℕ) :
    (s.step (env, .statement id)).db = s.db ∨ ∃ ticket effects,
      s.db.insertRequest env ticket = .ok (effects, (s.step (env, .statement id)).db) := by
  cases hstage : s.creations.lookup id with
  | none => simp only [step, hstage, true_or]
  | some stage =>
      rcases issue_cases env s.db stage with hsame | ⟨input, ticket, effects, -, hinsert⟩
      · exact .inl (by simp only [step, hstage, hsame])
      · exact .inr ⟨ticket, effects, by simp only [step, hstage, hinsert]⟩

theorem call_db (s : Concurrent) (env : Env) (token : String) (input : CreateRequestInput) :
    (s.step (env, .call token input)).db = s.db := by
  simp only [step]
  split <;> rfl

/-- An act is an operation, or leaves offers and matches alone and inserts at most one
request. -/
theorem eventStep_cases (s : Concurrent) (i : Env × EventAct) :
    (∃ op, i.2 = .act (.op op) ∧ (s.eventStep i).db = s.db.step (i.1, op)) ∨
      (s.eventStep i).db.matchOffers = s.db.matchOffers ∧
        (s.eventStep i).db.matchRows = s.db.matchRows ∧
        ((s.eventStep i).db.requests = s.db.requests ∨ ∃ rid r, rid ∉ s.db.requests ∧
          (s.eventStep i).db.requests = s.db.requests.put rid r) := by
  have hsame (h : (s.eventStep i).db.toExchange = s.db.toExchange) :
      (s.eventStep i).db.matchOffers = s.db.matchOffers ∧
        (s.eventStep i).db.matchRows = s.db.matchRows ∧
        ((s.eventStep i).db.requests = s.db.requests ∨ ∃ rid r, rid ∉ s.db.requests ∧
          (s.eventStep i).db.requests = s.db.requests.put rid r) := by
    rw [h]
    exact ⟨rfl, rfl, .inl rfl⟩
  obtain ⟨env, act | statement⟩ := i
  · cases act with
    | op op => exact .inl ⟨op, rfl, rfl⟩
    | call token input => exact .inr (hsame (congrArg Db.toExchange (call_db s env token input)))
    | statement id =>
        rcases statement_cases s env id with hdb | ⟨ticket, effects, hinsert⟩
        · exact .inr (hsame (congrArg Db.toExchange hdb))
        · have hexchange : (s.eventStep (env, .act (.statement id))).db.toExchange = _ :=
            (Db.insertRequest_ok hinsert).2.1
          rw [hexchange]
          exact .inr ⟨rfl, rfl, .inr ⟨_, _, Table.freshKey_notMem _ _, rfl⟩⟩
  · exact .inr (hsame (s.db.lifecycleStatement_toExchange env statement))

theorem eventStep_disabled (hdisabled : s.db.Disabled eid) (hleaves : LeavesEvent eid s i) :
    (s.eventStep i).db.Disabled eid := by
  obtain ⟨env, act | statement⟩ := i
  · cases act with
    | op op => exact hdisabled.step (hleaves op rfl)
    | call token input =>
        simp only [eventStep, call_db]
        exact hdisabled
    | statement id =>
        rcases statement_cases s env id with hsame | ⟨ticket, effects, hinsert⟩
        · exact hsame.symm ▸ hdisabled
        · have hevents := (Db.insertRequest_accounts hinsert).events
          exact hdisabled.of_lookup (congrArg (fun t => t.lookup eid) hevents)
  · exact hdisabled.lifecycle env statement

/-- What holds of the event from the commit on. -/
structure Holds (eid : EventId) (spared : MatchId → Prop) (s : Concurrent) : Prop where
  sound : s.Sound
  disabled : s.db.Disabled eid
  emptied : s.db.toExchange.Emptied eid spared

theorem Holds.step (h : Holds eid spared s) (hleaves : LeavesEvent eid s i) :
    Holds eid spared (s.eventStep i) := by
  have hx := h.sound.consistent.exchange
  refine ⟨eventStep_sound h.sound, eventStep_disabled h.disabled hleaves, ?_⟩
  rcases eventStep_cases s i with ⟨op, -, hdb⟩ | ⟨hoffers, hmatches, hsame | hinsert⟩
  · rw [hdb]
    exact Db.step_emptied hx h.disabled h.emptied (i.1, op)
  · exact h.emptied.of_tables hsame hoffers hmatches
  · obtain ⟨rid, r, hfresh, hput⟩ := hinsert
    exact h.emptied.insert hx.linked hfresh hput hoffers hmatches

theorem Holds.createsNothing (h : Holds eid spared s) (i : Env × EventAct) :
    CreatesNothingIn eid s i := by
  have hx := h.sound.consistent.exchange
  rcases eventStep_cases s i with ⟨op, -, hdb⟩ | ⟨hoffers, hmatches, -⟩
  · refine ⟨fun oid o ho hin => ?_, fun mid m hm hin => ?_⟩
    · rw [hdb] at ho hin
      obtain ⟨o₀, ho₀, -⟩ := Db.step_asks_nobody hx h.disabled (i.1, op) ho hin
      exact Table.mem_iff_exists.mpr ⟨o₀, ho₀⟩
    · rw [hdb] at hm
      rcases Db.step_match_before hx (i.1, op) hm with hold | ⟨-, oid, o, r, -, haccepted⟩
      · exact hold
      · exact absurd hin (h.emptied.no_accept haccepted)
  · exact ⟨fun oid o ho _ => Table.mem_iff_exists.mpr ⟨o, hoffers ▸ ho⟩,
      fun mid m hm _ => Table.mem_iff_exists.mpr ⟨m, hmatches ▸ hm⟩⟩

theorem EventDisabled.holds {effects : List Effect} (h : EventDisabled eid effects s) :
    Holds eid (ListedBy effects) s := by
  obtain ⟨hs, haction, htarget, hcall⟩ := h
  rename_i s env token input db
  have hsound : s.Sound := Reachable.invariant (fun _ _ => eventStep_sound)
    ⟨Db.empty_consistent, fun _ _ h => by simp at h⟩ hs
  have hsound' : ({ s with db := db } : Concurrent).Sound := by
    have hstep := step_sound (i := (env, .op (.moderate token input))) hsound
    simpa only [step, Db.step_of_ok (i := (env, .moderate token input)) hcall] using hstep
  refine ⟨hsound', ?_, ?_⟩
  · obtain ⟨-, -, -, hmoderates⟩ := Db.exec_moderate hcall
    cases hmoderates with
    | onUser hkind => rw [haction] at hkind; cases hkind
    | other _ honEvent => rw [haction] at honEvent; cases honEvent
    | onEvent hkind htarget' hevent husers hevents hrecords =>
        rename_i eventId event
        obtain rfl := Option.some.inj (htarget.symm.trans htarget')
        refine ⟨input.onEvent event, ?_, ?_⟩
        · rw [hevents, Table.lookup_replace hevent, if_pos rfl]
        · simp only [AdminModerateInput.onEvent, haction]
  · obtain ⟨auth, -, hmoderate⟩ := bind_ok.mp hcall
    simp only [Db.moderate, bind_ok, haction] at hmoderate
    obtain ⟨-, -, hdisable⟩ := hmoderate
    exact Db.emptied_of_disableEvent hsound'.consistent.exchange htarget hdisable

/-- From the commit of the action on, as long as no administrator edits the event, nothing
is created in it, none of its offers is open, and its active matches are those that the
action has listed for its sweep. -/
theorem disabled_staysEmpty {effects : List Effect} (h : EventDisabled eid effects s)
    {is : List (Env × EventAct)} (hrun : Along eventStep (LeavesEvent eid) s is) :
    s.db.toExchange.Emptied eid (ListedBy effects) ∧
      Along eventStep (fun s i => CreatesNothingIn eid s i ∧
        (s.eventStep i).db.toExchange.Emptied eid (ListedBy effects)) s is :=
  ⟨h.holds.emptied, Along.strengthen (P := Holds eid (ListedBy effects))
    (fun _ _ hs hi => hs.step hi) (fun _ i hs hi => ⟨hs.createsNothing i, (hs.step hi).emptied⟩)
    h.holds hrun⟩

/-- Two matches and an open offer, and a call of user 2 that has read the event as active
and counted the requests. -/
def beforeDisabling : List (Env × EventAct) :=
  SmallEvent.twoMatches.map (fun i => (i.1, .act (.op i.2))) ++
    [(SmallEvent.clock 10 0, .act (.call (SmallEvent.token 2)
        (SmallEvent.request SmallEvent.one "d"))),
     (SmallEvent.clock 11, .act (.statement 0)),
     (SmallEvent.clock 12, .act (.statement 0)),
     (SmallEvent.clock 13, .act (.statement 0))]

def disabling : AdminModerateInput :=
  { action := .eventDisable, targetEventId := some 1, reason := "unsafe" }

/-- The call inserts its request, a pass looks for a helper, and the offer is answered. -/
def afterDisabling : List (Env × EventAct) :=
  [(SmallEvent.clock 15 24, .act (.statement 0)),
   (SmallEvent.clock 16 34, .act (.op (.runMatchPass 24 SmallEvent.choices))),
   (SmallEvent.clock 17 43, .act (.op (.acceptOffer (SmallEvent.token 2) 33 SmallEvent.draws))),
   (SmallEvent.clock 18, .lifecycle .activate)]

theorem disabled_staysEmpty_twoMatches : ∃ s effects, EventDisabled 1 effects s ∧
    ListedBy effects 41 ∧ Along eventStep (fun s i => CreatesNothingIn 1 s i ∧
      (s.eventStep i).db.toExchange.Emptied 1 (ListedBy effects)) s afterDisabling := by
  obtain ⟨⟨effects, db⟩, hcall, hlisted⟩ := exists_ok (p := fun r : List Effect × Db =>
      decide (ListedBy r.1 41))
    (show ((runFrom eventStep {} beforeDisabling).db.exec (SmallEvent.clock 14)
      (.moderate (SmallEvent.token 3) disabling)).toOption.any _ = true by decide +kernel)
  have hdisabled : EventDisabled 1 effects { runFrom eventStep {} beforeDisabling with db := db } :=
    .intro ⟨beforeDisabling, rfl⟩ rfl rfl hcall
  have hrun : Along eventStep (LeavesEvent 1)
      { runFrom eventStep {} beforeDisabling with db := db } afterDisabling := by
    refine ⟨?_, ?_, ?_, ?_, trivial⟩
    all_goals
      intro op hact dir hop
      subst hop
      cases hact
  exact ⟨_, effects, hdisabled, of_decide_eq_true hlisted, (disabled_staysEmpty hdisabled hrun).2⟩

end Concurrent
end Sahay
