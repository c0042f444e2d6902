import Sahay.Refinement.Accounts
import Sahay.Refinement.Jobs

/-!
# Emergency shutdown

The shutdown pauses the events that are active at that instant.  An event that is still
scheduled is not paused, and the lifecycle sweep activates it when its time comes; then
matching passes create offers in it.  As long as no such event becomes active, nobody is
asked in any event that existed at the shutdown.
-/

namespace Sahay

namespace Backend

variable {lib : TextLib} {b : Backend} {events : Table EventId Event}

/-- No event of `events` is active without being paused. -/
def Halted (events : Table EventId Event) (db : Db) : Prop :=
  ∀ eid ∈ events, ∀ event, db.events.lookup eid = some event → event.status = .active →
    event.matchingPaused = true

/-- The act is no administrator's or moderator's action on an event of `events`. -/
def LeavesEvents (events : Table EventId Event) (b : Backend) (i : Env × BackendAct) : Prop :=
  match i.2 with
  | .op (.directory dir) => ∀ eid ∈ events, dir.events.lookup eid = b.events.lookup eid
  | .op (.moderate _ input) => input.action.isOnEvent = false
  | _ => True

/-- The sweep does not activate an event of `events` that is not paused. -/
def ActivatesPausedOnly (events : Table EventId Event) (b : Backend) (i : Env × BackendAct) :
    Prop :=
  match i.2 with
  | .lifecycle .activate => ∀ eid ∈ events, ∀ event, b.events.lookup eid = some event →
      event.isDue i.1.now = true → event.matchingPaused = true
  | _ => True

/-- If the act is a matching pass, it creates no offer in an event of `events`. -/
def AsksNobodyIn (lib : TextLib) (events : Table EventId Event) (b : Backend)
    (i : Env × BackendAct) : Prop :=
  match i.2 with
  | .op (.runMatchPass ..) => ∀ oid o, (b.step lib i).matchOffers.lookup oid = some o →
      oid ∉ b.matchOffers → ∀ r ∈ b.requests.lookup o.requestId, r.eventId ∉ events
  | _ => True

/-! ## One step -/

theorem emergencyShutdown_halts (b : Backend) (env : Env) (actorId : UserId) (reason : String) :
    Halted events (b.emergencyShutdown env actorId reason).toDb := by
  intro eid _ event hevent hactive
  obtain ⟨event₀, -, rfl⟩ := Option.map_eq_some_iff.mp
    ((Table.lookup_updateWhere _ _ _ _).symm.trans hevent)
  by_cases hpaused : event₀.matchingPaused = true
  · split_ifs
    · rfl
    · exact hpaused
  · split_ifs at hactive ⊢ with hrunning
    · rfl
    · simp [hactive, hpaused] at hrunning

theorem Halted.of_events {db db' : Db} (h : Halted events db)
    (hevents : ∀ eid ∈ events, db'.events.lookup eid = db.events.lookup eid) :
    Halted events db' :=
  fun eid hmem event hevent => h eid hmem event (hevents eid hmem ▸ hevent)

theorem Halted.lifecycle {db : Db} {env : Env} (h : Halted events db)
    (statement : LifecycleStatement)
    (hactivates : statement = .activate → ∀ eid ∈ events, ∀ event,
      db.events.lookup eid = some event → event.isDue env.now = true →
        event.matchingPaused = true) :
    Halted events (db.lifecycleStatement env statement) := by
  intro eid hmem event hevent hactive
  cases statement with
  | activate | complete | archive =>
      obtain ⟨event₀, hevent₀, rfl⟩ := Option.map_eq_some_iff.mp
        ((Table.lookup_updateWhere _ _ _ _).symm.trans hevent)
      split_ifs at hactive ⊢ with hmoves
      all_goals first
        | exact hactivates rfl eid hmem event₀ hevent₀ hmoves
        | exact h eid hmem event₀ hevent₀ hactive
  | _ => exact h eid hmem event hevent hactive

theorem Halted.op {op : Op} {env : Env} (h : Halted events b.toDb)
    (hleaves : LeavesEvents events b (env, .op op)) :
    Halted events (b.step lib (env, .op op)).toDb := by
  cases op with
  | directory dir =>
      rcases b.toDb.step_cases (env, .directory dir) with ⟨effects, hexec⟩ | hsame
      · have hreplace := (Db.silently_ok hexec).1
        simp only [Db.replaceDirectory, bind_ok, pure_ok] at hreplace
        obtain ⟨-, -, hdb⟩ := hreplace
        refine h.of_events fun eid hmem => ?_
        rw [step_op, ← hdb]
        exact hleaves eid hmem
      · rw [step_op, hsame]
        exact h
  | moderate token input =>
      rcases b.toDb.step_cases (env, .moderate token input) with ⟨effects, hexec⟩ | hsame
      · obtain ⟨-, -, -, hmoderates⟩ := Db.exec_moderate hexec
        cases hmoderates with
        | onUser _ _ _ _ hevents => exact h.of_events fun eid _ => by rw [step_op, hevents]
        | onEvent hkind => exact absurd hleaves (Bool.eq_false_iff.not.mpr (not_not.mpr hkind))
        | other _ _ _ hevents => exact h.of_events fun eid _ => by rw [step_op, hevents]
      · rw [step_op, hsame]
        exact h
  | _ => exact h.of_events fun eid _ => by rw [(step_keepsAccounts rfl).events]

theorem Halted.step (h : Halted events b.toDb) {i : Env × BackendAct}
    (hleaves : LeavesEvents events b i) (hactivates : ActivatesPausedOnly events b i) :
    Halted events (b.step lib i).toDb := by
  obtain ⟨env, act⟩ := i
  cases act with
  | op op => exact h.op hleaves
  | lifecycle statement =>
      refine h.lifecycle statement ?_
      rintro rfl
      exact hactivates
  | resolveAppeal actorId appealId outcome reason =>
      refine h.of_events fun eid _ => congrArg _ ?_
      rcases b.commit_cases (b.resolveAppeal env actorId appealId outcome reason) with
        hresolve | hsame
      · obtain ⟨-, -, -, -, -, hevents, -⟩ := resolveAppeal_ok hresolve
        exact hevents
      · exact congrArg (fun b' : Backend => b'.events) hsame
  | emergencyShutdown actorId reason => exact b.emergencyShutdown_halts env actorId reason
  | _ => exact h.of_events fun eid _ => by rw [(step_keepsAccounts rfl).events]

theorem Halted.asksNobodyIn (h : Halted events b.toDb) (lib : TextLib) (i : Env × BackendAct) :
    AsksNobodyIn lib events b i := by
  obtain ⟨env, act⟩ := i
  cases act with
  | op op =>
      cases op with
      | runMatchPass requestId choices =>
          intro oid o ho hnew r hr hmem
          rcases b.toDb.step_cases (env, .runMatchPass requestId choices) with
            ⟨effects, hexec⟩ | hsame
          · rcases Db.runMatchPass_offers hexec ho with ⟨o₀, ho₀, -⟩ | ⟨hrid, hasks⟩
            · exact hnew (Table.mem_iff_exists.mpr ⟨o₀, ho₀⟩)
            · obtain ⟨request, event, hrequest, hevent, hactive, hrunning⟩ := hasks
              obtain rfl := Option.some.inj (hrequest.symm.trans (hrid ▸ hr))
              rw [h _ hmem event hevent hactive] at hrunning
              cases hrunning
          · rw [step_op, hsame] at ho
            exact hnew (Table.mem_iff_exists.mpr ⟨o, ho⟩)
      | _ => trivial
  | _ => trivial

/-! ## Runs -/

/-- As long as the sweep activates none of the events that existed at the shutdown, or
only paused ones, no matching pass creates an offer in any of them. -/
theorem asksNobody_of_activatesPausedOnly (b : Backend) (env : Env) (actorId : UserId)
    (reason : String) {is : List (Env × BackendAct)}
    (hrun : Along (step lib)
      (fun b' i => LeavesEvents b.events b' i ∧ ActivatesPausedOnly b.events b' i)
      (b.emergencyShutdown env actorId reason) is) :
    Along (step lib) (AsksNobodyIn lib b.events) (b.emergencyShutdown env actorId reason) is :=
  Along.strengthen (P := fun b' : Backend => Halted b.events b'.toDb)
    (fun _ _ hb hi => hb.step hi.1 hi.2) (fun _ i hb _ => hb.asksNobodyIn lib i)
    (b.emergencyShutdown_halts env actorId reason) hrun

/-- Event 1 has not begun. -/
def beforeStart : Backend :=
  let dir := SmallEvent.directory [1, 2, 3] [3]
  let scheduled (event : Event) : Event := { event with status := .scheduled, startsAt := 10 }
  { toDb := { toDirectory := { dir with events := dir.events.modify 1 scheduled } } }

def shutBefore : Backend := beforeStart.emergencyShutdown (SmallEvent.clock 5) 3 "threat"

/-- User 2 brings stock, the sweep looks for events to activate at the time `sweptAt`, and
user 1 asks for help. -/
def askingAfterSweep (sweptAt : Time) : List (Env × BackendAct) :=
  [(SmallEvent.clock 6 10,
      .op (.addInventory (SmallEvent.token 2) 1 (SmallEvent.item SmallEvent.two))),
   (SmallEvent.clock sweptAt, .lifecycle .activate),
   (SmallEvent.clock 11 20,
      .op (.createRequest (SmallEvent.token 1) (SmallEvent.request SmallEvent.two "a")))]

def pass : Env × BackendAct := (SmallEvent.clock 12 30, .op (.runMatchPass 20 SmallEvent.choices))

/-- The sweep comes too early to activate the event. -/
theorem asksNobody_of_activatesPausedOnly_early :
    Along (step SmallEvent.text) (AsksNobodyIn SmallEvent.text beforeStart.events) shutBefore
      (askingAfterSweep 9 ++ [pass]) := by
  have hdue : ∀ eid event,
      (runFrom (step SmallEvent.text) shutBefore ((askingAfterSweep 9).take 1)).events.lookup eid =
        some event → event.isDue 9 = true → event.matchingPaused = true := by
    refine @of_decide_eq_true _ (Table.decidableForall _ fun _ (event : Event) =>
      event.isDue 9 = true → event.matchingPaused = true) ?_
    decide +kernel
  exact asksNobody_of_activatesPausedOnly beforeStart _ _ _ ⟨⟨trivial, trivial⟩,
    ⟨trivial, fun eid _ event hevent => hdue eid event hevent⟩, ⟨trivial, trivial⟩,
    ⟨trivial, trivial⟩, trivial⟩

/-- The event begins after the shutdown, and user 2 is asked in it. -/
theorem asksNobody_fails :
    Along (step SmallEvent.text) (LeavesEvents beforeStart.events) shutBefore
      (askingAfterSweep 10 ++ [pass]) ∧
    ¬Along (step SmallEvent.text) (AsksNobodyIn SmallEvent.text beforeStart.events) shutBefore
      (askingAfterSweep 10 ++ [pass]) := by
  refine ⟨⟨trivial, trivial, trivial, trivial, trivial⟩, fun hasks => ?_⟩
  obtain ⟨-, hpass, -⟩ := Along.append.mp hasks
  obtain ⟨r, hr, hevent⟩ := (Option.any_eq_true _ _).mp
    (show ((runFrom (step SmallEvent.text) shutBefore (askingAfterSweep 10)).requests.lookup
      20).any (fun r => decide (r.eventId ∈ beforeStart.events)) = true by decide +kernel)
  obtain ⟨o, ho, hrid⟩ := (Option.any_eq_true _ _).mp
    (show ((runFrom (step SmallEvent.text) shutBefore (askingAfterSweep 10 ++ [pass])
      ).matchOffers.lookup 30).any (fun o => decide (o.requestId = 20)) = true by decide +kernel)
  have hnew : 30 ∉
      (runFrom (step SmallEvent.text) shutBefore (askingAfterSweep 10)).matchOffers := by
    decide +kernel
  rw [decide_eq_true_eq] at hevent hrid
  exact hpass 30 o ho hnew r (hrid ▸ hr) hevent

end Backend
end Sahay
