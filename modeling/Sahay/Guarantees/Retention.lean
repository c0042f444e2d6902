import Sahay.Refinement.Footprints

/-!
# Retention tasks

At one instant a task does nothing more the second time, and two tasks can change places.  Most
of them keep out of each other's way.  Two pairs write the same table: availability is switched
off by both tasks of the one, conversations are closed by one task and expired by the other.
-/

namespace Sahay
namespace Db

variable {env env' : Env} {db : Db}

/-! ## The tasks that meet -/

def chatLapsed (env : Env) (db : Db) (c : Conversation) : Bool :=
  c.status = .open && (db.matchRows.lookup c.matchId).isSome && c.expiresAt.any fun t => t < env.now

def sweptChat (env env' : Env) (db : Db) (c : Conversation) : Conversation :=
  if db.chatOver env' c then { c with status := .expired }
  else if db.chatLapsed env c then { c with status := .readonly }
  else c

theorem chatOver_closed (c : Conversation) :
    db.chatOver env' (if db.chatLapsed env c then { c with status := .readonly } else c) =
      db.chatOver env' c := by
  split_ifs with hlapsed
  · have hopen : c.status = .open := by
      simp only [chatLapsed, Bool.and_eq_true, decide_eq_true_eq] at hlapsed
      exact hlapsed.1.1
    simp [chatOver, hopen]
  · rfl

theorem close_expire (env env' : Env) (db : Db) (t : Table ConversationId Conversation) :
    ((t.updateWhere (fun _ c => db.chatLapsed env c) fun c =>
        { c with status := .readonly }).updateWhere
      (fun _ c => db.chatOver env' c) fun c => { c with status := .expired }) =
        t.mapVal fun _ c => db.sweptChat env env' c := by
  rw [Table.updateWhere, Table.updateWhere, Table.mapVal_mapVal]
  congr
  funext _ c
  rw [chatOver_closed, sweptChat]
  split_ifs <;> rfl

theorem expire_close (env env' : Env) (db : Db) (t : Table ConversationId Conversation) :
    ((t.updateWhere (fun _ c => db.chatOver env' c) fun c =>
        { c with status := .expired }).updateWhere
      (fun _ c => db.chatLapsed env c) fun c => { c with status := .readonly }) =
        t.mapVal fun _ c => db.sweptChat env env' c := by
  rw [Table.updateWhere, Table.updateWhere, Table.mapVal_mapVal]
  congr
  funext _ c
  rw [sweptChat]
  by_cases hover : db.chatOver env' c = true
  · simp [hover, chatLapsed]
  · simp [hover]

theorem expireConversations_purgeMessages (env env' : Env) (db : Db) :
    (db.retain env .expireConversations).retain env' .purgeMessages =
      (db.retain env' .purgeMessages).retain env .expireConversations := by
  apply DbPart.ext_of
  intro p
  cases p with
  | conversations => exact (close_expire env env' db _).trans (expire_close env env' db _).symm
  | messages =>
      have htarget (id : ConversationId) :
          ((db.conversations.updateWhere (fun _ c => db.chatLapsed env c) fun c =>
            { c with status := .readonly }).lookup id).any (db.chatOver env') =
              (db.conversations.lookup id).any (db.chatOver env') := by
        rw [Table.lookup_updateWhere, Option.any_map]
        congr
        funext c
        exact chatOver_closed c
      exact congrArg db.messages.deleteWhere
        (funext fun _ => funext fun msg => htarget msg.conversationId)
  | _ => rfl

/-- Helping-now is switched off where the condition on the key and the chosen end holds. -/
def switchOffWhere (now : Time) (t : Table (UserId × EventId) Availability)
    (p : UserId × EventId → Option Time → Bool) : Table (UserId × EventId) Availability :=
  t.updateWhere (fun key a => a.isOn && p key a.until) fun a =>
    { a with isOn := false, updatedAt := now }

theorem switchOffWhere_switchOffWhere (now : Time) (t : Table (UserId × EventId) Availability)
    (p q : UserId × EventId → Option Time → Bool) :
    switchOffWhere now (switchOffWhere now t p) q =
      switchOffWhere now t fun key u => p key u || q key u := by
  rw [switchOffWhere, switchOffWhere, switchOffWhere, Table.updateWhere, Table.updateWhere,
    Table.mapVal_mapVal]
  congr
  funext key a
  by_cases hon : a.isOn = true <;> cases hp : p key a.until <;> simp [hon, hp]

/-- The task's conditions: the end that the helper chose, and the end of the event. -/
def availabilityOver (env : Env) (db : Db) (key : UserId × EventId) (u : Option Time) : Bool :=
  (u.any fun t => t < env.now) || (db.events.lookup key.2).any fun event => event.endsAt < env.now

theorem expireAvailability_eq (env : Env) (db : Db) :
    db.retain env .expireAvailability =
      { db with
        availability := switchOffWhere env.now db.availability (db.availabilityOver env) } := by
  have havailability := switchOffWhere_switchOffWhere env.now db.availability
    (fun _ u => u.any fun t => t < env.now)
    fun key _ => (db.events.lookup key.2).any fun event => event.endsAt < env.now
  exact congrArg (fun t => { db with availability := t }) havailability

/-- The condition of the lifecycle: some event has ended, and this one is completed. -/
def completedBy (env : Env) (db : Db) (key : UserId × EventId) (_ : Option Time) : Bool :=
  db.hasEnded env &&
    ((db.upkeepStatements env [.lifecycle .activate, .lifecycle .complete]).events.lookup
      key.2).any fun event => event.status = .completed

theorem eventLifecycle_availability (env : Env) (db : Db) :
    (db.retain env .eventLifecycle).availability =
      switchOffWhere env.now db.availability (db.completedBy env) := by
  rw [retain_eq]
  cases hended : db.hasEnded env with
  | true =>
      have hcondition : db.completedBy env = fun key _ =>
          ((db.upkeepStatements env [.lifecycle .activate, .lifecycle .complete]).events.lookup
            key.2).any fun event => event.status = .completed := by
        funext key u
        rw [completedBy, hended, Bool.true_and]
      rw [hcondition]
      rfl
  | false =>
      have hcondition : db.completedBy env = fun _ _ => false := by
        funext key u
        rw [completedBy, hended, Bool.false_and]
      rw [hcondition]
      exact (Table.updateWhere_eq_self fun _ _ _ => Bool.and_false _).symm

theorem eventLifecycle_of_availability (env : Env) (db : Db)
    (t : Table (UserId × EventId) Availability) {p : DbPart} (hp : p ≠ .availability) :
    p.of ({ db with availability := t }.retain env .eventLifecycle) =
      p.of (db.retain env .eventLifecycle) := by
  have hended : { db with availability := t }.hasEnded env = db.hasEnded env := rfl
  rw [retain_eq, retain_eq, hended]
  cases db.hasEnded env <;> cases p <;> first | rfl | exact absurd rfl hp

theorem expireAvailability_eventLifecycle (hnow : env'.now = env.now) (db : Db) :
    (db.retain env .expireAvailability).retain env' .eventLifecycle =
      (db.retain env' .eventLifecycle).retain env .expireAvailability := by
  rw [expireAvailability_eq, expireAvailability_eq]
  apply DbPart.ext_of
  intro p
  by_cases hp : p = .availability
  · subst hp
    have hdates : (db.retain env' .eventLifecycle).availabilityOver env =
        db.availabilityOver env := by
      funext key u
      have hframe := (retain_footprint env' .eventLifecycle).frame db .dates (by decide)
      exact congrArg (_ || ·) (any_of_dates (fun _ => rfl) hframe key.2)
    change (({ db with availability := _ }.retain env' .eventLifecycle).availability) =
      switchOffWhere _ _ _
    rw [eventLifecycle_availability, eventLifecycle_availability, hdates, hnow,
      switchOffWhere_switchOffWhere, switchOffWhere_switchOffWhere]
    congr
    funext key u
    exact Bool.or_comm _ _
  · rw [eventLifecycle_of_availability env' db _ hp]
    cases p <;> first | rfl | exact absurd rfl hp

/-! ## A second time -/

/-- An event once the lifecycle has moved it on. -/
def advanced (now : Time) (event : Event) : Event :=
  let event := if event.isDue now then { event with status := .active } else event
  let event := if event.isOver now then { event with status := .completed } else event
  if event.isPastRetention now then { event with status := .archived } else event

theorem advanced_rests (now : Time) (event : Event) :
    (advanced now event).isDue now = false ∧ (advanced now event).isOver now = false ∧
      (advanced now event).isPastRetention now = false := by
  simp only [advanced, Event.isDue, Event.isOver, Event.isPastRetention]
  grind

theorem eventLifecycle_events (env : Env) (db : Db) :
    (db.retain env .eventLifecycle).events =
      db.events.mapVal fun _ event => advanced env.now event := by
  have hevents : (db.retain env .eventLifecycle).events =
      ((db.events.updateWhere (fun _ event => event.isDue env.now) fun event =>
        { event with status := .active }).updateWhere (fun _ event => event.isOver env.now)
          fun event => { event with status := .completed }).updateWhere
            (fun _ event => event.isPastRetention env.now) fun event =>
              { event with status := .archived } := by
    rw [retain_eq]
    cases db.hasEnded env <;> rfl
  rw [hevents, Table.updateWhere, Table.updateWhere, Table.updateWhere, Table.mapVal_mapVal,
    Table.mapVal_mapVal]
  rfl

theorem eventLifecycle_users (env : Env) (db : Db) :
    (db.retain env .eventLifecycle).users =
      (db.users.updateWhere (fun _ user => user.suspensionLapsed env.now) fun user =>
        { user with status := .active, suspendedUntil := none }).updateWhere
          (db.flagsRestorable env.now) fun user =>
            { user with canRequest := true, canHelp := true } := by
  rw [retain_eq]
  cases db.hasEnded env <;> rfl

theorem eventLifecycle_moderationActions (env : Env) (db : Db) :
    (db.retain env .eventLifecycle).moderationActions = db.moderationActions :=
  moderationActions_congr ((retain_footprint env .eventLifecycle).frame db .others (by decide))

/-- No event is left to be moved on. -/
theorem eventLifecycle_events_rest {eventId : EventId} {event : Event}
    (h : (db.retain env .eventLifecycle).events.lookup eventId = some event) :
    event.isDue env.now = false ∧ event.isOver env.now = false ∧
      event.isPastRetention env.now = false := by
  rw [eventLifecycle_events, Table.lookup_mapVal, Option.map_eq_some_iff] at h
  obtain ⟨event, -, rfl⟩ := h
  exact advanced_rests env.now event

theorem eventLifecycle_users_rest {userId : UserId} {user : User}
    (h : (db.retain env .eventLifecycle).users.lookup userId = some user) :
    user.suspensionLapsed env.now = false ∧ db.flagsRestorable env.now userId user = false := by
  rw [eventLifecycle_users, Table.lookup_updateWhere, Table.lookup_updateWhere, Option.map_map,
    Option.map_eq_some_iff] at h
  obtain ⟨user, -, rfl⟩ := h
  simp only [Function.comp_apply, User.suspensionLapsed, flagsRestorable]
  grind

theorem eventLifecycle_again (hnow : env'.now = env.now) (db : Db) :
    (db.retain env .eventLifecycle).retain env' .eventLifecycle =
      db.retain env .eventLifecycle := by
  set d := db.retain env .eventLifecycle with hd
  have hevents {p : EventId → Event → Bool} {f : Event → Event}
      (hp : ∀ id event, d.events.lookup id = some event → p id event = false) :
      { d with events := d.events.updateWhere p f } = d := by
    rw [Table.updateWhere_eq_self hp]
  have hactivate : d.upkeepStatement env' (.lifecycle .activate) = d :=
    hevents fun _ _ h => hnow ▸ (eventLifecycle_events_rest h).1
  have hcomplete : d.upkeepStatement env' (.lifecycle .complete) = d :=
    hevents fun _ _ h => hnow ▸ (eventLifecycle_events_rest h).2.1
  have harchive : d.upkeepStatement env' (.lifecycle .archive) = d :=
    hevents fun _ _ h => hnow ▸ (eventLifecycle_events_rest h).2.2
  have hlift : d.upkeepStatement env' (.lifecycle .liftSuspensions) = d := by
    have hlapsed (id : UserId) (user : User) (h : d.users.lookup id = some user) :
        user.suspensionLapsed env'.now = false :=
      hnow ▸ (eventLifecycle_users_rest h).1
    have hnone : env'.selectIds d.users (fun _ user => user.suspensionLapsed env'.now) = [] := by
      rw [List.eq_nil_iff_forall_not_mem]
      intro id hid
      obtain ⟨user, huser, htrue⟩ := Env.mem_selectIds.1 hid
      rw [hlapsed id user huser] at htrue
      cases htrue
    simp only [upkeepStatement, lifecycleStatement, hnone, List.map_nil, List.append_nil,
      Table.updateWhere_eq_self hlapsed]
  have hrestore : d.upkeepStatement env' (.lifecycle .restoreFlags) = d := by
    have hrestorable (id : UserId) (user : User) (h : d.users.lookup id = some user) :
        d.flagsRestorable env'.now id user = false := by
      rw [flagsRestorable, hd, eventLifecycle_moderationActions, hnow]
      exact (eventLifecycle_users_rest h).2
    simp only [upkeepStatement, lifecycleStatement, Table.updateWhere_eq_self hrestorable]
  have hended : d.hasEnded env' = false := by
    have hnone : (d.events.first fun _ event => event.isOver env'.now) = none := by
      rw [Table.first_none]
      intro id event h
      exact hnow ▸ (eventLifecycle_events_rest h).2.1
    rw [hasEnded]
    change ((d.upkeepStatement env' (.lifecycle .activate)).events.first _).isSome = false
    rw [hactivate, hnone]
    rfl
  rw [retain_eq, hended, RetentionTask.statements]
  simp only [upkeepStatements, Bool.false_eq_true, if_false, List.append_nil, List.cons_append,
    List.nil_append, List.foldl_cons, List.foldl_nil, hactivate, hcomplete, harchive, hlift,
    hrestore]

theorem retain_congr (hnow : env'.now = env.now) (db : Db) {task : RetentionTask}
    (htask : task ≠ .eventLifecycle) : db.retain env' task = db.retain env task := by
  obtain ⟨now, platform, uuid, scan⟩ := env
  obtain ⟨now', platform', uuid', scan'⟩ := env'
  obtain rfl : now' = now := hnow
  cases task <;> first | rfl | exact absurd rfl htask

theorem purgeMessages_again (env : Env) (db : Db) :
    (db.retain env .purgeMessages).retain env .purgeMessages = db.retain env .purgeMessages := by
  set d := db.retain env .purgeMessages with hd
  have hdone (id : ConversationId) (c : Conversation) (h : d.conversations.lookup id = some c) :
      d.chatOver env c = false := by
    change (db.conversations.updateWhere (fun _ c => db.chatOver env c) fun c =>
      { c with status := .expired }).lookup id = some c at h
    rw [Table.lookup_updateWhere, Option.map_eq_some_iff] at h
    obtain ⟨c, -, rfl⟩ := h
    split_ifs with hover
    · rfl
    · exact Bool.eq_false_iff.2 hover
  have hmessages (id : MessageId) (msg : Message) (_ : d.messages.lookup id = some msg) :
      ((d.conversations.lookup msg.conversationId).any fun c => d.chatOver env c) = false := by
    cases hc : d.conversations.lookup msg.conversationId with
    | none => rfl
    | some c => exact hdone _ c hc
  change { d with
    messages := d.messages.deleteWhere fun _ msg =>
      (d.conversations.lookup msg.conversationId).any fun c => d.chatOver env c
    conversations := d.conversations.updateWhere (fun _ c => d.chatOver env c) fun c =>
      { c with status := .expired } } = d
  rw [Table.deleteWhere_eq_self hmessages, Table.updateWhere_eq_self hdone]

theorem anonymizeClosed_again (env : Env) (db : Db) :
    (db.retain env .anonymizeClosed).retain env .anonymizeClosed =
      db.retain env .anonymizeClosed := by
  have hrequests : ((db.retain env .anonymizeClosed).upkeepStatement env .scrubRequests) =
      db.retain env .anonymizeClosed := by
    have hscrubbed := Table.updateWhere_updateWhere_self db.requests (p := fun _ r =>
      db.isPastRetention env r.eventId && r.isSettled && (r.note.isSome || r.areaHint.isSome))
      (f := fun r => { r with note := none, areaHint := none }) fun _ _ => Bool.and_false _
    exact congrArg (fun t => { db.retain env .anonymizeClosed with requests := t }) hscrubbed
  change ((db.retain env .anonymizeClosed).upkeepStatement env .scrubRequests).upkeepStatement env
    .dropOffers = db.retain env .anonymizeClosed
  rw [hrequests]
  exact congrArg (fun t => { db.retain env .anonymizeClosed with matchOffers := t })
    (Table.deleteWhere_deleteWhere_self db.matchOffers
      ((db.upkeepStatement env .scrubRequests).offerDroppable env))

theorem retain_again (hnow : env'.now = env.now) (db : Db) (task : RetentionTask) :
    (db.retain env task).retain env' task = db.retain env task := by
  by_cases htask : task = .eventLifecycle
  · subst htask
    exact eventLifecycle_again hnow db
  rw [retain_congr hnow _ htask]
  cases task with
  | purgeLocations =>
      exact congrArg (fun t => { db with memberLocations := t })
        (Table.deleteWhere_deleteWhere_self db.memberLocations fun _ l => l.expiresAt < env.now)
  | expireAvailability =>
      have hsame : ({ db with
          availability := switchOffWhere env.now db.availability (db.availabilityOver env) } :
            Db).availabilityOver env = db.availabilityOver env := rfl
      rw [expireAvailability_eq, expireAvailability_eq, hsame, switchOffWhere_switchOffWhere]
      simp only [Bool.or_self]
  | expireConversations =>
      exact congrArg (fun t => { db with conversations := t })
        (Table.updateWhere_updateWhere_self db.conversations (p := fun _ c => db.chatLapsed env c)
          (f := fun c => { c with status := .readonly }) fun _ _ => rfl)
  | purgeMessages => exact purgeMessages_again env db
  | purgeOtpsSessions =>
      let horizon := env.now - 30 * 86400000
      exact congrArg₂ (fun t t' => { db with otpCodes := t, sessions := t' })
        (Table.deleteWhere_deleteWhere_self db.otpCodes fun _ otp =>
          otp.expiresAt < env.now - 3600000)
        (Table.deleteWhere_deleteWhere_self db.sessions fun _ s =>
          s.expiresAt < horizon || s.revokedAt.any fun t => t < horizon)
  | anonymizeClosed => exact anonymizeClosed_again env db
  | purgeNotifications =>
      exact congrArg (fun t => { db with notifications := t })
        (Table.deleteWhere_deleteWhere_self db.notifications fun _ n =>
          n.createdAt < env.now - 30 * 86400000)
  | expireRequests | expireOffers | attendanceReminders => rfl
  | eventLifecycle => exact absurd rfl htask

theorem retain_comm (hnow : env'.now = env.now) (db : Db) {task task' : RetentionTask}
    (hne : task ≠ task') :
    (db.retain env task).retain env' task' = (db.retain env' task').retain env task := by
  obtain ⟨hapart, hapart'⟩ | hmeet := RetentionTask.disjoint_or_meet hne
  · exact Footprint.commute DbPart.ext_of (retain_footprint env task)
      (retain_footprint env' task') hapart hapart' db
  · rcases hmeet with (⟨rfl, rfl⟩ | ⟨rfl, rfl⟩) | (⟨rfl, rfl⟩ | ⟨rfl, rfl⟩)
    · exact expireAvailability_eventLifecycle hnow db
    · exact expireConversations_purgeMessages env env' db
    · exact (expireAvailability_eventLifecycle hnow.symm db).symm
    · exact (expireConversations_purgeMessages env' env db).symm

/-- At one instant: a second run of a task changes nothing, two tasks can change places, and
what is kept after any number of tasks depends on which of them have run. -/
theorem retention_once_in_any_order (hnow : env'.now = env.now) (db : Db) :
    (∀ task, (db.retain env task).retain env' task = db.retain env task) ∧
      (∀ task task', task ≠ task' →
        (db.retain env task).retain env' task' = (db.retain env' task').retain env task) ∧
      ∀ tasks tasks' : List RetentionTask, (∀ task, task ∈ tasks ↔ task ∈ tasks') →
        tasks.foldl (fun db task => db.retain env task) db =
          tasks'.foldl (fun db task => db.retain env task) db := by
  refine ⟨retain_again hnow db, fun _ _ hne => retain_comm hnow db hne, fun tasks tasks' h => ?_⟩
  refine runFrom_eq_of_mem_iff (fun db task task' => ?_) (fun db => retain_again rfl db) h db
  by_cases hne : task = task'
  · rw [hne]
  · exact retain_comm rfl db hne

/-- An instant long after the event of `oneMatch`. -/
def longAfter (id : ℕ) : Env := SmallEvent.clock 100000000000 id

theorem retention_once_in_any_order_oneMatch :
    (((runFrom step empty SmallEvent.oneMatch).retain (longAfter 1) .purgeMessages).retain
        (longAfter 2) .purgeMessages =
      (runFrom step empty SmallEvent.oneMatch).retain (longAfter 1) .purgeMessages) ∧
    (((runFrom step empty SmallEvent.oneMatch).retain (longAfter 1) .purgeMessages).retain
        (longAfter 2) .eventLifecycle =
      ((runFrom step empty SmallEvent.oneMatch).retain (longAfter 2) .eventLifecycle).retain
        (longAfter 1) .purgeMessages) ∧
    ([RetentionTask.purgeMessages, .eventLifecycle, .purgeMessages].foldl
        (fun db task => db.retain (longAfter 1) task) (runFrom step empty SmallEvent.oneMatch) =
      [RetentionTask.eventLifecycle, .purgeMessages].foldl
        (fun db task => db.retain (longAfter 1) task)
          (runFrom step empty SmallEvent.oneMatch)) := by
  obtain ⟨hagain, hswap, hset⟩ := retention_once_in_any_order
    (rfl : (longAfter 2).now = (longAfter 1).now) (runFrom step empty SmallEvent.oneMatch)
  refine ⟨hagain .purgeMessages, hswap .purgeMessages .eventLifecycle (by decide), ?_⟩
  apply hset
  intro task
  cases task <;> decide

end Db
end Sahay
