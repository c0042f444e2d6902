import Sahay.Guarantees.Expiry

/-!
# Free text after retention

The sweep that finds an event past its retention deletes its chats and empties the notes of
its closed requests.  Requests that it cannot close keep theirs, and so do cancelled matches:
no task looks at what a participant wrote into the reason.
-/

namespace Sahay

/-! ## Notes of a cancellation -/

def cancelReasons : List String :=
  ["requester-cancel", CancelReason.changedMind.token, CancelReason.cannotFind.token,
   CancelReason.noLongerNeeded.token, CancelReason.isUnsafe.token, CancelReason.other.token]

/-- A participant has cancelled the match, and its close reason is more than the reason. -/
def Match.carriesNote (m : Match) : Bool :=
  (m.status = .cancelledByRequester || m.status = .cancelledByHelper ||
    m.status = .cancelledUnsafe) && m.closeReason.any fun reason => reason ∉ cancelReasons

theorem carriesNote_cancelled (m : Match) {opts : CancelOptions}
    (hreason : opts.reason ∈ cancelReasons) :
    Match.carriesNote { m with status := opts.matchStatus, closeReason := some opts.closeReason } =
      (opts.actor ≠ .moderator && opts.note.any fun note => note ≠ "") := by
  have hstatus : (opts.matchStatus = .cancelledByRequester ∨ opts.matchStatus = .cancelledByHelper ∨
      opts.matchStatus = .cancelledUnsafe) ↔ opts.actor ≠ .moderator := by
    unfold CancelOptions.matchStatus
    cases opts.actor <;> cases opts.isUnsafe <;> simp
  have hlonger (text : String) : opts.reason ++ ": " ++ text ∉ cancelReasons := by
    intro hmem
    have hplain : ∀ reason ∈ cancelReasons, ':' ∉ reason.toList := by decide +kernel
    apply hplain _ hmem
    rw [String.toList_append, String.toList_append]
    simp
  have hnoted : opts.closeReason ∉ cancelReasons ↔
      (opts.note.any fun note => note ≠ "") = true := by
    unfold CancelOptions.closeReason
    split
    · next hnone => simp [hnone, hreason]
    · next hempty => simp [hempty, hreason]
    · next note hne hnote =>
      have hfilled : note ≠ "" := hne
      simp [hnote, hlonger, hfilled]
  rw [Bool.eq_iff_iff]
  simp only [Match.carriesNote, Bool.and_eq_true, Bool.or_eq_true, decide_eq_true_eq,
    Option.any_some, or_assoc, hstatus, hnoted, ne_eq]

def Request.texts (r : Request) : EventId × Option String × Option String × Time :=
  (r.eventId, r.note, r.areaHint, r.expiresAt)

namespace Db

variable {db db' db'' : Db} {env : Env} {rid : RequestId} {r : Request} {effects : List Effect}
  {choices : PassChoices}

/-! ## Closing -/

def Closable (env : Env) (db : Db) (rid : RequestId) (r : Request) : Prop :=
  r.isSettled = true ∨
    r.status.isOpen = true ∧ r.expiresAt ≤ env.now ∧ (r.status = .offering → db.Offered rid)

/-- Texts stay where they are, and what was closable still is, or has been closed. -/
structure KeepsTexts (env : Env) (db db' : Db) : Prop where
  events : db'.events = db.events
  matchRows : db'.matchRows = db.matchRows
  conversations : db'.conversations = db.conversations
  messages : db'.messages = db.messages
  kept : ∀ rid r, db.requests.lookup rid = some r → ∃ r', db'.requests.lookup rid = some r' ∧
    r'.texts = r.texts ∧ (db'.Closable env rid r' ↔ db.Closable env rid r) ∧
    (r.isSettled = true → r'.isSettled = true)
  source : ∀ rid r', db'.requests.lookup rid = some r' → ∃ r, db.requests.lookup rid = some r

theorem KeepsTexts.refl (env : Env) (db : Db) : KeepsTexts env db db :=
  ⟨rfl, rfl, rfl, rfl, fun _ r hr => ⟨r, hr, rfl, Iff.rfl, id⟩, fun _ r hr => ⟨r, hr⟩⟩

theorem KeepsTexts.trans (h : KeepsTexts env db db') (h' : KeepsTexts env db' db'') :
    KeepsTexts env db db'' where
  events := h'.events.trans h.events
  matchRows := h'.matchRows.trans h.matchRows
  conversations := h'.conversations.trans h.conversations
  messages := h'.messages.trans h.messages
  kept rid r hr := by
    obtain ⟨r', hr', htexts, hclosable, hsettled⟩ := h.kept rid r hr
    obtain ⟨r'', hr'', htexts', hclosable', hsettled'⟩ := h'.kept rid r' hr'
    exact ⟨r'', hr'', htexts'.trans htexts, hclosable'.trans hclosable, hsettled' ∘ hsettled⟩
  source rid r'' hr'' := by
    obtain ⟨r', hr'⟩ := h'.source rid r'' hr''
    exact h.source rid r' hr'

theorem offered_iff_of_keeps
    (h : Table.Keeps MatchOffer.requestId db.matchOffers db'.matchOffers)
    (h' : Table.Keeps MatchOffer.requestId db'.matchOffers db.matchOffers) :
    db'.Offered rid ↔ db.Offered rid := by
  constructor
  · rintro ⟨oid, o, ho, hrid⟩
    obtain ⟨o', ho', heq⟩ := h' oid o ho
    exact ⟨oid, o', ho', heq.trans hrid⟩
  · rintro ⟨oid, o, ho, hrid⟩
    obtain ⟨o', ho', heq⟩ := h oid o ho
    exact ⟨oid, o', ho', heq.trans hrid⟩

/-- One request is rewritten, and offers are answered. -/
theorem KeepsTexts.of_replace (r' : Request) (hevents : db'.events = db.events)
    (hmatchRows : db'.matchRows = db.matchRows)
    (hconversations : db'.conversations = db.conversations)
    (hmessages : db'.messages = db.messages)
    (hoffered : ∀ rid, db'.Offered rid ↔ db.Offered rid)
    (hr : db.requests.lookup rid = some r) (hrequests : db'.requests = db.requests.replace rid r')
    (htexts : r'.texts = r.texts)
    (hclosable : db'.Closable env rid r' ↔ db.Closable env rid r)
    (hsettled : r.isSettled = true → r'.isSettled = true) : KeepsTexts env db db' where
  events := hevents
  matchRows := hmatchRows
  conversations := hconversations
  messages := hmessages
  kept k row hrow := by
    rw [hrequests, Table.lookup_replace hr]
    by_cases hk : k = rid
    · subst hk
      obtain rfl := Option.some.inj (hr.symm.trans hrow)
      exact ⟨r', if_pos rfl, htexts, hclosable, hsettled⟩
    · refine ⟨row, (if_neg hk).trans hrow, rfl, ?_, id⟩
      unfold Closable
      rw [hoffered k]
  source k row hrow := by
    rw [hrequests, Table.lookup_replace hr] at hrow
    by_cases hk : k = rid
    · exact ⟨r, hk ▸ hr⟩
    · exact ⟨row, (if_neg hk).symm.trans hrow⟩

theorem isSettled_expiredRow {target : RequestStatus}
    (htarget : target = .expired ∨ target = .noMatch) :
    (expiredRow env target r).isSettled = true := by
  rcases htarget with rfl | rfl <;> rfl

theorem expireRequest_keepsTexts (hr : db.requests.lookup rid = some r)
    (hopen : r.status.isOpen = true) (hexpired : r.expiresAt ≤ env.now)
    (h : db.expireRequest env rid r = .ok (effects, db')) :
    KeepsTexts env db db' ∧ ∃ r', db'.requests.lookup rid = some r' ∧ r'.isSettled = true := by
  obtain ⟨target, hcan, hyes, hno, rfl⟩ := expireRequest_ok hr h
  have hsettled : (expiredRow env target r).isSettled = true := by
    apply isSettled_expiredRow
    by_cases ho : db.Offered rid
    · exact .inl (hyes ho)
    · exact .inr (hno ho)
  have hlegal : r.status = .offering → db.Offered rid := by
    intro hoffering
    by_contra hnone
    rw [hno hnone, hoffering] at hcan
    cases hcan
  have hoffered (k : RequestId) : (db.supersedeOffers rid env.now).Offered k ↔ db.Offered k := by
    apply offered_iff_of_keeps
    · exact Table.Keeps.updateWhere _ _ fun _ => rfl
    · exact Table.Keeps.of_updateWhere _ _ fun _ => rfl
  constructor
  · refine .of_replace (expiredRow env target r) rfl rfl rfl rfl hoffered hr rfl rfl ?_
      fun _ => hsettled
    exact iff_of_true (.inl hsettled) (.inr ⟨hopen, hexpired, hlegal⟩)
  · exact ⟨_, (Table.lookup_replace hr _ _).trans (if_pos rfl), hsettled⟩

theorem runMatchPass_keepsTexts
    (hdue : ∀ r, db.requests.lookup rid = some r → r.expiresAt ≤ env.now)
    (h : db.runMatchPass env rid choices = .ok (effects, db')) : KeepsTexts env db db' := by
  cases runMatchPass_cases h with
  | idle _ => exact .refl env db
  | expires hr hopen hexpired hexpire =>
      exact (expireRequest_keepsTexts hr hopen hexpired hexpire).1
  | defers hr _ hunexpired _ => exact absurd (hdue _ hr) (not_le.mpr hunexpired)
  | resumes hr _ hunexpired _ _ _ _ => exact absurd (hdue _ hr) (not_le.mpr hunexpired)

theorem offered_closeOffer {offerId : OfferId} {o : MatchOffer}
    (ho : db.matchOffers.lookup offerId = some o) (status : OfferStatus) (now : Time)
    (k : RequestId) : (db.closeOffer offerId status now).Offered k ↔ db.Offered k := by
  rw [closeOffer_eq ho]
  apply offered_iff_of_keeps
  · exact Table.Keeps.replace ho rfl
  · exact Table.Keeps.of_replace ho rfl

theorem expireOffer_keepsTexts {offerId : OfferId}
    (h : db.expireOffer env offerId = .ok (effects, db')) : KeepsTexts env db db' := by
  cases expireOffer_cases h with
  | keeps _ => exact .refl env db
  | @resumes o r _ ho _ _ hr hoffering hmove =>
      obtain ⟨-, row, hrow, -, rfl⟩ := transitionRequest_ok.mp hmove
      obtain rfl : r = row := Option.some.inj (hr.symm.trans hrow)
      have hasked : db.Offered o.requestId := ⟨offerId, o, ho, rfl⟩
      refine .of_replace { r with status := .searching } rfl rfl rfl rfl
        (offered_closeOffer ho .expired env.now) hr rfl rfl ?_ fun hsettled => ?_
      · simp [Closable, Request.isSettled, RequestStatus.isOpen, hoffering, hasked]
      · simp [Request.isSettled, hoffering] at hsettled
  | closes ho _ _ _ =>
      exact
        { events := rfl, matchRows := rfl, conversations := rfl, messages := rfl
          kept := fun k row hrow => ⟨row, hrow, rfl,
            by unfold Closable; rw [offered_closeOffer ho .expired env.now k], id⟩
          source := fun k row hrow => ⟨row, hrow⟩ }

/-! ## The jobs of a sweep -/

variable {asked : RequestId → Prop} {r' : Request} {ids : List ℕ}

theorem step_sound (hdb : db.Sound asked) (i : Env × Op) : (db.step i).Sound asked := by
  rcases db.step_cases i with ⟨effects, hexec⟩ | hsame
  · exact (exec_writes hexec).sound hdb
  · rw [hsame]
    exact hdb

theorem runJobs_sound (jobs : List Job) (hdb : db.Sound asked) :
    (db.runJobs env choices jobs).Sound asked := by
  induction jobs generalizing db with
  | nil => exact hdb
  | cons job jobs ih => exact ih (step_sound hdb _)

theorem step_runMatchPass_keepsTexts
    (hdue : ∀ r, db.requests.lookup rid = some r → r.expiresAt ≤ env.now) :
    KeepsTexts env db (db.step (env, .runMatchPass rid choices)) := by
  rcases db.step_cases (env, .runMatchPass rid choices) with ⟨effects, hexec⟩ | hsame
  · exact runMatchPass_keepsTexts hdue hexec
  · exact hsame.symm ▸ .refl env db

theorem step_runMatchPass_closes (choices : PassChoices) (hdb : db.Sound asked)
    (hdue : ∀ r, db.requests.lookup rid = some r → r.expiresAt ≤ env.now)
    (hr : db.requests.lookup rid = some r) (hclosable : db.Closable env rid r) :
    ∃ r', (db.step (env, .runMatchPass rid choices)).requests.lookup rid = some r' ∧
      r'.isSettled = true := by
  rcases hclosable with hsettled | ⟨hopen, hexpired, hlegal⟩
  · obtain ⟨r', hr', -, -, hkept⟩ := (step_runMatchPass_keepsTexts hdue).kept rid r hr
    exact ⟨r', hr', hkept hsettled⟩
  · obtain ⟨effects, db', hok⟩ :=
      expireRequest_commits_of env hr (hdb.checked rid r hr) hopen hlegal
    have hstep : db.step (env, .runMatchPass rid choices) = db' :=
      step_of_ok ((runMatchPass_expired hr hopen hexpired).trans hok)
    rw [hstep]
    exact (expireRequest_keepsTexts hr hopen hexpired hok).2

theorem KeepsTexts.due (h : KeepsTexts env db db')
    (hdue : ∀ r, db.requests.lookup rid = some r → r.expiresAt ≤ env.now) :
    ∀ r', db'.requests.lookup rid = some r' → r'.expiresAt ≤ env.now := by
  intro r' hr'
  obtain ⟨r, hr⟩ := h.source rid r' hr'
  obtain ⟨row, hrow, htexts, -⟩ := h.kept rid r hr
  obtain rfl := Option.some.inj (hrow.symm.trans hr')
  have hexpires : row.expiresAt = r.expiresAt := congrArg (fun texts => texts.2.2.2) htexts
  rw [hexpires]
  exact hdue r hr

theorem runPasses_keepsTexts
    (hdue : ∀ rid ∈ ids, ∀ r, db.requests.lookup rid = some r → r.expiresAt ≤ env.now) :
    KeepsTexts env db (db.runJobs env choices (ids.map .matching)) := by
  induction ids generalizing db with
  | nil => exact .refl env db
  | cons id ids ih =>
    have hhead : KeepsTexts env db (db.step (env, .runMatchPass id choices)) :=
      step_runMatchPass_keepsTexts (hdue id List.mem_cons_self)
    apply hhead.trans
    apply ih
    intro rid hrid
    exact hhead.due (hdue rid (List.mem_cons_of_mem id hrid))

theorem runPasses_closes (choices : PassChoices) (hdb : db.Sound asked)
    (hdue : ∀ rid ∈ ids, ∀ r, db.requests.lookup rid = some r → r.expiresAt ≤ env.now)
    (hid : rid ∈ ids) (hr : db.requests.lookup rid = some r) (hclosable : db.Closable env rid r) :
    ∃ r', (db.runJobs env choices (ids.map .matching)).requests.lookup rid = some r' ∧
      r'.isSettled = true := by
  obtain ⟨before, after, rfl⟩ := List.append_of_mem hid
  have hbefore : KeepsTexts env db (db.runJobs env choices (before.map .matching)) :=
    runPasses_keepsTexts fun rid hrid => hdue rid (List.mem_append_left _ hrid)
  generalize hmid : db.runJobs env choices (before.map .matching) = mid at hbefore
  have hmid_sound : mid.Sound asked := hmid ▸ runJobs_sound _ hdb
  obtain ⟨r₁, hr₁, -, hclosable₁, -⟩ := hbefore.kept rid r hr
  obtain ⟨r₂, hr₂, hsettled⟩ := step_runMatchPass_closes choices hmid_sound
    (hbefore.due (hdue rid hid)) hr₁ (hclosable₁.mpr hclosable)
  have hpass : KeepsTexts env mid (mid.step (env, .runMatchPass rid choices)) :=
    step_runMatchPass_keepsTexts (hbefore.due (hdue rid hid))
  have hafter : KeepsTexts env (mid.step (env, .runMatchPass rid choices))
      ((mid.step (env, .runMatchPass rid choices)).runJobs env choices (after.map .matching)) := by
    apply runPasses_keepsTexts
    intro k hk
    have hlater := List.mem_append_right before (List.mem_cons_of_mem rid hk)
    exact (hbefore.trans hpass).due (hdue k hlater)
  obtain ⟨r₃, hr₃, -, -, hkept⟩ := hafter.kept rid r₂ hr₂
  refine ⟨r₃, ?_, hkept hsettled⟩
  have hruns : db.runJobs env choices ((before ++ rid :: after).map .matching) =
      (mid.step (env, .runMatchPass rid choices)).runJobs env choices (after.map .matching) := by
    rw [← hmid, runJobs, List.map_append, List.foldl_append]
    rfl
  rw [hruns]
  exact hr₃

theorem runTimeouts_keepsTexts (ids : List OfferId) :
    KeepsTexts env db (db.runJobs env choices (ids.map .offerTimeout)) := by
  induction ids generalizing db with
  | nil => exact .refl env db
  | cons id ids ih =>
    have hhead : KeepsTexts env db (db.step (env, .expireOffer id)) := by
      rcases db.step_cases (env, .expireOffer id) with ⟨effects, hexec⟩ | hsame
      · exact expireOffer_keepsTexts hexec
      · exact hsame.symm ▸ .refl env db
    exact hhead.trans ih

/-! ## The sweep -/

def closeDue (env : Env) (choices : PassChoices) (db : Db) : Db :=
  let db := db.sweepTask env choices .purgeLocations
  let db := db.sweepTask env choices .expireRequests
  db.sweepTask env choices .expireOffers

theorem closeDue_sound (hdb : db.Sound asked) : (db.closeDue env choices).Sound asked := by
  apply runJobs_sound
  apply runJobs_sound
  exact { checked := hdb.checked, offering := hdb.offering, messages := hdb.messages }

theorem expiresAt_of_mem_due {id : RequestId}
    (hid : id ∈ env.selectIds db.requests fun _ r => r.status.isOpen && r.expiresAt ≤ env.now)
    (r : Request) (hr : db.requests.lookup id = some r) : r.expiresAt ≤ env.now := by
  obtain ⟨row, hrow, hdue⟩ := Env.mem_selectIds.mp hid
  obtain rfl := Option.some.inj (hr.symm.trans hrow)
  rw [Bool.and_eq_true, decide_eq_true_eq] at hdue
  exact hdue.2

theorem closeDue_keepsTexts (choices : PassChoices) :
    KeepsTexts env db (db.closeDue env choices) := by
  have hlocations : KeepsTexts env db (db.sweepTask env choices .purgeLocations) :=
    { events := rfl, matchRows := rfl, conversations := rfl, messages := rfl
      kept := fun _ r hr => ⟨r, hr, rfl, Iff.rfl, id⟩
      source := fun _ r hr => ⟨r, hr⟩ }
  apply hlocations.trans
  apply KeepsTexts.trans _ (runTimeouts_keepsTexts _)
  apply runPasses_keepsTexts
  intro rid hrid
  exact expiresAt_of_mem_due hrid

theorem closeDue_settled_iff (hdb : db.Sound asked) (hr : db.requests.lookup rid = some r)
    (hr' : (db.closeDue env choices).requests.lookup rid = some r') :
    r'.isSettled = true ↔ db.Closable env rid r := by
  obtain ⟨row, hrow, -, hclosable, hkept⟩ := (closeDue_keepsTexts choices).kept rid r hr
  obtain rfl := Option.some.inj (hrow.symm.trans hr')
  constructor
  · intro hsettled
    exact hclosable.mp (.inl hsettled)
  · rintro (hsettled | ⟨hopen, hexpired, hlegal⟩)
    · exact hkept hsettled
    · generalize hstart : db.sweepTask env choices .purgeLocations = start
      have hsound : start.Sound asked :=
        hstart ▸ { checked := hdb.checked, offering := hdb.offering, messages := hdb.messages }
      have hstarted : start.requests.lookup rid = some r := hstart ▸ hr
      have hdue : rid ∈ env.selectIds start.requests fun _ r =>
          r.status.isOpen && r.expiresAt ≤ env.now := by
        apply Env.mem_selectIds.mpr
        exact ⟨r, hstarted, by rw [hopen, Bool.true_and, decide_eq_true_eq]; exact hexpired⟩
      have hclosable' : start.Closable env rid r := by
        right
        exact ⟨hopen, hexpired, hstart ▸ hlegal⟩
      obtain ⟨r₁, hr₁, hsettled⟩ := runPasses_closes choices hsound
        (fun _ hid => expiresAt_of_mem_due hid) hdue hstarted hclosable'
      have htimeouts : KeepsTexts env (start.sweepTask env choices .expireRequests)
          (db.closeDue env choices) := hstart ▸ runTimeouts_keepsTexts _
      obtain ⟨r₂, hr₂, -, -, hstays⟩ := htimeouts.kept rid r₁ hr₁
      obtain rfl := Option.some.inj (hr₂.symm.trans hr')
      exact hstays hsettled

theorem eventLifecycle_frame (db : Db) (env : Env) :
    (db.eventLifecycle env).toExchange = db.toExchange ∧
      (db.eventLifecycle env).messages = db.messages := by
  unfold eventLifecycle
  dsimp only
  split_ifs <;> exact ⟨rfl, rfl⟩

/-- The statements between the jobs and the event lifecycle. -/
def tidying : List UpkeepStatement :=
  [.lapseAvailability, .endAvailability, .closeConversations, .purgeMessages, .purgeOtps,
   .purgeSessions, .scrubRequests, .dropOffers, .purgeNotifications]

theorem tidying_texts (db : Db) (env : Env) :
    (db.upkeepStatements env tidying).requests = (db.upkeepStatement env .scrubRequests).requests ∧
      (db.upkeepStatements env tidying).matchRows = db.matchRows ∧
      (db.upkeepStatements env tidying).conversations =
        ((db.upkeepStatement env .closeConversations).upkeepStatement env
          .purgeMessages).conversations ∧
      (db.upkeepStatements env tidying).messages =
        ((db.upkeepStatement env .closeConversations).upkeepStatement env
          .purgeMessages).messages :=
  ⟨rfl, rfl, rfl, rfl⟩

/-- The tasks between the jobs and the event lifecycle. -/
theorem retentionSweep_eq (db : Db) (env : Env) (choices : PassChoices) :
    (db.retentionSweep env choices).requests =
        ((db.closeDue env choices).upkeepStatement env .scrubRequests).requests ∧
      (db.retentionSweep env choices).matchRows = (db.closeDue env choices).matchRows ∧
      (db.retentionSweep env choices).conversations =
        (((db.closeDue env choices).upkeepStatement env .closeConversations).upkeepStatement env
          .purgeMessages).conversations ∧
      (db.retentionSweep env choices).messages =
        (((db.closeDue env choices).upkeepStatement env .closeConversations).upkeepStatement env
          .purgeMessages).messages := by
  have hsweep : db.retentionSweep env choices =
      ((db.closeDue env choices).upkeepStatements env tidying).eventLifecycle env := by
    simp only [retentionSweep, RetentionTask.all, closeDue, tidying, sweepTask, runRetentionTask,
      upkeepStatements, runJobs, List.foldl_cons, List.foldl_nil]
  generalize db.closeDue env choices = closed at hsweep ⊢
  obtain ⟨hexchange, hmessages⟩ := eventLifecycle_frame (closed.upkeepStatements env tidying) env
  rw [hsweep, hmessages, hexchange]
  exact tidying_texts closed env

/-! ## What is left -/

/-- Nothing is left of what participants wrote about the event. -/
structure Scrubbed (db : Db) (eventId : EventId) : Prop where
  requests : ∀ rid r, db.requests.lookup rid = some r → r.eventId = eventId →
    r.note = none ∧ r.areaHint = none
  messages : ∀ id msg, db.messages.lookup id = some msg → ∀ c,
    db.conversations.lookup msg.conversationId = some c → ∀ m,
    db.matchRows.lookup c.matchId = some m → m.eventId = eventId → msg.kind = .system
  matchRows : ∀ mid m, db.matchRows.lookup mid = some m → m.eventId = eventId →
    m.carriesNote = false

/-- Requests with a text are closable, and no cancellation came with a note. -/
structure Scrubbable (env : Env) (db : Db) (eventId : EventId) : Prop where
  requests : ∀ rid r, db.requests.lookup rid = some r → r.eventId = eventId →
    (r.note = none ∧ r.areaHint = none) ∨ db.Closable env rid r
  matchRows : ∀ mid m, db.matchRows.lookup mid = some m → m.eventId = eventId →
    m.carriesNote = false

variable {eventId : EventId} {event : Event}

/-- Of a request of the event the sweep keeps the texts unless the request is closed. -/
theorem lookup_scrubRequests (he : db.events.lookup eventId = some event)
    (hover : event.retentionOver env.now = true) (hr : db.requests.lookup rid = some r)
    (hin : r.eventId = eventId) :
    ∃ r', (db.upkeepStatement env .scrubRequests).requests.lookup rid = some r' ∧
      r'.eventId = r.eventId ∧
      ((r'.note = none ∧ r'.areaHint = none) ↔
        (r.note = none ∧ r.areaHint = none) ∨ r.isSettled = true) := by
  refine ⟨_, (Table.lookup_updateWhere _ _ _ _).trans (congrArg _ hr), ?_⟩
  have hpast : db.isPastRetention env r.eventId = true := by
    rw [isPastRetention, hin, he]
    exact hover
  dsimp only
  rw [hpast]
  split_ifs with hdue
  · rw [Bool.and_eq_true, Bool.and_eq_true] at hdue
    exact ⟨rfl, iff_of_true ⟨rfl, rfl⟩ (.inr hdue.1.2)⟩
  · refine ⟨rfl, ⟨.inl, ?_⟩⟩
    rintro (hempty | hsettled)
    · exact hempty
    · simpa [hsettled] using hdue

/-- The chats of the event are emptied. -/
theorem purgeMessages_system (hdb : db.Sound asked) (he : db.events.lookup eventId = some event)
    (hover : event.retentionOver env.now = true) {id : MessageId} {msg : Message}
    (hmsg : (db.upkeepStatement env .purgeMessages).messages.lookup id = some msg)
    {c : Conversation}
    (hc : (db.upkeepStatement env .purgeMessages).conversations.lookup msg.conversationId =
      some c)
    {m : Match} (hm : db.matchRows.lookup c.matchId = some m) (hin : m.eventId = eventId) :
    msg.kind = .system := by
  obtain ⟨hmsg, hkept⟩ := Table.lookup_deleteWhere_some.mp hmsg
  rcases hdb.messages id msg hmsg with hsystem | ⟨chat, hchat, hstatus⟩
  · exact hsystem
  · have hkeeps : Table.Keeps Conversation.matchId
        (db.upkeepStatement env .purgeMessages).conversations db.conversations :=
      Table.Keeps.of_updateWhere _ _ fun _ => rfl
    obtain ⟨row, hrow, hmatchId⟩ := hkeeps _ c hc
    obtain rfl := Option.some.inj (hchat.symm.trans hrow)
    have hmatch : db.matchRows.lookup chat.matchId = some m := hmatchId ▸ hm
    have htarget : db.chatOver env chat = true := by
      rw [chatOver, hmatch, Option.any_some, isPastRetention, hin, he, Option.any_some, hover]
      simp [hstatus]
    rw [hchat, Option.any_some, htarget] at hkept
    cases hkept

/-- What the sweep makes of a request of the event. -/
theorem lookup_retentionSweep (hdb : db.Sound asked) (he : db.events.lookup eventId = some event)
    (hover : event.retentionOver env.now = true) (choices : PassChoices)
    (hr : db.requests.lookup rid = some r) (hin : r.eventId = eventId) :
    ∃ r', (db.retentionSweep env choices).requests.lookup rid = some r' ∧ r'.eventId = eventId ∧
      ((r'.note = none ∧ r'.areaHint = none) ↔
        (r.note = none ∧ r.areaHint = none) ∨ db.Closable env rid r) := by
  have hkeepsTexts : KeepsTexts env db (db.closeDue env choices) := closeDue_keepsTexts choices
  have he' : (db.closeDue env choices).events.lookup eventId = some event :=
    hkeepsTexts.events ▸ he
  obtain ⟨r₁, hr₁, htexts, -⟩ := hkeepsTexts.kept rid r hr
  simp only [Request.texts, Prod.mk.injEq] at htexts
  obtain ⟨hevent, hnote, hhint, -⟩ := htexts
  obtain ⟨r₂, hr₂, hevent', hclean⟩ := lookup_scrubRequests he' hover hr₁ (hevent.trans hin)
  rw [hnote, hhint, closeDue_settled_iff hdb hr hr₁] at hclean
  refine ⟨r₂, ?_, (hevent'.trans hevent).trans hin, hclean⟩
  rw [(retentionSweep_eq db env choices).1]
  exact hr₂

theorem lookup_of_retentionSweep (choices : PassChoices)
    (hr' : (db.retentionSweep env choices).requests.lookup rid = some r') :
    ∃ r, db.requests.lookup rid = some r ∧ r.eventId = r'.eventId := by
  have hkeepsTexts : KeepsTexts env db (db.closeDue env choices) := closeDue_keepsTexts choices
  rw [(retentionSweep_eq db env choices).1] at hr'
  have hkeeps : Table.Keeps Request.eventId
      ((db.closeDue env choices).upkeepStatement env .scrubRequests).requests
      (db.closeDue env choices).requests :=
    Table.Keeps.of_updateWhere _ _ fun _ => rfl
  obtain ⟨r₁, hr₁, hevent⟩ := hkeeps rid r' hr'
  obtain ⟨r, hr⟩ := hkeepsTexts.source rid r₁ hr₁
  obtain ⟨row, hrow, htexts, -⟩ := hkeepsTexts.kept rid r hr
  obtain rfl := Option.some.inj (hrow.symm.trans hr₁)
  simp only [Request.texts, Prod.mk.injEq] at htexts
  exact ⟨r, hr, htexts.1.symm.trans hevent⟩

/-- What the sweep leaves in the chats of the event. -/
theorem retentionSweep_messages (hdb : db.Sound asked)
    (hasked : ∀ rid, (db.closeDue env choices).Offered rid → asked rid)
    (he : db.events.lookup eventId = some event) (hover : event.retentionOver env.now = true)
    {id : MessageId} {msg : Message}
    (hmsg : (db.retentionSweep env choices).messages.lookup id = some msg) {c : Conversation}
    (hc : (db.retentionSweep env choices).conversations.lookup msg.conversationId = some c)
    {m : Match} (hm : (db.retentionSweep env choices).matchRows.lookup c.matchId = some m)
    (hin : m.eventId = eventId) : msg.kind = .system := by
  obtain ⟨-, hmatchRows, hconversations, hmessages⟩ := retentionSweep_eq db env choices
  have hkeepsTexts : KeepsTexts env db (db.closeDue env choices) := closeDue_keepsTexts choices
  rw [hmessages] at hmsg
  rw [hconversations] at hc
  rw [hmatchRows] at hm
  have hsound := upkeepStatement_sound env .closeConversations (closeDue_sound hdb) hasked
  have he' : ((db.closeDue env choices).upkeepStatement env .closeConversations).events.lookup
      eventId = some event := hkeepsTexts.events ▸ he
  exact purgeMessages_system hsound he' hover hmsg hc hm hin

theorem retentionSweep_scrubbed_iff (hdb : db.Sound fun _ => True)
    (he : db.events.lookup eventId = some event) (hover : event.retentionOver env.now = true)
    (choices : PassChoices) :
    (db.retentionSweep env choices).Scrubbed eventId ↔ db.Scrubbable env eventId := by
  have hmatchRows : (db.retentionSweep env choices).matchRows = db.matchRows :=
    (retentionSweep_eq db env choices).2.1.trans (closeDue_keepsTexts choices).matchRows
  constructor
  · intro hscrubbed
    refine { requests := fun rid r hr hin => ?_, matchRows := hmatchRows ▸ hscrubbed.matchRows }
    obtain ⟨r', hr', hin', hclean⟩ := lookup_retentionSweep hdb he hover choices hr hin
    exact hclean.mp (hscrubbed.requests rid r' hr' hin')
  · intro hscrubbable
    refine { requests := fun rid r' hr' hin' => ?_, messages := fun id msg hmsg c hc m hm hin => ?_,
             matchRows := hmatchRows.symm ▸ hscrubbable.matchRows }
    · obtain ⟨r, hr, hevent⟩ := lookup_of_retentionSweep choices hr'
      have hin := hevent.trans hin'
      obtain ⟨row, hrow, -, hclean⟩ := lookup_retentionSweep hdb he hover choices hr hin
      obtain rfl := Option.some.inj (hrow.symm.trans hr')
      exact hclean.mpr (hscrubbable.requests rid r hr hin)
    · exact retentionSweep_messages hdb (fun _ _ => trivial) he hover hmsg hc hm hin

end Db

namespace Backend

variable {lib : TextLib} {is : List (Env × UpkeepAct)} {env : Env} {eventId : EventId}
  {event : Event}

/-- In every reachable state the sweep past the retention of an event leaves no free text about it
if and only if each of its requests with a text is closed or closable, and none of its
cancelled matches carries a note. -/
theorem retentionSweep_scrubs_iff (he : (upkeepRun lib is).events.lookup eventId = some event)
    (hover : event.retentionOver env.now = true) (choices : PassChoices) :
    ((upkeepRun lib is).toDb.retentionSweep env choices).Scrubbed eventId ↔
      (upkeepRun lib is).toDb.Scrubbable env eventId := by
  have hsound : (upkeepRun lib is).toDb.Sound fun _ => True :=
    (upkeepRun_sound lib is).weaken fun _ _ => trivial
  exact Db.retentionSweep_scrubbed_iff hsound he hover choices

/-! ## What is not found -/

/-- User 1 asks for two items, with a note. -/
def noted : List (Env × UpkeepAct) :=
  [(SmallEvent.clock 0, .act (.op (.directory (SmallEvent.directory [1, 2] [])))),
   (SmallEvent.clock 1 10, .act (.op (.addInventory (SmallEvent.token 2) 1
     (SmallEvent.item SmallEvent.two)))),
   (SmallEvent.clock 2 20, .act (.op (.createRequest (SmallEvent.token 1)
     { SmallEvent.request SmallEvent.two "a" with note := some "blue tent" })))]

/-- User 2 accepts the request, and the two never meet. -/
def abandoned : List (Env × UpkeepAct) :=
  noted ++
    [(SmallEvent.clock 3 30, .act (.op (.runMatchPass 20 SmallEvent.choices))),
     (SmallEvent.clock 4 40, .act (.op (.acceptOffer (SmallEvent.token 2) 30 SmallEvent.draws)))]

def explained : List (Env × UpkeepAct) :=
  abandoned ++
    [(SmallEvent.clock 5 50, .act (.op (.cancelMatch (SmallEvent.token 1) 40 .other
      (some "nobody came"))))]

def late : Env := SmallEvent.clock 704800001

theorem retentionSweep_scrubs_iff_noted :
    ((upkeepRun SmallEvent.text noted).toDb.retentionSweep late SmallEvent.choices).Scrubbed 1 := by
  obtain ⟨event, he, hover⟩ : ∃ event, (upkeepRun SmallEvent.text noted).events.lookup 1 =
      some event ∧ event.retentionOver late.now = true :=
    (Option.any_eq_true _ _).mp (by decide +kernel)
  apply (retentionSweep_scrubs_iff he hover SmallEvent.choices).mpr
  have hsearching : ∀ rid r, (upkeepRun SmallEvent.text noted).requests.lookup rid = some r →
      r.status = .searching ∧ r.expiresAt ≤ late.now :=
    @of_decide_eq_true _ (Table.decidableForall _ _) (by decide +kernel)
  refine { requests := fun rid r hr _ => .inr ?_, matchRows := fun mid m hm => by cases hm }
  obtain ⟨hstatus, hexpired⟩ := hsearching rid r hr
  right
  refine ⟨by rw [hstatus]; rfl, hexpired, fun hoffering => ?_⟩
  rw [hstatus] at hoffering
  cases hoffering

/-- The note of the abandoned request stays, and the reason of the cancelled match. -/
theorem retentionSweep_scrubs_fails :
    ¬((upkeepRun SmallEvent.text abandoned).toDb.retentionSweep late
        SmallEvent.choices).Scrubbed 1 ∧
      ¬((upkeepRun SmallEvent.text explained).toDb.retentionSweep late
        SmallEvent.choices).Scrubbed 1 := by
  constructor
  · intro hscrubbed
    obtain ⟨r, hr, hkept⟩ : ∃ r, ((upkeepRun SmallEvent.text abandoned).toDb.retentionSweep late
        SmallEvent.choices).requests.lookup 20 = some r ∧
          (decide (r.eventId = 1) && decide (r.note ≠ none)) = true :=
      (Option.any_eq_true _ _).mp (by decide +kernel)
    rw [Bool.and_eq_true, decide_eq_true_eq, decide_eq_true_eq] at hkept
    exact hkept.2 (hscrubbed.requests 20 r hr hkept.1).1
  · intro hscrubbed
    obtain ⟨m, hm, hkept⟩ : ∃ m, ((upkeepRun SmallEvent.text explained).toDb.retentionSweep late
        SmallEvent.choices).matchRows.lookup 40 = some m ∧
          (decide (m.eventId = 1) && m.carriesNote) = true :=
      (Option.any_eq_true _ _).mp (by decide +kernel)
    rw [Bool.and_eq_true, decide_eq_true_eq] at hkept
    have hclean := hscrubbed.matchRows 40 m hm hkept.1
    rw [hclean] at hkept
    cases hkept.2

end Backend
end Sahay
