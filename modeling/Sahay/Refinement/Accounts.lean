import Sahay.Refinement.Writes
import Sahay.Server.Accounts

/-!
# What becomes of accounts, events and recorded actions

Moderation rewrites the row of one user or of one event and records itself; the last
statement of a deletion rewrites the row of its user.  Whatever else the server does
leaves the three tables as they are.
-/

namespace Sahay

namespace ModerationActionKind

def isOnUser : ModerationActionKind → Bool
  | .warn | .restrictRequests | .restrictHelping | .suspend | .unsuspend => true
  | _ => false

/-- The actions that rewrite an event's row. -/
def isOnEvent : ModerationActionKind → Bool
  | .eventPause | .eventUnpause | .eventDisable | .eventApprovePublic | .eventRejectPublic => true
  | _ => false

end ModerationActionKind

namespace AdminModerateInput

variable (input : AdminModerateInput) (now : Time)

/-- What the action writes in the row of the user it targets. -/
def onUser (user : User) : User :=
  match input.action with
  | .restrictRequests => { user with canRequest := false }
  | .restrictHelping => { user with canHelp := false }
  | .suspend =>
      { user with
        status := .suspended, suspendedUntil := expiryAfterHours now input.durationHours }
  | .unsuspend =>
      { user with status := .active, suspendedUntil := none, canRequest := true, canHelp := true }
  | _ => user

def recordedEnd : Option Time :=
  match input.action with
  | .restrictRequests | .restrictHelping | .suspend => expiryAfterHours now input.durationHours
  | _ => none

/-- What the action writes in the row of the event it targets. -/
def onEvent (event : Event) : Event :=
  match input.action with
  | .eventPause => { event with matchingPaused := true }
  | .eventUnpause => { event with matchingPaused := false }
  | .eventApprovePublic => { event with publicApproved := true }
  | .eventRejectPublic => { event with publicApproved := false }
  | .eventDisable => { event with status := .disabled }
  | _ => event

end AdminModerateInput

namespace Db

variable {db db' db'' : Db} {env : Env} {effects : List Effect}

theorem insertRequest_accounts {ticket : RequestTicket}
    (h : db.insertRequest env ticket = .ok (effects, db')) : SameAccounts db db' := by
  simp only [insertRequest, bind_ok, pure_ok, Prod.mk.injEq] at h
  obtain ⟨-, -, -, -, -, rfl⟩ := h
  split <;> exact ⟨rfl, rfl, rfl⟩

/-! ## Moderation -/

def Records (env : Env) (input : AdminModerateInput) (targetUserId : Option UserId)
    (expiresAt : Option Time) (db db' : Db) : Prop :=
  ∃ row, db'.moderationActions = db.moderationActions.put
      (db.moderationActions.freshKey env.uuid.moderationAction) row ∧
    row.action = input.action ∧ row.targetUserId = targetUserId ∧ row.expiresAt = expiresAt

/-- What a moderation action does to accounts, events and recorded actions. -/
inductive Moderates (env : Env) (input : AdminModerateInput) (db db' : Db) : Prop
  | onUser {userId : UserId} {user : User} (hkind : input.action.isOnUser = true)
      (htarget : input.targetUserId = some userId) (huser : db.users.lookup userId = some user)
      (husers : db'.users = db.users.replace userId (input.onUser env.now user))
      (hevents : db'.events = db.events)
      (hrecords : db.Records env input (some userId) (input.recordedEnd env.now) db')
  | onEvent {eventId : EventId} {event : Event} (hkind : input.action.isOnEvent = true)
      (htarget : input.targetEventId = some eventId)
      (hevent : db.events.lookup eventId = some event)
      (husers : db'.users = db.users)
      (hevents : db'.events = db.events.replace eventId (input.onEvent event))
      (hrecords : db.Records env input none none db')
  | other {targetUserId : Option UserId} (honUser : input.action.isOnUser = false)
      (honEvent : input.action.isOnEvent = false) (husers : db'.users = db.users)
      (hevents : db'.events = db.events) (hrecords : db.Records env input targetUserId none db')

theorem recordAction_records (db : Db) (env : Env) (actorId : UserId) (input : AdminModerateInput)
    (fields : ActionFields) (target : String) :
    db.Records env input fields.targetUserId fields.expiresAt
      (db.recordAction env actorId input fields target).2 :=
  ⟨_, rfl, rfl, rfl, rfl⟩

variable {actorId : UserId} {input : AdminModerateInput}

theorem requireUser_ok {targetUserId : Option UserId} {userId : UserId} :
    db.requireUser targetUserId = .ok userId ↔
      targetUserId = some userId ∧ ∃ user, db.users.lookup userId = some user := by
  simp only [requireUser, bind_ok, found_ok, pure_ok]
  constructor
  · rintro ⟨_, htarget, user, huser, rfl⟩
    exact ⟨htarget, user, huser⟩
  · rintro ⟨htarget, user, huser⟩
    exact ⟨userId, htarget, user, huser, rfl⟩

theorem requireEvent_ok {targetEventId : Option EventId} {eventId : EventId} :
    db.requireEvent targetEventId = .ok eventId ↔
      targetEventId = some eventId ∧ ∃ event, db.events.lookup eventId = some event := by
  simp only [requireEvent, bind_ok, found_ok, pure_ok]
  constructor
  · rintro ⟨_, htarget, event, hevent, rfl⟩
    exact ⟨htarget, event, hevent⟩
  · rintro ⟨htarget, event, hevent⟩
    exact ⟨eventId, htarget, event, hevent, rfl⟩

theorem moderateUser_moderates {expiresAt : Option Time} {set : User → User}
    (hkind : input.action.isOnUser = true) (hset : set = input.onUser env.now)
    (hend : expiresAt = input.recordedEnd env.now)
    (h : db.moderateUser env actorId input expiresAt set = .ok (effects, db')) :
    Moderates env input db db' := by
  subst hset hend
  simp only [moderateUser, bind_ok, requireUser_ok, pure_ok, Prod.mk.injEq] at h
  obtain ⟨userId, ⟨htarget, user, huser⟩, -, rfl⟩ := h
  exact .onUser hkind htarget huser (Table.modify_eq_replace huser _) rfl
    (recordAction_records _ _ _ _ _ _)

theorem suspend_moderates (haction : input.action = .suspend)
    (h : db.suspend env actorId input = .ok (effects, db')) : Moderates env input db db' := by
  simp only [suspend, bind_ok, requireUser_ok, pure_ok, Prod.mk.injEq] at h
  obtain ⟨userId, ⟨htarget, user, huser⟩, -, rfl⟩ := h
  refine .onUser (by rw [haction]; rfl) htarget huser ?_ rfl ?_
  · simp only [recordAction_toDirectory, AdminModerateInput.onUser, haction]
    exact Table.modify_eq_replace huser _
  · simp only [AdminModerateInput.recordedEnd, haction]
    exact recordAction_records _ _ _ _ _ _

theorem moderateEvent_moderates {set : Event → Event} {actionId : ActionId} {eventId : EventId}
    (hkind : input.action.isOnEvent = true) (hset : set = input.onEvent)
    (h : db.moderateEvent env actorId input set = .ok (actionId, eventId, db')) :
    Moderates env input db db' := by
  subst hset
  simp only [moderateEvent, bind_ok, requireEvent_ok, pure_ok, Prod.mk.injEq] at h
  obtain ⟨eventId, ⟨htarget, event, hevent⟩, -, -, rfl⟩ := h
  exact .onEvent hkind htarget hevent rfl (Table.modify_eq_replace hevent _)
    (recordAction_records _ _ _ _ _ _)

theorem disableEvent_moderates (haction : input.action = .eventDisable)
    (h : db.disableEvent env actorId input = .ok (effects, db')) : Moderates env input db db' := by
  simp only [disableEvent, bind_ok, requireEvent_ok, pure_ok, Prod.mk.injEq] at h
  obtain ⟨eventId, ⟨htarget, event, hevent⟩, mid, hclose, -, rfl⟩ := h
  have hwrites : WriteRun (fun _ => False) false _ mid :=
    closeOpenRequests_writes (by decide) hclose
  have hsame := hwrites.accounts
  obtain ⟨row, hput, hrow⟩ := mid.recordAction_records env actorId input
    { targetEventId := some eventId } ("event:" ++ toString eventId)
  refine .onEvent (by rw [haction]; rfl) htarget hevent hsame.users ?_ ⟨row, ?_, hrow⟩
  · simp only [recordAction_toDirectory, AdminModerateInput.onEvent, haction]
    exact hsame.events.trans
      (Table.modify_eq_replace hevent fun event => { event with status := .disabled })
  · rw [hput, hsame.moderationActions]

theorem moderateReport_moderates {status : ReportStatus} (honUser : input.action.isOnUser = false)
    (honEvent : input.action.isOnEvent = false)
    (h : db.moderateReport env actorId input status = .ok (effects, db')) :
    Moderates env input db db' := by
  simp only [moderateReport, bind_ok, pure_ok, Prod.mk.injEq] at h
  obtain ⟨reportId, -, report, -, -, rfl⟩ := h
  exact .other honUser honEvent rfl rfl ⟨_, rfl, rfl, rfl, rfl⟩

theorem moderate_moderates {auth : AuthContext}
    (h : db.moderate env auth input = .ok (effects, db')) :
    actionAllowedForRole input.action auth.role input.durationHours = true ∧
      Moderates env input db db' := by
  simp only [moderate, bind_ok, ensure_ok] at h
  obtain ⟨-, hallowed, h⟩ := h
  refine ⟨hallowed, ?_⟩
  cases haction : input.action <;> simp only [haction] at h
  case warn | restrictRequests | restrictHelping | unsuspend =>
    refine moderateUser_moderates (by rw [haction]; rfl) ?_ ?_ h
    · funext user
      simp only [AdminModerateInput.onUser, haction]
    · simp only [AdminModerateInput.recordedEnd, haction]
  case suspend => exact suspend_moderates haction h
  case eventPause | eventUnpause | eventApprovePublic | eventRejectPublic =>
    simp only [bind_ok, pure_ok, Prod.mk.injEq] at h
    obtain ⟨r, hmoderate, -, rfl⟩ := h
    refine moderateEvent_moderates (by rw [haction]; rfl) ?_ hmoderate
    funext event
    simp only [AdminModerateInput.onEvent, haction]
  case eventDisable => exact disableEvent_moderates haction h
  case matchCancel =>
    simp only [bind_ok, pure_ok, Prod.mk.injEq] at h
    obtain ⟨matchId, -, m, -, -, rfl⟩ := h
    exact .other (by rw [haction]; rfl) (by rw [haction]; rfl) rfl rfl
      (recordAction_records _ _ _ _ _ _)
  case reportResolve | reportDismiss =>
    exact moderateReport_moderates (by rw [haction]; rfl) (by rw [haction]; rfl) h

theorem exec_moderate {token : String}
    (h : db.exec env (.moderate token input) = .ok (effects, db')) :
    ∃ auth, db.authenticateModerator env.now token = .ok auth ∧
      actionAllowedForRole input.action auth.role input.durationHours = true ∧
      Moderates env input db db' := by
  obtain ⟨auth, hauth, h⟩ := bind_ok.mp h
  exact ⟨auth, hauth, moderate_moderates h⟩

/-! ## The lifecycle sweep -/

/-- What a statement of the sweep makes of a user. -/
def swept (db : Db) (env : Env) (statement : LifecycleStatement) (userId : UserId) (user : User) :
    User :=
  match statement with
  | .liftSuspensions =>
      if user.suspensionLapsed env.now then { user with status := .active, suspendedUntil := none }
      else user
  | .restoreFlags =>
      if db.flagsRestorable env.now userId user then
        { user with canRequest := true, canHelp := true }
      else user
  | _ => user

theorem lifecycleStatement_lookup (db : Db) (env : Env) (statement : LifecycleStatement)
    (userId : UserId) :
    (db.lifecycleStatement env statement).users.lookup userId =
      (db.users.lookup userId).map (db.swept env statement userId) := by
  cases statement with
  | liftSuspensions | restoreFlags => exact Table.lookup_updateWhere _ _ _ _
  | _ => exact Option.map_id'.symm

theorem lifecycleStatement_moderationActions (db : Db) (env : Env)
    (statement : LifecycleStatement) :
    (db.lifecycleStatement env statement).moderationActions = db.moderationActions := by
  cases statement <;> rfl

theorem lifecycleStatement_toExchange (db : Db) (env : Env) (statement : LifecycleStatement) :
    (db.lifecycleStatement env statement).toExchange = db.toExchange := by
  cases statement <;> rfl

/-! ## Every operation -/

/-- An operation that does not rewrite accounts or events leaves them, and the recorded
actions, as they are. -/
theorem exec_accounts {op : Op} (hop : op.rewrites = false)
    (h : db.exec env op = .ok (effects, db')) : SameAccounts db db' := by
  have hwrites := exec_writes h
  rw [hop] at hwrites
  exact hwrites.accounts

/-- As `exec_accounts`, of a step. -/
theorem step_accounts {i : Env × Op} (hop : i.2.rewrites = false) :
    SameAccounts db (db.step i) := by
  rcases db.step_cases i with ⟨effects, h⟩ | h
  · exact exec_accounts hop h
  · rw [h]
    exact .refl db

end Db

namespace Backend

variable (lib : TextLib) (b : Backend) (env : Env)

@[simp] theorem step_op (op : Op) : (b.step lib (env, .op op)).toDb = b.toDb.step (env, op) := rfl

@[simp] theorem step_lifecycle (statement : LifecycleStatement) :
    (b.step lib (env, .lifecycle statement)).toDb = b.toDb.lifecycleStatement env statement := rfl

/-! ## Accounts outside the operations -/

variable {lib b env}

theorem commit_cases (b : Backend) (result : Outcome Backend) :
    result = .ok (b.commit result) ∨ b.commit result = b := by
  cases result with
  | ok b' => exact .inl rfl
  | error e => exact .inr rfl

/-- What the resolution of an appeal does to accounts and recorded actions. -/
theorem resolveAppeal_ok {actorId : UserId} {appealId : AppealId} {outcome : AppealOutcome}
    {reason : String} {b' : Backend}
    (h : b.resolveAppeal env actorId appealId outcome reason = .ok b') :
    ∃ appeal action, b.appeals.lookup appealId = some appeal ∧
      b.moderationActions.lookup appeal.moderationActionId = some action ∧
      appeal.status = .open ∧ b'.events = b.events ∧
      b'.moderationActions = b.moderationActions ∧
      b'.users = resolvedUsers b.users outcome action := by
  simp only [resolveAppeal, bind_ok, found_ok, ensure_ok, pure_ok] at h
  obtain ⟨appeal, happeal, action, haction, -, hopen, rfl⟩ := h
  exact ⟨appeal, action, happeal, haction, hopen, rfl, rfl, rfl⟩

/-- Overturning touches only the user whom the action targeted. -/
theorem resolvedUsers_lookup {users : Table UserId User} {outcome : AppealOutcome}
    {action : ModerationAction} {userId : UserId} {user : User}
    (huser : users.lookup userId = some user) :
    (resolvedUsers users outcome action).lookup userId = some
      (if outcome = .overturned ∧ action.targetUserId = some userId then overturn action user
       else user) := by
  cases outcome with
  | upheld => simp [resolvedUsers, huser]
  | overturned =>
      cases htarget : action.targetUserId with
      | none => simp [resolvedUsers, htarget, huser]
      | some targetId => simp [resolvedUsers, htarget, Table.lookup_modify, huser, eq_comm]

theorem createAccount_lookup {email : String} {draws : LoginDraws} {newId : UserId}
    {b' : Backend} (h : b.createAccount env lib email draws = .ok (newId, b')) {userId : UserId}
    {user : User} (huser : b.users.lookup userId = some user) :
    b'.users.lookup userId = some user := by
  simp only [createAccount, bind_ok, pure_ok, Prod.mk.injEq] at h
  obtain ⟨-, -, -, rfl⟩ := h
  refine (Table.lookup_put _ _ _ _).trans ((if_neg ?_).trans huser)
  rintro rfl
  exact Table.freshKey_notMem _ _ (Table.mem_iff_exists.mpr ⟨user, huser⟩)

theorem accountForEmail_lookup {email : String} {draws : LoginDraws} {newId : UserId}
    {b' : Backend} (h : b.accountForEmail env lib email draws = .ok (newId, b')) {userId : UserId}
    {user : User} (huser : b.users.lookup userId = some user) :
    ∃ emailHmac emailEnc, b'.users.lookup userId =
      some { user with emailHmac := emailHmac, emailEnc := emailEnc } := by
  unfold accountForEmail at h
  split at h
  · rename_i ownerId owner hfirst
    split_ifs at h
    · obtain ⟨-, rfl⟩ := Prod.mk.inj (pure_ok.mp h)
      exact ⟨_, _, huser⟩
    · by_cases hu : userId = ownerId
      · refine ⟨none, none, createAccount_lookup h ?_⟩
        rw [Table.lookup_modify, huser, Option.map_some, if_pos hu]
      · refine ⟨_, _, createAccount_lookup h ((Table.lookup_modify_ne hu).trans huser)⟩
  · exact ⟨_, _, createAccount_lookup h huser⟩

/-- Neither the exchange nor messages, events and recorded actions are a login's. -/
theorem accountForEmail_frame {email : String} {draws : LoginDraws} {newId : UserId}
    {b' : Backend} (h : b.accountForEmail env lib email draws = .ok (newId, b')) :
    b'.toExchange = b.toExchange ∧ b'.messages = b.messages ∧ b'.events = b.events ∧
      b'.moderationActions = b.moderationActions := by
  have hcreate {b₁ : Backend} (h : b₁.createAccount env lib email draws = .ok (newId, b')) :
      b'.toExchange = b₁.toExchange ∧ b'.messages = b₁.messages ∧ b'.events = b₁.events ∧
        b'.moderationActions = b₁.moderationActions := by
    simp only [createAccount, bind_ok, pure_ok, Prod.mk.injEq] at h
    obtain ⟨-, -, -, rfl⟩ := h
    exact ⟨rfl, rfl, rfl, rfl⟩
  unfold accountForEmail at h
  split at h
  · split_ifs at h
    · obtain ⟨-, rfl⟩ := Prod.mk.inj (pure_ok.mp h)
      exact ⟨rfl, rfl, rfl, rfl⟩
    · have hframe := hcreate h
      exact hframe
  · exact hcreate h

/-! ## Acts that are not about moderation -/

/-- The act is one of moderation, the outcome of an appeal, a sweep, a shutdown, or the
replacement of the directory that stands for the other modules. -/
def governs : BackendAct → Bool
  | .op (.directory ..) | .op (.moderate ..) | .lifecycle _ | .resolveAppeal ..
  | .emergencyShutdown .. => true
  | _ => false

/-- Events and recorded actions are the same; of a user the flags are, and the status
unless the account is deleted now. -/
structure KeepsAccounts (db db' : Db) : Prop where
  events : db'.events = db.events
  moderationActions : db'.moderationActions = db.moderationActions
  users : ∀ {u user}, db.users.lookup u = some user → ∃ user', db'.users.lookup u = some user' ∧
    user'.canRequest = user.canRequest ∧ user'.canHelp = user.canHelp ∧
    (user'.status = user.status ∨ user'.status = .deleted)

theorem KeepsAccounts.of_accounts {db db' : Db} (h : Db.SameAccounts db db') :
    KeepsAccounts db db' where
  events := h.events
  moderationActions := h.moderationActions
  users := fun {_ user} huser => ⟨user, h.users ▸ huser, rfl, rfl, .inl rfl⟩

/-- The rows are written over, with the flags and maybe the status that they had. -/
theorem KeepsAccounts.of_modify {db db' : Db} (hevents : db'.events = db.events)
    (hactions : db'.moderationActions = db.moderationActions)
    (husers : ∀ u, ∃ set : User → User, db'.users.lookup u = (db.users.lookup u).map set ∧
      ∀ user, (set user).canRequest = user.canRequest ∧ (set user).canHelp = user.canHelp ∧
        ((set user).status = user.status ∨ (set user).status = .deleted)) :
    KeepsAccounts db db' where
  events := hevents
  moderationActions := hactions
  users := by
    intro u user huser
    obtain ⟨set, hlookup, hset⟩ := husers u
    exact ⟨set user, by rw [hlookup, huser, Option.map_some], hset user⟩

theorem step_keepsAccounts {act : BackendAct} (hact : governs act = false) :
    KeepsAccounts b.toDb (b.step lib (env, act)).toDb := by
  have hcommit {result : Outcome Backend}
      (hok : ∀ b', result = .ok b' → KeepsAccounts b.toDb b'.toDb) :
      KeepsAccounts b.toDb (b.commit result).toDb := by
    rcases b.commit_cases result with hresult | hsame
    · exact hok _ hresult
    · rw [hsame]
      exact .of_accounts ⟨rfl, rfl, rfl⟩
  cases act with
  | op op =>
      rw [step_op]
      cases op with
      | directory | moderate => cases hact
      | deletionStatement userId statement =>
          cases statement with
          | anonymize avatarSeed =>
              refine .of_modify rfl rfl fun u => ⟨_, Table.lookup_modify _ _ _ _, fun user => ?_⟩
              split_ifs
              · exact ⟨rfl, rfl, .inr rfl⟩
              · exact ⟨rfl, rfl, .inl rfl⟩
          | _ => exact .of_accounts ⟨rfl, rfl, rfl⟩
      | _ => exact .of_accounts (Db.step_accounts rfl)
  | lifecycle | resolveAppeal | emergencyShutdown => cases hact
  | createAppeal userId moderationActionId body uuid =>
      refine hcommit fun b' hcreate => ?_
      simp only [Backend.createAppeal, bind_ok, pure_ok] at hcreate
      obtain ⟨-, -, -, -, -, -, rfl⟩ := hcreate
      exact .of_accounts ⟨rfl, rfl, rfl⟩
  | requestAccountDeletion userId confirmPseudonym uuid =>
      refine hcommit fun b' hrequest => ?_
      simp only [Backend.requestAccountDeletion, bind_ok, pure_ok] at hrequest
      obtain ⟨-, -, -, -, rfl⟩ := hrequest
      refine .of_modify rfl rfl fun u => ⟨_, Table.lookup_modify _ _ _ _, fun user => ?_⟩
      split_ifs
      · exact ⟨rfl, rfl, .inr rfl⟩
      · exact ⟨rfl, rfl, .inl rfl⟩
  | finishDataRequest id => exact .of_accounts ⟨rfl, rfl, rfl⟩
  | verifyOtp email consumed draws =>
      refine hcommit fun b' hverify => ?_
      simp only [Backend.verifyOtp, bind_ok, pure_ok] at hverify
      obtain ⟨-, -, ⟨newId, mid⟩, haccount, rfl⟩ := hverify
      obtain ⟨-, -, hevents, hactions⟩ := accountForEmail_frame haccount
      refine ⟨hevents, hactions, fun huser => ?_⟩
      obtain ⟨emailHmac, emailEnc, huser'⟩ := accountForEmail_lookup haccount huser
      exact ⟨_, huser', rfl, rfl, .inl rfl⟩
  | loginWithPassword username password draws =>
      refine hcommit fun b' hlogin => ?_
      simp only [Backend.loginWithPassword, bind_ok, pure_ok] at hlogin
      obtain ⟨-, -, -, -, -, -, -, -, rfl⟩ := hlogin
      exact .of_accounts ⟨rfl, rfl, rfl⟩

end Backend
end Sahay
