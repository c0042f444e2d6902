import Sahay.Refinement.Accounts

/-!
# The end of an administrator's suspension

Moderators suspend for a bounded time, and only administrators lift a suspension.  But
the end of a suspension is one column, and a second suspension overwrites it: a
moderator who suspends a suspended user sets the end anew.  The administrator's end
holds as long as no moderator sets an earlier one.
-/

namespace Sahay

/-- A measure with this end lasts as long as one that ends at `limit`. -/
def outlasts (ends limit : Option Time) : Bool :=
  ends.all fun e => limit.any fun t => t ≤ e

namespace Backend

variable {lib : TextLib} {b : Backend} {u : UserId} {limit : Option Time}

/-- An administrator's suspension of `u` until `limit` has just committed. -/
inductive AdminSuspended (u : UserId) : Option Time → Backend → Prop
  | intro {b : Backend} {env : Env} {token : String} {input : AdminModerateInput}
      {auth : AuthContext} {effects : List Effect} {db : Db}
      (hauth : b.authenticateModerator env.now token = .ok auth) (hrole : auth.role = .admin)
      (haction : input.action = .suspend) (htarget : input.targetUserId = some u)
      (hcall : b.exec env (.moderate token input) = .ok (effects, db)) :
      AdminSuspended u (expiryAfterHours env.now input.durationHours) { b with toDb := db }

/-- A moderation action of a moderator, a cancellation of its sweep, or a statement of
the lifecycle sweep. -/
def ByModerators (b : Backend) (i : Env × BackendAct) : Prop :=
  match i.2 with
  | .lifecycle _ => True
  | .op (.moderate token _) =>
      ∀ auth, b.authenticateModerator i.1.now token = .ok auth → auth.role = .moderator
  | .op (.cancelMatchForModeration ..) => True
  | _ => False

/-- The act does not suspend `u` with an end before `limit`. -/
def Upholds (u : UserId) (limit : Option Time) (_ : Backend) (i : Env × BackendAct) : Prop :=
  match i.2 with
  | .op (.moderate _ input) => input.action = .suspend → input.targetUserId = some u →
      outlasts (expiryAfterHours i.1.now input.durationHours) limit = true
  | _ => True

/-- No session, whoever holds it, is that of `u` as an active user. -/
def NotActive (u : UserId) (now : Time) (b : Backend) : Prop :=
  ∀ (sessions : Table SessionId Session) (token : String) (auth : AuthContext),
    ({ b.toDirectory with sessions := sessions } : Directory).resolveAuth now token = some auth →
      auth.userId = u → auth.status ≠ .active

/-- The user is suspended, at least until `limit`. -/
def SuspendedUntil (u : UserId) (limit : Option Time) (db : Db) : Prop :=
  ∃ user, db.users.lookup u = some user ∧ user.status = .suspended ∧
    outlasts user.suspendedUntil limit = true

/-! ## One step -/

/-- Before `limit` no suspension that outlasts it has run out. -/
theorem all_lt_of_outlasts {ends : Option Time} {now : Time}
    (houtlasts : outlasts ends limit = true) (hbefore : limit.all fun t => now < t) :
    (ends.all fun e => now < e) = true := by
  cases ends with
  | none => rfl
  | some e =>
      cases limit with
      | none => cases houtlasts
      | some t =>
          simp only [outlasts, Option.all_some, Option.any_some, decide_eq_true_eq] at *
          exact lt_of_lt_of_le hbefore houtlasts

theorem SuspendedUntil.not_active {db : Db} (h : SuspendedUntil u limit db) {now : Time}
    (hbefore : limit.all fun t => now < t) {user : User} (huser : db.users.lookup u = some user) :
    user.effectiveStatus now = .suspended := by
  obtain ⟨user', huser', hstatus, houtlasts⟩ := h
  obtain rfl := Option.some.inj (huser.symm.trans huser')
  exact if_pos ⟨hstatus, all_lt_of_outlasts houtlasts hbefore⟩

theorem SuspendedUntil.lifecycle {db : Db} (h : SuspendedUntil u limit db) {env : Env}
    (statement : LifecycleStatement) (hbefore : limit.all fun t => env.now < t) :
    SuspendedUntil u limit (db.lifecycleStatement env statement) := by
  obtain ⟨user, huser, hstatus, houtlasts⟩ := h
  refine ⟨db.swept env statement u user, ?_, ?_⟩
  · rw [Db.lifecycleStatement_lookup, huser, Option.map_some]
  · have hrunning := all_lt_of_outlasts houtlasts hbefore
    have hnot : user.suspensionLapsed env.now = false := by
      cases huntil : user.suspendedUntil with
      | none => simp [User.suspensionLapsed, huntil]
      | some e =>
          rw [huntil, Option.all_some, decide_eq_true_eq] at hrunning
          simp [User.suspensionLapsed, huntil, hrunning.le]
    cases statement with
    | liftSuspensions =>
        simp only [Db.swept, hnot, Bool.false_eq_true, if_false]
        exact ⟨hstatus, houtlasts⟩
    | restoreFlags =>
        simp only [Db.swept]
        split_ifs
        · exact ⟨hstatus, houtlasts⟩
        · exact ⟨hstatus, houtlasts⟩
    | _ => exact ⟨hstatus, houtlasts⟩

/-- Of a moderator's actions only another suspension touches the user's suspension. -/
theorem SuspendedUntil.moderated {db db' : Db} (h : SuspendedUntil u limit db) {env : Env}
    {input : AdminModerateInput}
    (hallowed : actionAllowedForRole input.action .moderator input.durationHours = true)
    (hupholds : input.action = .suspend → input.targetUserId = some u →
      outlasts (expiryAfterHours env.now input.durationHours) limit = true)
    (hmoderates : Db.Moderates env input db db') : SuspendedUntil u limit db' := by
  obtain ⟨user, huser, hstatus, houtlasts⟩ := h
  cases hmoderates with
  | onUser hkind htarget huser' husers hevents hrecords =>
      rename_i userId user'
      by_cases hu : u = userId
      · subst hu
        obtain rfl := Option.some.inj (huser.symm.trans huser')
        refine ⟨input.onUser env.now user, ?_, ?_⟩
        · rw [husers, Table.lookup_replace huser', if_pos rfl]
        · unfold AdminModerateInput.onUser
          cases haction : input.action with
          | suspend => exact ⟨rfl, hupholds haction htarget⟩
          | unsuspend =>
              rw [haction] at hallowed
              cases hallowed
          | _ => exact ⟨hstatus, houtlasts⟩
      · refine ⟨user, ?_, hstatus, houtlasts⟩
        rw [husers, Table.lookup_replace huser', if_neg hu, huser]
  | onEvent _ _ _ husers => exact ⟨user, husers ▸ huser, hstatus, houtlasts⟩
  | other _ _ husers => exact ⟨user, husers ▸ huser, hstatus, houtlasts⟩

theorem SuspendedUntil.step (h : SuspendedUntil u limit b.toDb) {i : Env × BackendAct}
    (hact : ByModerators b i) (hupholds : Upholds u limit b i)
    (hbefore : limit.all fun t => i.1.now < t) :
    SuspendedUntil u limit (b.step lib i).toDb := by
  obtain ⟨env, act⟩ := i
  cases act with
  | lifecycle statement => exact h.lifecycle statement hbefore
  | op op =>
      cases op with
      | moderate token input =>
          rcases b.toDb.step_cases (env, .moderate token input) with ⟨effects, hexec⟩ | hsame
          · obtain ⟨auth, hauth, hallowed, hmoderates⟩ := Db.exec_moderate hexec
            rw [hact auth hauth] at hallowed
            exact h.moderated hallowed hupholds hmoderates
          · rw [step_op, hsame]
            exact h
      | cancelMatchForModeration matchId reason =>
          have hsame :=
            b.toDb.step_accounts (i := (env, .cancelMatchForModeration matchId reason)) rfl
          obtain ⟨user, huser, hsuspended⟩ := h
          exact ⟨user, hsame.users ▸ huser, hsuspended⟩
      | _ => exact absurd hact id
  | _ => exact absurd hact id

/-! ## Runs -/

theorem AdminSuspended.suspendedUntil (h : AdminSuspended u limit b) :
    SuspendedUntil u limit b.toDb := by
  obtain ⟨hauth, hrole, haction, htarget, hcall⟩ := h
  rename_i b₀ env token input auth effects db
  obtain ⟨-, -, -, hmoderates⟩ := Db.exec_moderate hcall
  cases hmoderates with
  | onUser hkind htarget' huser husers hevents hrecords =>
      rename_i userId user
      obtain rfl := Option.some.inj (htarget.symm.trans htarget')
      refine ⟨input.onUser env.now user, ?_, ?_⟩
      · rw [husers, Table.lookup_replace huser, if_pos rfl]
      · simp only [AdminModerateInput.onUser, haction]
        refine ⟨trivial, ?_⟩
        cases expiryAfterHours env.now input.durationHours with
        | none => rfl
        | some t => exact decide_eq_true (le_refl t)
  | onEvent hkind =>
      rw [haction] at hkind
      cases hkind
  | other honUser =>
      rw [haction] at honUser
      cases honUser

/-- Until the end that an administrator has set for the suspension of `u`, and as long
as no moderator sets an earlier one, no session is that of `u` as an active user. -/
theorem notActive_of_upholds (h : AdminSuspended u limit b) {now : Time}
    (hbefore : limit.all fun t => now < t) {is : List (Env × BackendAct)}
    (hrun : Along (step lib)
      (fun b i => ByModerators b i ∧ Upholds u limit b i ∧ i.1.now ≤ now) b is) :
    (runFrom (step lib) b is).NotActive u now := by
  have hsuspended : SuspendedUntil u limit (runFrom (step lib) b is).toDb := by
    refine Along.invariant (P := fun b : Backend => SuspendedUntil u limit b.toDb) ?_
      h.suspendedUntil hrun
    rintro b i hb ⟨hact, hupholds, hclock⟩
    refine hb.step hact hupholds ?_
    cases limit with
    | none => rfl
    | some t => exact decide_eq_true (lt_of_le_of_lt hclock (of_decide_eq_true hbefore))
  intro sessions token auth hauth hu hactive
  let held : Db := { (runFrom (step lib) b is).toDb with sessions := sessions }
  obtain ⟨user, huser, -, hstatus, -⟩ :=
    Db.resolveAuth_some (show held.resolveAuth now token = some auth from hauth)
  rw [hsuspended.not_active hbefore (hu ▸ huser)] at hstatus
  rw [hstatus] at hactive
  cases hactive

def suspendTwo (durationHours : Option ℕ) : AdminModerateInput :=
  { action := .suspend, targetUserId := some 2, reason := "spam", durationHours := durationHours }

/-- The moderator suspends user 2, and suspensions that have run out are lifted later. -/
def suspendAgain (durationHours : ℕ) (later : Time) : List (Env × BackendAct) :=
  [(SmallEvent.clock 2, .op (.moderate (SmallEvent.token 4) (suspendTwo (some durationHours)))),
   (SmallEvent.clock later, .lifecycle .liftSuspensions)]

theorem staffed_admin : ∃ auth,
    SmallEvent.staffed.authenticateModerator (SmallEvent.clock 1).now (SmallEvent.token 3) =
      .ok auth ∧ auth.role = .admin := by
  obtain ⟨auth, hauth, hrole⟩ := exists_ok
    (p := fun auth : AuthContext => decide (auth.role = .admin))
    (show (SmallEvent.staffed.authenticateModerator (SmallEvent.clock 1).now
      (SmallEvent.token 3)).toOption.any _ = true by decide +kernel)
  exact ⟨auth, hauth, of_decide_eq_true hrole⟩

theorem byModerators_of_token {env : Env} {token : String} {input : AdminModerateInput}
    (h : (b.authenticateModerator env.now token).toOption.all
      (fun auth => decide (auth.role = .moderator)) = true) :
    ByModerators b (env, .op (.moderate token input)) := by
  intro auth hauth
  rw [hauth] at h
  exact of_decide_eq_true h

/-- Two days by the administrator, a week by the moderator. -/
theorem notActive_of_upholds_week : ∃ b, AdminSuspended 2 (some 172800001) b ∧
    (runFrom (step SmallEvent.text) b (suspendAgain 168 3)).NotActive 2 4 := by
  obtain ⟨auth, hauth, hrole⟩ := staffed_admin
  obtain ⟨⟨effects, db⟩, hcall, hmoderator⟩ := exists_ok (p := fun r : List Effect × Db =>
      (r.2.authenticateModerator 2 (SmallEvent.token 4)).toOption.all
        (fun auth : AuthContext => decide (auth.role = .moderator)))
    (show (SmallEvent.staffed.exec (SmallEvent.clock 1)
      (.moderate (SmallEvent.token 3) (suspendTwo (some 48)))).toOption.any _ = true by
        decide +kernel)
  have hsuspended : AdminSuspended 2 (some 172800001) { SmallEvent.staffed with toDb := db } :=
    .intro hauth hrole rfl rfl hcall
  refine ⟨_, hsuspended, notActive_of_upholds hsuspended (by decide) ⟨?_, ?_, trivial⟩⟩
  · exact ⟨byModerators_of_token hmoderator, fun _ _ => by decide, by decide⟩
  · exact ⟨trivial, trivial, by decide⟩

/-- Without an end by the administrator, for an hour by the moderator: after the hour user
2 is active again. -/
theorem notActive_fails : ∃ b, AdminSuspended 2 none b ∧
    Along (step SmallEvent.text) (fun b i => ByModerators b i ∧ i.1.now ≤ 3600003) b
      (suspendAgain 1 3600003) ∧
    ¬(runFrom (step SmallEvent.text) b (suspendAgain 1 3600003)).NotActive 2 3600003 := by
  obtain ⟨auth, hauth, hrole⟩ := staffed_admin
  obtain ⟨⟨effects, db⟩, hcall, hrun⟩ := exists_ok (p := fun r : List Effect × Db =>
      let last := runFrom (step SmallEvent.text) { SmallEvent.staffed with toDb := r.2 }
        (suspendAgain 1 3600003)
      (r.2.authenticateModerator 2 (SmallEvent.token 4)).toOption.all
        (fun auth : AuthContext => decide (auth.role = .moderator)) &&
      (({ last.toDirectory with sessions := SmallEvent.staffed.sessions } :
        Directory).resolveAuth 3600003 (SmallEvent.token 2)).any
          fun auth : AuthContext => decide (auth.userId = 2 ∧ auth.status = .active))
    (show (SmallEvent.staffed.exec (SmallEvent.clock 1)
      (.moderate (SmallEvent.token 3) (suspendTwo none))).toOption.any _ = true by decide +kernel)
  rw [Bool.and_eq_true] at hrun
  obtain ⟨hmoderator, hactive⟩ := hrun
  refine ⟨{ SmallEvent.staffed with toDb := db }, .intro hauth hrole rfl rfl hcall,
    ⟨⟨byModerators_of_token hmoderator, by decide⟩, ⟨trivial, by decide⟩, trivial⟩, ?_⟩
  intro hnot
  obtain ⟨auth', hauth', hactive⟩ := Option.any_eq_true _ _ |>.mp hactive
  rw [decide_eq_true_eq] at hactive
  exact hnot _ _ auth' hauth' hactive.1 hactive.2

end Backend
end Sahay
