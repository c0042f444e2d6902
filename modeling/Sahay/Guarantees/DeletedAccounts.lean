import Sahay.Refinement.Accounts

/-!
# Deleted accounts

An account that has been deleted stays deleted whatever appeals, logins, sweeps and
data requests do.  Only a suspension or an unsuspension of the deleted user, which
`moderate` writes without a look at the status, brings the account back.
-/

namespace Sahay

def Db.Deleted (u : UserId) (db : Db) : Prop :=
  ∃ user, db.users.lookup u = some user ∧ user.status = .deleted

instance (u : UserId) (db : Db) : Decidable (db.Deleted u) :=
  decidable_of_iff ((db.users.lookup u).any fun user => decide (user.status = .deleted)) (by
    simp [Db.Deleted, Option.any_eq_true])

/-- The action would set the status of `u`. -/
def AdminModerateInput.setsStatusOf (input : AdminModerateInput) (u : UserId) : Prop :=
  (input.action = .suspend ∨ input.action = .unsuspend) ∧ input.targetUserId = some u

/-- The act is not the replacement of the directory that stands for the other modules. -/
def BackendAct.keepsDirectory : BackendAct → Bool
  | .op (.directory ..) => false
  | _ => true

/-- A moderation action that its caller may take and that sets the status of `u`. -/
def Backend.SetsStatus (b : Backend) (u : UserId) (i : Env × BackendAct) : Prop :=
  ∃ token input auth, i.2 = .op (.moderate token input) ∧ input.setsStatusOf u ∧
    b.authenticateModerator i.1.now token = .ok auth ∧
    actionAllowedForRole input.action auth.role input.durationHours = true

/-! ## One step -/

namespace Db.Deleted

variable {lib : TextLib} {b b' : Backend} {u : UserId} {env : Env}

theorem of_users {db db' : Db} (h : db.Deleted u) (husers : db'.users = db.users) :
    db'.Deleted u := by
  obtain ⟨user, huser, hstatus⟩ := h
  exact ⟨user, husers ▸ huser, hstatus⟩

theorem lifecycle {db : Db} (h : db.Deleted u) (statement : LifecycleStatement) :
    (db.lifecycleStatement env statement).Deleted u := by
  obtain ⟨user, huser, hstatus⟩ := h
  refine ⟨db.swept env statement u user, ?_, ?_⟩
  · rw [Db.lifecycleStatement_lookup, huser, Option.map_some]
  · cases statement with
    | liftSuspensions =>
        have hnot : user.suspensionLapsed env.now = false := by
          simp [User.suspensionLapsed, hstatus]
        simp only [Db.swept, hnot, Bool.false_eq_true, if_false]
        exact hstatus
    | restoreFlags =>
        simp only [Db.swept]
        split_ifs <;> exact hstatus
    | _ => exact hstatus

theorem moderated {db db' : Db} {input : AdminModerateInput} (h : db.Deleted u)
    (hother : ¬input.setsStatusOf u) (hmoderates : Db.Moderates env input db db') :
    db'.Deleted u := by
  cases hmoderates with
  | onUser hkind htarget huser' husers hevents hrecords =>
      rename_i userId user'
      obtain ⟨user, huser, hstatus⟩ := h
      by_cases hu : u = userId
      · subst hu
        obtain rfl := Option.some.inj (huser.symm.trans huser')
        refine ⟨input.onUser env.now user, ?_, ?_⟩
        · rw [husers, Table.lookup_replace huser', if_pos rfl]
        · unfold AdminModerateInput.onUser
          cases haction : input.action with
          | suspend => exact absurd ⟨.inl haction, htarget⟩ hother
          | unsuspend => exact absurd ⟨.inr haction, htarget⟩ hother
          | _ => exact hstatus
      · refine ⟨user, ?_, hstatus⟩
        rw [husers, Table.lookup_replace huser', if_neg hu, huser]
  | onEvent _ _ _ husers => exact h.of_users husers
  | other _ _ husers => exact h.of_users husers

theorem of_keepsAccounts {db db' : Db} (h : db.Deleted u) (hkeeps : Backend.KeepsAccounts db db') :
    db'.Deleted u := by
  obtain ⟨user, huser, hstatus⟩ := h
  obtain ⟨user', huser', -, -, hsame | hdeleted⟩ := hkeeps.users huser
  · exact ⟨user', huser', hsame.trans hstatus⟩
  · exact ⟨user', huser', hdeleted⟩

theorem op {op : Op} (h : b.toDb.Deleted u) (hkeeps : (BackendAct.op op).keepsDirectory)
    (hother : ¬b.SetsStatus u (env, .op op)) : (b.step lib (env, .op op)).toDb.Deleted u := by
  cases op with
  | directory dir => cases hkeeps
  | moderate token input =>
      rcases b.toDb.step_cases (env, .moderate token input) with ⟨effects, hexec⟩ | hsame
      · obtain ⟨auth, hauth, hallowed, hmoderates⟩ := Db.exec_moderate hexec
        refine h.moderated (fun hsets => hother ?_) hmoderates
        exact ⟨token, input, auth, rfl, hsets, hauth, hallowed⟩
      · rw [Backend.step_op, hsame]
        exact h
  | _ => exact h.of_keepsAccounts (Backend.step_keepsAccounts rfl)

theorem resolveAppeal {actorId : UserId} {appealId : AppealId} {outcome : AppealOutcome}
    {reason : String} (h : b.toDb.Deleted u)
    (hresolve : b.resolveAppeal env actorId appealId outcome reason = .ok b') :
    b'.toDb.Deleted u := by
  obtain ⟨user, huser, hstatus⟩ := h
  obtain ⟨appeal, action, -, -, -, -, -, husers⟩ := Backend.resolveAppeal_ok hresolve
  refine ⟨_, husers ▸ Backend.resolvedUsers_lookup huser, ?_⟩
  split_ifs
  · unfold Backend.overturn
    cases action.action with
    | suspend =>
        have hnot : ¬user.status = .suspended := by
          rw [hstatus]
          decide
        simp only [if_neg hnot]
        exact hstatus
    | _ => exact hstatus
  · exact hstatus

theorem step (h : b.toDb.Deleted u) {i : Env × BackendAct}
    (hkeeps : i.2.keepsDirectory) (hother : ¬b.SetsStatus u i) :
    (b.step lib i).toDb.Deleted u := by
  obtain ⟨env, act⟩ := i
  cases act with
  | op op => exact h.op hkeeps hother
  | lifecycle statement => exact h.lifecycle statement
  | resolveAppeal actorId appealId outcome reason =>
      rcases b.commit_cases (b.resolveAppeal env actorId appealId outcome reason) with
        hresolve | hsame
      · exact h.resolveAppeal hresolve
      · exact h.of_users (congrArg (fun b' : Backend => b'.users) hsame)
  | emergencyShutdown actorId reason => exact h
  | _ => exact h.of_keepsAccounts (Backend.step_keepsAccounts rfl)

end Db.Deleted

/-! ## Runs -/

namespace Backend

variable {lib : TextLib} {b : Backend} {u : UserId}

/-- A deleted account stays deleted as long as nobody who may suspends or unsuspends it. -/
theorem staysDeleted_of_not_setsStatus (h : b.toDb.Deleted u) {is : List (Env × BackendAct)}
    (hrun : Along (step lib) (fun b i => i.2.keepsDirectory ∧ ¬b.SetsStatus u i) b is) :
    (runFrom (step lib) b is).toDb.Deleted u :=
  Along.invariant (P := fun b : Backend => b.toDb.Deleted u)
    (fun _ _ hb hi => hb.step hi.1 hi.2) h hrun

/-- The moderator suspends a user for an hour, and suspensions that have run out are
lifted later. -/
def suspendForAnHour (userId : UserId) : List (Env × BackendAct) :=
  let input : AdminModerateInput :=
    { action := .suspend, targetUserId := some userId, reason := "spam", durationHours := some 1 }
  [(SmallEvent.clock 2, .op (.moderate (SmallEvent.token 4) input)),
   (SmallEvent.clock 3600003, .lifecycle .liftSuspensions)]

def deletion : Outcome Backend :=
  SmallEvent.staffed.requestAccountDeletion (SmallEvent.clock 1) SmallEvent.text 2 "" 0

/-- User 2 has asked for the deletion, and another user is suspended. -/
theorem staysDeleted_of_not_setsStatus_other : ∃ b, deletion = .ok b ∧
    (runFrom (step SmallEvent.text) b (suspendForAnHour 1)).toDb.Deleted 2 := by
  obtain ⟨b, hb, hdeleted⟩ := exists_ok (p := fun b : Backend => decide (b.toDb.Deleted 2))
    (show deletion.toOption.any _ = true by decide +kernel)
  refine ⟨b, hb, staysDeleted_of_not_setsStatus (of_decide_eq_true hdeleted)
    ⟨⟨rfl, ?_⟩, ⟨rfl, ?_⟩, trivial⟩⟩
  · rintro ⟨token, input, auth, hact, ⟨-, htarget⟩, -⟩
    cases hact
    cases htarget
  · rintro ⟨token, input, auth, hact, -⟩
    cases hact

/-- User 2 has asked for the deletion and is suspended: once the suspension has run out the
account is active again. -/
theorem staysDeleted_fails : ∃ b, deletion = .ok b ∧ b.toDb.Deleted 2 ∧
    Along (step SmallEvent.text) (fun _ i => i.2.keepsDirectory) b (suspendForAnHour 2) ∧
    ¬(runFrom (step SmallEvent.text) b (suspendForAnHour 2)).toDb.Deleted 2 := by
  obtain ⟨b, hb, hrun⟩ := exists_ok (p := fun b : Backend => decide (b.toDb.Deleted 2) &&
      !decide ((runFrom (step SmallEvent.text) b (suspendForAnHour 2)).toDb.Deleted 2))
    (show deletion.toOption.any _ = true by decide +kernel)
  simp only [Bool.and_eq_true, decide_eq_true_eq, Bool.not_eq_true',
    decide_eq_false_iff_not] at hrun
  exact ⟨b, hb, hrun.1, ⟨rfl, rfl, trivial⟩, hrun.2⟩

end Backend
end Sahay
