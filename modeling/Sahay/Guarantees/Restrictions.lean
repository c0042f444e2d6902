import Sahay.Guarantees.DeletedAccounts

/-!
# Restriction flags

Two flags of a user say whether the user may ask and may help.  Restrictions switch them
off; unsuspensions, appeals and the lifecycle sweep switch them on again, each after a
look at a part of what is on record only.  An overturned restriction switches its flag on
though another of its kind is in force, and the sweep leaves both flags alone as long as
any restriction on record has not run out, also one of the other kind or one that an
appeal or an unsuspension has lifted.  Without these, the flags after a sweep are the
restrictions in force.
-/

namespace Sahay

def User.allows (user : User) : ModerationActionKind → Bool
  | .restrictRequests => user.canRequest
  | .restrictHelping => user.canHelp
  | _ => true

def ModerationActionKind.setsFlags : ModerationActionKind → Bool
  | .restrictRequests | .restrictHelping | .unsuspend => true
  | _ => false

/-- A backend, with the restrictions of a user that neither an appeal nor an unsuspension
has lifted so far, and the time of its last step. -/
structure Tracked where
  backend : Backend
  standing : List ActionId := []
  clock : Time := 0

namespace Tracked

variable (lib : TextLib) (u : UserId) (s : Tracked)

/-- Some standing restriction of the kind has not run out before `t`. -/
def inForce (kind : ModerationActionKind) (t : Time) : Bool :=
  s.standing.any fun id => (s.backend.moderationActions.lookup id).any fun row =>
    row.action = kind && !row.isExpired t

/-- The restrictions that stand once the action `id` on `u` is on record. -/
def standingAfterAction (input : AdminModerateInput) (id : ActionId) : List ActionId :=
  if input.targetUserId = some u then
    match input.action with
    | .restrictRequests | .restrictHelping => id :: s.standing
    | .unsuspend => []
    | _ => s.standing
  else s.standing

def lift (id : ActionId) : Tracked := { s with standing := s.standing.filter fun i => i ≠ id }

/-- The restrictions that stand after the act. -/
def standingAfter (i : Env × BackendAct) : List ActionId :=
  match i.2 with
  | .op (.moderate token input) =>
      if (s.backend.exec i.1 (.moderate token input)).toOption.isSome then
        s.standingAfterAction u input
          (s.backend.moderationActions.freshKey i.1.uuid.moderationAction)
      else s.standing
  | .resolveAppeal actorId appealId .overturned reason =>
      if (s.backend.resolveAppeal i.1 actorId appealId .overturned reason).toOption.isSome then
        (s.backend.appeals.lookup appealId).elim s.standing fun appeal =>
          (s.lift appeal.moderationActionId).standing
      else s.standing
  | _ => s.standing

def step (i : Env × BackendAct) : Tracked :=
  { backend := s.backend.step lib i
    standing := s.standingAfter u i
    clock := i.1.now }

/-- No other restriction of the kind is in force when one is overturned, and when the
sweep finds a flag of `u` off with no restriction behind it in force, every restriction
of `u` on record has run out.  The clock does not go back. -/
def Regular (i : Env × BackendAct) : Prop :=
  i.2.keepsDirectory ∧ s.clock ≤ i.1.now ∧
    match i.2 with
    | .resolveAppeal _ appealId .overturned _ => ∀ appeal action,
        s.backend.appeals.lookup appealId = some appeal →
        s.backend.moderationActions.lookup appeal.moderationActionId = some action →
        action.targetUserId = some u →
          (s.lift appeal.moderationActionId).inForce action.action i.1.now = false
    | .lifecycle .restoreFlags => ∀ user kind, s.backend.users.lookup u = some user →
        user.allows kind = false → s.inForce kind i.1.now = false →
          ∀ id row, s.backend.moderationActions.lookup id = some row →
            row.restricts u = true → row.isExpired i.1.now = true
    | _ => True

def FlagsInForce (t : Time) : Prop :=
  ∃ user, s.backend.users.lookup u = some user ∧
    (user.canHelp = false ↔ s.inForce .restrictHelping t = true) ∧
    (user.canRequest = false ↔ s.inForce .restrictRequests t = true)

/-! ## The invariant -/

/-- Between two sweeps a flag may still be off though what switched it off has run out. -/
structure Faithful (user : User) : Prop where
  found : s.backend.users.lookup u = some user
  onRecord : ∀ id ∈ s.standing, ∃ row, s.backend.moderationActions.lookup id = some row ∧
    row.restricts u = true
  enforced : ∀ {kind t}, s.clock ≤ t → s.inForce kind t = true → user.allows kind = false
  explained : ∀ {kind}, user.allows kind = false → ∃ id ∈ s.standing, ∃ row,
    s.backend.moderationActions.lookup id = some row ∧ row.action = kind

variable {lib u s} {s' : Tracked} {user user' : User} {kind : ModerationActionKind} {t t' : Time}
  {env : Env}

theorem inForce_iff : s.inForce kind t = true ↔ ∃ id ∈ s.standing, ∃ row,
    s.backend.moderationActions.lookup id = some row ∧ row.action = kind ∧
      row.isExpired t = false := by
  simp [inForce, Option.any_eq_true]

theorem isExpired_mono {row : ModerationAction} (hle : t ≤ t') (h : row.isExpired t = true) :
    row.isExpired t' = true := by
  simp only [ModerationAction.isExpired, Option.any_eq_true, decide_eq_true_eq] at h ⊢
  obtain ⟨e, he, hlt⟩ := h
  exact ⟨e, he, lt_of_lt_of_le hlt hle⟩

theorem inForce_anti (hle : t ≤ t') (h : s.inForce kind t' = true) : s.inForce kind t = true := by
  obtain ⟨id, hmem, row, hrow, hkind, hrunning⟩ := inForce_iff.mp h
  refine inForce_iff.mpr ⟨id, hmem, row, hrow, hkind, ?_⟩
  by_contra hexpired
  rw [isExpired_mono hle (Bool.not_eq_false _ ▸ hexpired)] at hrunning
  cases hrunning

theorem inForce_of_rows (hstanding : s'.standing = s.standing)
    (hrows : ∀ id ∈ s.standing, s'.backend.moderationActions.lookup id =
      s.backend.moderationActions.lookup id) : s'.inForce kind t = s.inForce kind t := by
  rw [Bool.eq_iff_iff, inForce_iff, inForce_iff, hstanding]
  constructor
  · rintro ⟨id, hmem, row, hrow, hkind⟩
    exact ⟨id, hmem, row, hrows id hmem ▸ hrow, hkind⟩
  · rintro ⟨id, hmem, row, hrow, hkind⟩
    exact ⟨id, hmem, row, (hrows id hmem).trans hrow, hkind⟩

theorem allows_of_flags (hrequest : user'.canRequest = user.canRequest)
    (hhelp : user'.canHelp = user.canHelp) (kind : ModerationActionKind) :
    user'.allows kind = user.allows kind := by
  cases kind <;> first | rfl | exact hrequest | exact hhelp

/-- An act that neither lifts nor adds a restriction of `u`. -/
theorem Faithful.keep (h : s.Faithful u user) (hstanding : s'.standing = s.standing)
    (hclock : s.clock ≤ s'.clock) (huser : s'.backend.users.lookup u = some user')
    (hflags : ∀ kind, user'.allows kind = user.allows kind)
    (hrows : ∀ id ∈ s.standing, s'.backend.moderationActions.lookup id =
      s.backend.moderationActions.lookup id) : s'.Faithful u user' where
  found := huser
  onRecord := by
    intro id hmem
    rw [hstanding] at hmem
    rw [hrows id hmem]
    exact h.onRecord id hmem
  enforced := by
    intro kind t hle hforce
    rw [hflags]
    exact h.enforced (hclock.trans hle) (inForce_of_rows hstanding hrows ▸ hforce)
  explained := by
    intro kind hoff
    obtain ⟨id, hmem, row, hrow, hkind⟩ := h.explained (hflags kind ▸ hoff)
    exact ⟨id, hstanding ▸ hmem, row, (hrows id hmem).trans hrow, hkind⟩

/-! ## Moderation -/

theorem Faithful.lookup_fresh (h : s.Faithful u user) {proposed : ActionId}
    {row : ModerationAction} {id : ActionId} (hmem : id ∈ s.standing) :
    (s.backend.moderationActions.put (s.backend.moderationActions.freshKey proposed) row).lookup
      id = s.backend.moderationActions.lookup id := by
  obtain ⟨row', hrow', -⟩ := h.onRecord id hmem
  refine (Table.lookup_put _ _ _ _).trans (if_neg ?_)
  rintro rfl
  exact Table.freshKey_notMem _ _ (Table.mem_iff_exists.mpr ⟨row', hrow'⟩)

/-- What a restriction adds: itself, with its flag. -/
theorem Faithful.restrict (h : s.Faithful u user) {id : ActionId} {row : ModerationAction}
    (hstanding : s'.standing = id :: s.standing) (hclock : s.clock ≤ s'.clock)
    (huser : s'.backend.users.lookup u = some user')
    (hrow : s'.backend.moderationActions.lookup id = some row) (hrestricts : row.restricts u = true)
    (hrows : ∀ id ∈ s.standing, s'.backend.moderationActions.lookup id =
      s.backend.moderationActions.lookup id)
    (hflags : ∀ kind, user'.allows kind = false ↔ kind = row.action ∨ user.allows kind = false) :
    s'.Faithful u user' where
  found := huser
  onRecord := by
    intro id' hmem
    rw [hstanding] at hmem
    rcases List.mem_cons.mp hmem with rfl | hmem
    · exact ⟨row, hrow, hrestricts⟩
    · rw [hrows id' hmem]
      exact h.onRecord id' hmem
  enforced := by
    intro kind t hle hforce
    obtain ⟨id', hmem, row', hrow', hkind, hrunning⟩ := inForce_iff.mp hforce
    rw [hstanding] at hmem
    rw [hflags]
    rcases List.mem_cons.mp hmem with rfl | hmem
    · obtain rfl := Option.some.inj (hrow.symm.trans hrow')
      exact .inl hkind.symm
    · refine .inr (h.enforced (hclock.trans hle) (inForce_iff.mpr ?_))
      exact ⟨id', hmem, row', hrows id' hmem ▸ hrow', hkind, hrunning⟩
  explained := by
    intro kind hoff
    rcases (hflags kind).mp hoff with rfl | hoff
    · exact ⟨id, hstanding ▸ List.mem_cons_self, row, hrow, rfl⟩
    · obtain ⟨id', hmem, row', hrow', hkind⟩ := h.explained hoff
      exact ⟨id', hstanding ▸ List.mem_cons_of_mem _ hmem, row', (hrows id' hmem).trans hrow',
        hkind⟩

/-- With both flags on and nothing standing the flags are right. -/
theorem Faithful.of_clear (huser : s.backend.users.lookup u = some user)
    (hstanding : s.standing = []) (hrequest : user.canRequest = true)
    (hhelp : user.canHelp = true) : s.Faithful u user where
  found := huser
  onRecord := by
    intro id hmem
    rw [hstanding] at hmem
    cases hmem
  enforced := by
    intro kind t _ hforce
    obtain ⟨id, hmem, -⟩ := inForce_iff.mp hforce
    rw [hstanding] at hmem
    cases hmem
  explained := by
    intro kind hoff
    cases kind <;> simp [User.allows, hrequest, hhelp] at hoff

theorem onUser_allows {input : AdminModerateInput} {now : Time} :
    (input.onUser now user).allows kind = false ↔
      (input.action.isRestriction = true ∧ kind = input.action) ∨
        (input.action ≠ .unsuspend ∧ user.allows kind = false) := by
  unfold AdminModerateInput.onUser
  cases input.action <;> cases kind <;> simp [User.allows, ModerationActionKind.isRestriction]

theorem ne_unsuspend_of_isRestriction {action : ModerationActionKind}
    (h : action.isRestriction = true) : action ≠ .unsuspend := by
  rintro rfl
  cases h

theorem isOnUser_of_setsFlags {action : ModerationActionKind} (h : action.setsFlags = true) :
    action.isOnUser = true ∧ action.isOnEvent = false := by
  cases action <;> first | exact ⟨rfl, rfl⟩ | cases h

theorem standingAfterAction_of_not {input : AdminModerateInput} {id : ActionId}
    (h : input.targetUserId = some u → input.action.setsFlags = false) :
    s.standingAfterAction u input id = s.standing := by
  unfold standingAfterAction
  split_ifs with htarget
  · have hnot := h htarget
    cases haction : input.action <;> first | rfl | (rw [haction] at hnot; cases hnot)
  · rfl

/-- An action on `u` itself. -/
theorem Faithful.targeted (h : s.Faithful u user) {input : AdminModerateInput} {id : ActionId}
    {row : ModerationAction} (htarget : input.targetUserId = some u)
    (hstanding : s'.standing = s.standingAfterAction u input id) (hclock : s.clock ≤ s'.clock)
    (huser : s'.backend.users.lookup u = some (input.onUser env.now user))
    (hrow : s'.backend.moderationActions.lookup id = some row)
    (haction : row.action = input.action) (hrowTarget : row.targetUserId = some u)
    (hrows : ∀ id ∈ s.standing, s'.backend.moderationActions.lookup id =
      s.backend.moderationActions.lookup id) :
    s'.Faithful u (input.onUser env.now user) := by
  by_cases hrestriction : input.action.isRestriction = true
  · have hne := ne_unsuspend_of_isRestriction hrestriction
    refine h.restrict ?_ hclock huser hrow ?_ hrows fun kind => ?_
    · rw [hstanding, standingAfterAction, if_pos htarget]
      cases hinput : input.action <;> rw [hinput] at hrestriction <;>
        first | rfl | cases hrestriction
    · simp [ModerationAction.restricts, hrowTarget, haction, hrestriction]
    · rw [onUser_allows, haction]
      simp [hrestriction, hne]
  · by_cases hunsuspend : input.action = .unsuspend
    · refine .of_clear huser ?_ ?_ ?_
      · simp [hstanding, standingAfterAction, htarget, hunsuspend]
      · simp [AdminModerateInput.onUser, hunsuspend]
      · simp [AdminModerateInput.onUser, hunsuspend]
    · refine h.keep ?_ hclock huser (fun kind => ?_) hrows
      · rw [hstanding, standingAfterAction_of_not]
        intro _
        cases hinput : input.action <;> rw [hinput] at hrestriction hunsuspend <;>
          first | rfl | exact absurd rfl hrestriction | exact absurd rfl hunsuspend
      · rw [Bool.eq_iff_iff, ← not_iff_not, Bool.not_eq_true, Bool.not_eq_true, onUser_allows]
        simp [hrestriction, hunsuspend]

theorem Faithful.moderated (h : s.Faithful u user) {input : AdminModerateInput}
    (hmoderates : Db.Moderates env input s.backend.toDb s'.backend.toDb)
    (hstanding : s'.standing = s.standingAfterAction u input
      (s.backend.moderationActions.freshKey env.uuid.moderationAction))
    (hclock : s.clock ≤ s'.clock) : ∃ user', s'.Faithful u user' := by
  -- An action that is not on `u`.
  have hkeep {targetUserId : Option UserId} {expiresAt : Option Time}
      (hrecords : s.backend.toDb.Records env input targetUserId expiresAt s'.backend.toDb)
      (huser : s'.backend.users.lookup u = some user)
      (hnot : input.targetUserId = some u → input.action.setsFlags = false) :
      s'.Faithful u user := by
    obtain ⟨row, hput, -⟩ := hrecords
    exact h.keep (hstanding.trans (standingAfterAction_of_not hnot)) hclock huser (fun _ => rfl)
      fun id hmem => hput ▸ h.lookup_fresh hmem
  cases hmoderates with
  | onUser hkind htarget huser husers hevents hrecords =>
      rename_i userId target
      by_cases hu : u = userId
      · subst hu
        obtain rfl := Option.some.inj (h.found.symm.trans huser)
        obtain ⟨row, hput, haction, hrow, -⟩ := hrecords
        refine ⟨input.onUser env.now user, h.targeted htarget hstanding hclock ?_ ?_ haction hrow
          fun id hmem => hput ▸ h.lookup_fresh hmem⟩
        · rw [husers, Table.lookup_replace huser, if_pos rfl]
        · rw [hput, Table.lookup_put, if_pos rfl]
      · refine ⟨user, hkeep hrecords ?_ fun hu' => ?_⟩
        · rw [husers, Table.lookup_replace huser, if_neg hu]
          exact h.found
        · exact absurd (Option.some.inj (hu'.symm.trans htarget)) hu
  | onEvent hkind htarget hevent husers hevents hrecords =>
      refine ⟨user, hkeep hrecords (husers ▸ h.found) fun _ => ?_⟩
      by_contra hsets
      rw [(isOnUser_of_setsFlags (Bool.not_eq_false _ ▸ hsets)).2] at hkind
      cases hkind
  | other honUser honEvent husers hevents hrecords =>
      refine ⟨user, hkeep hrecords (husers ▸ h.found) fun _ => ?_⟩
      by_contra hsets
      rw [(isOnUser_of_setsFlags (Bool.not_eq_false _ ▸ hsets)).1] at honUser
      cases honUser

/-! ## The sweep -/

theorem flagsRestorable_iff {db : Db} {now : Time} :
    db.flagsRestorable now u user = true ↔
      (user.canRequest = false ∨ user.canHelp = false) ∧
        (∃ id row, db.moderationActions.lookup id = some row ∧ row.restricts u = true ∧
          row.isExpired now = true) ∧
        ∀ id row, db.moderationActions.lookup id = some row → row.restricts u = true →
          row.isExpired now = true := by
  simp only [Db.flagsRestorable, Bool.and_eq_true, Bool.or_eq_true, Bool.not_eq_true',
    and_assoc]
  refine and_congr_right' (and_congr ?_ ?_)
  · constructor
    · intro hfirst
      obtain ⟨⟨id, row⟩, hfirst⟩ := Option.isSome_iff_exists.mp hfirst
      obtain ⟨hrow, hexpired⟩ := Table.first_some hfirst
      exact ⟨id, row, hrow, Bool.and_eq_true _ _ |>.mp hexpired⟩
    · rintro ⟨id, row, hrow, hrestricts, hexpired⟩
      by_contra hnone
      have hall := Table.first_none.mp (Option.not_isSome_iff_eq_none.mp hnone) id row hrow
      simp [hrestricts, hexpired] at hall
  · rw [Option.isNone_iff_eq_none, Table.first_none]
    refine forall_congr' fun id => forall_congr' fun row => imp_congr_right fun _ => ?_
    cases row.restricts u <;> cases row.isExpired now <;> simp

theorem Faithful.lifecycle (h : s.Faithful u user) {statement : LifecycleStatement}
    (hbackend : s'.backend.toDb = s.backend.toDb.lifecycleStatement env statement)
    (hstanding : s'.standing = s.standing) (hclock : s'.clock = env.now)
    (hle : s.clock ≤ env.now) :
    s'.Faithful u (s.backend.toDb.swept env statement u user) := by
  have hactions : s'.backend.moderationActions = s.backend.moderationActions := by
    rw [hbackend, Db.lifecycleStatement_moderationActions]
  have huser : s'.backend.users.lookup u =
      some (s.backend.toDb.swept env statement u user) := by
    rw [hbackend, Db.lifecycleStatement_lookup, h.found, Option.map_some]
  have hkeep (hflags : ∀ kind, (s.backend.toDb.swept env statement u user).allows kind =
      user.allows kind) : s'.Faithful u (s.backend.toDb.swept env statement u user) :=
    h.keep hstanding (hclock ▸ hle) huser hflags fun id _ => by rw [hactions]
  cases statement with
  | liftSuspensions =>
      refine hkeep (allows_of_flags ?_ ?_)
      · simp only [Db.swept]
        split_ifs <;> rfl
      · simp only [Db.swept]
        split_ifs <;> rfl
  | restoreFlags =>
      by_cases hrestorable : s.backend.toDb.flagsRestorable env.now u user = true
      · -- Nothing is in force from now on, so both flags may be on.
        obtain ⟨-, -, hexpired⟩ := flagsRestorable_iff.mp hrestorable
        simp only [Db.swept, hrestorable, if_true] at huser ⊢
        refine ⟨huser, ?_, ?_, ?_⟩
        · intro id hmem
          rw [hactions]
          exact h.onRecord id (hstanding ▸ hmem)
        · intro kind t hlater hforce
          obtain ⟨id, hmem, row, hrow, -, hrunning⟩ := inForce_iff.mp hforce
          obtain ⟨row', hrow', hrestricts⟩ := h.onRecord id (hstanding ▸ hmem)
          rw [hactions] at hrow
          obtain rfl := Option.some.inj (hrow.symm.trans hrow')
          rw [isExpired_mono (hclock ▸ hlater) (hexpired id row hrow hrestricts)] at hrunning
          cases hrunning
        · intro kind hoff
          cases kind <;> cases hoff
      · refine hkeep fun kind => ?_
        simp only [Db.swept, if_neg hrestorable]
  | _ => exact hkeep fun _ => rfl

/-- What a sweep leaves off is in force. -/
theorem Faithful.inForce_of_off (h : s.Faithful u user)
    (hrecord : ∀ user kind, s.backend.users.lookup u = some user → user.allows kind = false →
      s.inForce kind t = false → ∀ id row, s.backend.moderationActions.lookup id = some row →
        row.restricts u = true → row.isExpired t = true)
    (hoff : user.allows kind = false)
    (hkept : s.backend.toDb.flagsRestorable t u user = false) : s.inForce kind t = true := by
  by_contra hnot
  rw [Bool.not_eq_true] at hnot
  have hall := hrecord user kind h.found hoff hnot
  obtain ⟨id, hmem, row, hrow, -⟩ := h.explained hoff
  obtain ⟨row', hrow', hrestricts⟩ := h.onRecord id hmem
  refine Bool.eq_false_iff.mp hkept (flagsRestorable_iff.mpr ⟨?_, ?_, hall⟩)
  · cases kind with
    | restrictRequests => exact .inl hoff
    | restrictHelping => exact .inr hoff
    | _ => cases hoff
  · exact ⟨id, row', hrow', hrestricts, hall id row' hrow' hrestricts⟩

/-! ## Appeals -/

theorem overturn_allows {action : ModerationAction} :
    (Backend.overturn action user).allows kind = false ↔
      user.allows kind = false ∧ ¬(action.action.isRestriction = true ∧ kind = action.action) := by
  unfold Backend.overturn
  cases action.action <;> cases kind <;>
    simp [User.allows, ModerationActionKind.isRestriction] <;> split_ifs <;> rfl

theorem mem_lift {id id' : ActionId} :
    id' ∈ (s.lift id).standing ↔ id' ∈ s.standing ∧ id' ≠ id := by
  simp [lift]

/-- An appeal that is won lifts its restriction, when no other of the kind is in force. -/
theorem Faithful.overturned (h : s.Faithful u user) {id : ActionId} {action : ModerationAction}
    (haction : s.backend.moderationActions.lookup id = some action)
    (hother : action.targetUserId = some u → (s.lift id).inForce action.action env.now = false)
    (hactions : s'.backend.moderationActions = s.backend.moderationActions)
    (hstanding : s'.standing = (s.lift id).standing) (hclock : s'.clock = env.now)
    (hle : s.clock ≤ env.now)
    (huser : s'.backend.users.lookup u = some
      (if action.targetUserId = some u then Backend.overturn action user else user)) :
    s'.Faithful u
      (if action.targetUserId = some u then Backend.overturn action user else user) where
  found := huser
  onRecord := by
    intro id' hmem
    rw [hstanding] at hmem
    rw [hactions]
    exact h.onRecord id' (mem_lift.mp hmem).1
  enforced := by
    intro kind t hlater hforce
    obtain ⟨id', hmem, row, hrow, hkind, hrunning⟩ := inForce_iff.mp hforce
    rw [hstanding] at hmem
    rw [hactions] at hrow
    have hlater' : env.now ≤ t := hclock ▸ hlater
    have hoff : user.allows kind = false := h.enforced (hle.trans hlater')
      (inForce_iff.mpr ⟨id', (mem_lift.mp hmem).1, row, hrow, hkind, hrunning⟩)
    split_ifs with htarget
    · refine overturn_allows.mpr ⟨hoff, ?_⟩
      rintro ⟨-, rfl⟩
      have hforce' : (s.lift id).inForce action.action t = true :=
        inForce_iff.mpr ⟨id', hmem, row, hrow, hkind, hrunning⟩
      rw [inForce_anti hlater' hforce'] at hother
      cases hother htarget
    · exact hoff
  explained := by
    intro kind hoff
    have hoff' : user.allows kind = false ∧ (action.targetUserId = some u →
        ¬(action.action.isRestriction = true ∧ kind = action.action)) := by
      split_ifs at hoff with htarget
      · exact ⟨(overturn_allows.mp hoff).1, fun _ => (overturn_allows.mp hoff).2⟩
      · exact ⟨hoff, fun h => absurd h htarget⟩
    obtain ⟨id', hmem, row, hrow, hkind⟩ := h.explained hoff'.1
    refine ⟨id', hstanding ▸ mem_lift.mpr ⟨hmem, ?_⟩, row, hactions ▸ hrow, hkind⟩
    -- The restriction behind a flag that stays off is not the one that was appealed.
    rintro rfl
    obtain rfl := Option.some.inj (haction.symm.trans hrow)
    obtain ⟨row', hrow', hrestricts⟩ := h.onRecord id' hmem
    obtain rfl := Option.some.inj (hrow.symm.trans hrow')
    simp only [ModerationAction.restricts, Bool.and_eq_true, decide_eq_true_eq] at hrestricts
    exact hoff'.2 hrestricts.1 ⟨hrestricts.2, hkind.symm⟩

/-! ## Runs -/

theorem Faithful.other (h : s.Faithful u user) {act : BackendAct}
    (hact : Backend.governs act = false) (hstanding : s.standingAfter u (env, act) = s.standing)
    (hle : s.clock ≤ env.now) : ∃ user', (s.step lib u (env, act)).Faithful u user' := by
  have hkeeps : Backend.KeepsAccounts s.backend.toDb (s.backend.step lib (env, act)).toDb :=
    Backend.step_keepsAccounts hact
  obtain ⟨user', huser', hrequest, hhelp, -⟩ := hkeeps.users h.found
  refine ⟨user', h.keep hstanding hle huser' (allows_of_flags hrequest hhelp) fun id _ => ?_⟩
  exact congrArg (AList.lookup id) hkeeps.moderationActions

theorem Faithful.op (h : s.Faithful u user) {op : Op}
    (hkeeps : (BackendAct.op op).keepsDirectory) (hle : s.clock ≤ env.now) :
    ∃ user', (s.step lib u (env, .op op)).Faithful u user' := by
  cases op with
  | directory dir => cases hkeeps
  | moderate token input =>
      cases hexec : s.backend.exec env (.moderate token input) with
      | ok r =>
          obtain ⟨-, -, -, hmoderates⟩ := Db.exec_moderate hexec
          rw [← Db.step_of_ok (i := (env, .moderate token input)) hexec] at hmoderates
          refine h.moderated hmoderates ?_ hle
          simp [step, standingAfter, hexec, Except.toOption]
      | error e =>
          have hsame : s.backend.toDb.step (env, .moderate token input) = s.backend.toDb := by
            simp only [Db.step, hexec]
          refine ⟨user, h.keep ?_ hle ?_ (fun _ => rfl) fun id _ => ?_⟩
          · simp [step, standingAfter, hexec, Except.toOption]
          · exact (congrArg (fun db : Db => db.users.lookup u) hsame).trans h.found
          · exact congrArg (fun db : Db => db.moderationActions.lookup id) hsame
  | _ => exact h.other rfl rfl hle

theorem Faithful.resolveAppeal (h : s.Faithful u user) {actorId : UserId} {appealId : AppealId}
    {outcome : AppealOutcome} {reason : String}
    (hregular : s.Regular u (env, .resolveAppeal actorId appealId outcome reason)) :
    ∃ user', (s.step lib u (env, .resolveAppeal actorId appealId outcome reason)).Faithful u
      user' := by
  obtain ⟨-, hle, hother⟩ := hregular
  cases hresolve : s.backend.resolveAppeal env actorId appealId outcome reason with
  | error e =>
      have hsame : s.backend.step lib (env, .resolveAppeal actorId appealId outcome reason) =
          s.backend := by
        simp only [Backend.step, hresolve, Backend.commit]
      refine ⟨user, h.keep ?_ hle ?_ (fun _ => rfl) fun id _ => ?_⟩
      · cases outcome <;> simp [step, standingAfter, hresolve, Except.toOption]
      · exact (congrArg (fun b : Backend => b.users.lookup u) hsame).trans h.found
      · exact congrArg (fun b : Backend => b.moderationActions.lookup id) hsame
  | ok b' =>
      have hb' : s.backend.step lib (env, .resolveAppeal actorId appealId outcome reason) = b' := by
        simp only [Backend.step, hresolve, Backend.commit]
      obtain ⟨appeal, action, happeal, haction, -, -, hactions, husers⟩ :=
        Backend.resolveAppeal_ok hresolve
      have huser : b'.users.lookup u = some
          (if outcome = .overturned ∧ action.targetUserId = some u then Backend.overturn action user
          else user) := husers ▸ Backend.resolvedUsers_lookup h.found
      rw [← hb'] at hactions huser
      cases outcome with
      | upheld =>
          refine ⟨user, h.keep rfl hle ?_ (fun _ => rfl) fun id _ => ?_⟩
          · exact huser.trans (by simp)
          · exact congrArg (AList.lookup id) hactions
      | overturned =>
          refine ⟨_, h.overturned haction (hother appeal action happeal haction) hactions ?_ rfl
            hle ?_⟩
          · simp [step, standingAfter, hresolve, happeal, Except.toOption]
          · exact huser.trans (by simp)

theorem Faithful.step (h : s.Faithful u user) {i : Env × BackendAct} (hregular : s.Regular u i) :
    ∃ user', (s.step lib u i).Faithful u user' := by
  obtain ⟨env, act⟩ := i
  cases act with
  | op op => exact h.op hregular.1 hregular.2.1
  | lifecycle statement => exact ⟨_, h.lifecycle rfl rfl rfl hregular.2.1⟩
  | resolveAppeal actorId appealId outcome reason => exact h.resolveAppeal hregular
  | emergencyShutdown actorId reason =>
      exact ⟨user, h.keep rfl hregular.2.1 h.found (fun _ => rfl) fun _ _ => rfl⟩
  | _ => exact h.other rfl rfl hregular.2.1

theorem Faithful.flagsInForce (h : s.Faithful u user) {env : Env}
    (hregular : s.Regular u (env, .lifecycle .restoreFlags)) :
    (s.step lib u (env, .lifecycle .restoreFlags)).FlagsInForce u env.now := by
  obtain ⟨-, hle, hrecord⟩ := hregular
  have hswept : (s.step lib u (env, .lifecycle .restoreFlags)).Faithful u
      (s.backend.toDb.swept env .restoreFlags u user) := h.lifecycle rfl rfl rfl hle
  have hiff (kind : ModerationActionKind) :
      (s.backend.toDb.swept env .restoreFlags u user).allows kind = false ↔
        (s.step lib u (env, .lifecycle .restoreFlags)).inForce kind env.now = true := by
    refine ⟨fun hoff => ?_, hswept.enforced le_rfl⟩
    rw [inForce_of_rows rfl fun id _ => rfl]
    by_cases hrestorable : s.backend.toDb.flagsRestorable env.now u user = true
    · simp only [Db.swept, hrestorable, if_true] at hoff
      cases kind <;> cases hoff
    · simp only [Db.swept, if_neg hrestorable] at hoff
      exact h.inForce_of_off hrecord hoff (Bool.not_eq_true _ ▸ hrestorable)
  exact ⟨_, hswept.found, hiff .restrictHelping, hiff .restrictRequests⟩

/-- When no restriction is overturned beside another of its kind in force, and no sweep
meets a flag that is off for nothing while a restriction on record has not run out, every
sweep leaves the flags as the restrictions in force have them. -/
theorem flagsInForce_of_regular (env : Env) (h : s.backend.users.lookup u = some user)
    (hrequest : user.canRequest = true) (hhelp : user.canHelp = true) (hnone : s.standing = [])
    {is : List (Env × BackendAct)} (hrun : Along (step lib u)
      (Regular u) s (is ++ [(env, .lifecycle .restoreFlags)])) :
    (runFrom (step lib u) s (is ++ [(env, .lifecycle .restoreFlags)])).FlagsInForce u env.now := by
  obtain ⟨hbefore, hsweep, -⟩ := Along.append.mp hrun
  have hinvariant : ∃ user, (runFrom (step lib u) s is).Faithful u user := by
    refine Along.invariant (P := fun s : Tracked => ∃ user, s.Faithful u user) ?_
      ⟨user, .of_clear h hnone hrequest hhelp⟩ hbefore
    rintro s i ⟨user, hs⟩ hregular
    exact hs.step hregular
  obtain ⟨user', hfaithful⟩ := hinvariant
  rw [runFrom, List.foldl_append]
  exact hfaithful.flagsInForce hsweep

instance : Decidable (s.FlagsInForce u t) :=
  decidable_of_iff ((s.backend.users.lookup u).any fun user =>
      decide ((user.canHelp = false ↔ s.inForce .restrictHelping t = true) ∧
        (user.canRequest = false ↔ s.inForce .restrictRequests t = true))) (by
    simp [FlagsInForce, Option.any_eq_true])

theorem regular_sweep (hle : s.clock ≤ env.now)
    (h : (s.backend.users.lookup u).all (fun user =>
      (user.canHelp || s.inForce .restrictHelping env.now) &&
        (user.canRequest || s.inForce .restrictRequests env.now)) = true) :
    s.Regular u (env, .lifecycle .restoreFlags) := by
  refine ⟨rfl, hle, fun user kind huser hoff hnot => ?_⟩
  rw [huser, Option.all_some, Bool.and_eq_true, Bool.or_eq_true, Bool.or_eq_true] at h
  cases kind with
  | restrictHelping =>
      rw [hnot, show user.canHelp = false from hoff] at h
      simp at h
  | restrictRequests =>
      rw [hnot, show user.canRequest = false from hoff] at h
      simp at h
  | _ => cases hoff

/-- An appeal that is won where no other restriction of the user is in force. -/
theorem regular_overturn {actorId : UserId} {appealId : AppealId} {reason : String}
    (hle : s.clock ≤ env.now)
    (h : (s.backend.appeals.lookup appealId).all (fun appeal =>
      (s.backend.moderationActions.lookup appeal.moderationActionId).all fun action =>
        !(s.lift appeal.moderationActionId).inForce action.action env.now) = true) :
    s.Regular u (env, .resolveAppeal actorId appealId .overturned reason) := by
  refine ⟨rfl, hle, fun appeal action happeal haction _ => ?_⟩
  rw [happeal, Option.all_some, haction, Option.all_some, Bool.not_eq_true'] at h
  exact h

/-- What staff member `actorId` does to user 2 at `now`, on record under `id`. -/
def moderates (actorId : UserId) (now : Time) (id : ActionId) (action : ModerationActionKind)
    (durationHours : Option ℕ) : Env × BackendAct :=
  (SmallEvent.clock now id, .op (.moderate (SmallEvent.token actorId)
    { action := action, targetUserId := some 2, reason := "spam", durationHours := durationHours }))

/-- User 2 appeals the action `id`, and wins. -/
def wins (id : ActionId) : List (Env × BackendAct) :=
  [(SmallEvent.clock 3, .createAppeal 2 id "Not me." 60),
   (SmallEvent.clock 4, .resolveAppeal 3 60 .overturned "mistaken")]

def sweepAt (now : Time) : Env × BackendAct := (SmallEvent.clock now, .lifecycle .restoreFlags)

def unrestricted : Tracked := { backend := SmallEvent.staffed }

/-- A restriction to help for an hour, and one to ask that is overturned. -/
theorem flagsInForce_of_regular_appealed :
    (runFrom (step SmallEvent.text 2) unrestricted
      (moderates 4 1 90 .restrictHelping (some 1) :: moderates 4 2 91 .restrictRequests none ::
        wins 91 ++ [sweepAt 5])).FlagsInForce 2 5 := by
  obtain ⟨user, huser, hflags⟩ := Option.any_eq_true _ _ |>.mp
    (show (unrestricted.backend.users.lookup 2).any
      (fun user => user.canRequest && user.canHelp) = true by decide +kernel)
  rw [Bool.and_eq_true] at hflags
  refine flagsInForce_of_regular (SmallEvent.clock 5) huser hflags.1 hflags.2 rfl ?_
  refine ⟨⟨rfl, by decide, trivial⟩, ⟨rfl, by decide, trivial⟩, ⟨rfl, by decide, trivial⟩,
    regular_overturn (by decide) (by decide +kernel), regular_sweep (by decide) (by decide +kernel),
    trivial⟩

/-- Of two restrictions to help the first is overturned: the flag is on, the second in
force.  A restriction without an end that was lifted stays on record: no sweep switches the
flag of another one on that has run out. -/
theorem flagsInForce_fails :
    ¬(runFrom (step SmallEvent.text 2) unrestricted
      (moderates 4 1 90 .restrictHelping none :: moderates 4 2 91 .restrictHelping none ::
        wins 90 ++ [sweepAt 5])).FlagsInForce 2 5 ∧
    ¬(runFrom (step SmallEvent.text 2) unrestricted
      [moderates 4 1 90 .restrictHelping none, moderates 3 2 91 .unsuspend none,
        moderates 4 3 92 .restrictRequests (some 1), sweepAt 3600004]).FlagsInForce 2 3600004 := by
  constructor <;> decide +kernel

end Tracked
end Sahay
