import Sahay.Refinement.ModerationCancel
import Sahay.Server.Sweep

/-!
# What a sweep leaves open

A match that closes while the sweep is on its way makes its cancellation throw,
and the matches behind it in the list are never reached.  A sweep closes all of
its targets exactly when, whenever it comes to a match that is no longer active,
no active one is left behind it.
-/

namespace Sahay

namespace Db

variable {db db' : Db} {env : Env} {effects : List Effect}

def isActive (db : Db) (matchId : MatchId) : Bool :=
  (db.matchRows.lookup matchId).any fun m => m.status = .active

theorem isActive_iff {matchId : MatchId} : db.isActive matchId = true ↔
    ∃ m, db.matchRows.lookup matchId = some m ∧ m.status = .active := by
  simp [isActive, Option.any_eq_true]

/-! ## The targets are active when the sweep begins -/

theorem mem_sweepTargets_map {ids : List MatchId} {reason : String} {t : MatchId × String} :
    t ∈ sweepTargets (ids.map fun id => .cancelMatchForModeration id reason) ↔
      t.1 ∈ ids ∧ t.2 = reason := by
  obtain ⟨id, reason'⟩ := t
  simp only [sweepTargets, List.mem_filterMap, List.mem_map, Effect.target?]
  constructor
  · rintro ⟨_, ⟨id, hid, rfl⟩, h⟩
    obtain ⟨rfl, rfl⟩ := Prod.mk.inj (Option.some.inj h)
    exact ⟨hid, rfl⟩
  · rintro ⟨hid, rfl⟩
    exact ⟨_, ⟨id, hid, rfl⟩, rfl⟩

@[simp] theorem target?_moderationOutcome (userId : UserId) (actionId : ActionId) :
    (moderationOutcome userId actionId).target? = none := rfl

theorem sweepTargets_outcome (userId : Option UserId) (actionId : ActionId) :
    sweepTargets (userId.map fun id => moderationOutcome id actionId).toList = [] := by
  cases userId <;> rfl

theorem sweepTargets_append (effects effects' : List Effect) :
    sweepTargets (effects ++ effects') = sweepTargets effects ++ sweepTargets effects' :=
  List.filterMap_append

theorem mem_activeMatchesOf {userId : UserId} {matchId : MatchId}
    (h : matchId ∈ db.activeMatchesOf env userId) : db.isActive matchId = true := by
  obtain ⟨m, hm, hp⟩ := Env.mem_selectIds.mp h
  exact isActive_iff.mpr ⟨m, hm, of_decide_eq_true (Bool.and_eq_true_iff.mp hp).1⟩

theorem suspend_targets {actorId : UserId} {input : AdminModerateInput}
    (h : db.suspend env actorId input = .ok (effects, db')) :
    ∀ t ∈ sweepTargets effects, db'.isActive t.1 = true := by
  simp only [suspend, bind_ok, pure_ok, Prod.mk.injEq] at h
  obtain ⟨userId, -, rfl, rfl⟩ := h
  intro t ht
  rw [sweepTargets_append, List.mem_append] at ht
  rcases ht with ht | ht
  · exact mem_activeMatchesOf (mem_sweepTargets_map.mp ht).1
  · simp [sweepTargets] at ht

theorem disableEvent_targets {actorId : UserId} {input : AdminModerateInput}
    (h : db.disableEvent env actorId input = .ok (effects, db')) :
    ∀ t ∈ sweepTargets effects, db'.isActive t.1 = true := by
  simp only [disableEvent, bind_ok, pure_ok, Prod.mk.injEq] at h
  obtain ⟨eventId, -, db₁, -, rfl, rfl⟩ := h
  intro t ht
  obtain ⟨m, hm, hp⟩ := Env.mem_selectIds.mp (mem_sweepTargets_map.mp ht).1
  exact isActive_iff.mpr ⟨m, hm, of_decide_eq_true (Bool.and_eq_true_iff.mp hp).2⟩

theorem moderate_targets {auth : AuthContext} {input : AdminModerateInput}
    (h : db.moderate env auth input = .ok (effects, db')) :
    ∀ t ∈ sweepTargets effects, db'.isActive t.1 = true := by
  simp only [moderate, bind_ok, ensure_ok] at h
  obtain ⟨-, -, h⟩ := h
  cases haction : input.action <;> simp only [haction] at h
  case suspend => exact suspend_targets h
  case eventDisable => exact disableEvent_targets h
  case matchCancel =>
    simp only [bind_ok, found_ok, pure_ok, Prod.mk.injEq] at h
    obtain ⟨matchId, -, m, hm, rfl, rfl⟩ := h
    intro t ht
    split_ifs at ht with hactive
    · simp only [sweepTargets, List.filterMap, Effect.target?, List.mem_singleton] at ht
      exact isActive_iff.mpr ⟨m, ht ▸ hm, hactive⟩
    · cases ht
  case warn | restrictRequests | restrictHelping | unsuspend =>
    simp only [moderateUser, bind_ok, pure_ok, Prod.mk.injEq] at h
    obtain ⟨userId, -, rfl, -⟩ := h
    simp [sweepTargets]
  case eventPause | eventUnpause | eventApprovePublic =>
    simp only [bind_ok, pure_ok, Prod.mk.injEq] at h
    obtain ⟨r, -, rfl, -⟩ := h
    simp [sweepTargets]
  case eventRejectPublic =>
    simp only [bind_ok, pure_ok, Prod.mk.injEq] at h
    obtain ⟨r, -, rfl, -⟩ := h
    rw [sweepTargets_outcome]
    simp
  case reportResolve | reportDismiss =>
    simp only [moderateReport, bind_ok, pure_ok, Prod.mk.injEq] at h
    obtain ⟨reportId, -, report, -, rfl, -⟩ := h
    rw [sweepTargets_outcome]
    simp

theorem Sweeps.targets (h : db.Sweeps effects) :
    ∀ t ∈ sweepTargets effects, db.isActive t.1 = true := by
  cases h with
  | moderation hdb₀ h =>
      obtain ⟨auth, -, h⟩ := bind_ok.mp h
      exact moderate_targets h
  | deletion env userId =>
      exact fun t ht => mem_activeMatchesOf (mem_sweepTargets_map.mp ht).1

theorem Sweeps.reached (h : db.Sweeps effects) : db.Reached := by
  cases h with
  | moderation hdb₀ h => exact step_of_ok (i := (_, .moderate _ _)) h ▸ hdb₀.next _
  | deletion env userId hdb => exact hdb

theorem step_match_mem (hx : db.toExchange.Consistent) (i : Env × Op) {matchId : MatchId}
    (hmem : matchId ∈ db.matchRows) : matchId ∈ (db.step i).matchRows := by
  obtain ⟨m, hm⟩ := Table.mem_iff_exists.mp hmem
  obtain ⟨m', hm', -⟩ := (step_keeps hx i).matchRows matchId m hm
  exact Table.mem_iff_exists.mpr ⟨m', hm'⟩

theorem step_not_active (hx : db.toExchange.Consistent) (i : Env × Op) {matchId : MatchId}
    (hmem : matchId ∈ db.matchRows) (hclosed : db.isActive matchId = false) :
    (db.step i).isActive matchId = false := by
  obtain ⟨m, hm⟩ := Table.mem_iff_exists.mp hmem
  have hstatus : m.status ≠ .active := by simpa [isActive, hm] using hclosed
  simp [isActive, step_closed_stays hx i hm hstatus, hstatus]

theorem cancelMatchForModeration_isActive {matchId : MatchId} {reason : String}
    (hx : db.toExchange.Consistent)
    (h : db.cancelMatchForModeration env matchId reason = .ok (effects, db')) (k : MatchId) :
    db'.isActive k = (decide (k ≠ matchId) && db.isActive k) := by
  obtain ⟨m, -, -, hm, -, hrows, -⟩ := cancelMatchForModeration_ok hx h
  rw [isActive, hrows, Table.lookup_replace hm]
  by_cases hk : k = matchId
  · simp [hk, Match.cancelledAs]
  · simp [hk, isActive]

end Db

/-! ## The loop -/

namespace Sweeping

variable {s : Sweeping} {i : Env × SweepAct} {targets : List (MatchId × String)}

def ClosesAll (targets : List (MatchId × String)) (s : Sweeping) : Prop :=
  s.todo = [] → ∀ t ∈ targets, s.db.isActive t.1 = false

instance (targets : List (MatchId × String)) (s : Sweeping) : Decidable (s.ClosesAll targets) :=
  inferInstanceAs (Decidable (_ → _))

def inTime (s : Sweeping) (i : Env × SweepAct) : Bool :=
  match i.2, s.todo with
  | .next, t :: todo => s.db.isActive t.1 || todo.all fun t => !s.db.isActive t.1
  | _, _ => true

/-- What holds of a loop in time. -/
structure Sound (targets : List (MatchId × String)) (s : Sweeping) : Prop where
  consistent : s.db.Consistent
  known : ∀ t ∈ targets, t.1 ∈ s.db.matchRows
  left : ∀ t ∈ s.todo, t ∈ targets
  closed : ∀ t ∈ targets, t ∈ s.todo ∨ s.db.isActive t.1 = false

theorem Sound.closesAll (h : s.Sound targets) : s.ClosesAll targets := by
  intro hend t ht
  rcases h.closed t ht with htodo | hclosed
  · rw [hend] at htodo
    cases htodo
  · exact hclosed

theorem Sound.start {db : Db} {effects : List Effect} (h : db.Sweeps effects) :
    (start db effects).Sound (sweepTargets effects) where
  consistent := h.reached.consistent
  known t ht := by
    obtain ⟨m, hm, -⟩ := Db.isActive_iff.mp (h.targets t ht)
    exact Table.mem_iff_exists.mpr ⟨m, hm⟩
  left _ ht := ht
  closed _ ht := .inl ht

theorem Sound.op (h : s.Sound targets) (env : Env) (op : Op) :
    (s.step (env, .op op)).Sound targets where
  consistent := s.db.step_consistent (env, op) h.consistent
  known t ht := Db.step_match_mem h.consistent.exchange _ (h.known t ht)
  left := h.left
  closed t ht := (h.closed t ht).imp_right fun hclosed =>
    Db.step_not_active h.consistent.exchange _ (h.known t ht) hclosed

theorem Sound.cancelled (h : s.Sound targets) {t : MatchId × String}
    {todo : List (MatchId × String)} (htodo : s.todo = t :: todo) {env : Env}
    {effects : List Effect} {db' : Db}
    (hcancel : s.db.cancelMatchForModeration env t.1 t.2 = .ok (effects, db')) :
    Sound targets ⟨db', todo⟩ := by
  have hstep : s.db.step (env, .cancelMatchForModeration t.1 t.2) = db' := Db.step_of_ok hcancel
  have hactive := Db.cancelMatchForModeration_isActive h.consistent.exchange hcancel
  constructor
  · exact hstep ▸ s.db.step_consistent _ h.consistent
  · exact fun t ht => hstep ▸ Db.step_match_mem h.consistent.exchange _ (h.known t ht)
  · exact fun t ht => h.left t (htodo ▸ List.mem_cons_of_mem _ ht)
  · intro t' ht'
    have hold := h.closed t' ht'
    rw [htodo, List.mem_cons] at hold
    rcases hold with (rfl | htail) | hclosed
    · simp [hactive]
    · exact .inl htail
    · simp [hactive, hclosed]

theorem Sound.over (h : s.Sound targets) (hnone : ∀ t ∈ s.todo, s.db.isActive t.1 = false) :
    Sound targets ⟨s.db, []⟩ where
  consistent := h.consistent
  known := h.known
  left _ ht := by cases ht
  closed t ht := .inr ((h.closed t ht).elim (hnone t) id)

theorem step_thrown {env : Env} {t : MatchId × String} {todo : List (MatchId × String)}
    (hx : s.db.toExchange.Consistent) (htodo : s.todo = t :: todo)
    (hclosed : s.db.isActive t.1 = false) : s.step (env, .next) = ⟨s.db, []⟩ := by
  simp only [step, htodo]
  cases hcancel : s.db.cancelMatchForModeration env t.1 t.2 with
  | error e => rfl
  | ok r =>
      obtain ⟨m, -, -, hm, hactive, -⟩ := Db.cancelMatchForModeration_ok hx hcancel
      rw [Db.isActive_iff.mpr ⟨m, hm, hactive⟩] at hclosed
      cases hclosed

theorem step_sound (h : s.Sound targets) (htime : s.inTime i = true) :
    (s.step i).Sound targets := by
  obtain ⟨env, op | _⟩ := i
  · exact h.op env op
  · cases htodo : s.todo with
    | nil => simpa only [step, htodo] using h
    | cons t todo =>
        by_cases hactive : s.db.isActive t.1 = true
        · obtain ⟨m, hm, hstatus⟩ := Db.isActive_iff.mp hactive
          obtain ⟨effects, db', hcancel⟩ :=
            Db.cancelMatchForModeration_commits env t.2 h.consistent hm hstatus
          simp only [step, htodo, hcancel]
          exact h.cancelled htodo hcancel
        · rw [Bool.not_eq_true] at hactive
          rw [step_thrown h.consistent.exchange htodo hactive]
          refine h.over ?_
          simpa [inTime, htodo, hactive] using htime

theorem inTime_of_closesAll (h : s.Sound targets) (hcloses : (s.step i).ClosesAll targets) :
    s.inTime i = true := by
  obtain ⟨env, op | _⟩ := i
  · rfl
  · cases htodo : s.todo with
    | nil => simp [inTime, htodo]
    | cons t todo =>
        by_cases hactive : s.db.isActive t.1 = true
        · simp [inTime, htodo, hactive]
        · rw [Bool.not_eq_true] at hactive
          rw [step_thrown h.consistent.exchange htodo hactive] at hcloses
          have hrest (t' : MatchId × String) (ht' : t' ∈ todo) : s.db.isActive t'.1 = false :=
            hcloses rfl t' (h.left t' (htodo ▸ List.mem_cons_of_mem _ ht'))
          simp only [inTime, htodo, hactive, Bool.false_or, List.all_eq_true, Bool.not_eq_true']
          exact hrest

/-- A sweep closes all of its targets exactly when each of its turns is in time. -/
theorem closesAll_iff_inTime {db : Db} {effects : List Effect} (h : db.Sweeps effects)
    (is : List (Env × SweepAct)) :
    Along step (fun s i => (s.step i).ClosesAll (sweepTargets effects)) (start db effects) is ↔
      Along step (fun s i => s.inTime i = true) (start db effects) is := by
  constructor
  · refine Along.strengthen (P := Sound (sweepTargets effects)) ?_ ?_ (.start h)
    · exact fun s i hs hcloses => step_sound hs (inTime_of_closesAll hs hcloses)
    · exact fun s i hs hcloses => inTime_of_closesAll hs hcloses
  · refine Along.strengthen (P := Sound (sweepTargets effects)) ?_ ?_ (.start h)
    · exact fun s i hs htime => step_sound hs htime
    · exact fun s i hs htime => (step_sound hs htime).closesAll

/-- The sweep of user 2's deletion closes the match of the small event. -/
theorem closesAll_iff_inTime_oneMatch :
    let db := runFrom Db.step Db.empty SmallEvent.oneMatch
    let effects := db.deletionSweep (SmallEvent.clock 5) 2
    sweepTargets effects = [(40, "account_deleted")] ∧
      Along step (fun s i => (s.step i).ClosesAll (sweepTargets effects)) (start db effects)
        [(SmallEvent.clock 6, .next)] :=
  ⟨by decide +kernel,
    (closesAll_iff_inTime (.deletion (SmallEvent.clock 5) 2 ⟨_, rfl⟩) _).mpr (by decide +kernel)⟩

/-- The requester of match 42 cancels it when user 2 has been suspended; the sweep
stops there and match 41 stays active. -/
theorem closesAll_fails :
    ∃ effects db, (runFrom Db.step Db.empty SmallEvent.twoMatches).exec (SmallEvent.clock 10)
        (.moderate (SmallEvent.token 3)
          { action := .suspend, targetUserId := some 2, reason := "spam" }) = .ok (effects, db) ∧
      db.Sweeps effects ∧ (41, "moderation_suspend") ∈ sweepTargets effects ∧
      ¬Along step (fun s i => (s.step i).ClosesAll (sweepTargets effects)) (start db effects)
        [(SmallEvent.clock 11, .op (.cancelMatch (SmallEvent.token 1) 42 .changedMind none)),
         (SmallEvent.clock 12, .next)] := by
  obtain ⟨⟨effects, db⟩, hexec, hrun⟩ := exists_ok (p := fun r =>
      decide ((41, "moderation_suspend") ∈ sweepTargets r.1) &&
      !decide (Along step (fun s i => (s.step i).ClosesAll (sweepTargets r.1)) (start r.2 r.1)
        [(SmallEvent.clock 11, .op (.cancelMatch (SmallEvent.token 1) 42 .changedMind none)),
         (SmallEvent.clock 12, .next)]))
    (show ((runFrom Db.step Db.empty SmallEvent.twoMatches).exec (SmallEvent.clock 10)
      (.moderate (SmallEvent.token 3)
        { action := .suspend, targetUserId := some 2, reason := "spam" })).toOption.any _ = true
      by decide +kernel)
  simp only [Bool.and_eq_true, decide_eq_true_eq, Bool.not_eq_true',
    decide_eq_false_iff_not] at hrun
  exact ⟨effects, db, hexec, .moderation ⟨_, rfl⟩ hexec, hrun.1, hrun.2⟩

end Sweeping
end Sahay
