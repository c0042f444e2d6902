import Sahay.Refinement.System
import Sahay.Server.Sweep

/-!
# Suspended users

A suspension ends the matches of its user and refuses every call of theirs, but
it leaves their open requests in the pool, where the matching passes and other
helpers carry on with them.  A suspended user who has no request left in the
pool when the suspension has completed gets into no new match.
-/

namespace Sahay

namespace Db

variable {db : Db} {u : UserId}

/-- The suspension of `u` has completed in `db`: its transaction has committed and
its sweep has ended, whatever ran in between. -/
inductive SuspensionCompleted (u : UserId) : Db → Prop
  | intro {db₀ db₁ : Db} {env : Env} {token : String} {input : AdminModerateInput}
      {effects : List Effect} (sweep : List (Env × SweepAct)) (hdb₀ : db₀.Reached)
      (haction : input.action = .suspend) (htarget : input.targetUserId = some u)
      (hcall : db₀.exec env (.moderate token input) = .ok (effects, db₁))
      (hend : (runFrom Sweeping.step (.start db₁ effects) sweep).todo = []) :
      SuspensionCompleted u (runFrom Sweeping.step (.start db₁ effects) sweep).db

def isSuspended (db : Db) (u : UserId) (now : Time) : Bool :=
  (db.users.lookup u).all fun user => user.effectiveStatus now = .suspended

def OutOfPool (db : Db) (u : UserId) : Prop :=
  ∀ rid r, db.requests.lookup rid = some r → r.requesterId = u → r.status.isActive = false

instance (db : Db) (u : UserId) : Decidable (db.OutOfPool u) :=
  db.requests.decidableForall fun _ r => r.requesterId = u → r.status.isActive = false

def MakesNoMatch (u : UserId) (db : Db) (i : Env × Op) : Prop :=
  ∀ mid m, (db.step i).matchRows.lookup mid = some m → m.requesterId = u ∨ m.helperId = u →
    mid ∈ db.matchRows

instance (u : UserId) (db : Db) (i : Env × Op) : Decidable (db.MakesNoMatch u i) :=
  (db.step i).matchRows.decidableForall fun mid m =>
    m.requesterId = u ∨ m.helperId = u → mid ∈ db.matchRows

/-! ## One step -/

theorem not_caller_of_suspended {env : Env} {op : Op} {effects : List Effect} {db' : Db}
    (hsuspended : db.isSuspended u env.now = true) (h : db.exec env op = .ok (effects, db')) :
    db.callerOf env op ≠ some u := by
  intro hcaller
  obtain ⟨user, huser, hstatus⟩ := caller_not_suspended h hcaller
  rw [isSuspended, huser, Option.all_some, decide_eq_true_eq] at hsuspended
  exact hstatus hsuspended

theorem step_outOfPool (hx : db.toExchange.Consistent) {i : Env × Op}
    (hsuspended : db.isSuspended u i.1.now = true) (hout : db.OutOfPool u) :
    (db.step i).OutOfPool u := by
  intro rid r' hr' howner
  rw [← Bool.not_eq_true]
  intro hactive
  rcases step_pool_before hx i with hkeeps | ⟨effects, rid₀, r₀, h, hentered⟩
  · obtain ⟨r, hr, hactive, hid⟩ := hkeeps rid r' hr' hactive
    simp only [Request.identity, Prod.mk.injEq] at hid
    rw [hout rid r hr (hid.2.1.symm.trans howner)] at hactive
    cases hactive
  · have hother : r₀.requesterId ≠ u := by
      have hcaller := not_caller_of_suspended hsuspended h
      rintro rfl
      cases hentered with
      | created hcreates => exact hcaller hcreates.1
      | reopened r hreopens hr hsame => exact hcaller (hsame ▸ hreopens.1)
    have hold (hlookup : db.requests.lookup rid = some r') : False := by
      rw [hout rid r' hlookup howner] at hactive
      cases hactive
    cases hentered with
    | created hcreates hfresh hput =>
        rw [hput, Table.lookup_put] at hr'
        split_ifs at hr' with hk
        · exact hother (Option.some.inj hr' ▸ howner)
        · exact hold hr'
    | reopened r hreopens hr hsame hput =>
        rw [hput, Table.lookup_replace hr] at hr'
        split_ifs at hr' with hk
        · exact hother (Option.some.inj hr' ▸ howner)
        · exact hold hr'

theorem step_makesNoMatch (hx : db.toExchange.Consistent) {i : Env × Op}
    (hsuspended : db.isSuspended u i.1.now = true) (hout : db.OutOfPool u) :
    db.MakesNoMatch u i := by
  intro mid m hm hside
  rcases step_match_before hx i hm with hold | ⟨effects, oid, o, r, h, haccepted⟩
  · exact hold
  · exfalso
    rcases hside with hrequester | hhelper
    · rw [haccepted.opens.requesterId] at hrequester
      have hactive := hout _ r haccepted.request hrequester
      rw [haccepted.offering] at hactive
      cases hactive
    · rw [haccepted.opens.helperId] at hhelper
      exact not_caller_of_suspended hsuspended h (hhelper ▸ haccepted.accepts.1)

/-! ## Runs -/

theorem Sweeping.step_reached {s : Sweeping} (i : Env × SweepAct) (h : s.db.Reached) :
    (s.step i).db.Reached := by
  obtain ⟨env, op | _⟩ := i
  · exact h.next (env, op)
  · cases htodo : s.todo with
    | nil => simpa only [Sweeping.step, htodo] using h
    | cons t todo =>
        cases hcancel : s.db.cancelMatchForModeration env t.1 t.2 with
        | error e => simpa only [Sweeping.step, htodo, hcancel] using h
        | ok r =>
            simp only [Sweeping.step, htodo, hcancel]
            rw [← step_of_ok (i := (env, .cancelMatchForModeration t.1 t.2)) hcancel]
            exact h.next _

theorem SuspensionCompleted.reached (h : SuspensionCompleted u db) : db.Reached := by
  obtain ⟨sweep, hdb₀, haction, htarget, hcall, hend⟩ := h
  refine Along.invariant (P := fun s : Sweeping => s.db.Reached)
    (fun s i hs _ => Sweeping.step_reached i hs) ?_ (Along.trivial _ sweep)
  exact step_of_ok (i := (_, .moderate _ _)) hcall ▸ hdb₀.next _

/-- While a user whose requests are out of the pool stays suspended, no match is
made with them. -/
theorem makesNoMatch_of_outOfPool (h : SuspensionCompleted u db) (hout : db.OutOfPool u)
    {is : List (Env × Op)}
    (hsuspended : Along step (fun db i => db.isSuspended u i.1.now = true) db is) :
    Along step (fun db i => db.MakesNoMatch u i) db is := by
  refine Along.strengthen (P := fun db => db.Consistent ∧ db.OutOfPool u) ?_ ?_
    ⟨h.reached.consistent, hout⟩ hsuspended
  · exact fun db i ⟨hx, hout⟩ hs => ⟨db.step_consistent i hx, step_outOfPool hx.exchange hs hout⟩
  · exact fun db i ⟨hx, hout⟩ hs => step_makesNoMatch hx.exchange hs hout

def suspensionOf (u : UserId) : AdminModerateInput :=
  { action := .suspend, targetUserId := some u, reason := "spam" }

def bothTurns : List (Env × SweepAct) :=
  [(SmallEvent.clock 11, .next), (SmallEvent.clock 12, .next)]

/-- User 2 is suspended and cannot accept the offer that is still open. -/
theorem makesNoMatch_of_outOfPool_helper :
    ∃ db, SuspensionCompleted 2 db ∧ Along step (fun db i => db.MakesNoMatch 2 i) db
      [(SmallEvent.clock 13 43, .acceptOffer (SmallEvent.token 2) 33 SmallEvent.draws)] := by
  obtain ⟨⟨effects, db₁⟩, hcall, hrun⟩ := exists_ok (p := fun r : List Effect × Db =>
      let s := runFrom Sweeping.step (.start r.2 r.1) bothTurns
      decide (s.todo = []) && decide (s.db.OutOfPool 2) &&
        decide (Along step (fun db i => db.isSuspended 2 i.1.now = true) s.db
          [(SmallEvent.clock 13 43, .acceptOffer (SmallEvent.token 2) 33 SmallEvent.draws)]))
    (show ((runFrom step Db.empty SmallEvent.twoMatches).exec (SmallEvent.clock 10)
      (.moderate (SmallEvent.token 3) (suspensionOf 2))).toOption.any _ = true by decide +kernel)
  simp only [Bool.and_eq_true, decide_eq_true_eq] at hrun
  obtain ⟨⟨hend, hout⟩, hsuspended⟩ := hrun
  have hcompleted :
      SuspensionCompleted 2 (runFrom Sweeping.step (.start db₁ effects) bothTurns).db :=
    .intro bothTurns ⟨_, rfl⟩ rfl rfl hcall hend
  exact ⟨_, hcompleted, makesNoMatch_of_outOfPool hcompleted hout hsuspended⟩

/-- User 1 is suspended with a request that user 2 has been offered; user 2 accepts
and is matched with user 1. -/
theorem makesNoMatch_fails :
    ∃ db, SuspensionCompleted 1 db ∧
      Along step (fun db i => db.isSuspended 1 i.1.now = true) db
        [(SmallEvent.clock 13 43, .acceptOffer (SmallEvent.token 2) 33 SmallEvent.draws)] ∧
      ¬Along step (fun db i => db.MakesNoMatch 1 i) db
        [(SmallEvent.clock 13 43, .acceptOffer (SmallEvent.token 2) 33 SmallEvent.draws)] := by
  obtain ⟨⟨effects, db₁⟩, hcall, hrun⟩ := exists_ok (p := fun r : List Effect × Db =>
      let s := runFrom Sweeping.step (.start r.2 r.1) bothTurns
      decide (s.todo = []) &&
        decide (Along step (fun db i => db.isSuspended 1 i.1.now = true) s.db
          [(SmallEvent.clock 13 43, .acceptOffer (SmallEvent.token 2) 33 SmallEvent.draws)]) &&
        !decide (Along step (fun db i => db.MakesNoMatch 1 i) s.db
          [(SmallEvent.clock 13 43, .acceptOffer (SmallEvent.token 2) 33 SmallEvent.draws)]))
    (show ((runFrom step Db.empty SmallEvent.twoMatches).exec (SmallEvent.clock 10)
      (.moderate (SmallEvent.token 3) (suspensionOf 1))).toOption.any _ = true by decide +kernel)
  simp only [Bool.and_eq_true, decide_eq_true_eq, Bool.not_eq_true',
    decide_eq_false_iff_not] at hrun
  obtain ⟨⟨hend, hsuspended⟩, hmatch⟩ := hrun
  exact ⟨_, .intro bothTurns ⟨_, rfl⟩ rfl rfl hcall hend, hsuspended, hmatch⟩

end Db
end Sahay
