import Sahay.Refinement.Counters

/-!
# The cap on a helper's active matches

The candidate query offers requests only to helpers below the cap.  Accepting
does not look at the cap again, so a helper who collects several offers before
answering can accept them all.  When every accept is made by a helper who is
still below the cap, the cap holds in every state.
-/

namespace Sahay

namespace Db

variable {db : Db}

/-- Nobody helps in more active matches than `maxActiveMatchesPerHelper`. -/
def HelperCapped (db : Db) : Prop :=
  ∀ userId, db.helperMatches userId ≤ Limits.maxActiveMatchesPerHelper

/-- A helper who accepts an offer that is open to them is below the cap. -/
def acceptsBelowCap (db : Db) (i : Env × Op) : Bool :=
  match i.2 with
  | .acceptOffer _ offerId _ => (db.callerOf i.1 i.2).all fun userId =>
      !(db.lockPendingOffer i.1 userId offerId).isOk ||
        decide (db.helperMatches userId < Limits.maxActiveMatchesPerHelper)
  | _ => true

/-! ## One step -/

theorem helperMatches_le {db' : Db} (h : db.toExchange.KeepsActive db'.toExchange)
    (userId : UserId) : db'.helperMatches userId ≤ db.helperMatches userId := by
  apply Table.count_le_count
  intro mid m' hm' hp
  simp only [Bool.and_eq_true, decide_eq_true_eq] at hp ⊢
  obtain ⟨m, hm, hactive, hid⟩ := h mid m' hm' hp.2
  simp only [Match.identity, Prod.mk.injEq] at hid
  exact ⟨m, hm, hid.2.2.2.2.1 ▸ hp.1, hactive⟩

theorem helperMatches_accepted {db' : Db} {c : Ctx} {mid : MatchId} {m : Match} {oid : OfferId}
    {o : MatchOffer} {r : Request}
    (h : Accepted c db.toExchange db'.toExchange mid m oid o r) (userId : UserId) :
    db'.helperMatches userId = db.helperMatches userId + if o.helperId = userId then 1 else 0 := by
  rw [helperMatches, h.put, Table.count_put h.fresh, add_comm, helperMatches]
  simp [h.opens.helperId, h.opens.status]

theorem acceptsBelowCap_accepted {i : Env × Op} {db' : Db} {mid : MatchId} {m : Match}
    {oid : OfferId} {o : MatchOffer} {r : Request} (hbelow : db.acceptsBelowCap i = true)
    (h : Accepted (db.ctxOf i.1 i.2) db.toExchange db'.toExchange mid m oid o r) :
    db.helperMatches o.helperId < Limits.maxActiveMatchesPerHelper := by
  obtain ⟨hcaller, token, draws, hop⟩ := h.accepts
  change db.callerOf i.1 i.2 = some o.helperId at hcaller
  change i.2 = .acceptOffer token oid draws at hop
  have hlock : db.lockPendingOffer i.1 o.helperId oid = .ok o :=
    lockPendingOffer_ok.mpr ⟨h.offer, rfl, h.offered, h.inTime⟩
  rw [acceptsBelowCap, hcaller] at hbelow
  simpa [hop, hlock, Except.isOk, Except.toBool] using hbelow

theorem step_helperCapped {db : Db} {i : Env × Op} (hx : db.toExchange.Consistent)
    (hcap : db.HelperCapped) (hbelow : db.acceptsBelowCap i = true) :
    (db.step i).HelperCapped := by
  intro userId
  rcases step_active_before hx i with hkeeps | ⟨mid, m, oid, o, r, haccepted⟩
  · exact (helperMatches_le hkeeps userId).trans (hcap userId)
  · rw [helperMatches_accepted haccepted]
    split_ifs with hhelper
    · subst hhelper
      exact acceptsBelowCap_accepted hbelow haccepted
    · exact hcap userId

/-! ## Runs -/

/-- In a run in which every helper accepts below the cap, the cap holds. -/
theorem helperCapped_of_below {is : List (Env × Op)}
    (h : Along step (fun db i => db.acceptsBelowCap i = true) Db.empty is) :
    (runFrom step Db.empty is).HelperCapped := by
  refine (Along.invariant (P := fun db => db.Consistent ∧ db.HelperCapped) ?_
    ⟨empty_consistent, fun userId => Nat.zero_le _⟩ h).2
  exact fun db i ⟨hx, hcap⟩ hbelow =>
    ⟨db.step_consistent i hx, step_helperCapped hx.exchange hcap hbelow⟩

theorem helperCapped_of_below_oneMatch :
    (runFrom step Db.empty SmallEvent.oneMatch).HelperCapped ∧
      (runFrom step Db.empty SmallEvent.oneMatch).helperMatches 2 = 1 :=
  ⟨helperCapped_of_below (by decide +kernel), by decide +kernel⟩

/-- User 2 collects three offers before answering the first and accepts them all. -/
theorem helperCapped_fails :
    ¬(runFrom Db.step Db.empty (SmallEvent.twoMatches ++
      [(SmallEvent.clock 10 43,
        .acceptOffer (SmallEvent.token 2) 33 SmallEvent.draws)])).HelperCapped := by
  intro h
  have hthree : (runFrom Db.step Db.empty (SmallEvent.twoMatches ++
      [(SmallEvent.clock 10 43, .acceptOffer (SmallEvent.token 2) 33
        SmallEvent.draws)])).helperMatches 2 = 3 := by decide +kernel
  have hcap := h 2
  rw [hthree] at hcap
  exact absurd hcap (by decide)

end Db
end Sahay
