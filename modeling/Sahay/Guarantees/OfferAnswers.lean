import Sahay.Lifecycle.Answers
import Sahay.Refinement.System

/-!
# One answer per offer

Accept, decline, timeout, cancellation and the matching pass compete for the row of
an offer.  One of them answers it, the others find it answered; it has a match just
when the answer was to accept.  A helper's acceptance and the timeout agree on the
instant at which the offer lapses.
-/

namespace Sahay

namespace Db

variable {db db' : Db} {env : Env} {effects : List Effect} {oid : OfferId} {o : MatchOffer}

/-! ## Runs -/

theorem step_answered (i : Env × Op) (hx : db.toExchange.Consistent)
    (ha : db.toExchange.Answered) : (db.step i).toExchange.Answered := by
  rcases db.step_cases i with ⟨effects, h⟩ | h
  · exact (exec_refines hx h).run.invariant (fun _ _ ha hstep => hstep.answered ha) ha
  · rwa [h]

theorem Reached.answered (h : db.Reached) : db.toExchange.Answered :=
  (Reachable.invariant (P := fun db : Db => db.Consistent ∧ db.toExchange.Answered)
    (fun db i hdb => ⟨step_consistent db i hdb.1, step_answered i hdb.1.exchange hdb.2⟩)
    ⟨empty_consistent, Exchange.answered_empty⟩ h).2

theorem step_answer_stays (i : Env × Op) (hx : db.toExchange.Consistent)
    (ho : db.matchOffers.lookup oid = some o) (hclosed : o.status ≠ .offered) :
    (db.step i).matchOffers.lookup oid = some o := by
  rcases db.step_cases i with ⟨effects, h⟩ | h
  · exact (exec_refines hx h).run.invariant (P := fun x => x.matchOffers.lookup oid = some o)
      (fun _ _ ho hstep => hstep.answer_stays ho hclosed) ho
  · rw [h, ho]

theorem run_answer_stays (hx : db.Consistent) (ho : db.matchOffers.lookup oid = some o)
    (hclosed : o.status ≠ .offered) (is : List (Env × Op)) :
    (runFrom step db is).matchOffers.lookup oid = some o := by
  induction is generalizing db with
  | nil => exact ho
  | cons i is ih =>
      exact ih (step_consistent db i hx) (step_answer_stays i hx.exchange ho hclosed)

def answers (oid : OfferId) (db : Db) (i : Env × Op) : Bool :=
  offerStatusOf db.matchOffers oid = some .offered &&
    !(offerStatusOf (db.step i).matchOffers oid = some .offered)

def HasAnswer (oid : OfferId) (db : Db) : Prop :=
  ∃ o, db.matchOffers.lookup oid = some o ∧ o.status ≠ .offered

theorem countSteps_answers_le_one (hx : db.Consistent) (oid : OfferId) (is : List (Env × Op)) :
    countSteps step (answers oid) db is ≤ 1 := by
  refine countSteps_le_one (P := Consistent) (Q := HasAnswer oid) step_consistent ?_ ?_ ?_ hx is
  · rintro db i hx ⟨o, ho, hclosed⟩
    exact ⟨o, step_answer_stays i hx.exchange ho hclosed, hclosed⟩
  · rintro db i ⟨o, ho, hclosed⟩
    simp [answers, offerStatusOf_some ho, hclosed]
  · intro db i hx hanswers
    simp only [answers, Bool.and_eq_true, Bool.not_eq_true', decide_eq_true_eq,
      decide_eq_false_iff_not] at hanswers
    obtain ⟨hbefore, hafter⟩ := hanswers
    obtain ⟨o, ho, -⟩ := Option.map_eq_some_iff.mp hbefore
    obtain ⟨o', ho', -⟩ := (step_keeps hx.exchange i).matchOffers oid o ho
    refine ⟨o', ho', fun hoffered => hafter ?_⟩
    rw [offerStatusOf_some ho', hoffered]

/-! ## The clock -/

theorem acceptOffer_inTime {token : String} {draws : List (ℕ × ℕ)}
    (h : db.exec env (.acceptOffer token oid draws) = .ok (effects, db'))
    (ho : db.matchOffers.lookup oid = some o) : env.now < o.respondBy := by
  obtain ⟨auth, -, -, h⟩ := asUser_ok h
  obtain ⟨r, haccept, -⟩ := bind_ok.mp h
  simp only [acceptOffer, bind_ok, lockPendingOffer_ok] at haccept
  obtain ⟨o', ⟨ho', -, -, htime⟩, -⟩ := haccept
  rwa [Option.some.inj (ho.symm.trans ho')]

theorem expireOffer_overdue (h : db.exec env (.expireOffer oid) = .ok (effects, db'))
    (ho : db.matchOffers.lookup oid = some o) (hwritten : db'.matchOffers.lookup oid ≠ some o) :
    o.respondBy ≤ env.now := by
  simp only [exec, expireOffer, ho] at h
  by_contra hearly
  rw [if_pos (.inr (not_le.mp hearly))] at h
  obtain ⟨-, rfl⟩ := Prod.mk.inj (pure_ok.mp h)
  exact hwritten ho

/-! ## One answer -/

/-- What can become of an offer in a state and in all runs from it. -/
structure AnsweredOnce (db : Db) (oid : OfferId) (o : MatchOffer) : Prop where
  /-- It leaves the status offered at most once. -/
  once : ∀ is, countSteps step (answers oid) db is ≤ 1
  /-- Its final status is never written again. -/
  final : o.status ≠ .offered → ∀ is, (runFrom step db is).matchOffers.lookup oid = some o
  /-- It has a match just when it is accepted. -/
  accepted : o.status = .accepted ↔ ∃ mid m, db.matchRows.lookup mid = some m ∧ m.offerId = oid
  /-- It has at most one match. -/
  single : ∀ mid m mid' m', db.matchRows.lookup mid = some m → m.offerId = oid →
    db.matchRows.lookup mid' = some m' → m'.offerId = oid → mid = mid'
  /-- From `respondBy` on nobody accepts it. -/
  inTime : ∀ env token draws effects db',
    db.exec env (.acceptOffer token oid draws) = .ok (effects, db') → env.now < o.respondBy
  /-- Before `respondBy` it does not time out. -/
  overdue : ∀ env effects db', db.exec env (.expireOffer oid) = .ok (effects, db') →
    db'.matchOffers.lookup oid ≠ some o → o.respondBy ≤ env.now

/-- Every offer of a reached state is answered once, and matches are the accepted
offers. -/
theorem offers_answeredOnce (h : db.Reached) :
    (∀ oid o, db.matchOffers.lookup oid = some o → db.AnsweredOnce oid o) ∧
      ∀ mid m, db.matchRows.lookup mid = some m →
        ∃ o, db.matchOffers.lookup m.offerId = some o ∧ o.status = .accepted := by
  have hx := Reached.consistent h
  have hanswered := Reached.answered h
  have haccepted : ∀ oid o, db.matchOffers.lookup oid = some o →
      (o.status = .accepted ↔ ∃ mid m, db.matchRows.lookup mid = some m ∧ m.offerId = oid) := by
    intro oid o ho
    have hcount := hanswered oid
    rw [offerStatusOf_some ho] at hcount
    have hpos : 0 < matchCount db.matchRows oid ↔
        ∃ mid m, db.matchRows.lookup mid = some m ∧ m.offerId = oid := by
      simp [matchCount, Table.count_pos_iff]
    rw [← hpos, hcount]
    split_ifs with hstatus <;> simp_all
  constructor
  · intro oid o ho
    exact
      { once := countSteps_answers_le_one hx oid
        final := fun hclosed is => run_answer_stays hx ho hclosed is
        accepted := haccepted oid o ho
        single := fun mid m mid' m' hm hoid hm' hoid' => by
          have hle : matchCount db.matchRows oid ≤ 1 := by
            rw [hanswered oid]
            split_ifs <;> decide
          exact Table.eq_of_count_le_one hle hm hm' (by simp [hoid]) (by simp [hoid'])
        inTime := fun _ _ _ _ _ haccept => acceptOffer_inTime haccept ho
        overdue := fun _ _ _ hexpire hwritten => expireOffer_overdue hexpire ho hwritten }
  · intro mid m hm
    obtain ⟨o, ho, -⟩ := (hx.exchange.linked.matchRows mid m hm).offer
    exact ⟨o, ho, (haccepted _ o ho).mpr ⟨mid, m, hm, rfl⟩⟩

/-- The accepted offer of one match. -/
theorem offers_answeredOnce_oneMatch :
    let db := runFrom Db.step Db.empty SmallEvent.oneMatch
    ∃ o, db.matchOffers.lookup 30 = some o ∧ o.status = .accepted ∧ db.AnsweredOnce 30 o := by
  have ho : ∃ o, (runFrom Db.step Db.empty SmallEvent.oneMatch).matchOffers.lookup 30 = some o ∧
      o.status = .accepted := by
    have hstatus : offerStatusOf (runFrom Db.step Db.empty SmallEvent.oneMatch).matchOffers 30 =
        some .accepted := by decide +kernel
    exact Option.map_eq_some_iff.mp hstatus
  obtain ⟨o, ho, haccepted⟩ := ho
  exact ⟨o, ho, haccepted, (offers_answeredOnce ⟨_, rfl⟩).1 30 o ho⟩

end Db
end Sahay
