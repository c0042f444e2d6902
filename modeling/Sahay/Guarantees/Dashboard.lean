import Sahay.Guarantees.Settlement
import Sahay.Server.Figures

/-!
# The dashboard reports what was settled

`computeDashboard` finds the quantity of a settled match in its two confirmations, with the
rules of SQL for a missing one.  The step that settled the match took the same quantity from
the stock of its item and gave it to its request, so what is published for a category is the
sum of those deductions.  Where a stock is not whole, the deduction that was computed with
doubles is another number than the one published.
-/

namespace Sahay

/-- `LEAST` of the confirmations, each replaced by the other where it is missing. -/
theorem Match.appliedQty_eq (m : Match) : m.appliedQty = m.finalQty.getD 0 := by
  unfold appliedQty finalQty
  cases m.requesterConfirmedQty with
  | none => cases m.helperConfirmedQty <;> simp
  | some a => cases m.helperConfirmedQty <;> simp

theorem Match.settledRecently_isSettled {now : Time} {m : Match}
    (h : m.settledRecently now = true) : m.status.isSettled = true := by
  unfold settledRecently at h
  revert h
  cases m.status <;> simp [MatchStatus.isSettled]

namespace Db

variable {db : Db} {mid : MatchId} {m m' : Match}

def stockOf (db : Db) (mid : MatchId) : Qty :=
  (db.matchRows.lookup mid).elim 0 fun m =>
    (db.inventoryItems.lookup m.inventoryItemId).elim 0 InventoryItem.qtyOnHand

def creditOf (db : Db) (mid : MatchId) : Qty :=
  (db.matchRows.lookup mid).elim 0 fun m =>
    (db.requests.lookup m.requestId).elim 0 Request.qtyFulfilled

def deducted (step : Db → Env × Op → Db) (mid : MatchId) (db : Db) (i : Env × Op) : Qty :=
  if settles step mid db i then db.stockOf mid - (step db i).stockOf mid else 0

def credited (step : Db → Env × Op → Db) (mid : MatchId) (db : Db) (i : Env × Op) : Qty :=
  if settles step mid db i then (step db i).creditOf mid - db.creditOf mid else 0

def settledQty (db : Db) (mid : MatchId) : Qty :=
  (db.matchRows.lookup mid).elim 0 fun m => if m.status.isSettled then m.appliedQty else 0

theorem settledQty_of_open (hnone : db.isSettled mid = false) : db.settledQty mid = 0 := by
  unfold settledQty
  cases hm : db.matchRows.lookup mid with
  | none => rfl
  | some m =>
      rw [Exchange.isSettled_eq hm] at hnone
      simp [hnone]

/-- The step that settles a match finds it active, and moves what the dashboard will read. -/
theorem settles_moves (hx : db.toExchange.Consistent) (i : Env × Op)
    (h : settles step mid db i = true) : ∃ m m', db.matchRows.lookup mid = some m ∧
      (db.step i).matchRows.lookup mid = some m' ∧
      m'.inventoryItemId = m.inventoryItemId ∧ m'.requestId = m.requestId ∧
      m'.status.isSettled = true ∧
      db.Moves (db.step i).toExchange m.inventoryItemId m.requestId m'.appliedQty := by
  rw [settles, Bool.and_eq_true, Bool.not_eq_true'] at h
  obtain ⟨hopen, hafter⟩ := h
  obtain ⟨m', hm', hsettled⟩ := (Option.any_eq_true _ _).mp hafter
  have hended : m'.status ≠ .active := by
    intro hactive
    rw [hactive] at hsettled
    cases hsettled
  have hold : mid ∈ db.matchRows := by
    rcases step_match_before hx i hm' with hold | ⟨effects, oid, o, r, -, haccepted⟩
    · exact hold
    · exact absurd haccepted.opens.status hended
  obtain ⟨m, hm⟩ := Table.mem_iff_exists.mp hold
  have hactive : m.status = .active := by
    by_contra hclosed
    have hsame := step_closed_stays hx i hm hclosed
    rw [hm'] at hsame
    rw [Exchange.isSettled_eq hm, ← Option.some.inj hsame, hsettled] at hopen
    cases hopen
  obtain ⟨m₁, hm₁, hid⟩ := (step_keeps hx i).matchRows mid m hm
  obtain rfl : m' = m₁ := Option.some.inj (hm'.symm.trans hm₁)
  simp only [Match.identity, Prod.mk.injEq] at hid
  rcases step_closes hx i hm hm' hactive hended with ⟨-, final, hfinal, hmoves⟩ | ⟨hcancelled, -⟩
  · have happlied : m'.appliedQty = final := by rw [Match.appliedQty_eq, hfinal, Option.getD_some]
    exact ⟨m, m', hm, hm', hid.2.2.2.2.2.1, hid.1, hsettled, happlied ▸ hmoves⟩
  · rw [MatchStatus.isCancelled.not_settled hcancelled] at hsettled
    cases hsettled

theorem step_settledQty_stays (hx : db.toExchange.Consistent) (i : Env × Op)
    (h : settles step mid db i = false) : (db.step i).settledQty mid = db.settledQty mid := by
  cases hbefore : db.isSettled mid with
  | true =>
      obtain ⟨m, hm, hsettled⟩ := (Option.any_eq_true _ _).mp hbefore
      have hclosed : m.status ≠ .active := by
        intro hactive
        rw [hactive] at hsettled
        cases hsettled
      rw [settledQty, step_closed_stays hx i hm hclosed, settledQty, hm]
  | false =>
      rw [settles, hbefore, Bool.not_false, Bool.true_and] at h
      rw [settledQty_of_open hbefore, settledQty_of_open h]

theorem step_settledQty (hx : db.toExchange.Consistent) (i : Env × Op) :
    (db.step i).settledQty mid = db.settledQty mid + deducted step mid db i ∧
      deducted step mid db i = credited step mid db i := by
  cases h : settles step mid db i with
  | false => simp [deducted, credited, h, step_settledQty_stays hx i h]
  | true =>
      obtain ⟨m, m', hm, hm', hitem, hrequest, hsettled, hmoves⟩ := settles_moves hx i h
      have hopen : db.isSettled mid = false := by
        rw [settles, Bool.and_eq_true, Bool.not_eq_true'] at h
        exact h.1
      obtain ⟨item, hi⟩ := Table.mem_iff_exists.mp hmoves.item
      obtain ⟨r, hr⟩ := Table.mem_iff_exists.mp hmoves.request
      have hstock := hmoves.stock m.inventoryItemId
      have hcredit := hmoves.credit m.requestId
      rw [hi, if_pos rfl, Option.map_some, Option.map_eq_some_iff] at hstock
      rw [hr, if_pos rfl, Option.map_some, Option.map_eq_some_iff] at hcredit
      obtain ⟨item', hi', hstock⟩ := hstock
      obtain ⟨r', hr', hcredit⟩ := hcredit
      have hdeducted : deducted step mid db i = m'.appliedQty := by
        rw [deducted, if_pos h, stockOf, stockOf, hm, hm', Option.elim_some, Option.elim_some,
          hitem, hi, hi', Option.elim_some, Option.elim_some, hstock]
        ring
      have hcredited : credited step mid db i = m'.appliedQty := by
        rw [credited, if_pos h, creditOf, creditOf, hm, hm', Option.elim_some, Option.elim_some,
          hrequest, hr, hr', Option.elim_some, Option.elim_some, hcredit]
        ring
      refine ⟨?_, hdeducted.trans hcredited.symm⟩
      rw [settledQty_of_open hopen, hdeducted, settledQty, hm', Option.elim_some, if_pos hsettled,
        zero_add]

/-- In every run: what the dashboard reads off a match is what the steps that settled it took
from stock, and what they gave to its request. -/
theorem settledQty_eq (mid : MatchId) (is : List (Env × Op)) :
    (runFrom step empty is).settledQty mid = sumSteps step (deducted step mid) empty is ∧
      (runFrom step empty is).settledQty mid = sumSteps step (credited step mid) empty is := by
  have hnone : empty.settledQty mid = 0 := rfl
  constructor
  · rw [sumSteps_eq (P := Consistent) (f := fun db => db.settledQty mid) (w := deducted step mid)
      step_consistent (fun db i hx => (step_settledQty hx.exchange i).1) empty_consistent is,
      hnone, zero_add]
  · rw [sumSteps_eq (P := Consistent) (f := fun db => db.settledQty mid) (w := credited step mid)
      step_consistent _ empty_consistent is, hnone, zero_add]
    intro db i hx
    rw [← (step_settledQty hx.exchange i).2]
    exact (step_settledQty hx.exchange i).1

theorem settledQty_settled (hm : db.matchRows.lookup mid = some m)
    (hsettled : m.status.isSettled = true) : db.settledQty mid = m.appliedQty := by
  rw [settledQty, hm, Option.elim_some, if_pos hsettled]

theorem fulfilledIn_qty (db : Db) (now : Time) (eventId : EventId) (categoryId : CategoryId) :
    (db.fulfilledIn now eventId categoryId).qty =
      ((db.matchRows.select fun _ m => m.eventId = eventId && m.settledRecently now &&
        db.matchCategory m = some categoryId).map fun e => db.settledQty e.1).sum := by
  apply congrArg List.sum
  apply List.map_congr_left
  intro e he
  obtain ⟨hm, hcounted⟩ := Table.mem_select.mp he
  rw [Bool.and_eq_true, Bool.and_eq_true] at hcounted
  exact (settledQty_settled hm (Match.settledRecently_isSettled hcounted.1.2)).symm

theorem computeDashboard_categories (db : Db) (env : Env) (eventId : EventId) :
    (db.computeDashboard env eventId).needs.map CategoryNeed.categoryId =
      (db.effectiveEventCategories eventId).map Directory.EffectiveCategory.categoryId := by
  rw [computeDashboard, List.map_map]
  rfl

/-- The dashboard reports what the steps of the machine took from stock and gave to requests. -/
structure Reports (step : Db → Env × Op → Db) (is : List (Env × Op)) : Prop where
  /-- The quantity computed for a settled match is the one that its settlement moved. -/
  matchQty : ∀ mid m, (runFrom step empty is).matchRows.lookup mid = some m →
    m.status.isSettled = true →
      some m.appliedQty = m.finalQty ∧
        m.appliedQty = sumSteps step (deducted step mid) empty is ∧
        m.appliedQty = sumSteps step (credited step mid) empty is
  /-- There is one need for each category of the event. -/
  categories : ∀ env eventId,
    ((runFrom step empty is).computeDashboard env eventId).needs.map CategoryNeed.categoryId =
      ((runFrom step empty is).effectiveEventCategories eventId).map
        Directory.EffectiveCategory.categoryId
  /-- The figure of a category, if published, is the sum over the counted matches of what their
  settlements took from stock. -/
  figures : ∀ env eventId,
    ∀ need ∈ ((runFrom step empty is).computeDashboard env eventId).needs,
      need.fulfilledRecentQty =
        gateValue (((runFrom step empty is).matchRows.select fun _ m => m.eventId = eventId &&
            m.settledRecently env.now &&
            (runFrom step empty is).matchCategory m = some need.categoryId).map fun e =>
          sumSteps step (deducted step e.1) empty is).sum
        ((runFrom step empty is).fulfilledIn env.now eventId need.categoryId).users

theorem reports_exact (is : List (Env × Op)) : Reports step is where
  matchQty mid m hm hsettled := by
    have hx : (runFrom step empty is).Consistent := Reached.consistent ⟨is, rfl⟩
    obtain ⟨final, hfinal⟩ := (hx.exchange.wellFormed mid m hm).settled hsettled
    have hread := settledQty_settled hm hsettled
    refine ⟨?_, ?_, ?_⟩
    · rw [Match.appliedQty_eq, hfinal, Option.getD_some]
    · rw [← hread]
      exact (settledQty_eq mid is).1
    · rw [← hread]
      exact (settledQty_eq mid is).2
  categories := computeDashboard_categories _
  figures env eventId need hneed := by
    obtain ⟨cat, -, rfl⟩ := List.mem_map.mp hneed
    refine congrArg (gateValue · _) ((fulfilledIn_qty _ _ _ _).trans ?_)
    apply congrArg List.sum
    apply List.map_congr_left
    exact fun e _ => (settledQty_eq e.1 is).1

/-- After a run of the server whose settlements are of whole quantities, the quantity that the
dashboard computes for a settled match is what its settlement took from stock and gave to the
request; and there is one figure for each category of the event, the sum of what the settlements
of the counted matches took from stock, if it is published. -/
theorem dashboard_settled (is : List (Env × Op))
    (h : Along stepDouble (fun db i => db.settlesWhole i = true) empty is) :
    Reports stepDouble is := by
  have hexact := reports_exact is
  have hdeducted (mid : MatchId) : sumSteps stepDouble (deducted stepDouble mid) empty is =
      sumSteps step (deducted step mid) empty is :=
    Along.sumSteps_eq stepDouble_eq
      (fun db i hC => by rw [deducted, deducted, settles, settles, stepDouble_eq db i hC]) h
  have hcredited (mid : MatchId) : sumSteps stepDouble (credited stepDouble mid) empty is =
      sumSteps step (credited step mid) empty is :=
    Along.sumSteps_eq stepDouble_eq
      (fun db i hC => by rw [credited, credited, settles, settles, stepDouble_eq db i hC]) h
  constructor
  · simp only [Along.runFrom_eq stepDouble_eq h, hdeducted, hcredited]
    exact hexact.matchQty
  · rw [Along.runFrom_eq stepDouble_eq h]
    exact hexact.categories
  · simp only [Along.runFrom_eq stepDouble_eq h, hdeducted]
    exact hexact.figures

/-- User 1 reports two items received, user 2 two given. -/
theorem dashboard_settled_completed :
    let is := SmallEvent.oneMatch ++
      [(SmallEvent.clock 5, .confirmCompletion (SmallEvent.token 1) 40
        (SmallEvent.confirming SmallEvent.two)),
       (SmallEvent.clock 6, .confirmCompletion (SmallEvent.token 2) 40
        (SmallEvent.confirming SmallEvent.two))]
    ((runFrom stepDouble empty is).matchRows.lookup 40).map Match.appliedQty = some 2 ∧
      sumSteps stepDouble (deducted stepDouble 40) empty is = 2 := by
  intro is
  have happlied :
      ((runFrom stepDouble empty is).matchRows.lookup 40).map Match.appliedQty = some 2 := by
    decide +kernel
  have hsettled : ((runFrom stepDouble empty is).matchRows.lookup 40).all fun m =>
      m.status.isSettled = true := by
    decide +kernel
  refine ⟨happlied, ?_⟩
  obtain ⟨m, hm, htwo⟩ := Option.map_eq_some_iff.mp happlied
  rw [hm, Option.all_some, decide_eq_true_eq] at hsettled
  rw [← ((dashboard_settled is (by decide +kernel)).matchQty 40 m hm hsettled).2.1, htwo]

/-- Of the stock of 1.1 the settlement takes 0.99999999999999991, and the dashboard counts 1. -/
theorem dashboard_settled_fails : ¬∀ is, Reports stepDouble is := by
  intro h
  let is := SmallEvent.oneOfMore ++ [SmallEvent.oneGiven]
  have happlied : ((runFrom stepDouble empty is).matchRows.lookup 40).map
      (fun m => (m.status.isSettled, m.appliedQty)) = some (true, 1) := by
    decide +kernel
  have hdeducted : sumSteps stepDouble (deducted stepDouble 40) empty is ≠ 1 := by
    decide +kernel
  obtain ⟨m, hm, hrow⟩ := Option.map_eq_some_iff.mp happlied
  rw [Prod.mk.injEq] at hrow
  have hreported := ((h is).matchQty 40 m hm hrow.1).2.1
  exact hdeducted (hreported.symm.trans hrow.2)

end Db
end Sahay
