import Mathlib.Data.List.Dedup
import Sahay.Lib.Selection
import Sahay.Refinement.Writes

/-!
# Passes that find a helper

The candidate query returns the eight nearest eligible helpers; quantities are rounded
afterwards, so a helper whose stock is less than a whole unit is a candidate and gets no
offer.  A pass makes an offer for certain exactly when fewer than eight such helpers stand
before every helper who can serve the request.
-/

namespace Sahay

/-! ## Distinct helpers -/

instance : Std.Total Candidate.innerLe where
  total a b := by
    unfold Candidate.innerLe
    rcases lt_trichotomy a.helperId b.helperId with h | h | h
    · exact .inl (.inl h)
    · rcases le_total b.availableQty a.availableQty with hqty | hqty
      · exact .inl (.inr ⟨h, hqty⟩)
      · exact .inr (.inr ⟨h.symm, hqty⟩)
    · exact .inr (.inl h)

instance : IsTrans Candidate Candidate.innerLe where
  trans a b c hab hbc := by
    unfold Candidate.innerLe at *
    rcases hab with hab | ⟨hab, hqty⟩
    · rcases hbc with hbc | ⟨hbc, -⟩
      · exact .inl (hab.trans hbc)
      · exact .inl (hbc ▸ hab)
    · rcases hbc with hbc | ⟨hbc, hqty'⟩
      · exact .inl (hab ▸ hbc)
      · exact .inr ⟨hab.trans hbc, hqty'.trans hqty⟩

def sortsBefore : Option ℚ → Option ℚ → Prop
  | _, none => True
  | none, some _ => False
  | some x, some y => x ≤ y

instance : DecidableRel sortsBefore := fun x y => by
  unfold sortsBefore
  split <;> infer_instance

theorem sortsBefore_total : ∀ x y : Option ℚ, sortsBefore x y ∨ sortsBefore y x
  | _, none => .inl trivial
  | none, some _ => .inr trivial
  | some x, some y => le_total x y

theorem sortsBefore_trans :
    ∀ {x y z : Option ℚ}, sortsBefore x y → sortsBefore y z → sortsBefore x z
  | _, _, none, _, _ => trivial
  | _, none, some _, _, hyz => False.elim hyz
  | none, some _, some _, hxy, _ => False.elim hxy
  | some _, some _, some _, hxy, hyz => le_trans (α := ℚ) hxy hyz

theorem outerLe_iff {a b : Candidate} :
    a.outerLe b ↔ sortsBefore a.distanceM b.distanceM := by
  unfold Candidate.outerLe sortsBefore
  cases a.distanceM <;> cases b.distanceM <;> rfl

instance : Std.Total Candidate.outerLe where
  total a b := by
    rw [outerLe_iff, outerLe_iff]
    exact sortsBefore_total a.distanceM b.distanceM

instance : IsTrans Candidate Candidate.outerLe where
  trans a b c hab hbc := by
    rw [outerLe_iff] at *
    exact sortsBefore_trans hab hbc

theorem innerLe_helper {a b : Candidate} (h : a.innerLe b) : a.helperId ≤ b.helperId := by
  rcases h with h | ⟨h, -⟩
  · exact h.le
  · exact h.le

/-- `DISTINCT ON` keeps one candidate for each helper, and it is the helper's fullest. -/
theorem distinctOnHelper_spec {last : Option UserId} {cs : List Candidate}
    (hsorted : cs.Pairwise Candidate.innerLe)
    (hlast : ∀ h ∈ last, ∀ c ∈ cs, h ≤ c.helperId) :
    ((distinctOnHelper last cs).map Candidate.helperId).Nodup ∧
      (∀ h ∈ last, ∀ w ∈ distinctOnHelper last cs, h < w.helperId) ∧
      ∀ c ∈ cs, last = some c.helperId ∨ ∃ w ∈ distinctOnHelper last cs,
        w.helperId = c.helperId ∧ c.availableQty ≤ w.availableQty := by
  induction cs generalizing last with
  | nil => exact ⟨.nil, fun _ _ w hw => (List.not_mem_nil hw).elim,
      fun c hc => (List.not_mem_nil hc).elim⟩
  | cons c cs ih =>
      obtain ⟨hfirst, hrest⟩ := List.pairwise_cons.mp hsorted
      unfold distinctOnHelper
      split_ifs with hsame
      · obtain ⟨hnodup, habove, hcover⟩ :=
          ih hrest fun h hh c' hc' => hlast h hh c' (List.mem_cons_of_mem c hc')
        refine ⟨hnodup, habove, fun c' hc' => ?_⟩
        rcases List.mem_cons.mp hc' with rfl | hc'
        · exact .inl hsame
        · exact hcover c' hc'
      · have hhelpers : ∀ h ∈ some c.helperId, ∀ c' ∈ cs, h ≤ c'.helperId := by
          intro h hh c' hc'
          obtain rfl := Option.some.inj hh
          exact innerLe_helper (hfirst c' hc')
        obtain ⟨hnodup, habove, hcover⟩ := ih hrest hhelpers
        have hnext (h : UserId) (hh : h ∈ last) : h < c.helperId := by
          refine lt_of_le_of_ne (hlast h hh c List.mem_cons_self) ?_
          rintro rfl
          exact hsame hh
        refine ⟨?_, fun h hh w hw => ?_, fun c' hc' => .inr ?_⟩
        · rw [List.map_cons, List.nodup_cons]
          refine ⟨fun hmem => ?_, hnodup⟩
          obtain ⟨w, hw, heq⟩ := List.mem_map.mp hmem
          exact absurd heq (habove c.helperId rfl w hw).ne'
        · rcases List.mem_cons.mp hw with rfl | hw
          · exact hnext h hh
          · exact (hnext h hh).trans (habove c.helperId rfl w hw)
        · rcases List.mem_cons.mp hc' with rfl | hc'
          · exact ⟨c', List.mem_cons_self, rfl, le_rfl⟩
          · rcases hcover c' hc' with hsame' | ⟨w, hw, hwc, hqty⟩
            · obtain heq := Option.some.inj hsame'
              refine ⟨c, List.mem_cons_self, heq, ?_⟩
              rcases hfirst c' hc' with hlt | ⟨-, hqty⟩
              · exact absurd heq hlt.ne
              · exact hqty
            · exact ⟨w, List.mem_cons_of_mem c hw, hwc, hqty⟩

namespace Db

variable {db : Db} {env : Env} {requestId : RequestId} {request : Request} {event : Event}

/-! ## Helpers who can serve a request -/

/-- The quantity of an offer to the candidate, rounded down in a whole-unit category. -/
def offerable (db : Db) (request : Request) (c : Candidate) : Qty :=
  offerQtyFor (request.qty - request.qtyFulfilled)
    ((db.categories.lookup request.categoryId).elim false Category.fractional) c

/-- The rows of the candidate query before it reduces them to one for each helper. -/
def candidateRows (db : Db) (env : Env) (requestId : RequestId) (request : Request)
    (event : Event) : List Candidate :=
  (db.inventoryItems.select fun _ item =>
    db.candidateEligible env requestId request event item).map fun e =>
      db.toCandidate env request e.1 e.2

def eligibleHelpers (db : Db) (env : Env) (requestId : RequestId) (request : Request)
    (event : Event) : List UserId :=
  ((db.candidateRows env requestId request event).map Candidate.helperId).dedup

def canServe (db : Db) (env : Env) (requestId : RequestId) (request : Request) (event : Event)
    (helperId : UserId) : Bool :=
  (db.candidateRows env requestId request event).any fun c =>
    c.helperId = helperId && 0 < db.offerable request c

/-- How many eligible helpers cannot serve the request and are no farther away than any who
can. -/
def crowding (db : Db) (env : Env) (requestId : RequestId) (request : Request) (event : Event) :
    ℕ :=
  let helpers := db.eligibleHelpers env requestId request event
  let nearer (a b : UserId) : Prop :=
    sortsBefore (db.candidateDistance env request a) (db.candidateDistance env request b)
  let serves (a : UserId) : Prop := db.canServe env requestId request event a = true
  helpers.countP (Crowds nearer serves helpers)

def MakesOffer (db : Db) (env : Env) (requestId : RequestId) (choices : PassChoices) : Prop :=
  ∃ effects db', db.runMatchPass env requestId choices = .ok (effects, db') ∧
    ∃ oid o, oid ∉ db.matchOffers ∧ db'.matchOffers.lookup oid = some o ∧
      o.requestId = requestId ∧ o.status = .offered

/-! ## The candidates -/

def distinctCandidates (db : Db) (env : Env) (requestId : RequestId) (request : Request)
    (event : Event) (choices : PassChoices) : List Candidate :=
  distinctOnHelper none ((choices.scanItems.order
    (db.candidateRows env requestId request event)).insertionSort Candidate.innerLe)

variable {choices : PassChoices}

theorem candidates_eq : db.candidates env requestId request event choices =
    ((choices.scanHelpers.order
      (db.distinctCandidates env requestId request event choices)).insertionSort
        Candidate.outerLe).take 8 := rfl

theorem mem_candidateRows {c : Candidate} :
    c ∈ db.candidateRows env requestId request event ↔ ∃ itemId item,
      db.inventoryItems.lookup itemId = some item ∧
        db.candidateEligible env requestId request event item = true ∧
        db.toCandidate env request itemId item = c := by
  simp only [candidateRows, List.mem_map, Table.mem_select, Prod.exists, and_assoc]

theorem mem_sortedRows {c : Candidate} :
    c ∈ (choices.scanItems.order
      (db.candidateRows env requestId request event)).insertionSort Candidate.innerLe ↔
        c ∈ db.candidateRows env requestId request event := by
  rw [List.mem_insertionSort, (choices.scanItems.perm _).mem_iff]

theorem mem_distinctCandidates {w : Candidate}
    (h : w ∈ db.distinctCandidates env requestId request event choices) :
    w ∈ db.candidateRows env requestId request event :=
  mem_sortedRows.mp (mem_distinctOnHelper h)

/-- The candidates are of different helpers, and each admitted row has one of its helper with
as much stock. -/
theorem distinctCandidates_spec (choices : PassChoices) :
    ((db.distinctCandidates env requestId request event choices).map Candidate.helperId).Nodup ∧
      ∀ c ∈ db.candidateRows env requestId request event,
        ∃ w ∈ db.distinctCandidates env requestId request event choices,
          w.helperId = c.helperId ∧ c.availableQty ≤ w.availableQty := by
  have hsorted := List.pairwise_insertionSort Candidate.innerLe
    (choices.scanItems.order (db.candidateRows env requestId request event))
  have hfirst : ∀ h ∈ (none : Option UserId), ∀ c ∈ (choices.scanItems.order
      (db.candidateRows env requestId request event)).insertionSort Candidate.innerLe,
      h ≤ c.helperId := fun h hh => by cases hh
  obtain ⟨hnodup, -, hcover⟩ := distinctOnHelper_spec hsorted hfirst
  refine ⟨hnodup, fun c hc => ?_⟩
  rcases hcover c (mem_sortedRows.mpr hc) with hlast | hw
  · cases hlast
  · exact hw

theorem distinctCandidates_helpers :
    ((db.distinctCandidates env requestId request event choices).map Candidate.helperId).Perm
      (db.eligibleHelpers env requestId request event) := by
  obtain ⟨hnodup, hcover⟩ := db.distinctCandidates_spec choices
  apply (List.perm_ext_iff_of_nodup hnodup (List.nodup_dedup _)).mpr
  intro helperId
  rw [List.mem_dedup, List.mem_map, List.mem_map]
  constructor
  · rintro ⟨w, hw, rfl⟩
    exact ⟨w, mem_distinctCandidates hw, rfl⟩
  · rintro ⟨c, hc, rfl⟩
    obtain ⟨w, hw, hhelper, -⟩ := hcover c hc
    exact ⟨w, hw, hhelper⟩

theorem offerable_mono {c w : Candidate} (h : c.availableQty ≤ w.availableQty) :
    db.offerable request c ≤ db.offerable request w := by
  have hmin := min_le_min_left (request.qty - request.qtyFulfilled) h
  unfold offerable offerQtyFor
  simp only
  split_ifs
  · exact hmin
  · exact_mod_cast Int.floor_le_floor hmin

theorem canServe_iff {w : Candidate}
    (hw : w ∈ db.distinctCandidates env requestId request event choices) :
    0 < db.offerable request w ↔
      db.canServe env requestId request event w.helperId = true := by
  simp only [canServe, List.any_eq_true, Bool.and_eq_true, decide_eq_true_eq]
  constructor
  · exact fun hpos => ⟨w, mem_distinctCandidates hw, rfl, hpos⟩
  · rintro ⟨c, hc, hhelper, hpos⟩
    obtain ⟨hnodup, hcover⟩ := db.distinctCandidates_spec choices
    obtain ⟨w', hw', hhelper', hqty⟩ := hcover c hc
    have hsame : w' = w := List.inj_on_of_nodup_map hnodup hw' hw (hhelper'.trans hhelper)
    exact hsame ▸ hpos.trans_le (offerable_mono hqty)

theorem crowding_eq (choices : PassChoices) : db.crowding env requestId request event =
    (db.distinctCandidates env requestId request event choices).countP
      (Crowds Candidate.outerLe (fun w => 0 < db.offerable request w)
        (db.distinctCandidates env requestId request event choices)) := by
  refine (countP_crowds_map distinctCandidates_helpers ?_ fun w hw => canServe_iff hw).symm
  intro a ha b hb
  obtain ⟨-, -, -, -, rfl⟩ := mem_candidateRows.mp (mem_distinctCandidates ha)
  obtain ⟨-, -, -, -, rfl⟩ := mem_candidateRows.mp (mem_distinctCandidates hb)
  exact outerLe_iff

/-! ## The pass -/

theorem winner_none : db.winner env requestId request event choices = none ↔
    ∀ c ∈ db.candidates env requestId request event choices, db.offerable request c ≤ 0 := by
  simp only [winner, List.findSome?_eq_none_iff, (rankCandidates_perm _ _).mem_iff, ite_eq_left_iff,
    reduceCtorEq, imp_false, not_not]
  rfl

theorem runMatchPass_eq_search (hsearches : db.Searches env requestId request event)
    (hsearching : request.status = .searching) (choices : PassChoices) :
    db.runMatchPass env requestId choices = db.search env requestId request event choices := by
  unfold runMatchPass resumeSearch
  have hopen : RequestStatus.searching.isOpen = true := rfl
  simp [hsearches.row, hsearches.held, hsearches.active, hsearches.unpaused,
    not_le.mpr hsearches.unexpired, hsearching, hopen]

theorem createOffer_makes (db : Db) (env : Env) (event : Event) (w : Candidate) (offerQty : Qty)
    (hr : db.requests.lookup requestId = some request) (hsearching : request.status = .searching)
    (hcheck : request.check) :
    ∃ effects db' oid o, db.createOffer env requestId request event w offerQty =
      .ok (effects, db') ∧ oid ∉ db.matchOffers ∧ db'.matchOffers.lookup oid = some o ∧
        o.requestId = requestId ∧ o.status = .offered := by
  have hcan : canTransition (some request.status) .offering = true := by
    rw [hsearching]
    rfl
  have hfresh := Table.freshKey_notMem db.matchOffers env.uuid.matchOffer
  exact ⟨_, _, _, _, createOffer_ok.mpr ⟨hcan, request, hr, hcheck, rfl, rfl⟩, hfresh,
    (Table.lookup_put _ _ _ _).trans (if_pos rfl), rfl, rfl⟩

/-- A pass over a searching request makes an offer if some candidate amounts to one. -/
theorem makesOffer_iff (hsearches : db.Searches env requestId request event)
    (hsearching : request.status = .searching) (hcheck : request.check) :
    db.MakesOffer env requestId choices ↔
      ∃ c ∈ db.candidates env requestId request event choices, 0 < db.offerable request c := by
  rw [MakesOffer, runMatchPass_eq_search hsearches hsearching, search]
  cases hwinner : db.winner env requestId request event choices with
  | none =>
      have hnone := winner_none.mp hwinner
      constructor
      · rintro ⟨effects, db', h, oid, o, hnew, ho, -⟩
        have hoffers : db'.matchOffers = db.matchOffers := by
          rcases widenOrRetry_ok.mp h with ⟨-, r, -, -, -, rfl⟩ | ⟨-, -, rfl⟩
          · rfl
          · rfl
        exact absurd (Table.mem_iff_exists.mpr ⟨o, hoffers ▸ ho⟩) hnew
      · rintro ⟨c, hc, hpos⟩
        exact absurd hpos (not_lt.mpr (hnone c hc))
  | some w =>
      have hsome : ∃ c ∈ db.candidates env requestId request event choices,
          0 < db.offerable request c := by
        by_contra hnone
        simp only [not_exists, not_and, not_lt] at hnone
        rw [winner_none.mpr hnone] at hwinner
        cases hwinner
      obtain ⟨effects, db', oid, o, hcreate, hoffer⟩ :=
        db.createOffer_makes env event w.1 w.2 hsearches.row hsearching hcheck
      exact ⟨fun _ => hsome, fun _ => ⟨effects, db', hcreate, oid, o, hoffer⟩⟩

theorem exists_scanOrder {α : Type} {l s : List α} (h : s.Perm l) :
    ∃ scan : ScanOrder α, scan.order l = s := by
  classical
  refine ⟨⟨fun rows => if rows = l then s else rows, fun rows => ?_⟩, if_pos rfl⟩
  split_ifs with heq
  · exact heq ▸ h
  · exact .refl rows

/-- A pass over a searching request that some eligible helper can serve makes an offer,
whatever it draws and however its query breaks ties, exactly when fewer than eight helpers who
cannot serve the request stand before all who can. -/
theorem runMatchPass_offers_iff (hsearches : db.Searches env requestId request event)
    (hsearching : request.status = .searching) (hcheck : request.check)
    (hserved : ∃ helperId, db.canServe env requestId request event helperId = true) :
    (∀ choices, db.MakesOffer env requestId choices) ↔
      db.crowding env requestId request event < 8 := by
  have hsome (choices : PassChoices) :
      ∃ w ∈ db.distinctCandidates env requestId request event choices,
        0 < db.offerable request w := by
    obtain ⟨helperId, hserves⟩ := hserved
    have hserves' := hserves
    simp only [canServe, List.any_eq_true, Bool.and_eq_true, decide_eq_true_eq] at hserves'
    obtain ⟨c, hc, hhelper, -⟩ := hserves'
    obtain ⟨w, hw, hwc, -⟩ := (db.distinctCandidates_spec choices).2 c hc
    exact ⟨w, hw, (canServe_iff hw).mpr (by rw [hwc, hhelper, hserves])⟩
  constructor
  · intro h
    let choices : PassChoices := { rng := fun _ => 0 }
    rw [crowding_eq choices, ← forall_perm_take_iff (hsome choices) 8]
    intro s hs
    obtain ⟨scan, hscan⟩ := exists_scanOrder hs
    have hmakes := (makesOffer_iff hsearches hsearching hcheck).mp
      (h { choices with scanHelpers := scan })
    rw [candidates_eq] at hmakes
    exact hscan ▸ hmakes
  · intro h choices
    rw [crowding_eq choices] at h
    rw [makesOffer_iff hsearches hsearching hcheck, candidates_eq]
    exact exists_mem_take (choices.scanHelpers.perm _) (hsome choices) h

/-- User 1 asks for one item; users 2 to 9 hold `held` of one each and user 10 a whole one. -/
def crowdedRun (held : ZQty) : List (Env × Op) :=
  let add (u : UserId) (qty : ZQty) : Env × Op :=
    (SmallEvent.clock 1 (10 * u), .addInventory (SmallEvent.token u) 1 (SmallEvent.item qty))
  (SmallEvent.clock 0, .directory (SmallEvent.directory [1, 2, 3, 4, 5, 6, 7, 8, 9, 10] [])) ::
    [2, 3, 4, 5, 6, 7, 8, 9].map (add · held) ++
    [add 10 SmallEvent.one,
      (SmallEvent.clock 2 20, .createRequest (SmallEvent.token 1)
        (SmallEvent.request SmallEvent.one "a"))]

def half : ZQty := ⟨1 / 2, by norm_num⟩

/-- The request of `crowdedRun` is searched at time 2 and meets `p`. -/
theorem crowdedRun_searches (db : Db) (p : Request → Event → Bool)
    (h : (db.requests.lookup 20).any (fun request =>
      (db.events.lookup request.eventId).any fun event =>
        decide (request.status = .searching) && decide (2 < request.expiresAt) &&
        decide request.check && decide (event.status = .active) && !event.matchingPaused &&
        p request event) = true) :
    ∃ request event, db.Searches (SmallEvent.clock 2) 20 request event ∧
      request.status = .searching ∧ request.check ∧ p request event = true := by
  obtain ⟨request, hr, h⟩ := (Option.any_eq_true _ _).mp h
  obtain ⟨event, hevent, h⟩ := (Option.any_eq_true _ _).mp h
  simp only [Bool.and_eq_true, decide_eq_true_eq, Bool.not_eq_true'] at h
  obtain ⟨⟨⟨⟨⟨hsearching, hunexpired⟩, hcheck⟩, hactive⟩, hunpaused⟩, hp⟩ := h
  have hopen : request.status.isOpen = true := by
    rw [hsearching]
    rfl
  have hoffering : request.status = .offering → ((db.openOffer 20).any fun o =>
      (SmallEvent.clock 2).now < o.2.respondBy) = false := by
    rw [hsearching]
    rintro ⟨⟩
  exact ⟨request, event, ⟨hr, hevent, hopen, hunexpired, hactive, hunpaused, hoffering⟩,
    hsearching, hcheck, hp⟩

theorem runMatchPass_offers_iff_whole :
    (runFrom step Db.empty (crowdedRun SmallEvent.one)).MakesOffer (SmallEvent.clock 2) 20
      SmallEvent.choices := by
  let db := runFrom step Db.empty (crowdedRun SmallEvent.one)
  obtain ⟨request, event, hsearches, hsearching, hcheck, hp⟩ :=
    crowdedRun_searches db (fun request event =>
      db.canServe (SmallEvent.clock 2) 20 request event 10 &&
        decide (db.crowding (SmallEvent.clock 2) 20 request event < 8)) (by decide +kernel)
  simp only [Bool.and_eq_true, decide_eq_true_eq] at hp
  exact (runMatchPass_offers_iff hsearches hsearching hcheck ⟨10, hp.1⟩).mpr hp.2 _

/-- Eight helpers with half an item hide the ninth, who has a whole one. -/
theorem runMatchPass_offers_fails :
    let db := runFrom step Db.empty (crowdedRun half)
    (∃ request event, db.Searches (SmallEvent.clock 2) 20 request event ∧
      request.status = .searching ∧ request.check ∧
        db.canServe (SmallEvent.clock 2) 20 request event 10 = true) ∧
      ¬db.MakesOffer (SmallEvent.clock 2) 20 SmallEvent.choices := by
  refine ⟨crowdedRun_searches _ (fun request event =>
    canServe _ (SmallEvent.clock 2) 20 request event 10) (by decide +kernel), ?_⟩
  rintro ⟨effects, db', h, oid, o, -, ho, -⟩
  have hnone : (((runFrom step Db.empty (crowdedRun half)).runMatchPass (SmallEvent.clock 2) 20
      SmallEvent.choices).toOption.all fun r => r.2.matchOffers.keys = []) = true := by
    decide +kernel
  rw [h] at hnone
  have hkeys : db'.matchOffers.keys = [] := of_decide_eq_true hnone
  have hmem : oid ∈ db'.matchOffers.keys :=
    AList.mem_keys.mp (Table.mem_iff_exists.mpr ⟨o, ho⟩)
  rw [hkeys] at hmem
  cases hmem

end Db
end Sahay
