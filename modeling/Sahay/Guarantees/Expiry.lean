import Sahay.Refinement.Upkeep

/-!
# Expired requests

The pass that finds its request expired closes it: as expired if an offer is left for it, as
unmatched if none is.  Offers are deleted by age, also those of requests that are still open;
then the pass takes the wrong end, and from the status offering it takes none at all.
-/

namespace Sahay

namespace Db

variable {db db' : Db} {env : Env} {rid : RequestId} {r : Request} {effects : List Effect}
  {choices : PassChoices}

/-! ## The pass over an expired request -/

theorem runMatchPass_expired (hr : db.requests.lookup rid = some r)
    (hopen : r.status.isOpen = true) (hexpired : r.expiresAt ≤ env.now) :
    db.runMatchPass env rid choices = db.expireRequest env rid r := by
  unfold runMatchPass
  rw [hr]
  dsimp only
  rw [hopen]
  simp only [Bool.not_true, Bool.false_eq_true, if_false, hexpired, if_true]

def expiredRow (env : Env) (target : RequestStatus) (r : Request) : Request :=
  { r with status := target, closedAt := some env.now }

/-- When the pass closes the request, and what it writes. -/
theorem expireRequest_ok (hr : db.requests.lookup rid = some r) :
    db.expireRequest env rid r = .ok (effects, db') → ∃ target,
      canTransition (some r.status) target = true ∧
      (db.Offered rid → target = .expired) ∧ (¬db.Offered rid → target = .noMatch) ∧
      db' = (db.supersedeOffers rid env.now).moved rid r.status (expiredRow env target r) target
        .system (some "expiry") env.now := by
  intro h
  simp only [expireRequest, bind_ok, transitionRequest_ok, pure_ok, Prod.mk.injEq] at h
  obtain ⟨_, ⟨hcan, r', hr', -, rfl⟩, -, rfl⟩ := h
  obtain rfl := Option.some.inj (hr.symm.trans hr')
  refine ⟨_, hcan, fun hoffered => ?_, fun hnone => ?_, rfl⟩
  · rw [if_pos (offerCount_pos_iff.mpr hoffered)]
  · rw [if_neg (mt offerCount_pos_iff.mp hnone)]

def ClosesAs (db : Db) (env : Env) (rid : RequestId) (choices : PassChoices)
    (status : RequestStatus) : Prop :=
  ∃ effects db', db.runMatchPass env rid choices = .ok (effects, db') ∧
    statusOf db'.requests rid = some status

theorem closesAs_iff (choices : PassChoices) (hr : db.requests.lookup rid = some r)
    (hcheck : r.check) (hopen : r.status.isOpen = true) (hexpired : r.expiresAt ≤ env.now) :
    (db.ClosesAs env rid choices .expired ↔ db.Offered rid) ∧
      (db.ClosesAs env rid choices .noMatch ↔ r.status = .searching ∧ ¬db.Offered rid) := by
  have hstatus {effects : List Effect} {db' : Db}
      (h : db.expireRequest env rid r = .ok (effects, db')) :
      ∃ target, statusOf db'.requests rid = some target ∧
        canTransition (some r.status) target = true ∧
        (db.Offered rid → target = .expired) ∧ (¬db.Offered rid → target = .noMatch) := by
    obtain ⟨target, hcan, hyes, hno, rfl⟩ := expireRequest_ok hr h
    refine ⟨target, ?_, hcan, hyes, hno⟩
    have hlookup : ((db.supersedeOffers rid env.now).moved rid r.status
        (expiredRow env target r) target .system (some "expiry") env.now).requests.lookup rid =
        some (expiredRow env target r) :=
      (Table.lookup_replace hr _ _).trans (if_pos rfl)
    rw [statusOf, hlookup]
    rfl
  unfold ClosesAs
  rw [runMatchPass_expired hr hopen hexpired]
  constructor
  · constructor
    · rintro ⟨effects, db', hok, hexpired'⟩
      obtain ⟨target, htarget, -, -, hno⟩ := hstatus hok
      by_contra hnone
      rw [htarget, hno hnone] at hexpired'
      cases hexpired'
    · intro hoffered
      obtain ⟨effects, db', hok⟩ :=
        expireRequest_commits_of env hr hcheck hopen fun _ => hoffered
      obtain ⟨target, htarget, -, hyes, -⟩ := hstatus hok
      exact ⟨effects, db', hok, hyes hoffered ▸ htarget⟩
  · constructor
    · rintro ⟨effects, db', hok, hnoMatch⟩
      obtain ⟨target, htarget, hcan, hyes, -⟩ := hstatus hok
      obtain rfl : target = .noMatch := Option.some.inj (htarget.symm.trans hnoMatch)
      refine ⟨?_, fun hoffered => by cases hyes hoffered⟩
      apply (searching_or_offering hopen).resolve_right
      intro hoffering
      rw [hoffering] at hcan
      cases hcan
    · rintro ⟨hsearching, hnone⟩
      obtain ⟨effects, db', hok⟩ := expireRequest_commits_of env hr hcheck hopen
        fun hoffering => by rw [hsearching] at hoffering; cases hoffering
      obtain ⟨target, htarget, -, -, hno⟩ := hstatus hok
      exact ⟨effects, db', hok, hno hnone ▸ htarget⟩

end Db

namespace Backend

variable {lib : TextLib} {is : List (Env × UpkeepAct)} {env : Env} {rid : RequestId} {r : Request}

/-- In every reachable state the pass closes an expired request rightly if and only if some offer
is left, should there ever have been one. -/
theorem runMatchPass_expiry_iff (hr : (upkeepRun lib is).requests.lookup rid = some r)
    (hopen : r.status.isOpen = true) (hexpired : r.expiresAt ≤ env.now) (choices : PassChoices) :
    ((EverOffered lib is rid → (upkeepRun lib is).toDb.ClosesAs env rid choices .expired) ∧
      (¬EverOffered lib is rid → (upkeepRun lib is).toDb.ClosesAs env rid choices .noMatch)) ↔
      (EverOffered lib is rid → (upkeepRun lib is).toDb.Offered rid) := by
  have hsound := upkeepRun_sound lib is
  obtain ⟨hasked, hunasked⟩ := Db.closesAs_iff choices hr (hsound.checked rid r hr) hopen
    hexpired
  rw [hasked, hunasked]
  constructor
  · exact fun h => h.1
  · intro h
    refine ⟨h, fun hnever => ?_⟩
    have hnone : ¬(upkeepRun lib is).toDb.Offered rid := fun ho => hnever (.of_offered ho)
    refine ⟨(Db.searching_or_offering hopen).resolve_right fun hoffering => ?_, hnone⟩
    rcases hsound.offering rid r hr hoffering with hever | ho
    · exact hnever hever
    · exact hnone ho

/-! ## A forgotten offer -/

/-- User 2 has been offered the request; then the event is moved, to end a week and a millisecond
ago, and the offer is deleted. -/
def forgotten : List (Env × UpkeepAct) :=
  [(SmallEvent.clock 0, .act (.op (.directory (SmallEvent.directory [1, 2] [])))),
   (SmallEvent.clock 1 10, .act (.op (.addInventory (SmallEvent.token 2) 1
     (SmallEvent.item SmallEvent.two)))),
   (SmallEvent.clock 2 20, .act (.op (.createRequest (SmallEvent.token 1)
     (SmallEvent.request SmallEvent.two "a")))),
   (SmallEvent.clock 3 30, .act (.op (.runMatchPass 20 SmallEvent.choices))),
   (SmallEvent.clock 4, .patchEvent 3 1
     { startsAt := some (-700000000), endsAt := some (-604800001) }),
   (SmallEvent.clock 5, .statement .dropOffers)]

def remembered : List (Env × UpkeepAct) := forgotten.take 5

theorem offered_remembered : (upkeepRun SmallEvent.text remembered).toDb.Offered 20 := by
  obtain ⟨o, ho, hrid⟩ : ∃ o,
      (upkeepRun SmallEvent.text remembered).matchOffers.lookup 30 = some o ∧
        decide (o.requestId = 20) = true :=
    (Option.any_eq_true _ _).mp (by decide +kernel)
  exact ⟨30, o, ho, of_decide_eq_true hrid⟩

theorem runMatchPass_expiry_iff_remembered :
    (upkeepRun SmallEvent.text remembered).toDb.ClosesAs (SmallEvent.clock 2000000) 20
      SmallEvent.choices .expired := by
  obtain ⟨r, hr, hdue⟩ : ∃ r,
      (upkeepRun SmallEvent.text remembered).requests.lookup 20 = some r ∧
        (r.status.isOpen && r.expiresAt ≤ 2000000) = true :=
    (Option.any_eq_true _ _).mp (by decide +kernel)
  rw [Bool.and_eq_true, decide_eq_true_eq] at hdue
  have hexpired : r.expiresAt ≤ (SmallEvent.clock 2000000).now := hdue.2
  have hcloses := (runMatchPass_expiry_iff hr hdue.1 hexpired SmallEvent.choices).mpr
    fun _ => offered_remembered
  exact hcloses.1 (.of_offered offered_remembered)

/-- The pass over the request throws. -/
theorem runMatchPass_expiry_fails :
    ∃ r, (upkeepRun SmallEvent.text forgotten).requests.lookup 20 = some r ∧
      r.status = .offering ∧ r.expiresAt ≤ 2000000 ∧
      EverOffered SmallEvent.text forgotten 20 ∧
      ¬(upkeepRun SmallEvent.text forgotten).toDb.ClosesAs (SmallEvent.clock 2000000) 20
        SmallEvent.choices .expired := by
  obtain ⟨r, hr, hdue⟩ : ∃ r,
      (upkeepRun SmallEvent.text forgotten).requests.lookup 20 = some r ∧
        (decide (r.status = .offering) && r.expiresAt ≤ 2000000) = true :=
    (Option.any_eq_true _ _).mp (by decide +kernel)
  rw [Bool.and_eq_true, decide_eq_true_eq, decide_eq_true_eq] at hdue
  refine ⟨r, hr, hdue.1, hdue.2, ?_, ?_⟩
  · exact ⟨remembered, List.take_prefix 5 forgotten, offered_remembered⟩
  · rintro ⟨effects, db', hok, -⟩
    have hthrows : ((upkeepRun SmallEvent.text forgotten).toDb.runMatchPass
        (SmallEvent.clock 2000000) 20 SmallEvent.choices).toOption.isNone = true := by
      decide +kernel
    rw [hok] at hthrows
    cases hthrows

end Backend
end Sahay
