import Sahay.Server.Figures
import Sahay.Server.System

/-!
# Anonymity of published figures

Two databases that differ in a category only where fewer than `k` users are behind its
figures publish the same dashboard numbers.  The suggestions of what to bring publish a
quantity that is not gated, and agree only where that quantity happens to.
-/

namespace Sahay

def Agg.Alike (a b : Agg) : Prop :=
  a = b ∨ (a.users < Limits.kAnonymityThreshold ∧ b.users < Limits.kAnonymityThreshold)

theorem Agg.Alike.gate {a b : Agg} (h : a.Alike b) :
    gateValue a.qty a.users = gateValue b.qty b.users := by
  rcases h with rfl | ⟨ha, hb⟩
  · rfl
  · rw [gateValue, gateValue, if_neg (not_le.mpr ha), if_neg (not_le.mpr hb)]

/-- Below the threshold on both sides the level is unknown. -/
theorem shortageLevel_unknown {requested offered : Agg}
    (hrequested : requested.users < Limits.kAnonymityThreshold)
    (hoffered : offered.users < Limits.kAnonymityThreshold) :
    shortageLevel requested offered = .unknown :=
  if_pos ⟨hrequested, hoffered⟩

theorem Agg.of_perm {κ ρ : Type} {t t' : Table κ ρ} {p p' : κ → ρ → Bool} {qty : ρ → Qty}
    {user : ρ → UserId} (h : (t.select p).Perm (t'.select p')) :
    Agg.of t p qty user = Agg.of t' p' qty user := by
  rw [Agg.of, Agg.of, Table.sumWhere_perm h, Table.countDistinct_perm h]

def CategoryNeed.numbers (need : CategoryNeed) :
    CategoryId × Option Qty × Option Qty × Option Qty × Option Qty :=
  (need.categoryId, need.requestedQty, need.offeredQty, need.reservedQty, need.fulfilledRecentQty)

/-- The numbers of every category and of the event. -/
def EventDashboard.numbers (dashboard : EventDashboard) :
    List (CategoryId × Option Qty × Option Qty × Option Qty × Option Qty) × ℕ :=
  (dashboard.needs.map CategoryNeed.numbers, dashboard.recentFulfilments)

namespace Db

variable {db db' : Db} {now : Time} {e : EventId} {c : CategoryId}

/-! ## Rows of a category -/

def IsDemand (e : EventId) (c : CategoryId) (r : Request) : Prop :=
  r.eventId = e ∧ r.status.isOpen = true ∧ r.categoryId = c

def IsSupply (e : EventId) (c : CategoryId) (item : InventoryItem) : Prop :=
  item.eventId = e ∧ item.active = true ∧ item.categoryId = c

def IsReserved (db : Db) (e : EventId) (c : CategoryId) (m : Match) : Prop :=
  m.eventId = e ∧ m.status = .active ∧ db.matchCategory m = some c

/-- The foreign key of `matches.request_id`. -/
def MatchesHaveRequests (db : Db) : Prop :=
  ∀ mid m, db.matchRows.lookup mid = some m → m.requestId ∈ db.requests

/-- The databases differ in one kind of rows of the category only, and fewer than `k` users
are behind these rows in either. -/
inductive DiffersBelow (now : Time) (e : EventId) (c : CategoryId) (db : Db) : Db → Prop
  | demand (t : Table RequestId Request)
      (hrows : db.requests.AgreeOutside (IsDemand e c) t)
      (hfew : (db.requestedIn e c).users < Limits.kAnonymityThreshold)
      (hfew' : ({ db with requests := t }.requestedIn e c).users < Limits.kAnonymityThreshold) :
      DiffersBelow now e c db { db with requests := t }
  | supply (t : Table ItemId InventoryItem)
      (hrows : db.inventoryItems.AgreeOutside (IsSupply e c) t)
      (hfew : (db.offeredIn now e c).users < Limits.kAnonymityThreshold)
      (hfew' : ({ db with inventoryItems := t }.offeredIn now e c).users <
        Limits.kAnonymityThreshold) :
      DiffersBelow now e c db { db with inventoryItems := t }
  | reserved (t : Table MatchId Match)
      (hrows : db.matchRows.AgreeOutside (db.IsReserved e c) t)
      (hfew : (db.reservedIn e c).users < Limits.kAnonymityThreshold)
      (hfew' : ({ db with matchRows := t }.reservedIn e c).users < Limits.kAnonymityThreshold) :
      DiffersBelow now e c db { db with matchRows := t }

/-- What the dashboard makes of two databases that differ below the threshold. -/
structure FiguresAlike (now : Time) (e : EventId) (c : CategoryId) (db db' : Db) : Prop where
  categories : db'.effectiveEventCategories e = db.effectiveEventCategories e
  requested : (db.requestedIn e c).Alike (db'.requestedIn e c)
  offered : (db.offeredIn now e c).Alike (db'.offeredIn now e c)
  requestedOther : ∀ c' ≠ c, db.requestedIn e c' = db'.requestedIn e c'
  offeredOther : ∀ c' ≠ c, db.offeredIn now e c' = db'.offeredIn now e c'
  reserved : ∀ c', (db.reservedIn e c').Alike (db'.reservedIn e c')
  fulfilled : ∀ c', db.fulfilledIn now e c' = db'.fulfilledIn now e c'
  recent : db.recentIn now e = db'.recentIn now e

/-! ## Each kind of rows -/

/-- Changing the demand of a category leaves the demand of every other as it is. -/
theorem requestedIn_other {C : CategoryId → Prop} {t : Table RequestId Request}
    (hrows : db.requests.AgreeOutside (fun r => ∃ c, C c ∧ IsDemand e c r) t)
    {c' : CategoryId} (hc' : ¬C c') :
    db.requestedIn e c' = { db with requests := t }.requestedIn e c' := by
  have havoids (r : Request) (hr : (decide (r.eventId = e) &&
      (decide (r.status = .searching) || decide (r.status = .offering)) &&
      decide (r.categoryId = c')) = true) : ¬∃ c, C c ∧ IsDemand e c r := by
    rintro ⟨c, hc, -, -, rfl⟩
    simp only [Bool.and_eq_true, decide_eq_true_eq] at hr
    exact hc' (hr.2 ▸ hc)
  exact Agg.of_perm (hrows.select_perm (fun _ r _ hr => havoids r hr)
    (fun _ r _ hr => havoids r hr) fun _ _ _ _ => rfl)

/-- The category of a match does not depend on the rows of the requests that may differ. -/
theorem matchCategory_demand {t : Table RequestId Request}
    (hrows : db.requests.AgreeOutside (IsDemand e c) t) {m : Match}
    (hm : m.requestId ∈ db.requests) (hm' : m.requestId ∈ t) :
    db.matchCategory m = { db with requests := t }.matchCategory m := by
  obtain ⟨r, hr⟩ := Table.mem_iff_exists.mp hm
  obtain ⟨r', hr'⟩ := Table.mem_iff_exists.mp hm'
  simp only [matchCategory, hr, hr', Option.map_some, Option.some.injEq]
  rcases hrows.class hr hr' with rfl | ⟨⟨-, -, hc⟩, -, -, hc'⟩
  · rfl
  · exact hc.trans hc'.symm

theorem FiguresAlike.demand {t : Table RequestId Request} (hfk : db.MatchesHaveRequests)
    (hfk' : { db with requests := t }.MatchesHaveRequests)
    (hrows : db.requests.AgreeOutside (IsDemand e c) t)
    (hfew : (db.requestedIn e c).users < Limits.kAnonymityThreshold)
    (hfew' : ({ db with requests := t }.requestedIn e c).users < Limits.kAnonymityThreshold) :
    FiguresAlike now e c db { db with requests := t } := by
  have hcategory : ∀ mid m, db.matchRows.lookup mid = some m →
      db.matchCategory m = { db with requests := t }.matchCategory m :=
    fun mid m hm => matchCategory_demand hrows (hfk mid m hm) (hfk' mid m hm)
  have hmatches (p : Match → Bool) (c' : CategoryId) :
      (db.matchRows.select fun _ m => p m && decide (db.matchCategory m = some c')).Perm
        (db.matchRows.select fun _ m =>
          p m && decide ({ db with requests := t }.matchCategory m = some c')) := by
    apply (Table.AgreeOutside.refl (fun _ => False) db.matchRows).select_perm
      (fun _ _ _ _ => not_false) fun _ _ _ _ => not_false
    intro mid m _ hm
    rw [hcategory mid m hm]
  have hone : db.requests.AgreeOutside (fun r => ∃ c', c' = c ∧ IsDemand e c' r) t := by
    simpa only [exists_eq_left] using hrows
  exact
    { categories := rfl
      requested := .inr ⟨hfew, hfew'⟩
      offered := .inl rfl
      requestedOther := fun c' hc' => requestedIn_other hone hc'
      offeredOther := fun _ _ => rfl
      reserved := fun c' => .inl (Agg.of_perm (hmatches _ c'))
      fulfilled := fun c' => Agg.of_perm (hmatches _ c')
      recent := rfl }

theorem FiguresAlike.supply {t : Table ItemId InventoryItem}
    (hrows : db.inventoryItems.AgreeOutside (IsSupply e c) t)
    (hfew : (db.offeredIn now e c).users < Limits.kAnonymityThreshold)
    (hfew' : ({ db with inventoryItems := t }.offeredIn now e c).users <
      Limits.kAnonymityThreshold) :
    FiguresAlike now e c db { db with inventoryItems := t } := by
  have hother : ∀ c' ≠ c,
      db.offeredIn now e c' = { db with inventoryItems := t }.offeredIn now e c' := by
    intro c' hc'
    have havoids (item : InventoryItem) (h : (decide (item.eventId = e) && item.active &&
        (item.expiresAt.all fun t => decide (now < t)) && decide (item.categoryId = c')) = true) :
        ¬IsSupply e c item := by
      rintro ⟨-, -, rfl⟩
      simp only [Bool.and_eq_true, decide_eq_true_eq] at h
      exact hc' h.2.symm
    exact Agg.of_perm (hrows.select_perm (fun _ item _ h => havoids item h)
      (fun _ item _ h => havoids item h) fun _ _ _ _ => rfl)
  exact
    { categories := rfl
      requested := .inl rfl
      offered := .inr ⟨hfew, hfew'⟩
      requestedOther := fun _ _ => rfl
      offeredOther := hother
      reserved := fun _ => .inl rfl
      fulfilled := fun _ => rfl
      recent := rfl }

theorem Match.settledRecently_inactive {m : Match} (h : m.settledRecently now = true) :
    m.status ≠ .active := by
  intro hactive
  simp [Match.settledRecently, hactive] at h

theorem FiguresAlike.reservedRows {t : Table MatchId Match}
    (hrows : db.matchRows.AgreeOutside (db.IsReserved e c) t)
    (hfew : (db.reservedIn e c).users < Limits.kAnonymityThreshold)
    (hfew' : ({ db with matchRows := t }.reservedIn e c).users < Limits.kAnonymityThreshold) :
    FiguresAlike now e c db { db with matchRows := t } := by
  have hselect {p : Match → Bool} (hp : ∀ m, p m = true → ¬db.IsReserved e c m) :
      (db.matchRows.select fun _ m => p m).Perm (t.select fun _ m => p m) :=
    hrows.select_perm (fun _ m _ h => hp m h) (fun _ m _ h => hp m h) fun _ _ _ _ => rfl
  have hsettled (m : Match) (h : m.settledRecently now = true) : ¬db.IsReserved e c m :=
    fun hreserved => Match.settledRecently_inactive h hreserved.2.1
  have hrecent := hselect (p := fun m => decide (m.eventId = e) && m.settledRecently now)
    fun m h => hsettled m (Bool.and_eq_true_iff.mp h).2
  refine
    { categories := rfl
      requested := .inl rfl
      offered := .inl rfl
      requestedOther := fun _ _ => rfl
      offeredOther := fun _ _ => rfl
      reserved := fun c' => ?_
      fulfilled := fun c' => ?_
      recent := ?_ }
  · by_cases hc' : c' = c
    · exact hc' ▸ .inr ⟨hfew, hfew'⟩
    · refine .inl (Agg.of_perm (hselect fun m h => ?_))
      rintro ⟨-, -, hcategory⟩
      simp only [Bool.and_eq_true, decide_eq_true_eq] at h
      exact hc' (Option.some.inj (h.2.symm.trans hcategory))
  · refine Agg.of_perm (hselect fun m h => ?_)
    simp only [Bool.and_eq_true] at h
    exact hsettled m h.1.2
  · have hrows := hrecent.map Prod.snd
    exact Prod.ext hrows.length_eq
      ((hrows.map Match.requesterId).append (hrows.map Match.helperId)).dedup.length_eq

theorem DiffersBelow.alike (hfk : db.MatchesHaveRequests) (hfk' : db'.MatchesHaveRequests)
    (h : DiffersBelow now e c db db') : FiguresAlike now e c db db' := by
  cases h with
  | demand t hrows hfew hfew' => exact .demand hfk hfk' hrows hfew hfew'
  | supply t hrows hfew hfew' => exact .supply hrows hfew hfew'
  | reserved t hrows hfew hfew' => exact .reservedRows hrows hfew hfew'

/-! ## The dashboard -/

theorem FiguresAlike.numbers (h : FiguresAlike now e c db db') (cat : Directory.EffectiveCategory) :
    (db.categoryNeed now e cat).numbers = (db'.categoryNeed now e cat).numbers := by
  have hrequested : (db.requestedIn e cat.categoryId).Alike (db'.requestedIn e cat.categoryId) := by
    by_cases hc : cat.categoryId = c
    · exact hc ▸ h.requested
    · exact .inl (h.requestedOther _ hc)
  have hoffered : (db.offeredIn now e cat.categoryId).Alike
      (db'.offeredIn now e cat.categoryId) := by
    by_cases hc : cat.categoryId = c
    · exact hc ▸ h.offered
    · exact .inl (h.offeredOther _ hc)
  simp only [CategoryNeed.numbers, categoryNeed, hrequested.gate, hoffered.gate,
    (h.reserved _).gate, h.fulfilled]

/-- The level is the same too when both sides of the category are below the threshold. -/
theorem FiguresAlike.need (h : FiguresAlike now e c db db')
    (hdemand : (db.requestedIn e c).users < Limits.kAnonymityThreshold ∧
      (db'.requestedIn e c).users < Limits.kAnonymityThreshold)
    (hsupply : (db.offeredIn now e c).users < Limits.kAnonymityThreshold ∧
      (db'.offeredIn now e c).users < Limits.kAnonymityThreshold)
    (cat : Directory.EffectiveCategory) :
    db.categoryNeed now e cat = db'.categoryNeed now e cat := by
  have hlevel : (db.categoryNeed now e cat).level = (db'.categoryNeed now e cat).level := by
    simp only [categoryNeed]
    by_cases hc : cat.categoryId = c
    · rw [hc, shortageLevel_unknown hdemand.1 hsupply.1, shortageLevel_unknown hdemand.2 hsupply.2]
    · rw [h.requestedOther _ hc, h.offeredOther _ hc]
  have hnumbers := h.numbers cat
  simp only [CategoryNeed.numbers, Prod.mk.injEq] at hnumbers
  obtain ⟨-, hrequested, hoffered, hreserved, hfulfilled⟩ := hnumbers
  exact CategoryNeed.ext rfl rfl hlevel hrequested hoffered hreserved hfulfilled rfl

/-- Rows of a category with fewer than `k` users behind them do not show in any number of the
dashboard; when its demand and its supply are both below `k`, they do not show at all. -/
theorem computeDashboard_anonymous (env : Env) (hfk : db.MatchesHaveRequests)
    (hfk' : db'.MatchesHaveRequests) (h : DiffersBelow env.now e c db db') :
    (db.computeDashboard env e).numbers = (db'.computeDashboard env e).numbers ∧
      ((db.requestedIn e c).users < Limits.kAnonymityThreshold ∧
        (db'.requestedIn e c).users < Limits.kAnonymityThreshold →
        (db.offeredIn env.now e c).users < Limits.kAnonymityThreshold ∧
          (db'.offeredIn env.now e c).users < Limits.kAnonymityThreshold →
        db.computeDashboard env e = db'.computeDashboard env e) := by
  have halike := h.alike hfk hfk'
  constructor
  · simp only [EventDashboard.numbers, computeDashboard, halike.categories, halike.recent,
      List.map_map]
    exact congrArg (fun l => (l, _)) (List.map_congr_left fun cat _ => halike.numbers cat)
  · intro hdemand hsupply
    simp only [computeDashboard, halike.categories, halike.recent, EventDashboard.mk.injEq,
      and_true, true_and]
    exact List.map_congr_left fun cat _ => halike.need hdemand hsupply cat

/-- A second request of user 1 leaves the whole dashboard as it is. -/
theorem computeDashboard_anonymous_request :
    let db := runFrom step Db.empty (SmallEvent.oneMatch.take 3)
    let request : Request :=
      { eventId := 1, requesterId := 1, categoryId := 1, qty := 3, unit := .item,
        expiresAt := 1000, idempotencyKey := "b" }
    let db' := { db with requests := db.requests.put 21 request }
    db.computeDashboard (SmallEvent.clock 5) 1 = db'.computeDashboard (SmallEvent.clock 5) 1 := by
  intro db request db'
  have hnone : ∀ mid m, db.matchRows.lookup mid = some m → False :=
    @of_decide_eq_true _ (Table.decidableForall _ fun _ _ => False) (by decide +kernel)
  have hfk : db.MatchesHaveRequests := fun mid m hm => (hnone mid m hm).elim
  have hfk' : db'.MatchesHaveRequests := fun mid m hm => (hnone mid m hm).elim
  have hdiffers : DiffersBelow 5 1 1 db db' :=
    .demand _ (.put (by decide +kernel) ⟨rfl, rfl, rfl⟩) (by decide +kernel) (by decide +kernel)
  exact (computeDashboard_anonymous (SmallEvent.clock 5) hfk hfk' hdiffers).2
    (by decide +kernel) (by decide +kernel)

end Db
end Sahay
