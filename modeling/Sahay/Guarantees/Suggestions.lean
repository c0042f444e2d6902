import Sahay.Guarantees.Anonymity
import Sahay.Lib.Selection

/-!
# Suggestions of what to bring

Below the threshold on both sides a category's level is unknown, so which categories are
suggested, and in which order, does not depend on its rows.  The suggested quantity is
computed from the exact aggregates all the same.
-/

namespace Sahay

def SameClamped (low high x y : Qty) : Prop :=
  x = y ∨ (x ≤ low ∧ y ≤ low) ∨ (high ≤ x ∧ high ≤ y) ∨ high ≤ low

instance (low high x y : Qty) : Decidable (SameClamped low high x y) :=
  inferInstanceAs (Decidable (_ ∨ _ ∨ _ ∨ _))

theorem clamp_eq_iff {low high x y : Qty} :
    max (min x high) low = max (min y high) low ↔ SameClamped low high x y := by
  unfold SameClamped
  constructor
  · intro h
    by_contra hnot
    simp only [not_or, not_and, not_le] at hnot
    obtain ⟨hne, hlow, hhigh, hbounds⟩ := hnot
    grind
  · rintro (rfl | ⟨hx, hy⟩ | ⟨hx, hy⟩ | hbounds)
    · rfl
    · rw [max_eq_right ((min_le_left _ _).trans hx), max_eq_right ((min_le_left _ _).trans hy)]
    · rw [min_eq_right hx, min_eq_right hy]
    · rw [max_eq_right ((min_le_right _ _).trans hbounds),
        max_eq_right ((min_le_right _ _).trans hbounds)]

/-- The level is unknown exactly below the threshold on both sides. -/
theorem shortageLevel_unknown_iff {requested offered : Agg} :
    shortageLevel requested offered = .unknown ↔
      requested.users < Limits.kAnonymityThreshold ∧
        offered.users < Limits.kAnonymityThreshold := by
  unfold shortageLevel computeShortage
  simp only
  split_ifs with hfew <;> simp [hfew]

theorem ShortageLevel.severity_lt {level : ShortageLevel} (h : level ≠ .unknown) :
    level.severity < ShortageLevel.unknown.severity := by
  cases level with
  | unknown => exact absurd rfl h
  | _ => decide

namespace Db

variable {db db' : Db} {e : EventId} {viewer : UserId} {C : CategoryId → Prop}

/-- What open requests miss beyond the stock of the others, as a difference of doubles. -/
def shortfall (db : Db) (e : EventId) (viewer : UserId) (c : CategoryId) : Qty :=
  Double.diff (db.requestedIn e c).qty (db.othersOfferIn viewer e c).qty

def mostSuggested (cat : Directory.EffectiveCategory) : Qty := min (Double.round cat.maxOfferQty) 10

def isUnknown (db : Db) (e : EventId) (viewer : UserId) (cat : Directory.EffectiveCategory) :
    Bool :=
  (db.requestedIn e cat.categoryId).users < Limits.kAnonymityThreshold &&
    (db.othersOfferIn viewer e cat.categoryId).users < Limits.kAnonymityThreshold

/-- The categories of unknown level that find a place behind those of known level: in
catalogue order, as many as six suggestions leave room for. -/
def unknownShown (db : Db) (e : EventId) (viewer : UserId) : List Directory.EffectiveCategory :=
  let cats := db.effectiveEventCategories e
  (cats.filter (db.isUnknown e viewer)).take
    (6 - (cats.filter fun cat => !db.isUnknown e viewer cat).length)

/-- The databases differ in the open requests and active stock of the categories `C` only,
and these are below the threshold on both sides in either database. -/
structure DiffersInUnknown (e : EventId) (viewer : UserId) (C : CategoryId → Prop) (db db' : Db) :
    Prop where
  same : { db with requests := db'.requests, inventoryItems := db'.inventoryItems } = db'
  demand : db.requests.AgreeOutside (fun r => ∃ c, C c ∧ IsDemand e c r) db'.requests
  supply : db.inventoryItems.AgreeOutside (fun item => ∃ c, C c ∧ IsSupply e c item)
    db'.inventoryItems
  few : ∀ c, C c → (db.requestedIn e c).users < Limits.kAnonymityThreshold ∧
    (db.othersOfferIn viewer e c).users < Limits.kAnonymityThreshold
  few' : ∀ c, C c → (db'.requestedIn e c).users < Limits.kAnonymityThreshold ∧
    (db'.othersOfferIn viewer e c).users < Limits.kAnonymityThreshold

namespace DiffersInUnknown

variable (h : DiffersInUnknown e viewer C db db')

include h

theorem directory : db'.toDirectory = db.toDirectory := by
  rw [← h.same]

theorem requested {c : CategoryId} (hc : ¬C c) : db.requestedIn e c = db'.requestedIn e c := by
  rw [← h.same]
  exact requestedIn_other h.demand hc

theorem othersOffer {c : CategoryId} (hc : ¬C c) :
    db.othersOfferIn viewer e c = db'.othersOfferIn viewer e c := by
  have havoids (item : InventoryItem) (hitem : (decide (item.eventId = e) && item.active &&
      decide (item.userId ≠ viewer) && decide (item.categoryId = c)) = true) :
      ¬∃ c, C c ∧ IsSupply e c item := by
    rintro ⟨c', hc', -, -, rfl⟩
    simp only [Bool.and_eq_true, decide_eq_true_eq] at hitem
    exact hc (hitem.2 ▸ hc')
  exact Agg.of_perm (h.supply.select_perm (fun _ item _ hitem => havoids item hitem)
    (fun _ item _ hitem => havoids item hitem) fun _ _ _ _ => rfl)

theorem isUnknown_eq (cat : Directory.EffectiveCategory) :
    db'.isUnknown e viewer cat = db.isUnknown e viewer cat := by
  by_cases hc : C cat.categoryId
  · simp [isUnknown, h.few _ hc, h.few' _ hc]
  · rw [isUnknown, isUnknown, h.requested hc, h.othersOffer hc]

theorem suggestion_known {cat : Directory.EffectiveCategory}
    (hknown : db.isUnknown e viewer cat = false) :
    db.bringSuggestion e viewer cat = db'.bringSuggestion e viewer cat := by
  have hc : ¬C cat.categoryId := by
    intro hc
    simp [isUnknown, h.few _ hc] at hknown
  rw [bringSuggestion, bringSuggestion, h.requested hc, h.othersOffer hc]

end DiffersInUnknown

theorem bringSuggestion_level {cat : Directory.EffectiveCategory} :
    (db.bringSuggestion e viewer cat).level = .unknown ↔ db.isUnknown e viewer cat = true := by
  simp only [bringSuggestion, shortageLevel_unknown_iff, isUnknown, Bool.and_eq_true,
    decide_eq_true_eq]

theorem suggestion_unknown_iff {cat : Directory.EffectiveCategory}
    (hunknown : db.isUnknown e viewer cat = true) (hunknown' : db'.isUnknown e viewer cat = true) :
    db.bringSuggestion e viewer cat = db'.bringSuggestion e viewer cat ↔
      SameClamped 0 (mostSuggested cat) (db.shortfall e viewer cat.categoryId)
        (db'.shortfall e viewer cat.categoryId) := by
  have hlevel := bringSuggestion_level.mpr hunknown
  have hlevel' := bringSuggestion_level.mpr hunknown'
  rw [← clamp_eq_iff, shortfall, shortfall, mostSuggested, ← min_assoc, ← min_assoc]
  constructor
  · exact fun heq => congrArg BringSuggestion.suggestedQty heq
  · intro hqty
    have hsame := hlevel.trans hlevel'.symm
    exact BringSuggestion.ext rfl rfl hsame hqty rfl
      (congrArg (fun level => "shortage." ++ ShortageLevel.name level) hsame)

/-! ## The list -/

/-- Suggestions of known level come first, those of unknown level follow in catalogue
order. -/
theorem suggestions_sorted (db : Db) (cats : List Directory.EffectiveCategory) :
    (cats.map (db.bringSuggestion e viewer)).insertionSort
        (fun a b => a.level.severity ≤ b.level.severity) =
      ((cats.filter fun cat => !db.isUnknown e viewer cat).map
        (db.bringSuggestion e viewer)).insertionSort
          (fun a b => a.level.severity ≤ b.level.severity) ++
        (cats.filter (db.isUnknown e viewer)).map (db.bringSuggestion e viewer) := by
  have hlevel (cat : Directory.EffectiveCategory) :
      decide ((db.bringSuggestion e viewer cat).level ≠ .unknown) =
        !db.isUnknown e viewer cat := by
    rw [Bool.eq_iff_iff, decide_eq_true_iff, Ne, bringSuggestion_level, Bool.not_eq_true',
      Bool.not_eq_true]
  have hsorted := insertionSort_filter
    (r := fun a b : BringSuggestion => a.level.severity ≤ b.level.severity)
    (q := fun a => decide (a.level ≠ .unknown))
    (l := cats.map (db.bringSuggestion e viewer)) ?_ ?_
  · rw [hsorted, List.filter_map, List.filter_map]
    simp only [Function.comp_def, hlevel, Bool.not_not]
  · intro x y hx hy
    simp only [decide_eq_false_iff_not, not_not] at hx hy
    rw [hx, hy]
  · intro x y hx hy
    simp only [decide_eq_true_eq, decide_eq_false_iff_not, not_not] at hx hy
    have hlt := ShortageLevel.severity_lt hx
    rw [hy]
    exact ⟨hlt.le, not_le.mpr hlt⟩

theorem suggestions_agree_iff (h : DiffersInUnknown e viewer C db db')
    (cats : List Directory.EffectiveCategory) (n : ℕ) :
    ((cats.map (db.bringSuggestion e viewer)).insertionSort
        (fun a b => a.level.severity ≤ b.level.severity)).take n =
      ((cats.map (db'.bringSuggestion e viewer)).insertionSort
        (fun a b => a.level.severity ≤ b.level.severity)).take n ↔
      ∀ cat ∈ (cats.filter (db.isUnknown e viewer)).take
          (n - (cats.filter fun cat => !db.isUnknown e viewer cat).length),
        SameClamped 0 (mostSuggested cat) (db.shortfall e viewer cat.categoryId)
          (db'.shortfall e viewer cat.categoryId) := by
  have hknown : (cats.filter fun cat => !db.isUnknown e viewer cat).map
      (db.bringSuggestion e viewer) =
        (cats.filter fun cat => !db.isUnknown e viewer cat).map (db'.bringSuggestion e viewer) := by
    apply List.map_congr_left
    intro cat hcat
    exact h.suggestion_known (by simpa using (List.mem_filter.mp hcat).2)
  have hsame : db'.isUnknown e viewer = db.isUnknown e viewer := funext h.isUnknown_eq
  rw [db.suggestions_sorted, db'.suggestions_sorted]
  simp only [hsame, ← hknown]
  rw [List.take_append, List.take_append, List.append_cancel_left_eq, List.length_insertionSort,
    List.length_map, ← List.map_take, ← List.map_take, List.map_inj_left]
  refine forall₂_congr fun cat hcat => ?_
  have hunknown := (List.mem_filter.mp (List.mem_of_mem_take hcat)).2
  exact suggestion_unknown_iff hunknown ((h.isUnknown_eq cat).trans hunknown)

/-- The suggestions to a member agree exactly when every category of unknown level that is
shown has the same shortfall in both databases, none in either, or at least the most that may
be suggested in either. -/
theorem getBringSuggestions_agree_iff (h : DiffersInUnknown e viewer C db db') :
    db.getBringSuggestions e viewer = db'.getBringSuggestions e viewer ↔
      db.getMembership e viewer = none ∨ ∀ cat ∈ db.unknownShown e viewer,
        SameClamped 0 (mostSuggested cat) (db.shortfall e viewer cat.categoryId)
          (db'.shortfall e viewer cat.categoryId) := by
  unfold getBringSuggestions unknownShown
  rw [h.directory, ← suggestions_agree_iff h]
  cases hmember : db.getMembership e viewer with
  | none => simp
  | some m =>
      simp only [found_some, bind_ok_left, pure, Except.pure, Except.ok.injEq, reduceCtorEq,
        false_or]

def askingRun (qty : ZQty) : List (Env × Op) :=
  [(SmallEvent.clock 0, .directory (SmallEvent.directory [1, 2] [])),
   (SmallEvent.clock 2 20, .createRequest (SmallEvent.token 1) (SmallEvent.request qty "a"))]

def withSecondRequest (db : Db) : Db :=
  { db with
    requests := db.requests.put 21
      { eventId := 1, requesterId := 1, categoryId := 1, qty := 3, unit := .item,
        expiresAt := 1000, idempotencyKey := "b" } }

theorem withSecondRequest_differs (hnew : 21 ∉ db.requests)
    (hfew : (db.requestedIn 1 1).users < Limits.kAnonymityThreshold ∧
      (db.othersOfferIn 2 1 1).users < Limits.kAnonymityThreshold)
    (hfew' : (db.withSecondRequest.requestedIn 1 1).users < Limits.kAnonymityThreshold ∧
      (db.withSecondRequest.othersOfferIn 2 1 1).users < Limits.kAnonymityThreshold) :
    DiffersInUnknown 1 2 (fun c => c = 1) db db.withSecondRequest where
  same := rfl
  demand := .put hnew ⟨1, rfl, rfl, rfl, rfl⟩
  supply := .refl _ _
  few _ hc := hc ▸ hfew
  few' _ hc := hc ▸ hfew'

/-- Beyond ten items, three more do not show. -/
theorem getBringSuggestions_agree_ten :
    let db := runFrom step Db.empty (askingRun ⟨10, by decide⟩)
    db.getBringSuggestions 1 2 = db.withSecondRequest.getBringSuggestions 1 2 :=
  (getBringSuggestions_agree_iff (withSecondRequest_differs (by decide +kernel)
    (by decide +kernel) (by decide +kernel))).mpr (.inr (by decide +kernel))

/-- Below, the single requester's quantity is published. -/
theorem getBringSuggestions_agree_fails :
    let db := runFrom step Db.empty (askingRun SmallEvent.two)
    DiffersInUnknown 1 2 (fun c => c = 1) db db.withSecondRequest ∧
      db.getBringSuggestions 1 2 ≠ db.withSecondRequest.getBringSuggestions 1 2 := by
  refine ⟨withSecondRequest_differs (by decide +kernel) (by decide +kernel) (by decide +kernel),
    fun h => ?_⟩
  have hqty := congrArg (fun r => r.toOption.map (List.map BringSuggestion.suggestedQty)) h
  exact absurd hqty (by decide +kernel)

end Db
end Sahay
