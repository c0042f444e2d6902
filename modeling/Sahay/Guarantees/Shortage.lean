import Sahay.Server.Figures

/-!
# The shortage heuristic is monotone

More supply never makes a level more severe, and more demand never makes it less severe:
both read one ladder over the ratio.  The exception is the first demand: with nothing
requested little supply counts as adequate, whatever its ratio to what is then requested.
-/

namespace Sahay

/-- The ladder over `offeredQty / requestedQty`. -/
def ratioLevel (ratio : Qty) : ShortageLevel :=
  if ratio < 1 / 4 then .criticalShortage
  else if ratio < 3 / 4 then .highNeed
  else if ratio < 5 / 4 then .moderateNeed
  else if ratio < 3 then .adequate
  else .possibleSurplus

theorem monotone_rung {bound : Qty} {low : ℕ} {above : Qty → ℕ} (hmono : Monotone above)
    (hlow : ∀ ratio, low ≤ above ratio) :
    Monotone fun ratio => if ratio < bound then low else above ratio := by
  intro ratio ratio' hle
  dsimp only
  split_ifs with h h'
  · exact le_rfl
  · exact hlow ratio'
  · exact absurd (hle.trans_lt ‹_›) h
  · exact hmono hle

theorem severity_ratioLevel (ratio : Qty) :
    (ratioLevel ratio).severity =
      if ratio < 1 / 4 then 0 else if ratio < 3 / 4 then 1 else if ratio < 5 / 4 then 2
      else if ratio < 3 then 3 else 4 := by
  unfold ratioLevel
  simp only [apply_ite ShortageLevel.severity]
  rfl

theorem severity_ratioLevel_mono : Monotone fun ratio => (ratioLevel ratio).severity := by
  simp only [severity_ratioLevel]
  have hadequate : Monotone fun ratio : Qty => if ratio < 3 then 3 else 4 :=
    monotone_rung monotone_const fun _ => by decide
  refine monotone_rung (monotone_rung (monotone_rung hadequate ?_) ?_) ?_
  all_goals
    intro ratio
    split_ifs <;> decide

theorem severity_ratioLevel_le (ratio : Qty) :
    (ratioLevel ratio).severity ≤ ShortageLevel.possibleSurplus.severity := by
  unfold ratioLevel
  split_ifs <;> decide

theorem severity_ratioLevel_le_adequate_iff {ratio : Qty} :
    (ratioLevel ratio).severity ≤ ShortageLevel.adequate.severity ↔ ratio < 3 := by
  unfold ratioLevel
  split_ifs with h₁ h₂ h₃ h₄
  · exact iff_of_true (by decide) (h₁.trans (by norm_num))
  · exact iff_of_true (by decide) (h₂.trans (by norm_num))
  · exact iff_of_true (by decide) (h₃.trans (by norm_num))
  · exact iff_of_true (by decide) h₄
  · exact iff_of_false (by decide) h₄

namespace ShortageInputs

variable {i : ShortageInputs}

def Few (i : ShortageInputs) : Prop :=
  i.distinctRequesters < i.kAnonymityThreshold ∧ i.distinctOfferers < i.kAnonymityThreshold

theorem not_few_of_known (hknown : computeShortage i ≠ .unknown) : ¬i.Few := by
  intro hfew
  exact hknown (if_pos hfew)

theorem computeShortage_of_pos (hfew : ¬i.Few) (hpos : 0 < i.requestedQty) :
    computeShortage i = ratioLevel (i.offeredQty / i.requestedQty) := by
  unfold computeShortage
  unfold Few at hfew
  rw [if_neg hfew, if_neg (not_le.mpr hpos)]
  rfl

theorem computeShortage_of_zero (hfew : ¬i.Few) (hzero : i.requestedQty = 0) :
    computeShortage i =
      if (i.kAnonymityThreshold : Qty) < i.offeredQty then .possibleSurplus else .adequate := by
  unfold computeShortage
  unfold Few at hfew
  rw [if_neg hfew, if_pos hzero.le]

/-- Nothing was requested, and what is offered is no more than the threshold but at least
three times what is requested now. -/
def FirstDemand (i : ShortageInputs) (requestedQty : Qty) : Prop :=
  i.requestedQty = 0 ∧ i.offeredQty ≤ i.kAnonymityThreshold ∧
    0 < requestedQty ∧ 3 * requestedQty ≤ i.offeredQty

theorem severity_of_demand (hfew : ¬i.Few) (hr : 0 ≤ i.requestedQty) (ho : 0 ≤ i.offeredQty)
    {r : Qty} (hle : i.requestedQty ≤ r) :
    (computeShortage { i with requestedQty := r }).severity ≤ (computeShortage i).severity ↔
      ¬i.FirstDemand r := by
  rcases hr.eq_or_lt with hzero | hpos
  · rcases (hr.trans hle).eq_or_lt with hr0 | hrpos
    · -- still nothing is requested
      have hsame : ({ i with requestedQty := r } : ShortageInputs) = i := by
        rw [← hr0, hzero]
      rw [hsame]
      exact iff_of_true le_rfl fun hfirst => hfirst.2.2.1.ne hr0
    · rw [computeShortage_of_zero hfew hzero.symm,
        computeShortage_of_pos (i := { i with requestedQty := r }) hfew hrpos]
      split_ifs with hmuch
      · exact iff_of_true (severity_ratioLevel_le _) fun hfirst => hmuch.not_ge hfirst.2.1
      · rw [severity_ratioLevel_le_adequate_iff, div_lt_iff₀ hrpos, ← not_le, not_iff_not]
        exact ⟨fun h => ⟨hzero.symm, not_lt.mp hmuch, hrpos, h⟩, fun hfirst => hfirst.2.2.2⟩
  · rw [computeShortage_of_pos hfew hpos,
      computeShortage_of_pos (i := { i with requestedQty := r }) hfew (hpos.trans_le hle)]
    exact iff_of_true (severity_ratioLevel_mono (div_le_div_of_nonneg_left ho hpos hle))
      fun hfirst => hpos.ne' hfirst.1

theorem levels_of_firstDemand (hfew : ¬i.Few) {r : Qty} (h : i.FirstDemand r) :
    computeShortage i = .adequate ∧
      computeShortage { i with requestedQty := r } = .possibleSurplus := by
  obtain ⟨hzero, hlittle, hpos, hthrice⟩ := h
  constructor
  · rw [computeShortage_of_zero hfew hzero, if_neg (not_lt.mpr hlittle)]
  · rw [computeShortage_of_pos (i := { i with requestedQty := r }) hfew hpos]
    have hratio : 3 ≤ i.offeredQty / r := (le_div_iff₀ hpos).mpr hthrice
    show ratioLevel (i.offeredQty / r) = .possibleSurplus
    rw [ratioLevel, if_neg, if_neg, if_neg, if_neg] <;> linarith

theorem severity_of_supply (hfew : ¬i.Few) (hr : 0 ≤ i.requestedQty) {o : Qty}
    (hle : i.offeredQty ≤ o) :
    (computeShortage i).severity ≤ (computeShortage { i with offeredQty := o }).severity := by
  rcases hr.eq_or_lt with hzero | hpos
  · rw [computeShortage_of_zero hfew hzero.symm,
      computeShortage_of_zero (i := { i with offeredQty := o }) hfew hzero.symm]
    split_ifs with hmuch hmuch'
    · exact le_rfl
    · exact absurd (hmuch.trans_le hle) hmuch'
    · decide
    · exact le_rfl
  · rw [computeShortage_of_pos hfew hpos,
      computeShortage_of_pos (i := { i with offeredQty := o }) hfew hpos]
    exact severity_ratioLevel_mono (div_le_div_of_nonneg_right hle hpos.le)

end ShortageInputs

/-- Levels are listed from the most severe on, so a smaller position is more severe. -/
theorem computeShortage_monotone {i : ShortageInputs} (hr : 0 ≤ i.requestedQty)
    (ho : 0 ≤ i.offeredQty) (hknown : computeShortage i ≠ .unknown) :
    (∀ r, i.requestedQty ≤ r →
      ((computeShortage { i with requestedQty := r }).severity ≤ (computeShortage i).severity ↔
        ¬i.FirstDemand r)) ∧
    (∀ r, i.FirstDemand r → computeShortage i = .adequate ∧
      computeShortage { i with requestedQty := r } = .possibleSurplus) ∧
    ∀ o, i.offeredQty ≤ o →
      (computeShortage i).severity ≤ (computeShortage { i with offeredQty := o }).severity := by
  have hfew := ShortageInputs.not_few_of_known hknown
  exact ⟨fun r hle => ShortageInputs.severity_of_demand hfew hr ho hle,
    fun r hfirst => ShortageInputs.levels_of_firstDemand hfew hfirst,
    fun o hle => ShortageInputs.severity_of_supply hfew hr hle⟩

def littleSupply : ShortageInputs := ⟨0, 2, 0, 4, Limits.kAnonymityThreshold⟩

/-- A request for a tenth of an item turns adequate supply into a possible surplus. -/
theorem first_demand_lowers_severity :
    computeShortage littleSupply = .adequate ∧
      computeShortage { littleSupply with requestedQty := 1 / 10 } = .possibleSurplus := by
  decide +kernel

/-- A request for one item does not, and nor does more supply. -/
theorem first_demand_of_one :
    (computeShortage { littleSupply with requestedQty := 1 }).severity ≤
      (computeShortage littleSupply).severity ∧
    (computeShortage littleSupply).severity ≤
      (computeShortage { littleSupply with offeredQty := 50 }).severity := by
  obtain ⟨hdemand, -, hsupply⟩ := computeShortage_monotone (i := littleSupply) (by decide +kernel)
    (by decide +kernel) (by decide +kernel)
  refine ⟨(hdemand 1 (by decide +kernel)).mpr ?_, hsupply 50 (by decide +kernel)⟩
  rintro ⟨-, -, -, h⟩
  exact absurd h (by decide +kernel)

end Sahay
