import Mathlib.Algebra.Order.Archimedean.Basic
import Mathlib.Data.Int.ConditionallyCompleteOrder
import Mathlib.Order.Interval.Set.OrdConnected

/-!
# Instants at a fixed distance

A cadence is a first instant and a period.  Its first point from an instant on is the one
whose predecessor, if it has one, stands before that instant.  A sequence of ticks meets
every stretch of one period exactly once, as long as it surrounds where the stretch begins.
-/

namespace Sahay

/-- The instants `first, first + period, first + 2 * period, …`. -/
def cadence (first period : ℤ) : Set ℤ := {x | ∃ k : ℕ, x = first + k * period}

section Cadence

variable {first period : ℤ}

theorem mem_cadence (k : ℕ) : first + k * period ∈ cadence first period := ⟨k, rfl⟩

theorem first_mem_cadence : first ∈ cadence first period := ⟨0, by simp⟩

theorem mem_cadence_iff {x : ℤ} :
    x ∈ cadence first period ↔ x = first ∨ x ∈ cadence (first + period) period := by
  constructor
  · rintro ⟨k, rfl⟩
    cases k with
    | zero => exact .inl (by simp)
    | succ k => exact .inr ⟨k, by push_cast; ring⟩
  · rintro (rfl | ⟨k, rfl⟩)
    · exact first_mem_cadence
    · exact ⟨k + 1, by push_cast; ring⟩

theorem first_le_of_mem (hperiod : 0 < period) {x : ℤ} (hx : x ∈ cadence first period) :
    first ≤ x := by
  obtain ⟨k, rfl⟩ := hx
  have : 0 ≤ (k : ℤ) * period := by positivity
  omega

theorem eq_first_or_sub_mem {x : ℤ} (hx : x ∈ cadence first period) :
    x = first ∨ x - period ∈ cadence first period := by
  obtain ⟨k, rfl⟩ := hx
  cases k with
  | zero => exact .inl (by simp)
  | succ k => exact .inr ⟨k, by push_cast; ring⟩

theorem add_le_of_lt (hperiod : 0 < period) {x y : ℤ} (hx : x ∈ cadence first period)
    (hy : y ∈ cadence first period) (hlt : x < y) : x + period ≤ y := by
  obtain ⟨k, rfl⟩ := hx
  obtain ⟨l, rfl⟩ := hy
  have hkl : (k : ℤ) + 1 ≤ l := lt_of_mul_lt_mul_right (by linarith) hperiod.le
  have := mul_le_mul_of_nonneg_right hkl hperiod.le
  linarith

theorem exists_isLeast_cadence (hperiod : 0 < period) (first t : ℤ) :
    ∃ x, IsLeast {y ∈ cadence first period | t ≤ y} x := by
  have hfar : t ≤ first + (t - first).toNat * period := by
    have h := le_mul_of_one_le_right (Int.natCast_nonneg (t - first).toNat) hperiod
    have := Int.self_le_toNat (t - first)
    omega
  obtain ⟨x, hx, hleast⟩ := Int.exists_least_of_bdd
    (P := fun y => y ∈ cadence first period ∧ t ≤ y) ⟨t, fun _ hy => hy.2⟩
    ⟨_, mem_cadence _, hfar⟩
  exact ⟨x, hx, fun y hy => hleast y hy⟩

theorem isLeast_cadence_iff (hperiod : 0 < period) {t x : ℤ} :
    IsLeast {y ∈ cadence first period | t ≤ y} x ↔
      x ∈ cadence first period ∧ t ≤ x ∧ (x = first ∨ x - period < t) := by
  constructor
  · rintro ⟨⟨hx, ht⟩, hleast⟩
    refine ⟨hx, ht, (eq_first_or_sub_mem hx).imp_right fun hprev => ?_⟩
    by_contra hge
    have := hleast ⟨hprev, not_lt.mp hge⟩
    omega
  · rintro ⟨hx, ht, hfirst⟩
    refine ⟨⟨hx, ht⟩, fun y ⟨hy, hty⟩ => ?_⟩
    rcases hfirst with rfl | hprev
    · exact first_le_of_mem hperiod hy
    · by_contra hlt
      have := add_le_of_lt hperiod hy hx (not_le.mp hlt)
      omega

end Cadence

/-! ## Ticks -/

/-- Ticks at distance `period`, at the phase of tick number 0.  Which of them happen is a
stretch of the numbers: the sequence may begin and end anywhere. -/
structure Ticks (period : ℤ) where
  phase : ℤ
  happen : Set ℤ
  ordConnected : happen.OrdConnected

namespace Ticks

variable {period : ℤ} (ticks : Ticks period)

def times : Set ℤ := {t | ∃ i ∈ ticks.happen, t = ticks.phase + i * period}

/-- Some tick is not after `t`, and some is not before it. -/
def Surrounds (t : ℤ) : Prop := (∃ now ∈ ticks.times, now ≤ t) ∧ ∃ now ∈ ticks.times, t ≤ now

variable {ticks}

/-- Of the stretch of one period that begins at `t`, exactly one instant is a tick. -/
theorem Surrounds.existsUnique (hperiod : 0 < period) {t : ℤ} (h : ticks.Surrounds t) :
    ∃! now, now ∈ ticks.times ∧ t ≤ now ∧ now < t + period := by
  obtain ⟨⟨_, ⟨i, hi, rfl⟩, hbefore⟩, _, ⟨j, hj, rfl⟩, hafter⟩ := h
  obtain ⟨m, ⟨hle, hlt⟩, hunique⟩ := existsUnique_add_zsmul_mem_Ico hperiod ticks.phase t
  rw [zsmul_eq_mul, Int.cast_id] at hle hlt
  have him : i ≤ m := Int.lt_add_one_iff.mp <| lt_of_mul_lt_mul_right (by linarith) hperiod.le
  have hmj : m ≤ j := Int.lt_add_one_iff.mp <| lt_of_mul_lt_mul_right (by linarith) hperiod.le
  have hm : m ∈ ticks.happen := ticks.ordConnected.out hi hj ⟨him, hmj⟩
  refine ⟨_, ⟨⟨m, hm, rfl⟩, hle, hlt⟩, ?_⟩
  rintro _ ⟨⟨n, -, rfl⟩, hn⟩
  rw [hunique n hn]

end Ticks
end Sahay
