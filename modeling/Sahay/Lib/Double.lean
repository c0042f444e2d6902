import Mathlib.Algebra.Order.Floor.Ring
import Mathlib.Data.Int.Log
import Mathlib.Data.Rat.Floor
import Mathlib.Tactic.Linarith

/-!
# Doubles

The arithmetic of binary64 on the rationals that it stands for, without its overflow: a result is
rounded to the nearest double, half to even, and printed as the shortest decimal that reads back as
the same double.  On whole numbers of at most fifteen digits nothing is rounded.
-/

namespace Sahay

/-- The nearest integer; of two the even one. -/
def roundHalfEven (q : ℚ) : ℤ :=
  if q - ⌊q⌋ < 1 / 2 then ⌊q⌋
  else if 1 / 2 < q - ⌊q⌋ then ⌊q⌋ + 1
  else if ⌊q⌋ % 2 = 0 then ⌊q⌋
  else ⌊q⌋ + 1

theorem roundHalfEven_intCast (n : ℤ) : roundHalfEven n = n := by
  rw [roundHalfEven, Int.floor_intCast, sub_self, if_pos (by norm_num)]

namespace Double

def lastPlace (q : ℚ) : ℤ := max (Int.log 2 |q| - 52) (-1074)

def round (q : ℚ) : ℚ := roundHalfEven (q / 2 ^ lastPlace q) * 2 ^ lastPlace q

/-- Of the multiples of the unit on both sides of the double, the nearer one that is read as it. -/
def nearby (x unit : ℚ) : Option ℚ :=
  let below := ⌊x / unit⌋ * unit
  let above := ⌈x / unit⌉ * unit
  let (near, far) := if x - below ≤ above - x then (below, above) else (above, below)
  if round near = x then some near else if round far = x then some far else none

def print (x : ℚ) : ℚ :=
  ((List.range 17).findSome? fun k : ℕ => nearby x (10 ^ (Int.log 10 |x| - k))).getD x

def add (a b : ℚ) : ℚ := print (round (round a + round b))

def diff (a b : ℚ) : ℚ := round (round a - round b)

def sub (a b : ℚ) : ℚ := print (diff a b)

/-! ## Whole numbers -/

theorem lastPlace_nonpos {n : ℤ} (h : |n| < 2 ^ 53) : lastPlace n ≤ 0 := by
  rw [lastPlace, max_le_iff]
  refine ⟨?_, by norm_num⟩
  by_cases hn : n = 0
  · subst hn
    simp
  · have hpos : (0 : ℚ) < |(n : ℚ)| := abs_pos.mpr (Int.cast_ne_zero.mpr hn)
    have hlow : ((2 : ℕ) : ℚ) ^ Int.log 2 |(n : ℚ)| ≤ |(n : ℚ)| :=
      Int.zpow_log_le_self (by decide) hpos
    have hhigh : |(n : ℚ)| < ((2 : ℕ) : ℚ) ^ (53 : ℤ) := by
      rw [← Int.cast_abs]
      exact_mod_cast h
    have hlog : Int.log 2 |(n : ℚ)| < 53 :=
      (zpow_lt_zpow_iff_right₀ (by norm_num)).mp (lt_of_le_of_lt hlow hhigh)
    omega

theorem round_intCast {n : ℤ} (h : |n| < 2 ^ 53) : round n = n := by
  obtain ⟨k, hk⟩ := Int.exists_eq_neg_ofNat (lastPlace_nonpos h)
  have hscaled : (n : ℚ) / 2 ^ lastPlace n = ((n * 2 ^ k : ℤ) : ℚ) := by
    rw [hk, zpow_neg, zpow_natCast, div_inv_eq_mul]
    push_cast
    rfl
  rw [round, hscaled, roundHalfEven_intCast, hk, zpow_neg, zpow_natCast]
  push_cast
  rw [mul_assoc, mul_inv_cancel₀ (pow_ne_zero k two_ne_zero), mul_one]

/-- A whole number that is read as the whole number `n` is `n`. -/
theorem eq_of_round_eq {n c : ℤ} (hc : |c| < 2 ^ 53) (h : round c = n) : (c : ℚ) = n := by
  rw [← round_intCast hc, h]

theorem nearby_some {x unit c : ℚ} (h : nearby x unit = some c) :
    (c = ⌊x / unit⌋ * unit ∨ c = ⌈x / unit⌉ * unit) ∧ round c = x := by
  unfold nearby at h
  by_cases hnear : x - ⌊x / unit⌋ * unit ≤ ⌈x / unit⌉ * unit - x
  · simp only [if_pos hnear] at h
    split_ifs at h with hlow hhigh
    · exact ⟨.inl (Option.some.inj h).symm, Option.some.inj h ▸ hlow⟩
    · exact ⟨.inr (Option.some.inj h).symm, Option.some.inj h ▸ hhigh⟩
  · simp only [if_neg hnear] at h
    split_ifs at h with hlow hhigh
    · exact ⟨.inr (Option.some.inj h).symm, Option.some.inj h ▸ hlow⟩
    · exact ⟨.inl (Option.some.inj h).symm, Option.some.inj h ▸ hhigh⟩

theorem nearby_whole_unit {n : ℤ} (h : |n| ≤ 10 ^ 15) {m : ℤ} (hm : 0 < m) (hle : m ≤ |n|) {c : ℚ}
    (hc : nearby n m = some c) : c = n := by
  obtain ⟨hmultiple, hread⟩ := nearby_some hc
  have hpos : (0 : ℚ) < m := Int.cast_pos.mpr hm
  have hbound (q : ℤ) (hlow : (n : ℚ) - m < q * m) (hhigh : q * m < (n : ℚ) + m)
      (heq : c = q * m) : c = n := by
    have hlow' : n - m < q * m := by exact_mod_cast hlow
    have hhigh' : q * m < n + m := by exact_mod_cast hhigh
    have hsize : |q * m| < 2 ^ 53 := by
      rw [abs_lt]
      have := abs_le.mp h
      constructor <;> omega
    have hcast : c = ((q * m : ℤ) : ℚ) := by
      rw [heq]
      push_cast
      rfl
    rw [hcast] at hread ⊢
    exact eq_of_round_eq hsize hread
  rcases hmultiple with heq | heq
  · refine hbound _ ?_ ?_ heq
    · have hfloor := Int.lt_floor_add_one ((n : ℚ) / m)
      rw [div_lt_iff₀ hpos] at hfloor
      linarith
    · have hfloor := Int.floor_le ((n : ℚ) / m)
      rw [le_div_iff₀ hpos] at hfloor
      linarith
  · refine hbound _ ?_ ?_ heq
    · have hceil := Int.le_ceil ((n : ℚ) / m)
      rw [div_le_iff₀ hpos] at hceil
      linarith
    · have hceil := Int.ceil_lt_add_one ((n : ℚ) / m)
      rw [← sub_lt_iff_lt_add, lt_div_iff₀ hpos] at hceil
      linarith

theorem nearby_multiple {x unit : ℚ} (hunit : unit ≠ 0) {m : ℤ} (hm : x / unit = m) {c : ℚ}
    (hc : nearby x unit = some c) : c = x := by
  have hx : (m : ℚ) * unit = x := by rw [← hm, div_mul_cancel₀ x hunit]
  obtain ⟨hmultiple, -⟩ := nearby_some hc
  rw [hm, Int.floor_intCast, Int.ceil_intCast, hx] at hmultiple
  exact hmultiple.elim id id

theorem print_intCast {n : ℤ} (h : |n| ≤ 10 ^ 15) : print n = n := by
  rw [print]
  cases hfound : (List.range 17).findSome? fun k : ℕ =>
      nearby (n : ℚ) (10 ^ (Int.log 10 |(n : ℚ)| - k)) with
  | none => rfl
  | some c =>
      obtain ⟨k, -, hk⟩ := List.exists_of_findSome?_eq_some hfound
      rw [Option.getD_some]
      by_cases hlog : Int.log 10 |(n : ℚ)| ≤ k
      · -- the unit is a fraction of one
        obtain ⟨j, hj⟩ := Int.exists_eq_neg_ofNat (a := Int.log 10 |(n : ℚ)| - k) (by omega)
        refine nearby_multiple (m := n * 10 ^ j) (zpow_ne_zero _ (by norm_num)) ?_ hk
        rw [hj, zpow_neg, zpow_natCast, div_inv_eq_mul]
        push_cast
        rfl
      · -- the unit is a power of ten that is at most the number
        obtain ⟨j, hj⟩ := Int.eq_ofNat_of_zero_le (a := Int.log 10 |(n : ℚ)| - k) (by omega)
        have hne : n ≠ 0 := by
          rintro rfl
          simp at hlog
        have hpos : (0 : ℚ) < |(n : ℚ)| := abs_pos.mpr (Int.cast_ne_zero.mpr hne)
        have hle : ((10 ^ j : ℤ) : ℚ) ≤ |(n : ℚ)| := by
          calc ((10 ^ j : ℤ) : ℚ) = (10 : ℚ) ^ (j : ℤ) := by push_cast; rfl
            _ ≤ (10 : ℚ) ^ Int.log 10 |(n : ℚ)| :=
              zpow_le_zpow_right₀ (by norm_num) (by omega)
            _ ≤ |(n : ℚ)| := by exact_mod_cast Int.zpow_log_le_self (b := 10) (by decide) hpos
        have hunit : (10 : ℚ) ^ (Int.log 10 |(n : ℚ)| - k) = ((10 ^ j : ℤ) : ℚ) := by
          rw [hj]
          push_cast
          rfl
        rw [hunit] at hk
        exact nearby_whole_unit h (by positivity) (by exact_mod_cast hle) hk

theorem add_intCast {a b : ℤ} (ha : |a| ≤ 10 ^ 15) (hb : |b| ≤ 10 ^ 15) (h : |a + b| ≤ 10 ^ 15) :
    add a b = a + b := by
  rw [add, round_intCast (by omega), round_intCast (by omega), ← Int.cast_add,
    round_intCast (by omega), print_intCast h]

theorem diff_intCast {a b : ℤ} (ha : |a| ≤ 10 ^ 15) (hb : |b| ≤ 10 ^ 15) (h : |a - b| ≤ 10 ^ 15) :
    diff a b = a - b := by
  rw [diff, round_intCast (by omega), round_intCast (by omega), ← Int.cast_sub,
    round_intCast (by omega)]

theorem sub_intCast {a b : ℤ} (ha : |a| ≤ 10 ^ 15) (hb : |b| ≤ 10 ^ 15) (h : |a - b| ≤ 10 ^ 15) :
    sub a b = a - b := by
  rw [sub, diff_intCast ha hb h, ← Int.cast_sub, print_intCast h]

end Double
end Sahay
