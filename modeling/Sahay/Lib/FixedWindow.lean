import Mathlib.Data.List.Count
import Mathlib.Data.Nat.Basic
import Mathlib.Tactic.SplitIfs

/-!
# Counting in fixed windows

Every call belongs to a window and is admitted if it is among the first so many calls of its
window.  Then each window admits what it can, and whatever lies in two windows at most twice
as many.
-/

namespace Sahay
namespace FixedWindow

variable {α ω : Type} [DecidableEq ω] (window : α → ω) (limit : ℕ)

/-- One more call in the window `w`. -/
def bump (count : ω → ℕ) (w : ω) : ω → ℕ := Function.update count w (count w + 1)

theorem bump_self (count : ω → ℕ) (w : ω) : bump count w w = count w + 1 :=
  Function.update_self ..

theorem bump_of_ne (count : ω → ℕ) {w w' : ω} (h : w' ≠ w) : bump count w w' = count w' :=
  Function.update_of_ne h ..

/-- Each call with whether it is admitted, after `count w` calls in every window `w`. -/
def decisions : (ω → ℕ) → List α → List (α × Bool)
  | _, [] => []
  | count, a :: calls =>
      (a, decide (count (window a) + 1 ≤ limit)) :: decisions (bump count (window a)) calls

/-- How many calls of the window `w` are admitted. -/
def admittedIn (w : ω) (ds : List (α × Bool)) : ℕ := ds.countP fun d => window d.1 = w && d.2

theorem min_add_admittedIn (w : ω) (calls : List α) (count : ω → ℕ) :
    min (count w) limit + admittedIn window w (decisions window limit count calls) =
      min (count w + calls.countP fun a => window a = w) limit := by
  unfold admittedIn
  induction calls generalizing count with
  | nil => rfl
  | cons a calls ih =>
    have htail := ih (bump count (window a))
    rw [decisions, List.countP_cons, List.countP_cons]
    by_cases hw : window a = w
    · subst hw
      rw [bump_self, Nat.add_assoc (count _), Nat.add_comm 1] at htail
      simp only [decide_true, Bool.true_and, if_true, decide_eq_true_eq]
      split_ifs with hroom
      · rw [Nat.min_eq_left hroom] at htail
        rw [Nat.min_eq_left (Nat.le_of_succ_le hroom), ← htail, Nat.add_assoc, Nat.add_comm 1]
      · have hfull : limit ≤ count (window a) := Nat.le_of_lt_succ (Nat.lt_of_not_le hroom)
        rw [Nat.min_eq_right (Nat.le_succ_of_le hfull)] at htail
        rw [Nat.min_eq_right hfull, Nat.add_zero, htail]
    · rw [bump_of_ne count (Ne.symm hw)] at htail
      simp only [hw, decide_false, Bool.false_and, Bool.false_eq_true, if_false, Nat.add_zero]
      exact htail

theorem admittedIn_eq (w : ω) (calls : List α) :
    admittedIn window w (decisions window limit (fun _ => 0) calls) =
      min (calls.countP fun a => window a = w) limit := by
  simpa using min_add_admittedIn window limit w calls fun _ => 0

variable {window}

theorem countP_le_admittedIn {p : α → Bool} {w w' : ω}
    (hp : ∀ a, p a = true → window a = w ∨ window a = w') (ds : List (α × Bool)) :
    ds.countP (fun d => p d.1 && d.2) ≤ admittedIn window w ds + admittedIn window w' ds := by
  unfold admittedIn
  induction ds with
  | nil => exact Nat.zero_le _
  | cons d ds ih =>
    rw [List.countP_cons, List.countP_cons, List.countP_cons]
    by_cases hd : (p d.1 && d.2) = true
    · obtain ⟨hpd, hadmitted⟩ := Bool.and_eq_true_iff.mp hd
      rw [if_pos hd]
      rcases hp d.1 hpd with hw | hw
      · have hin : (decide (window d.1 = w) && d.2) = true := by simp [hw, hadmitted]
        rw [if_pos hin]
        omega
      · have hin : (decide (window d.1 = w') && d.2) = true := by simp [hw, hadmitted]
        rw [if_pos hin]
        omega
    · rw [if_neg hd]
      omega

theorem admitted_le_two {p : α → Bool} {w w' : ω}
    (hp : ∀ a, p a = true → window a = w ∨ window a = w') (calls : List α) :
    (decisions window limit (fun _ => 0) calls).countP (fun d => p d.1 && d.2) ≤ 2 * limit := by
  calc (decisions window limit (fun _ => 0) calls).countP (fun d => p d.1 && d.2)
      ≤ _ := countP_le_admittedIn hp _
    _ = min (calls.countP fun a => window a = w) limit +
          min (calls.countP fun a => window a = w') limit := by
        rw [admittedIn_eq, admittedIn_eq]
    _ ≤ limit + limit := Nat.add_le_add (Nat.min_le_right _ _) (Nat.min_le_right _ _)
    _ = 2 * limit := (Nat.two_mul limit).symm

end FixedWindow
end Sahay
