import Mathlib.Algebra.Order.Group.Defs
import Mathlib.Tactic.Abel
import Sahay.Lib.Table

/-!
# Accounts with holds

A balance of which a part is reserved, and a table whose open rows each hold an
amount on one account.  The books are sound when what an account has reserved
is the sum of the holds on it and no more than its balance.  A hold is placed
within the free balance; it ends by a release, which gives the whole amount back,
or by a capture, which takes at most that amount from the balance and gives the
rest back.

How a row holds is a parameter: `hold r` is the account and amount of `r` while
it is open and nothing otherwise.
-/

namespace Sahay

universe u v w

/-- A balance and the part of it that is reserved. -/
structure Account (α : Type w) where
  onHand : α
  reserved : α

namespace Escrow

variable {κ : Type u} {ι ρ : Type v} {α : Type w}

/-! ## The sum of the holds on an account -/

section Held

variable [AddCommGroup α] [DecidableEq κ]

/-- What one row holds on the account `k`. -/
def amountOn (k : κ) : Option (κ × α) → α
  | some (k', amount) => if k' = k then amount else 0
  | none => 0

@[simp] theorem amountOn_none (k : κ) : amountOn k (none : Option (κ × α)) = 0 := rfl

@[simp] theorem amountOn_self (k : κ) (amount : α) : amountOn k (some (k, amount)) = amount :=
  if_pos rfl

theorem amountOn_ne {k k' : κ} (h : k' ≠ k) (amount : α) : amountOn k (some (k', amount)) = 0 :=
  if_neg h

/-- The sum of the holds on the account `k`. -/
def held (hold : ρ → Option (κ × α)) (t : Table ι ρ) (k : κ) : α :=
  t.sum fun _ r => amountOn k (hold r)

variable [DecidableEq ι] (hold : ρ → Option (κ × α)) {t : Table ι ρ}

theorem held_put {i : ι} (hi : i ∉ t) (r : ρ) (k : κ) :
    held hold (t.put i r) k = held hold t k + amountOn k (hold r) := by
  rw [held, Table.sum_put hi, add_comm]
  rfl

theorem held_replace {i : ι} {r : ρ} (h : t.lookup i = some r) (r' : ρ) (k : κ) :
    held hold (t.replace i r') k = held hold t k - amountOn k (hold r) + amountOn k (hold r') := by
  have hsum := Table.sum_replace h r' fun _ r => amountOn k (hold r)
  rw [held, eq_sub_of_add_eq hsum, held]
  abel

theorem held_replace_same {i : ι} {r r' : ρ} (h : t.lookup i = some r) (hsame : hold r' = hold r)
    (k : κ) : held hold (t.replace i r') k = held hold t k := by
  rw [held_replace hold h, hsame]
  abel

theorem held_eq_zero {k : κ} (h : ∀ i r, t.lookup i = some r → amountOn k (hold r) = 0) :
    held hold t k = 0 :=
  Table.sum_eq_zero h

end Held

section Ordered

variable [AddCommGroup α] [PartialOrder α] [IsOrderedAddMonoid α] [DecidableEq κ] [DecidableEq ι]
variable (hold : ρ → Option (κ × α)) {t : Table ι ρ}

theorem amount_le_held (hpos : ∀ i r k amount, t.lookup i = some r →
      hold r = some (k, amount) → 0 ≤ amount)
    {i : ι} {r : ρ} {k : κ} {amount : α} (h : t.lookup i = some r)
    (hr : hold r = some (k, amount)) : amount ≤ held hold t k := by
  have hle := Table.le_sum (f := fun _ r => amountOn k (hold r)) h fun i r hlookup => by
    cases hhold : hold r with
    | none => exact le_refl 0
    | some e =>
        by_cases hk : e.1 = k
        · simpa [amountOn, hk] using hpos i r e.1 e.2 hlookup hhold
        · simp [amountOn, hk]
  rwa [hr, amountOn_self] at hle

end Ordered

/-! ## Sound accounts -/

section Sound

variable [AddCommGroup α] [PartialOrder α]

/-- The account has reserved the amount `h` that is held on it, within its balance. -/
def Sound (h : α) (a : Account α) : Prop :=
  a.reserved = h ∧ 0 ≤ a.reserved ∧ a.reserved ≤ a.onHand

variable {h : α} {a : Account α}

theorem Sound.opened {amount : α} (hamount : 0 ≤ amount) : Sound 0 ⟨amount, (0 : α)⟩ :=
  ⟨rfl, le_refl 0, hamount⟩

theorem Sound.restock (hs : Sound h a) {onHand : α} (hle : a.reserved ≤ onHand) :
    Sound h ⟨onHand, a.reserved⟩ :=
  ⟨hs.1, hs.2.1, hle⟩

variable [IsOrderedAddMonoid α]

theorem Sound.place (hs : Sound h a) {q : α} (hq : 0 ≤ q) (hfree : q ≤ a.onHand - a.reserved) :
    Sound (h + q) ⟨a.onHand, a.reserved + q⟩ := by
  refine ⟨by rw [hs.1], add_nonneg hs.2.1 hq, ?_⟩
  exact le_sub_iff_add_le'.mp hfree

theorem Sound.release (hs : Sound h a) {q : α} (hq : 0 ≤ q) (hle : q ≤ h) :
    Sound (h - q) ⟨a.onHand, a.reserved - q⟩ := by
  refine ⟨by rw [hs.1], ?_, ?_⟩
  · rw [hs.1]
    exact sub_nonneg.mpr hle
  · exact (sub_le_self _ hq).trans hs.2.2

theorem Sound.capture (hs : Sound h a) {q final : α} (hle : q ≤ h) (hfinal : final ≤ q) :
    Sound (h - q) ⟨a.onHand - final, a.reserved - q⟩ := by
  refine ⟨by rw [hs.1], ?_, ?_⟩
  · rw [hs.1]
    exact sub_nonneg.mpr hle
  · exact sub_le_sub hs.2.2 hfinal

end Sound
end Escrow
end Sahay
