import Sahay.Lib.Table

/-!
# Unique indexes

`UNIQUE` on a column that may be null: two rows have no value of it in common.  What each kind of
write must know to keep the index, and what a `SELECT` by the column finds under it.
-/

namespace Sahay

namespace Table

variable {κ ρ β : Type*} [DecidableEq κ]

def Unique (g : ρ → Option β) (t : Table κ ρ) : Prop :=
  ∀ k k' r r', t.lookup k = some r → t.lookup k' = some r' → (g r).isSome → g r = g r' → k = k'

namespace Unique

variable {g : ρ → Option β} {t : Table κ ρ}

theorem mapVal (h : Unique g t) {f : κ → ρ → ρ}
    (hf : ∀ k r, g (f k r) = none ∨ g (f k r) = g r) : Unique g (t.mapVal f) := by
  intro k k' r r' hr hr' hsome heq
  rw [lookup_mapVal, Option.map_eq_some_iff] at hr hr'
  obtain ⟨old, hold, rfl⟩ := hr
  obtain ⟨old', hold', rfl⟩ := hr'
  rcases hf k old with hnone | hsame
  · rw [hnone] at hsome
    cases hsome
  rcases hf k' old' with hnone' | hsame'
  · rw [heq, hnone'] at hsome
    cases hsome
  · rw [hsame] at hsome heq
    rw [hsame'] at heq
    exact h k k' old old' hold hold' hsome heq

theorem modify (h : Unique g t) {k : κ} {f : ρ → ρ}
    (hf : ∀ r, t.lookup k = some r → ∀ k' r', t.lookup k' = some r' → k' ≠ k → g r' ≠ g (f r)) :
    Unique g (t.modify k f) := by
  intro k₁ k₂ r₁ r₂ hr₁ hr₂ hsome heq
  rw [lookup_modify, Option.map_eq_some_iff] at hr₁ hr₂
  obtain ⟨old₁, hold₁, rfl⟩ := hr₁
  obtain ⟨old₂, hold₂, rfl⟩ := hr₂
  split_ifs at hsome heq with hk₁ hk₂ hk₂
  · exact hk₁.trans hk₂.symm
  · exact absurd heq.symm (hf old₁ (hk₁ ▸ hold₁) k₂ old₂ hold₂ hk₂)
  · exact absurd heq (hf old₂ (hk₂ ▸ hold₂) k₁ old₁ hold₁ hk₁)
  · exact h k₁ k₂ old₁ old₂ hold₁ hold₂ hsome heq

theorem put (h : Unique g t) {k : κ} {r : ρ}
    (hr : (g r).isSome → ∀ k' r', t.lookup k' = some r' → g r' ≠ g r) :
    Unique g (t.put k r) := by
  intro k₁ k₂ r₁ r₂ hr₁ hr₂ hsome heq
  rw [lookup_put] at hr₁ hr₂
  split_ifs at hr₁ hr₂ with hk₁ hk₂ hk₂
  · exact hk₁.trans hk₂.symm
  · obtain rfl := Option.some.inj hr₁
    exact absurd heq.symm (hr hsome k₂ r₂ hr₂)
  · obtain rfl := Option.some.inj hr₂
    exact absurd heq (hr (heq ▸ hsome) k₁ r₁ hr₁)
  · exact h k₁ k₂ r₁ r₂ hr₁ hr₂ hsome heq

variable [DecidableEq β]

/-- The row that holds a value is the one that a `SELECT` finds by it. -/
theorem first_eq_some_iff (h : Unique g t) {b : β} {k : κ} {r : ρ} :
    (t.first fun _ r => g r = some b) = some (k, r) ↔ t.lookup k = some r ∧ g r = some b := by
  constructor
  · intro hfirst
    obtain ⟨hlookup, hvalue⟩ := first_some hfirst
    exact ⟨hlookup, of_decide_eq_true hvalue⟩
  · rintro ⟨hlookup, hvalue⟩
    cases hfirst : t.first fun _ r => g r = some b with
    | none => exact absurd hvalue (of_decide_eq_false (first_none.mp hfirst k r hlookup))
    | some found =>
        obtain ⟨k', r'⟩ := found
        obtain ⟨hlookup', hvalue'⟩ := first_some hfirst
        have hvalue' : g r' = some b := of_decide_eq_true hvalue'
        have hkey : k' = k :=
          h k' k r' r hlookup' hlookup (by rw [hvalue']; rfl) (hvalue'.trans hvalue.symm)
        subst hkey
        rw [Option.some.inj (hlookup'.symm.trans hlookup)]

end Unique
end Table
end Sahay
