import Mathlib.Data.List.Dedup
import Sahay.Lib.Table

/-!
# Aggregates over a selection

`SUM`, `COUNT` and `COUNT(DISTINCT …)` of the rows of a table that satisfy a condition.
They depend on the selected rows only, not on the rest of the table and not on the order
of its rows; so two tables that agree outside a class of rows have the same aggregates over
every selection that avoids the class.

Two tables whose rows of a class correspond look the same, key by key, through every view
that shows this class only and does not tell corresponding rows apart.
-/

namespace Sahay

universe u v w

namespace Table

variable {κ : Type u} {ρ : Type v} {α : Type w}

/-- `SELECT SUM(f) … WHERE p`. -/
def sumWhere [AddCommMonoid α] (t : Table κ ρ) (p : κ → ρ → Bool) (f : ρ → α) : α :=
  ((t.select p).map fun e => f e.2).sum

/-- `SELECT COUNT(DISTINCT f) … WHERE p`. -/
def countDistinct [DecidableEq α] (t : Table κ ρ) (p : κ → ρ → Bool) (f : ρ → α) : ℕ :=
  ((t.select p).map fun e => f e.2).dedup.length

variable [DecidableEq κ]

/-- The tables have the same rows outside the class `q`. -/
def AgreeOutside (q : ρ → Prop) (t t' : Table κ ρ) : Prop :=
  ∀ k r, ¬q r → (t.lookup k = some r ↔ t'.lookup k = some r)

variable {q : ρ → Prop} {t t' : Table κ ρ} {p p' : κ → ρ → Bool}

theorem AgreeOutside.refl (q : ρ → Prop) (t : Table κ ρ) : AgreeOutside q t t :=
  fun _ _ _ => Iff.rfl

theorem AgreeOutside.put {k : κ} {r : ρ} (hk : k ∉ t) (hr : q r) :
    AgreeOutside q t (t.put k r) := by
  intro k' r' hr'
  rw [lookup_put]
  split_ifs with heq
  · subst heq
    rw [AList.lookup_eq_none.mpr hk, Option.some.injEq]
    exact iff_of_false (by simp) fun h => hr' (h ▸ hr)
  · rfl

/-- A row of the class, or of no class, stays under its key: what stands there afterwards is
of the class again if it was before. -/
theorem AgreeOutside.class (h : AgreeOutside q t t') {k : κ} {r r' : ρ}
    (hr : t.lookup k = some r) (hr' : t'.lookup k = some r') : r' = r ∨ q r ∧ q r' := by
  by_cases hq : q r
  · by_cases hq' : q r'
    · exact .inr ⟨hq, hq'⟩
    · exact .inl (Option.some.inj (((h k r' hq').mpr hr').symm.trans hr))
  · exact .inl (Option.some.inj (hr'.symm.trans ((h k r hq).mp hr)))

omit [DecidableEq κ] in
theorem nodup_selection (t : Table κ ρ) (p : κ → ρ → Bool) : (t.select p).Nodup :=
  (t.nodup_select p).of_map _

theorem AgreeOutside.select_perm (h : AgreeOutside q t t')
    (hp : ∀ k r, t.lookup k = some r → p k r = true → ¬q r)
    (hp' : ∀ k r, t'.lookup k = some r → p' k r = true → ¬q r)
    (hsame : ∀ k r, ¬q r → t.lookup k = some r → p k r = p' k r) :
    (t.select p).Perm (t'.select p') := by
  apply (List.perm_ext_iff_of_nodup (t.nodup_selection p) (t'.nodup_selection p')).mpr
  intro e
  rw [mem_select, mem_select]
  constructor
  · rintro ⟨he, hpe⟩
    have hq := hp e.1 e.2 he hpe
    exact ⟨(h _ _ hq).mp he, hsame _ _ hq he ▸ hpe⟩
  · rintro ⟨he, hpe⟩
    have hq := hp' e.1 e.2 he hpe
    have hold := (h _ _ hq).mpr he
    exact ⟨hold, (hsame _ _ hq hold).trans hpe⟩

omit [DecidableEq κ] in
theorem sumWhere_perm [AddCommMonoid α] {f : ρ → α} (h : (t.select p).Perm (t'.select p')) :
    t.sumWhere p f = t'.sumWhere p' f :=
  (h.map _).sum_eq

omit [DecidableEq κ] in
theorem countDistinct_perm [DecidableEq α] {f : ρ → α} (h : (t.select p).Perm (t'.select p')) :
    t.countDistinct p f = t'.countDistinct p' f :=
  (h.map _).dedup.length_eq

/-! ## Corresponding rows -/

section Correspondence

variable {own : ρ → Prop} {sim : ρ → ρ → Prop}

/-- Under every key, a row of the class on either side has one on the other, and `sim` relates
the two. -/
structure Corresponds (own : ρ → Prop) (sim : ρ → ρ → Prop) (t t' : Table κ ρ) : Prop where
  forth : ∀ k r, t.lookup k = some r → own r → ∃ r', t'.lookup k = some r' ∧ own r' ∧ sim r r'
  back : ∀ k r', t'.lookup k = some r' → own r' → ∃ r, t.lookup k = some r ∧ own r ∧ sim r r'

theorem Corresponds.refl (hsim : ∀ r, own r → sim r r) (t : Table κ ρ) :
    Corresponds own sim t t where
  forth _ r hr hown := ⟨r, hr, hown, hsim r hown⟩
  back _ r hr hown := ⟨r, hr, hown, hsim r hown⟩

theorem Corresponds.mapVal {f : κ → ρ → ρ} (hown : ∀ k r, own (f k r) ↔ own r)
    (hsim : ∀ k r, own r → sim r (f k r)) (t : Table κ ρ) :
    Corresponds own sim t (t.mapVal f) where
  forth k r hr hr_own :=
    ⟨f k r, by rw [lookup_mapVal, hr, Option.map_some], (hown k r).mpr hr_own, hsim k r hr_own⟩
  back k r' hr' hr'_own := by
    rw [lookup_mapVal] at hr'
    obtain ⟨r, hr, rfl⟩ := Option.map_eq_some_iff.mp hr'
    have hr_own := (hown k r).mp hr'_own
    exact ⟨r, hr, hr_own, hsim k r hr_own⟩

theorem Corresponds.bind_eq (h : Corresponds own sim t t') {view view' : ρ → Option α}
    (hown : ∀ r, ¬own r → view r = none) (hown' : ∀ r, ¬own r → view' r = none)
    (hsim : ∀ r r', own r → own r' → sim r r' → view' r' = view r) (k : κ) :
    (t'.lookup k).bind view' = (t.lookup k).bind view := by
  have hidden {t : Table κ ρ} {view : ρ → Option α} (hv : ∀ r, ¬own r → view r = none)
      (hno : ∀ r, t.lookup k = some r → ¬own r) : (t.lookup k).bind view = none :=
    Option.bind_eq_none_iff.mpr fun r hr => hv r (hno r hr)
  by_cases hex : ∃ r, t.lookup k = some r ∧ own r
  · obtain ⟨r, hr, hr_own⟩ := hex
    obtain ⟨r', hr', hr'_own, hrel⟩ := h.forth k r hr hr_own
    rw [hr, hr', Option.bind_some, Option.bind_some]
    exact hsim r r' hr_own hr'_own hrel
  · have hno (r : ρ) (hr : t.lookup k = some r) : ¬own r := fun ho => hex ⟨r, hr, ho⟩
    have hno' (r' : ρ) (hr' : t'.lookup k = some r') : ¬own r' := by
      intro ho'
      obtain ⟨r, hr, ho, -⟩ := h.back k r' hr' ho'
      exact hno r hr ho
    rw [hidden hown hno, hidden hown' hno']

end Correspondence

end Table

end Sahay
