import Mathlib.Data.List.Sort

/-!
# The first rows of a sorted result

A query that sorts its rows by a preorder and keeps the first `k` of them may break ties
in any way.  Whether some row with a property is certain to be kept depends on how many
rows without it stand before every row that has it.
-/

namespace Sahay

universe u

variable {α : Type u}

/-- The row lacks `p` and stands no later than any row of `l` that has it. -/
def Crowds (r : α → α → Prop) (p : α → Prop) (l : List α) (x : α) : Prop :=
  ¬p x ∧ ∀ y ∈ l, p y → r x y

instance (r : α → α → Prop) [DecidableRel r] (p : α → Prop) [DecidablePred p] (l : List α) :
    DecidablePred (Crowds r p l) := fun _ => inferInstanceAs (Decidable (_ ∧ _))

section Congruence

variable {β : Type u} {r : α → α → Prop} {p : α → Prop} {s : β → β → Prop} {q : β → Prop}

theorem crowds_map {f : β → α} {l : List β} {x : β} (hx : x ∈ l)
    (hrel : ∀ y ∈ l, ∀ z ∈ l, s y z ↔ r (f y) (f z)) (hprop : ∀ y ∈ l, q y ↔ p (f y)) :
    Crowds s q l x ↔ Crowds r p (l.map f) (f x) := by
  rw [Crowds, Crowds, hprop x hx, List.forall_mem_map]
  refine and_congr_right fun _ => forall₂_congr fun y hy => ?_
  rw [hprop y hy, hrel x hx y hy]

variable [DecidableRel r] [DecidablePred p] [DecidableRel s] [DecidablePred q]

theorem countP_crowds_map {f : β → α} {l : List β} {l' : List α} (hl : (l.map f).Perm l')
    (hrel : ∀ y ∈ l, ∀ z ∈ l, s y z ↔ r (f y) (f z)) (hprop : ∀ y ∈ l, q y ↔ p (f y)) :
    l.countP (Crowds s q l) = l'.countP (Crowds r p l') := by
  have hsame (x : α) : Crowds r p (l.map f) x ↔ Crowds r p l' x := by
    simp only [Crowds, hl.mem_iff]
  calc l.countP (Crowds s q l)
      = l.countP (fun x => Crowds r p (l.map f) (f x)) :=
        List.countP_congr fun x hx => by
          rw [decide_eq_true_iff, decide_eq_true_iff, crowds_map hx hrel hprop]
    _ = (l.map f).countP (Crowds r p (l.map f)) := by
        rw [List.countP_map]
        rfl
    _ = l'.countP (Crowds r p (l.map f)) := hl.countP_eq _
    _ = l'.countP (Crowds r p l') := by simp only [hsame]

end Congruence

variable {r : α → α → Prop} [DecidableRel r]

theorem orderedInsert_append {x : α} {ys : List α} (hx : ∀ y ∈ ys, r x y) (zs : List α) :
    (zs ++ ys).orderedInsert r x = zs.orderedInsert r x ++ ys := by
  induction zs with
  | nil =>
      cases ys with
      | nil => rfl
      | cons y ys => exact List.orderedInsert_cons_of_le r ys (hx y List.mem_cons_self)
  | cons z zs ih =>
      rw [List.cons_append, List.orderedInsert_cons, List.orderedInsert_cons, ih]
      split_ifs <;> rfl

theorem insertionSort_append {xs ys : List α} (h : ∀ x ∈ xs, ∀ y ∈ ys, r x y) :
    (xs ++ ys).insertionSort r = xs.insertionSort r ++ ys.insertionSort r := by
  induction xs with
  | nil => rfl
  | cons x xs ih =>
      have hx : ∀ y ∈ ys.insertionSort r, r x y := fun y hy =>
        h x List.mem_cons_self y ((List.mem_insertionSort r).mp hy)
      rw [List.cons_append, List.insertionSort_cons, List.insertionSort_cons,
        ih fun x' hx' => h x' (List.mem_cons_of_mem x hx'), orderedInsert_append hx]

/-- Rows that stand after all others, and are not ordered among themselves, keep their order
behind the rest. -/
theorem insertionSort_filter {q : α → Bool} {l : List α}
    (hlast : ∀ x y, q x = false → q y = false → r x y)
    (hbefore : ∀ x y, q x = true → q y = false → r x y ∧ ¬r y x) :
    l.insertionSort r = (l.filter q).insertionSort r ++ l.filter fun x => !q x := by
  induction l with
  | nil => rfl
  | cons x l ih =>
      rw [List.insertionSort_cons, ih]
      cases hx : q x with
      | true =>
          rw [List.filter_cons_of_pos hx, List.filter_cons_of_neg (by simp [hx]),
            List.insertionSort_cons]
          refine orderedInsert_append (fun y hy => ?_) _
          exact (hbefore x y hx (by simpa using (List.mem_filter.mp hy).2)).1
      | false =>
          rw [List.filter_cons_of_neg (by simp [hx]), List.filter_cons_of_pos (by simp [hx])]
          have hpass (zs : List α) (hzs : ∀ z ∈ zs, q z = true) (ys : List α)
              (hys : ∀ y ∈ ys, q y = false) :
              (zs ++ ys).orderedInsert r x = zs ++ x :: ys := by
            induction zs with
            | nil =>
                cases ys with
                | nil => rfl
                | cons y ys =>
                    exact List.orderedInsert_cons_of_le r ys
                      (hlast x y hx (hys y List.mem_cons_self))
            | cons z zs ihz =>
                have hz := (hbefore z x (hzs z List.mem_cons_self) hx).2
                rw [List.cons_append, List.orderedInsert_of_not_le r _ hz,
                  ihz fun z' hz' => hzs z' (List.mem_cons_of_mem z hz')]
                rfl
          refine hpass _ (fun z hz => ?_) _ fun y hy => ?_
          · exact (List.mem_filter.mp ((List.mem_insertionSort r).mp hz)).2
          · simpa using (List.mem_filter.mp hy).2

variable [Std.Total r] [IsTrans α r] {p : α → Prop} [DecidablePred p] {l : List α}

/-- Some order of the rows keeps `k` crowding rows and nothing else. -/
theorem exists_perm_take {k : ℕ} (hk : k ≤ l.countP (Crowds r p l)) :
    ∃ s : List α, s.Perm l ∧ ∀ y ∈ (s.insertionSort r).take k, ¬p y := by
  let front := l.filter fun x => decide (Crowds r p l x)
  let back := l.filter fun x => !decide (Crowds r p l x)
  have hbefore : ∀ x ∈ front, ∀ y ∈ back, r x y := by
    intro x hx y hy
    obtain ⟨-, hx⟩ := List.mem_filter.mp hx
    obtain ⟨hyl, hy⟩ := List.mem_filter.mp hy
    have hcrowds : Crowds r p l x := of_decide_eq_true hx
    have hnot : ¬Crowds r p l y := by simpa using hy
    by_cases hpy : p y
    · exact hcrowds.2 y hyl hpy
    · -- `y` stands after some row that has `p`, and `x` before it.
      have hlater : ∃ z ∈ l, p z ∧ ¬r y z := by simpa [Crowds, hpy] using hnot
      obtain ⟨z, hz, hpz, hyz⟩ := hlater
      exact IsTrans.trans x z y (hcrowds.2 z hz hpz)
        ((Std.Total.total z y).resolve_right hyz)
  refine ⟨front ++ back, List.filter_append_perm _ l, fun y hy => ?_⟩
  have hlength : k ≤ (front.insertionSort r).length := by
    rwa [List.length_insertionSort, ← List.countP_eq_length_filter]
  rw [insertionSort_append hbefore, List.take_append_of_le_length hlength] at hy
  have hfront := (List.mem_insertionSort r).mp (List.mem_of_mem_take hy)
  have hcrowds : Crowds r p l y := of_decide_eq_true (List.mem_filter.mp hfront).2
  exact hcrowds.1

/-- When fewer than `k` rows crowd, a row with the property is kept in every order. -/
theorem exists_mem_take {k : ℕ} {s : List α} (hs : s.Perm l) (hp : ∃ y ∈ l, p y)
    (hk : l.countP (Crowds r p l) < k) : ∃ y ∈ (s.insertionSort r).take k, p y := by
  by_contra hnone
  simp only [not_exists, not_and] at hnone
  have hperm : (s.insertionSort r).Perm l := (List.perm_insertionSort r s).trans hs
  have hsorted := List.pairwise_insertionSort r s
  rw [← List.take_append_drop k (s.insertionSort r)] at hsorted hperm
  have hlater := (List.pairwise_append.mp hsorted).2.2
  have hmem (y : α) (hy : y ∈ l) (hpy : p y) : y ∈ (s.insertionSort r).drop k := by
    rcases List.mem_append.mp (hperm.mem_iff.mpr hy) with htake | hdrop
    · exact absurd hpy (hnone y htake)
    · exact hdrop
  have hcrowd : ∀ x ∈ (s.insertionSort r).take k, decide (Crowds r p l x) = true :=
    fun x hx => decide_eq_true ⟨hnone x hx, fun y hy hpy => hlater x hx y (hmem y hy hpy)⟩
  obtain ⟨y, hy, hpy⟩ := hp
  have hlong : k ≤ (s.insertionSort r).length := by
    have hpos := List.length_pos_of_mem (hmem y hy hpy)
    rw [List.length_drop] at hpos
    omega
  have hcount : k ≤ l.countP (Crowds r p l) := by
    calc k = ((s.insertionSort r).take k).length := by rw [List.length_take, min_eq_left hlong]
      _ = ((s.insertionSort r).take k).countP (Crowds r p l) :=
          (List.countP_eq_length.mpr hcrowd).symm
      _ ≤ ((s.insertionSort r).take k ++ (s.insertionSort r).drop k).countP (Crowds r p l) := by
          rw [List.countP_append]
          exact Nat.le_add_right _ _
      _ = l.countP (Crowds r p l) := hperm.countP_eq _
  exact absurd hk (not_lt.mpr hcount)

/-- The first `k` rows contain one with the property, however ties are broken, exactly when
fewer than `k` rows crowd. -/
theorem forall_perm_take_iff (hp : ∃ y ∈ l, p y) (k : ℕ) :
    (∀ s : List α, s.Perm l → ∃ y ∈ (s.insertionSort r).take k, p y) ↔
      l.countP (Crowds r p l) < k := by
  constructor
  · intro hkept
    by_contra hk
    obtain ⟨s, hs, hnone⟩ := exists_perm_take (not_lt.mp hk)
    obtain ⟨y, hy, hpy⟩ := hkept s hs
    exact hnone y hy hpy
  · exact fun hk s hs => exists_mem_take hs hp hk

end Sahay
