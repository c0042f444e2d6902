import Mathlib.Data.Finset.Disjoint
import Mathlib.Data.Finset.Lattice.Basic
import Mathlib.Data.List.Dedup
import Mathlib.Data.List.Perm.Basic
import Sahay.Lib.Run

/-!
# Footprints

A state is seen through its parts, and a program reads some of them and writes others.  Two
programs of which neither writes what the other reads or writes can change places.  Steps that
can change places with each other, and of which each does nothing more the second time, lead
from a state to one that depends on which of them were taken and on nothing else.
-/

namespace Sahay

universe u v w

/-! ## Disjoint footprints -/

section Parts

variable {σ : Type u} {ι : Type v} [DecidableEq ι] {β : ι → Type w} {part : ∀ i, σ → β i}
  {f g : σ → σ} {reads reads' writes writes' seen : Finset ι} {s s' : σ}

/-- `f` changes no part but those in `writes`, and what it leaves there depends only on what
these and the parts in `reads` were. -/
structure Footprint (part : ∀ i, σ → β i) (reads writes : Finset ι) (f : σ → σ) : Prop where
  frame : ∀ s, ∀ i ∉ writes, part i (f s) = part i s
  depends : ∀ s s', (∀ i ∈ reads ∪ writes, part i s = part i s') →
    ∀ i ∈ writes, part i (f s) = part i (f s')

namespace Footprint

theorem agree (h : Footprint part reads writes f) (hseen : reads ∪ writes ⊆ seen)
    (hagree : ∀ i ∈ seen, part i s = part i s') : ∀ i ∈ seen, part i (f s) = part i (f s') := by
  intro i hi
  by_cases hwrites : i ∈ writes
  · exact h.depends s s' (fun j hj => hagree j (hseen hj)) i hwrites
  · rw [h.frame s i hwrites, h.frame s' i hwrites]
    exact hagree i hi

theorem comp (hg : Footprint part reads' writes' g) (hf : Footprint part reads writes f) :
    Footprint part (reads ∪ reads') (writes ∪ writes') fun s => g (f s) where
  frame s i hi := by
    rw [Finset.mem_union, not_or] at hi
    exact (hg.frame (f s) i hi.2).trans (hf.frame s i hi.1)
  depends s s' hagree i hi := by
    have hmid := hf.agree (by grind) hagree
    exact hg.agree (by grind) hmid i (Finset.mem_union_right _ hi)

theorem mono (h : Footprint part reads writes f) (hreads : reads ⊆ reads')
    (hwrites : writes ⊆ writes') : Footprint part reads' writes' f where
  frame s i hi := h.frame s i fun hmem => hi (hwrites hmem)
  depends _ _ hagree i hi :=
    h.agree (Finset.union_subset_union hreads hwrites) hagree i (Finset.mem_union_right _ hi)

theorem commute (hext : ∀ s s', (∀ i, part i s = part i s') → s = s')
    (hf : Footprint part reads writes f) (hg : Footprint part reads' writes' g)
    (h : Disjoint writes (reads' ∪ writes')) (h' : Disjoint writes' (reads ∪ writes)) (s : σ) :
    g (f s) = f (g s) := by
  -- What the second program finds on its footprint is what was there before the first.
  have hsame : ∀ i ∈ reads' ∪ writes', part i (f s) = part i s := by
    intro i hi
    exact hf.frame s i fun hwrites => Finset.disjoint_left.1 h hwrites hi
  have hsame' : ∀ i ∈ reads ∪ writes, part i (g s) = part i s := by
    intro i hi
    exact hg.frame s i fun hwrites => Finset.disjoint_left.1 h' hwrites hi
  apply hext
  intro i
  by_cases hi : i ∈ writes
  · have hi' : i ∉ writes' := fun hwrites =>
      Finset.disjoint_left.1 h hi (Finset.mem_union_right _ hwrites)
    rw [hg.frame (f s) i hi']
    exact (hf.depends (g s) s hsame' i hi).symm
  · rw [hf.frame (g s) i hi]
    by_cases hi' : i ∈ writes'
    · exact hg.depends (f s) s hsame i hi'
    · rw [hg.frame (f s) i hi', hg.frame s i hi', hf.frame s i hi]

end Footprint
end Parts

/-! ## Steps in any order and number -/

section Steps

variable {σ : Type u} {ι : Type v} {step : σ → ι → σ}

theorem runFrom_absorb (hcomm : ∀ s i j, step (step s i) j = step (step s j) i)
    (hidem : ∀ s i, step (step s i) i = step s i) {i : ι} {is : List ι} (hi : i ∈ is) (s : σ) :
    runFrom step (step s i) is = runFrom step s is := by
  induction is generalizing s with
  | nil => cases hi
  | cons j is ih =>
      rw [runFrom, runFrom, List.foldl_cons, List.foldl_cons]
      obtain rfl | hi := List.mem_cons.1 hi
      · rw [hidem]
      · rw [hcomm]
        exact ih hi (step s j)

theorem runFrom_dedup [DecidableEq ι] (hcomm : ∀ s i j, step (step s i) j = step (step s j) i)
    (hidem : ∀ s i, step (step s i) i = step s i) (is : List ι) (s : σ) :
    runFrom step s is.dedup = runFrom step s is := by
  induction is generalizing s with
  | nil => rfl
  | cons i is ih =>
      by_cases hi : i ∈ is
      · rw [List.dedup_cons_of_mem hi, ih]
        exact (runFrom_absorb hcomm hidem hi s).symm
      · rw [List.dedup_cons_of_notMem hi]
        exact ih (step s i)

/-- Runs over the same steps, in whatever order and however often, end in one state. -/
theorem runFrom_eq_of_mem_iff [DecidableEq ι]
    (hcomm : ∀ s i j, step (step s i) j = step (step s j) i)
    (hidem : ∀ s i, step (step s i) i = step s i) {is js : List ι} (h : ∀ i, i ∈ is ↔ i ∈ js)
    (s : σ) : runFrom step s is = runFrom step s js := by
  have hperm : is.dedup.Perm js.dedup := by
    rw [List.perm_ext_iff_of_nodup is.nodup_dedup js.nodup_dedup]
    intro i
    rw [List.mem_dedup, List.mem_dedup, h]
  rw [← runFrom_dedup hcomm hidem is, ← runFrom_dedup hcomm hidem js]
  exact hperm.foldl_eq' (fun i _ j _ s => hcomm s i j) s

end Steps
end Sahay
