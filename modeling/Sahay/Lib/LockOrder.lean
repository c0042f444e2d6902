import Mathlib.Logic.Function.Basic
import Mathlib.Logic.Relation
import Mathlib.Order.Basic
import Sahay.Lib.Run

/-!
# Deadlock freedom by lock order

Transactions lock rows one after the other and keep them until they end.  A
transaction is the list of rows that it locks, in its order and with repetitions;
locking a row again does nothing.  A transaction waits for another one when the
row that it locks next is held by that other one.

When every transaction locks each new row above all the rows that it holds, in
one order for all of them, the rows waited for grow along every chain of waiting
transactions, so no chain comes back to where it began.
-/

namespace Sahay

universe u v w

/-- A transaction under way: the rows it holds, and those it has still to lock. -/
structure Locking (ρ : Type v) where
  held : List ρ := []
  todo : List ρ := []

namespace Locking

variable {τ : Type u} {ρ : Type v}

/-- The transaction `t` waits for `t'`. -/
def WaitsFor (s : τ → Locking ρ) (t t' : τ) : Prop :=
  t ≠ t' ∧ ∃ r ∈ (s t').held, (s t).todo.head? = some r

/-- One lock is taken, or one transaction begins or ends.  `programs` are the
transactions that may begin; any of them may end early. -/
inductive Step [DecidableEq τ] (programs : Set (List ρ)) (s : τ → Locking ρ) :
    (τ → Locking ρ) → Prop
  | begin (t : τ) (program : List ρ) (hidle : s t = {}) (hprogram : program ∈ programs) :
      Step programs s (Function.update s t { todo := program })
  | lock (t : τ) (r : ρ) (todo : List ρ) (htodo : (s t).todo = r :: todo)
      (hfree : ∀ t', t' ≠ t → r ∉ (s t').held) :
      Step programs s (Function.update s t { held := r :: (s t).held, todo := todo })
  | finish (t : τ) : Step programs s (Function.update s t {})

def Reached [DecidableEq τ] (programs : Set (List ρ)) : (τ → Locking ρ) → Prop :=
  Relation.ReflTransGen (Step programs) fun _ => {}

def DeadlockFree (s : τ → Locking ρ) : Prop := ∀ t, ¬Relation.TransGen (WaitsFor s) t t

/-! ## Locking in order -/

section Order

variable {α : Type w} [Preorder α] (rank : ρ → α)

def AscendingFrom : List ρ → List ρ → Prop
  | _, [] => True
  | held, r :: todo => (r ∈ held ∨ ∀ h ∈ held, rank h < rank r) ∧ AscendingFrom (r :: held) todo

instance AscendingFrom.decidable [DecidableEq ρ] [DecidableLT α] :
    ∀ held todo : List ρ, Decidable (AscendingFrom rank held todo)
  | _, [] => inferInstanceAs (Decidable True)
  | held, r :: todo =>
      have := AscendingFrom.decidable (r :: held) todo
      inferInstanceAs (Decidable ((_ ∨ _) ∧ _))

variable {rank} {s s' : τ → Locking ρ} {held todo : List ρ}

theorem ascendingFrom_append {front back : List ρ} :
    AscendingFrom rank held (front ++ back) ↔
      AscendingFrom rank held front ∧ AscendingFrom rank (front.reverse ++ held) back := by
  induction front generalizing held with
  | nil => simp [AscendingFrom]
  | cons r front ih => simp [AscendingFrom, ih, and_assoc]

theorem AscendingFrom.of_subset (h : todo ⊆ held) : AscendingFrom rank held todo := by
  induction todo generalizing held with
  | nil => trivial
  | cons r todo ih =>
      obtain ⟨hr, hrest⟩ := List.cons_subset.mp h
      exact ⟨.inl hr, ih (List.subset_cons_of_subset r hrest)⟩

theorem AscendingFrom.of_pairwise (habove : ∀ r ∈ todo, ∀ h ∈ held, rank h < rank r)
    (hsorted : todo.Pairwise fun r r' => rank r < rank r') : AscendingFrom rank held todo := by
  induction todo generalizing held with
  | nil => trivial
  | cons r todo ih =>
      obtain ⟨hfirst, hrest⟩ := List.pairwise_cons.mp hsorted
      refine ⟨.inr (habove r List.mem_cons_self), ih (fun r' hr' h hh => ?_) hrest⟩
      rcases List.mem_cons.mp hh with rfl | hheld
      · exact hfirst r' hr'
      · exact habove r' (List.mem_cons_of_mem r hr') h hheld

/-- What order gives in every state: each transaction is still in order, and no row
is held twice. -/
structure InOrder (rank : ρ → α) (s : τ → Locking ρ) : Prop where
  ascending : ∀ t, AscendingFrom rank (s t).held (s t).todo
  exclusive : ∀ t t' r, r ∈ (s t).held → r ∈ (s t').held → t = t'

theorem InOrder.initial : InOrder rank fun _ : τ => ({} : Locking ρ) where
  ascending _ := trivial
  exclusive _ _ _ h := by cases h

variable [DecidableEq τ] {programs : Set (List ρ)}

theorem InOrder.update (h : InOrder rank s) (t : τ) {l : Locking ρ}
    (hascending : AscendingFrom rank l.held l.todo)
    (hfree : ∀ r ∈ l.held, ∀ t', t' ≠ t → r ∉ (s t').held) :
    InOrder rank (Function.update s t l) where
  ascending := (Function.forall_update_iff s fun _ l => AscendingFrom rank l.held l.todo).2
    ⟨hascending, fun t' _ => h.ascending t'⟩
  exclusive := exclusive_update (fun (l : Locking ρ) r => r ∈ l.held) h.exclusive hfree

theorem InOrder.step (hprograms : ∀ program ∈ programs, AscendingFrom rank [] program)
    (h : InOrder rank s) (hstep : Step programs s s') : InOrder rank s' := by
  cases hstep with
  | begin t program hidle hprogram =>
      exact h.update t (hprograms program hprogram) fun r hr => by cases hr
  | lock t r todo htodo hfree =>
      have hrest := h.ascending t
      rw [htodo] at hrest
      refine h.update t hrest.2 fun r' hr' t' ht' => ?_
      rcases List.mem_cons.mp hr' with rfl | hheld
      · exact hfree t' ht'
      · exact fun hheld' => ht' (h.exclusive t' t r' hheld' hheld)
  | finish t => exact h.update t trivial fun r hr => by cases hr

theorem InOrder.of_reached (hprograms : ∀ program ∈ programs, AscendingFrom rank [] program)
    (h : Reached programs s) : InOrder rank s := by
  induction h with
  | refl => exact .initial
  | tail _ hstep ih => exact ih.step hprograms hstep

omit [DecidableEq τ] in
theorem InOrder.next_lt (h : InOrder rank s) {t t' t'' : τ} (hwaits : WaitsFor s t t')
    (hwaits' : WaitsFor s t' t'') {r r' : ρ} (hr : (s t).todo.head? = some r)
    (hr' : (s t').todo.head? = some r') : rank r < rank r' := by
  obtain ⟨-, r₁, hheld, hr₁⟩ := hwaits
  obtain ⟨hne, r₂, hheld', hr₂⟩ := hwaits'
  obtain rfl := Option.some.inj (hr₁.symm.trans hr)
  obtain rfl := Option.some.inj (hr₂.symm.trans hr')
  obtain ⟨todo, htodo⟩ := List.head?_eq_some_iff.mp hr'
  have hascending := h.ascending t'
  rw [htodo] at hascending
  rcases hascending.1 with hmine | habove
  · exact absurd (h.exclusive t' t'' r₂ hmine hheld') hne
  · exact habove r₁ hheld

omit [DecidableEq τ] in
theorem InOrder.chain_lt (h : InOrder rank s) {t t' t'' : τ}
    (hchain : Relation.TransGen (WaitsFor s) t t') (hwaits : WaitsFor s t' t'') {r r' : ρ}
    (hr : (s t).todo.head? = some r) (hr' : (s t').todo.head? = some r') : rank r < rank r' := by
  induction hchain generalizing t'' r' with
  | single hfirst => exact h.next_lt hfirst hwaits hr hr'
  | tail hchain hlast ih =>
      have hnext := hlast.2
      obtain ⟨r₁, -, hr₁⟩ := hnext
      exact (ih hlast hr₁).trans (h.next_lt hlast hwaits hr₁ hr')

omit [DecidableEq τ] in
theorem InOrder.deadlockFree (h : InOrder rank s) : DeadlockFree s := by
  intro t hcycle
  obtain ⟨t', hfirst, -⟩ := Relation.TransGen.head'_iff.mp hcycle
  have hnext := hfirst.2
  obtain ⟨r, -, hr⟩ := hnext
  exact lt_irrefl _ (h.chain_lt hcycle hfirst hr hr)

theorem Reached.deadlockFree (hprograms : ∀ program ∈ programs, AscendingFrom rank [] program)
    (h : Reached programs s) : DeadlockFree s :=
  (InOrder.of_reached hprograms h).deadlockFree

end Order
end Locking
end Sahay
