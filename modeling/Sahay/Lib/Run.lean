import Mathlib.Algebra.Group.Defs
import Mathlib.Data.List.Basic
import Mathlib.Data.List.Induction
import Mathlib.Logic.Function.Basic
import Mathlib.Tactic.SplitIfs

/-!
# Runs of a deterministic machine

A machine is a step function `σ → ι → σ`: in a state, an input has one outcome,
and every nondeterminism of the program (the caller, the clock, a fresh
identifier, the order of jobs) is part of the input.  A run is the left fold of
the step over a list of inputs, so every interleaving of atomic steps is one
list.

`Along step C s is` says that every step of the run from `s` over `is` meets the
condition `C`, a condition on the state before the step and its input.  The
rules below turn a step lemma into a statement about whole runs.
-/

namespace Sahay

universe u v

variable {σ : Type u} {ι : Type v}

/-- The state after the inputs `is`. -/
abbrev runFrom (step : σ → ι → σ) (s : σ) (is : List ι) : σ := is.foldl step s

/-- Every step of the run from `s` over the inputs meets `C`. -/
def Along (step : σ → ι → σ) (C : σ → ι → Prop) : σ → List ι → Prop
  | _, [] => True
  | s, i :: is => C s i ∧ Along step C (step s i) is

instance Along.decidable (step : σ → ι → σ) (C : σ → ι → Prop) [∀ s i, Decidable (C s i)] :
    ∀ s is, Decidable (Along step C s is)
  | _, [] => inferInstanceAs (Decidable True)
  | s, i :: is =>
      have := Along.decidable step C (step s i) is
      inferInstanceAs (Decidable (C s i ∧ Along step C (step s i) is))

/-- How many steps of the run from `s` over the inputs meet `p`. -/
def countSteps (step : σ → ι → σ) (p : σ → ι → Bool) : σ → List ι → ℕ
  | _, [] => 0
  | s, i :: is => (if p s i then 1 else 0) + countSteps step p (step s i) is

/-- States that some run from `init` ends in. -/
def Reachable (step : σ → ι → σ) (init s : σ) : Prop := ∃ is, runFrom step init is = s

variable {step : σ → ι → σ}

theorem runFrom_append (s : σ) (is js : List ι) :
    runFrom step s (is ++ js) = runFrom step (runFrom step s is) js :=
  List.foldl_append

theorem Reachable.refl (s : σ) : Reachable step s s := ⟨[], rfl⟩

theorem Reachable.run {init s : σ} (h : Reachable step init s) (is : List ι) :
    Reachable step init (runFrom step s is) := by
  obtain ⟨js, rfl⟩ := h
  exact ⟨js ++ is, List.foldl_append⟩

theorem Reachable.next {init s : σ} (h : Reachable step init s) (i : ι) :
    Reachable step init (step s i) :=
  h.run [i]

theorem Along.append {C : σ → ι → Prop} {s : σ} {is js : List ι} :
    Along step C s (is ++ js) ↔ Along step C s is ∧ Along step C (runFrom step s is) js := by
  induction is generalizing s with
  | nil => simp [Along]
  | cons i is ih => simp [Along, ih, and_assoc]

theorem Along.mono {C D : σ → ι → Prop} (h : ∀ s i, C s i → D s i) {s : σ} {is : List ι}
    (hC : Along step C s is) : Along step D s is := by
  induction is generalizing s with
  | nil => trivial
  | cons i is ih => exact ⟨h s i hC.1, ih hC.2⟩

theorem Along.trivial (s : σ) (is : List ι) : Along step (fun _ _ => True) s is := by
  induction is generalizing s with
  | nil => trivial
  | cons i is ih => exact ⟨True.intro, ih _⟩

theorem Along.of_forall {C : ι → Prop} {is : List ι} (h : ∀ i ∈ is, C i) (s : σ) :
    Along step (fun _ i => C i) s is := by
  induction is generalizing s with
  | nil => trivial
  | cons i is ih =>
      exact ⟨h i List.mem_cons_self, ih (fun i hi => h i (List.mem_cons_of_mem _ hi)) _⟩

theorem Along.visited (s : σ) (is : List ι) :
    Along step (fun t i => ∃ js, js ++ [i] <+: is ∧ runFrom step s js = t) s is := by
  induction is generalizing s with
  | nil => exact True.intro
  | cons i is ih =>
      refine ⟨⟨[], List.cons_prefix_cons.mpr ⟨rfl, List.nil_prefix⟩, rfl⟩,
        Along.mono ?_ (ih (step s i))⟩
      rintro t i' ⟨js, hjs, rfl⟩
      exact ⟨i :: js, List.cons_prefix_cons.mpr ⟨rfl, hjs⟩, rfl⟩

/-- The invariant rule: what every step that meets `C` preserves holds at the
end of every run whose steps all meet `C`. -/
theorem Along.invariant {C : σ → ι → Prop} {P : σ → Prop}
    (hstep : ∀ s i, P s → C s i → P (step s i)) {s : σ} {is : List ι}
    (hs : P s) (hC : Along step C s is) : P (runFrom step s is) := by
  induction is generalizing s with
  | nil => exact hs
  | cons i is ih => exact ih (hstep s i hs hC.1) hC.2

/-- The same invariant holds before every step, where it can be used together
with the condition. -/
theorem Along.strengthen {C D : σ → ι → Prop} {P : σ → Prop}
    (hstep : ∀ s i, P s → C s i → P (step s i)) (hD : ∀ s i, P s → C s i → D s i)
    {s : σ} {is : List ι} (hs : P s) (hC : Along step C s is) : Along step D s is := by
  induction is generalizing s with
  | nil => trivial
  | cons i is ih => exact ⟨hD s i hs hC.1, ih (hstep s i hs hC.1) hC.2⟩

theorem Reachable.invariant {P : σ → Prop} (hstep : ∀ s i, P s → P (step s i))
    {init s : σ} (hinit : P init) (h : Reachable step init s) : P s := by
  obtain ⟨is, rfl⟩ := h
  exact Along.invariant (fun s i hs _ => hstep s i hs) hinit (Along.trivial init is)

theorem runFrom_history {P : List ι → σ → Prop} {s : σ} (hinit : P [] s)
    (hstep : ∀ is i, P is (runFrom step s is) → P (is ++ [i]) (step (runFrom step s is) i))
    (is : List ι) : P is (runFrom step s is) := by
  induction is using List.reverseRecOn with
  | nil => exact hinit
  | append_singleton is i ih =>
      rw [runFrom_append]
      exact hstep is i ih

/-- If `p` can fire only before `Q` holds, establishes `Q`, and `Q` is stable,
then `p` fires at most once in any run that starts in the invariant `P`. -/
theorem countSteps_le_one {p : σ → ι → Bool} {P Q : σ → Prop}
    (hP : ∀ s i, P s → P (step s i)) (hstable : ∀ s i, P s → Q s → Q (step s i))
    (hno : ∀ s i, Q s → p s i = false)
    (hyes : ∀ s i, P s → p s i = true → Q (step s i))
    {s : σ} (hs : P s) (is : List ι) : countSteps step p s is ≤ 1 := by
  have hzero : ∀ is s, P s → Q s → countSteps step p s is = 0 := by
    intro is
    induction is with
    | nil => exact fun _ _ _ => rfl
    | cons i is ih =>
        intro s hs hq
        simp [countSteps, hno s i hq, ih _ (hP s i hs) (hstable s i hs hq)]
  induction is generalizing s with
  | nil => exact Nat.zero_le 1
  | cons i is ih =>
      by_cases hp : p s i = true
      · simp [countSteps, hp, hzero is _ (hP s i hs) (hyes s i hs hp)]
      · simpa [countSteps, hp] using ih (hP s i hs)

/-! ## Sums over a run -/

section Sum

variable {α : Type*} [AddMonoid α]

/-- The sum of `w` over the steps of the run from `s` over the inputs. -/
def sumSteps (step : σ → ι → σ) (w : σ → ι → α) : σ → List ι → α
  | _, [] => 0
  | s, i :: is => w s i + sumSteps step w (step s i) is

/-- What every step raises by `w` a run raises by the sum of `w`. -/
theorem sumSteps_eq {P : σ → Prop} {f : σ → α} {w : σ → ι → α}
    (hP : ∀ s i, P s → P (step s i)) (hf : ∀ s i, P s → f (step s i) = f s + w s i)
    {s : σ} (hs : P s) (is : List ι) : f (runFrom step s is) = f s + sumSteps step w s is := by
  induction is generalizing s with
  | nil => exact (add_zero _).symm
  | cons i is ih =>
      calc f (runFrom step (step s i) is)
          = f (step s i) + sumSteps step w (step s i) is := ih (hP s i hs)
        _ = f s + w s i + sumSteps step w (step s i) is := by rw [hf s i hs]
        _ = f s + sumSteps step w s (i :: is) := add_assoc _ _ _

end Sum

/-! ## Two machines that agree under a condition -/

section Agreement

variable {step' : σ → ι → σ} {C : σ → ι → Prop}

theorem Along.runFrom_eq (h : ∀ s i, C s i → step' s i = step s i) {s : σ} {is : List ι}
    (hC : Along step' C s is) : runFrom step' s is = runFrom step s is := by
  induction is generalizing s with
  | nil => rfl
  | cons i is ih =>
      calc runFrom step' (step' s i) is
          = runFrom step (step' s i) is := ih hC.2
        _ = runFrom step s (i :: is) := by rw [h s i hC.1]; rfl

theorem Along.countSteps_eq (h : ∀ s i, C s i → step' s i = step s i) {p p' : σ → ι → Bool}
    (hp : ∀ s i, C s i → p' s i = p s i) {s : σ} {is : List ι} (hC : Along step' C s is) :
    countSteps step' p' s is = countSteps step p s is := by
  induction is generalizing s with
  | nil => rfl
  | cons i is ih => rw [countSteps, countSteps, ih hC.2, hp s i hC.1, h s i hC.1]

theorem Along.sumSteps_eq {α : Type*} [AddMonoid α] (h : ∀ s i, C s i → step' s i = step s i)
    {w w' : σ → ι → α} (hw : ∀ s i, C s i → w' s i = w s i) {s : σ} {is : List ι}
    (hC : Along step' C s is) : sumSteps step' w' s is = sumSteps step w s is := by
  induction is generalizing s with
  | nil => rfl
  | cons i is ih => rw [sumSteps, sumSteps, ih hC.2, hw s i hC.1, h s i hC.1]

end Agreement

/-! ## A member of a family moves -/

section Family

variable {τ : Type*} {β : Type*} {ρ : Type*} [DecidableEq τ] {s : τ → β} {t : τ} {b : β}

/-- Nothing has two owners, also after a member has moved that owns nothing of another. -/
theorem exclusive_update (owns : β → ρ → Prop)
    (h : ∀ t₁ t₂ r, owns (s t₁) r → owns (s t₂) r → t₁ = t₂)
    (hfree : ∀ r, owns b r → ∀ t', t' ≠ t → ¬owns (s t') r) (t₁ t₂ : τ) (r : ρ)
    (h₁ : owns (Function.update s t b t₁) r) (h₂ : owns (Function.update s t b t₂) r) :
    t₁ = t₂ := by
  rw [Function.update_apply] at h₁ h₂
  split_ifs at h₁ h₂ with ht₁ ht₂ ht₂
  · rw [ht₁, ht₂]
  · exact absurd h₂ (hfree r h₁ t₂ ht₂)
  · exact absurd h₁ (hfree r h₂ t₁ ht₁)
  · exact h t₁ t₂ r h₁ h₂

end Family

end Sahay
