import Mathlib.Logic.Basic
import Mathlib.Tactic.SplitIfs

/-!
# Guards of a fallible computation

The programs here are straight lines of reads, checks and writes in `Except ε`.
`ensure` is the check that throws, `found` the read that throws.  The lemmas
are the inversions of a run: a bind succeeds when both halves do, a guard when
its condition holds, a read when the row is there; and a bind throws when one
of its halves does.  With them a proof opens a program by `simp only` and never
unfolds the monad.  What a program may throw at all is put together from its
guards, with no look at their conditions.
-/

namespace Sahay

universe u v

variable {ε : Type u} {α β : Type v}

/-- Throw `e` unless `c`. -/
def ensure (c : Prop) [Decidable c] (e : ε) : Except ε PUnit.{v + 1} :=
  if c then .ok ⟨⟩ else .error e

/-- The value of an optional read, or throw `e`. -/
def found (o : Option α) (e : ε) : Except ε α :=
  match o with
  | some a => .ok a
  | none => .error e

theorem bind_ok {x : Except ε α} {f : α → Except ε β} {b : β} :
    (x >>= f) = .ok b ↔ ∃ a, x = .ok a ∧ f a = .ok b := by
  cases x <;> simp [bind, Except.bind]

theorem ensure_ok {c : Prop} [Decidable c] {e : ε} {u : PUnit} :
    ensure c e = .ok u ↔ c := by
  unfold ensure
  split_ifs with h <;> simp [h]

theorem found_ok {o : Option α} {e : ε} {a : α} : found o e = .ok a ↔ o = some a := by
  cases o <;> simp [found]

theorem pure_ok {a b : α} : (pure a : Except ε α) = .ok b ↔ a = b := by
  simp [pure, Except.pure]

theorem bind_error {x : Except ε α} {f : α → Except ε β} {e : ε} :
    (x >>= f) = .error e ↔ x = .error e ∨ ∃ a, x = .ok a ∧ f a = .error e := by
  cases x <;> simp [bind, Except.bind]

theorem ensure_error {c : Prop} [Decidable c] {e e' : ε} :
    (ensure c e : Except ε PUnit) = .error e' ↔ ¬c ∧ e = e' := by
  unfold ensure
  split_ifs with h <;> simp [h]

theorem found_error {o : Option α} {e e' : ε} :
    found o e = .error e' ↔ o = none ∧ e = e' := by
  cases o <;> simp [found]

theorem pure_error {a : α} {e : ε} : (pure a : Except ε α) = .error e ↔ False := by
  simp [pure, Except.pure]

theorem exists_ok {x : Except ε α} {p : α → Bool} (h : x.toOption.any p = true) :
    ∃ a, x = .ok a ∧ p a = true := by
  cases x with
  | ok a => exact ⟨a, rfl, h⟩
  | error e => cases h

@[simp] theorem bind_ok_left (a : α) (f : α → Except ε β) :
    ((Except.ok a : Except ε α) >>= f) = f a := rfl

@[simp] theorem bind_error_left (e : ε) (f : α → Except ε β) :
    ((Except.error e : Except ε α) >>= f) = .error e := rfl

@[simp] theorem throw_eq (e : ε) : (throw e : Except ε α) = .error e := rfl

theorem ensure_pos {c : Prop} [Decidable c] {e : ε} (h : c) :
    (ensure c e : Except ε PUnit) = .ok ⟨⟩ := if_pos h

theorem ensure_neg {c : Prop} [Decidable c] {e : ε} (h : ¬c) :
    (ensure c e : Except ε PUnit) = .error e := if_neg h

@[simp] theorem found_some (a : α) (e : ε) : found (some a) e = .ok a := rfl

@[simp] theorem found_none (e : ε) : (found none e : Except ε α) = .error e := rfl

/-! ## What a computation may throw -/

/-- Whatever the computation throws satisfies `p`. -/
def Throws (p : ε → Prop) (x : Except ε α) : Prop := ∀ e, x = .error e → p e

namespace Throws

variable {p : ε → Prop}

theorem pure (a : α) : Throws p (Pure.pure a : Except ε α) := by
  intro e h
  exact (pure_error.1 h).elim

theorem bind {x : Except ε α} {f : α → Except ε β} (hx : Throws p x) (hf : ∀ a, Throws p (f a)) :
    Throws p (x >>= f) := by
  intro e h
  rcases bind_error.1 h with hthrown | ⟨a, -, hthrown⟩
  · exact hx e hthrown
  · exact hf a e hthrown

theorem ensure {c : Prop} [Decidable c] {e : ε} (he : p e) :
    Throws p (Sahay.ensure c e : Except ε PUnit.{v + 1}) := by
  intro e' h
  exact (ensure_error.1 h).2 ▸ he

theorem found {o : Option α} {e : ε} (he : p e) : Throws p (Sahay.found o e) := by
  intro e' h
  exact (found_error.1 h).2 ▸ he

end Throws
end Sahay
