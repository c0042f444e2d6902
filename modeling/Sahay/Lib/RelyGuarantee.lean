import Sahay.Lib.Service

/-!
# What a program has seen stays true

The statements of all programs move the state along a relation `R` (the guarantee of each, and
what each relies on of the others).  A program that goes on after a statement knows of the states
to come that they are reached along `R` from the one that the statement has left.
-/

namespace Sahay

namespace Program

variable {σ ε α β : Type} {P : σ → Prop} {R : σ → σ → Prop} {Q : α → σ → Prop}
  {Q' : β → σ → Prop}

/-- From a state on that `R` leads to from the given one, each statement keeps `P` and moves the
state along `R`, and the program returns in `Q`. -/
def Sound (P : σ → Prop) (R : σ → σ → Prop) (Q : α → σ → Prop) : Program σ ε α → σ → Prop
  | done (.ok a), s₀ => Q a s₀
  | done (.error _), _ => True
  | stmt next write, s₀ => ∀ s, R s₀ s → P s →
      P (write s) ∧ R s (write s) ∧ (next s).Sound P R Q (write s)

namespace Sound

variable {s₀ : σ}

theorem pure {a : α} (h : Q a s₀) : (Pure.pure a : Program σ ε α).Sound P R Q s₀ := h

theorem throw (e : ε) : (Program.throw e : Program σ ε α).Sound P R Q s₀ := trivial

theorem read {g : σ → α} (hrefl : ∀ s, R s s) (h : ∀ s, R s₀ s → P s → Q (g s) s) :
    (Program.read g : Program σ ε α).Sound P R Q s₀ :=
  fun s hs hP => ⟨hP, hrefl s, h s hs hP⟩

theorem write {Q : Unit → σ → Prop} {f : σ → σ}
    (h : ∀ s, R s₀ s → P s → P (f s) ∧ R s (f s) ∧ Q () (f s)) :
    (Program.write f : Program σ ε Unit).Sound P R Q s₀ :=
  fun s hs hP => h s hs hP

theorem update {f : σ → α × σ}
    (h : ∀ s, R s₀ s → P s → P (f s).2 ∧ R s (f s).2 ∧ Q (f s).1 (f s).2) :
    (Program.update f : Program σ ε α).Sound P R Q s₀ :=
  fun s hs hP => h s hs hP

theorem transaction {f : σ → Except ε (α × σ)} (hrefl : ∀ s, R s s)
    (h : ∀ s a t, R s₀ s → P s → f s = .ok (a, t) → P t ∧ R s t ∧ Q a t) :
    (Program.transaction f).Sound P R Q s₀ := by
  intro s hs hP
  dsimp only
  cases hf : f s with
  | error e => exact ⟨hP, hrefl s, trivial⟩
  | ok r => exact h s r.1 r.2 hs hP hf

theorem bind {m : Program σ ε α} {f : α → Program σ ε β} (hm : m.Sound P R Q s₀)
    (hf : ∀ a s, Q a s → (f a).Sound P R Q' s) : (m >>= f).Sound P R Q' s₀ := by
  induction m generalizing s₀ with
  | done r =>
      cases r with
      | error e => trivial
      | ok a => exact hf a s₀ hm
  | stmt next write ih =>
      intro s hs hP
      obtain ⟨hkeeps, hmoves, hnext⟩ := hm s hs hP
      exact ⟨hkeeps, hmoves, ih s hnext⟩

theorem mono {Q' : α → σ → Prop} {p : Program σ ε α} (h : p.Sound P R Q s₀)
    (hQ : ∀ a s, Q a s → Q' a s) : p.Sound P R Q' s₀ := by
  induction p generalizing s₀ with
  | done r =>
      cases r with
      | error e => trivial
      | ok a => exact hQ a s₀ h
  | stmt next write ih =>
      intro s hs hP
      obtain ⟨hkeeps, hmoves, hnext⟩ := h s hs hP
      exact ⟨hkeeps, hmoves, ih s hnext⟩

/-- The next statement, issued in a state that `R` has led to. -/
theorem turn (hrefl : ∀ s, R s s) {p : Program σ ε α} (h : p.Sound P R Q s₀) {s : σ}
    (hs : R s₀ s) (hP : P s) :
    P (p.turn s).2 ∧ R s (p.turn s).2 ∧
      ∃ s₁, R s₁ (p.turn s).2 ∧ (p.turn s).1.Sound P R Q s₁ := by
  cases p with
  | done r => exact ⟨hP, hrefl s, s₀, hs, h⟩
  | stmt next write =>
      obtain ⟨hkeeps, hmoves, hnext⟩ := h s hs hP
      exact ⟨hkeeps, hmoves, write s, hrefl _, hnext⟩

theorem exec (htrans : ∀ s t u, R s t → R t u → R s u) (hrefl : ∀ s, R s s) {p : Program σ ε α}
    (h : p.Sound P R Q s₀) {s : σ} (hs : R s₀ s) (hP : P s)
    (hstable : ∀ a s t, Q a s → R s t → Q a t) :
    P (p.exec s).2 ∧ R s (p.exec s).2 ∧ ∀ a, (p.exec s).1 = .ok a → Q a (p.exec s).2 := by
  induction p generalizing s₀ s with
  | done r =>
      refine ⟨hP, hrefl s, ?_⟩
      rintro a rfl
      exact hstable a s₀ s h hs
  | stmt next write ih =>
      obtain ⟨hkeeps, hmoves, hnext⟩ := h s hs hP
      obtain ⟨hP', hR', hQ'⟩ := ih s hnext (hrefl _) hkeeps
      exact ⟨hP', htrans _ _ _ hmoves hR', hQ'⟩

end Sound
end Program

namespace Service

variable {κ τ σ ε α ι : Type} {P : σ → Prop} {R : σ → σ → Prop} {Q : τ → α → σ → Prop}
  {serve : τ → Program σ ε α} {alone : σ → ι → σ} {s : Service κ τ σ ε α}

/-- The state is in `P`, and every call under way has seen a state that `R` leads on from. -/
structure Relies (P : σ → Prop) (R : σ → σ → Prop) (Q : τ → α → σ → Prop)
    (s : Service κ τ σ ε α) : Prop where
  state : P s.state
  slots : ∀ k c p, s.slots k = some (c, p) → ∃ s₀, R s₀ s.state ∧ p.Sound P R (Q c) s₀

theorem Relies.idle {st : σ} (h : P st) :
    ({ state := st } : Service κ τ σ ε α).Relies P R Q :=
  ⟨h, fun _ _ _ hslot => by cases hslot⟩

/-- A call that has returned has left its result in `Q`, if `Q` stays true along `R`. -/
theorem Relies.returned (h : s.Relies P R Q) {k : κ} {c : τ} {a : α}
    (hslot : s.slots k = some (c, .done (.ok a)))
    (hstable : ∀ s t, Q c a s → R s t → Q c a t) : Q c a s.state := by
  obtain ⟨s₀, hs₀, hQ⟩ := h.slots k c _ hslot
  exact hstable s₀ s.state hQ hs₀

variable [DecidableEq κ]

theorem Relies.step (htrans : ∀ s t u, R s t → R t u → R s u) (hrefl : ∀ s, R s s)
    (h : s.Relies P R Q) (act : ServiceAct κ τ ι)
    (hcall : ∀ k c, act = .call k c → (serve c).Sound P R (Q c) s.state)
    (halone : ∀ i, act = .alone i → P (alone s.state i) ∧ R s.state (alone s.state i)) :
    (s.step serve alone act).Relies P R Q ∧ R s.state (s.step serve alone act).state := by
  -- what the others have seen leads on to where the step has moved the state
  have hmoved {t : σ} {slots : κ → Option (τ × Program σ ε α)} (hP : P t) (ht : R s.state t)
      (hslots : ∀ k c p, slots k = some (c, p) →
        s.slots k = some (c, p) ∨ ∃ s₀, R s₀ t ∧ p.Sound P R (Q c) s₀) :
      (⟨t, slots⟩ : Service κ τ σ ε α).Relies P R Q := by
    refine ⟨hP, fun k c p hslot => ?_⟩
    obtain hold | hnew := hslots k c p hslot
    · obtain ⟨s₀, hs₀, hp⟩ := h.slots k c p hold
      exact ⟨s₀, htrans _ _ _ hs₀ ht, hp⟩
    · exact hnew
  cases act with
  | call k c =>
      rw [Service.step]
      split_ifs
      · exact ⟨h, hrefl _⟩
      · refine ⟨hmoved h.state (hrefl _) fun k' c' p' hslot => ?_, hrefl _⟩
        rw [Function.update_apply] at hslot
        split_ifs at hslot
        · cases hslot
          exact .inr ⟨s.state, hrefl _, hcall k c rfl⟩
        · exact .inl hslot
  | turn k =>
      cases hslot : s.slots k with
      | none =>
          rw [Service.step, hslot]
          exact ⟨h, hrefl _⟩
      | some served =>
          obtain ⟨c, p⟩ := served
          obtain ⟨s₀, hs₀, hp⟩ := h.slots k c p hslot
          obtain ⟨hkeeps, hmoves, hnext⟩ := hp.turn hrefl hs₀ h.state
          rw [step_turn hslot]
          refine ⟨hmoved hkeeps hmoves fun k' c' p' hslot' => ?_, hmoves⟩
          rw [Function.update_apply] at hslot'
          split_ifs at hslot'
          · cases hslot'
            exact .inr hnext
          · exact .inl hslot'
  | alone i =>
      obtain ⟨hkeeps, hmoves⟩ := halone i rfl
      exact ⟨hmoved hkeeps hmoves fun _ _ _ hslot => .inl hslot, hmoves⟩

/-- Along every run the state stays in `P` and moves along `R`, however the calls are
interleaved and wherever some of them stop. -/
theorem run_relies (htrans : ∀ s t u, R s t → R t u → R s u) (hrefl : ∀ s, R s s)
    {C : Service κ τ σ ε α → ServiceAct κ τ ι → Prop}
    (hcall : ∀ s k c, P s.state → C s (.call k c) → (serve c).Sound P R (Q c) s.state)
    (halone : ∀ s i, P s.state → C s (.alone i) →
      P (alone s.state i) ∧ R s.state (alone s.state i))
    {is : List (ServiceAct κ τ ι)} (hs : s.Relies P R Q)
    (hrun : Along (step serve alone) C s is) :
    (runFrom (step serve alone) s is).Relies P R Q ∧
      R s.state (runFrom (step serve alone) s is).state := by
  refine Along.invariant (P := fun t : Service κ τ σ ε α => t.Relies P R Q ∧ R s.state t.state)
    ?_ ⟨hs, hrefl _⟩ hrun
  rintro t act ⟨ht, hmoved⟩ hC
  have hstep : (t.step serve alone act).Relies P R Q ∧
      R t.state (t.step serve alone act).state := by
    refine ht.step htrans hrefl act ?_ ?_
    · rintro k c rfl
      exact hcall t k c ht.state hC
    · rintro i rfl
      exact halone t i ht.state hC
  exact ⟨hstep.1, htrans _ _ _ hmoved hstep.2⟩

end Service
end Sahay
