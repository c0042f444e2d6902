import Mathlib.Logic.Function.Basic
import Sahay.Lib.Program
import Sahay.Lib.Run

/-!
# Programs under way at once

A service serves calls, each by a program of atomic statements.  Between two statements of one the
others go on, and so does whatever else writes the state.  What every statement keeps holds in
every state of every run (`run_holds`), and what the last statement of a call leaves behind holds
when the call returns (`run_returns`); neither looks at how the calls are interleaved.
-/

namespace Sahay

/-! ## What the statements of a program do -/

namespace Program

variable {σ ε α β : Type} {P : σ → Prop} {D : σ → σ → Prop} {Q : α → σ → Prop}
  {R : β → σ → Prop}

/-- A program whose second half begins with a statement, or throws, does not return at once. -/
theorem bind_ne_ok {m : Program σ ε α} {f : α → Program σ ε β}
    (h : ∀ a b, f a ≠ done (.ok b)) (b : β) : m >>= f ≠ done (.ok b) := by
  intro hdone
  cases m with
  | stmt next write => cases hdone
  | done r =>
      cases r with
      | error e => cases hdone
      | ok a => exact h a b hdone

/-- Every statement takes a state in `P` to one that `D` relates to it; the others keep `P`. -/
def Does (P : σ → Prop) (D : σ → σ → Prop) : Program σ ε α → Prop
  | done _ => True
  | stmt next write => ∀ s, P s → D s (write s) ∧ (next s).Does P D

/-- Every statement keeps `P`, if the others do. -/
def Keeps (P : σ → Prop) (p : Program σ ε α) : Prop := p.Does P fun _ => P

/-- The statement with which the program returns leaves its result and the state in `Q`, if the
others keep `P`. -/
def Leaves (P : σ → Prop) (Q : α → σ → Prop) : Program σ ε α → Prop
  | done _ => True
  | stmt next write => ∀ s, P s →
      (∀ a, next s = done (.ok a) → Q a (write s)) ∧ (next s).Leaves P Q

namespace Does

theorem pure (a : α) : (Pure.pure a : Program σ ε α).Does P D := trivial

theorem throw (e : ε) : (Program.throw e : Program σ ε α).Does P D := trivial

theorem read {g : σ → α} (hrefl : ∀ s, P s → D s s) :
    (Program.read g : Program σ ε α).Does P D :=
  fun s hs => ⟨hrefl s hs, trivial⟩

theorem update {f : σ → α × σ} (h : ∀ s, P s → D s (f s).2) :
    (Program.update f : Program σ ε α).Does P D :=
  fun s hs => ⟨h s hs, trivial⟩

theorem write {f : σ → σ} (h : ∀ s, P s → D s (f s)) :
    (Program.write f : Program σ ε Unit).Does P D :=
  fun s hs => ⟨h s hs, trivial⟩

theorem transaction {f : σ → Except ε (α × σ)} (hrefl : ∀ s, P s → D s s)
    (h : ∀ s a t, P s → f s = .ok (a, t) → D s t) : (Program.transaction f).Does P D := by
  refine fun s hs => ⟨?_, trivial⟩
  dsimp only
  cases hf : f s with
  | error e => exact hrefl s hs
  | ok r => exact h s r.1 r.2 hs hf

theorem bind {m : Program σ ε α} {f : α → Program σ ε β} (hm : m.Does P D)
    (hf : ∀ a, (f a).Does P D) : (m >>= f).Does P D := by
  induction m with
  | done r =>
      cases r with
      | error e => trivial
      | ok a => exact hf a
  | stmt next write ih => exact fun s hs => ⟨(hm s hs).1, ih s (hm s hs).2⟩

/-- What follows a `SELECT` is run on what a state in `P` has given. -/
theorem read_bind {g : σ → α} {f : α → Program σ ε β} (hrefl : ∀ s, P s → D s s)
    (hf : ∀ s, P s → (f (g s)).Does P D) : (Program.read g >>= f).Does P D :=
  fun s hs => ⟨hrefl s hs, hf s hs⟩

theorem mono {P' : σ → Prop} {D' : σ → σ → Prop} {p : Program σ ε α} (h : p.Does P' D')
    (hP : ∀ s, P s → P' s) (hD : ∀ s t, P s → D' s t → D s t) : p.Does P D := by
  induction p with
  | done r => trivial
  | stmt next write ih =>
      exact fun s hs => ⟨hD s _ hs (h s (hP s hs)).1, ih s (h s (hP s hs)).2⟩

theorem turn {p : Program σ ε α} (h : p.Does P D) {s : σ} (hs : P s) (hrefl : D s s) :
    D s (p.turn s).2 ∧ (p.turn s).1.Does P D := by
  cases p with
  | done r => exact ⟨hrefl, trivial⟩
  | stmt next write => exact h s hs

end Does

namespace Keeps

theorem turn {p : Program σ ε α} (h : p.Keeps P) {s : σ} (hs : P s) :
    P (p.turn s).2 ∧ (p.turn s).1.Keeps P :=
  Does.turn h hs hs

end Keeps

namespace Leaves

theorem pure (a : α) : (Pure.pure a : Program σ ε α).Leaves P Q := trivial

theorem throw (e : ε) : (Program.throw e : Program σ ε α).Leaves P Q := trivial

theorem mono {Q' : α → σ → Prop} {p : Program σ ε α} (h : p.Leaves P Q)
    (hQ : ∀ a s, Q a s → Q' a s) : p.Leaves P Q' := by
  induction p with
  | done r => trivial
  | stmt next write ih =>
      exact fun s hs => ⟨fun a ha => hQ a _ ((h s hs).1 a ha), ih s (h s hs).2⟩

theorem of_forall (h : ∀ a s, Q a s) (p : Program σ ε α) : p.Leaves P Q := by
  induction p with
  | done r => trivial
  | stmt next write ih => exact fun s _ => ⟨fun a _ => h a _, ih s⟩

theorem update {f : σ → α × σ} (h : ∀ s, P s → Q (f s).1 (f s).2) :
    (Program.update f : Program σ ε α).Leaves P Q := by
  refine fun s hs => ⟨fun a ha => ?_, trivial⟩
  cases ha
  exact h s hs

theorem bind {m : Program σ ε α} {f : α → Program σ ε β}
    (hm : m.Leaves P fun a s => ∀ b, f a = done (.ok b) → R b s)
    (hf : ∀ a, (f a).Leaves P R) : (m >>= f).Leaves P R := by
  induction m with
  | done r =>
      cases r with
      | error e => trivial
      | ok a => exact hf a
  | stmt next write ih =>
      refine fun s hs => ⟨fun b hb => ?_, ih s (hm s hs).2⟩
      change (next s).bind f = done (.ok b) at hb
      cases hnext : next s with
      | stmt next' write' =>
          rw [hnext] at hb
          cases hb
      | done r =>
          rw [hnext] at hb
          cases r with
          | error e => cases hb
          | ok a => exact (hm s hs).1 a hnext b hb

theorem map {m : Program σ ε α} {f : α → β} (hm : m.Leaves P fun a => R (f a)) :
    (m >>= fun a => Pure.pure (f a)).Leaves P R := by
  refine bind ?_ fun a => trivial
  have hany : ∀ m : Program σ ε α, (m.Leaves P fun a => R (f a)) →
      m.Leaves P fun a s => ∀ b, (Pure.pure (f a) : Program σ ε β) = done (.ok b) → R b s := by
    intro m
    induction m with
    | done r => exact fun _ => trivial
    | stmt next write ih =>
        refine fun h s hs => ⟨fun a ha b hb => ?_, ih s (h s hs).2⟩
        cases hb
        exact (h s hs).1 a ha
  exact hany m hm

theorem bind_of_stmt {m : Program σ ε α} {f : α → Program σ ε β}
    (hstmt : ∀ a b, f a ≠ done (.ok b)) (hf : ∀ a, (f a).Leaves P R) : (m >>= f).Leaves P R := by
  have hany : ∀ m : Program σ ε α, m.Leaves P fun a s => ∀ b, f a = done (.ok b) → R b s := by
    intro m
    induction m with
    | done r => trivial
    | stmt next write ih => exact fun s _ => ⟨fun a _ b hb => absurd hb (hstmt a b), ih s⟩
  exact bind (hany m) hf

/-- A `SELECT` before a statement: the rest is run on what a state in `P` has given. -/
theorem read_bind_of_stmt {g : σ → α} {f : α → Program σ ε β}
    (hstmt : ∀ a b, f a ≠ done (.ok b)) (hf : ∀ s, P s → (f (g s)).Leaves P R) :
    (Program.read g >>= f).Leaves P R :=
  fun s hs => ⟨fun b hb => absurd hb (hstmt (g s) b), hf s hs⟩

theorem turn {p : Program σ ε α} (h : p.Leaves P Q) {s : σ} (hs : P s) :
    (p.turn s).1.Leaves P Q := by
  cases p with
  | done r => trivial
  | stmt next write => exact (h s hs).2

end Leaves

/-! ## Programs on a part of the state -/

section Within

variable {τ : Type} (get : τ → σ) (set : σ → τ → τ)

/-- The program, run on the part of the state that `get` reads and `set` replaces. -/
def within : Program σ ε α → Program τ ε α
  | done r => done r
  | stmt next write => stmt (fun t => (next (get t)).within) fun t => set (write (get t)) t

variable {get set}

theorem within_eq_done {p : Program σ ε α} {r : Except ε α} :
    p.within get set = done r ↔ p = done r := by
  cases p <;> simp [within]

theorem Does.within (hget : ∀ s t, get (set s t) = s) {p : Program σ ε α} (h : p.Does P D) :
    (p.within get set).Does (fun t => P (get t)) fun t t' => D (get t) (get t') := by
  induction p with
  | done r => trivial
  | stmt next write ih =>
      refine fun t ht => ⟨?_, ih (get t) (h (get t) ht).2⟩
      dsimp only
      rw [hget]
      exact (h (get t) ht).1

theorem Leaves.within (hget : ∀ s t, get (set s t) = s) {p : Program σ ε α} (h : p.Leaves P Q) :
    (p.within get set).Leaves (fun t => P (get t)) fun a t => Q a (get t) := by
  induction p with
  | done r => trivial
  | stmt next write ih =>
      refine fun t ht => ⟨fun a ha => ?_, ih (get t) (h (get t) ht).2⟩
      dsimp only
      rw [hget]
      exact (h (get t) ht).1 a (within_eq_done.mp ha)

end Within
end Program

/-! ## Services -/

/-- The state, and in each slot the call that is served with what of its program is left. -/
structure Service (κ τ σ ε α : Type) where
  state : σ
  slots : κ → Option (τ × Program σ ε α) := fun _ => none

inductive ServiceAct (κ τ ι : Type)
  /-- A call comes in. -/
  | call (k : κ) (c : τ)
  /-- The call of the slot issues its next statement. -/
  | turn (k : κ)
  /-- What is no call writes the state. -/
  | alone (i : ι)

namespace Service

variable {κ τ σ ε α ι : Type} {P : σ → Prop} {Q : τ → α → σ → Prop} {s : Service κ τ σ ε α}

/-- The next statement of the slot is the last of the call `c`, which returns `a`. -/
def Returns (s : Service κ τ σ ε α) (k : κ) (c : τ) (a : α) : Prop :=
  ∃ next write, s.slots k = some (c, .stmt next write) ∧ next s.state = .done (.ok a)

def isBusy : Option (τ × Program σ ε α) → Bool
  | some (_, .stmt ..) => true
  | _ => false

variable [DecidableEq κ] (serve : τ → Program σ ε α) (alone : σ → ι → σ)

/-- A call that comes to a slot that is busy is dropped. -/
def step (s : Service κ τ σ ε α) : ServiceAct κ τ ι → Service κ τ σ ε α
  | .call k c =>
      if isBusy (s.slots k) then s
      else { s with slots := Function.update s.slots k (some (c, serve c)) }
  | .turn k =>
      match s.slots k with
      | none => s
      | some (c, p) =>
          { state := (p.turn s.state).2
            slots := Function.update s.slots k (some (c, (p.turn s.state).1)) }
  | .alone i => { s with state := alone s.state i }

variable {serve alone}

theorem step_turn {k : κ} {c : τ} {p : Program σ ε α} (h : s.slots k = some (c, p)) :
    s.step serve alone (.turn k) =
      { state := (p.turn s.state).2
        slots := Function.update s.slots k (some (c, (p.turn s.state).1)) } := by
  rw [step, h]

/-- The programs in the slots all satisfy `H`. -/
def Serving (H : κ → τ → Program σ ε α → Prop) (s : Service κ τ σ ε α) : Prop :=
  ∀ k c p, s.slots k = some (c, p) → H k c p

theorem Serving.update {H : κ → τ → Program σ ε α → Prop}
    {slots : κ → Option (τ × Program σ ε α)} {t t' : σ}
    (h : Serving H (⟨t, slots⟩ : Service κ τ σ ε α)) {k : κ} {c : τ} {p : Program σ ε α}
    (hp : H k c p) :
    Serving H (⟨t', Function.update slots k (some (c, p))⟩ : Service κ τ σ ε α) := by
  intro k' c' p' hslot
  dsimp only at hslot
  rw [Function.update_apply] at hslot
  split_ifs at hslot with hk
  · cases hslot
    exact hk ▸ hp
  · exact h k' c' p' hslot

theorem Serving.step {H : κ → τ → Program σ ε α → Prop} (h : s.Serving H) (act : ServiceAct κ τ ι)
    (hcall : ∀ k c, act = .call k c → H k c (serve c))
    (hturn : ∀ k c p, H k c p → H k c (p.turn s.state).1) :
    (s.step serve alone act).Serving H := by
  cases act with
  | call k c =>
      rw [Service.step]
      split_ifs
      · exact h
      · exact Serving.update h (hcall k c rfl)
  | turn k =>
      cases hslot : s.slots k with
      | none =>
          rw [Service.step, hslot]
          exact h
      | some served =>
          obtain ⟨c, p⟩ := served
          rw [step_turn hslot]
          exact Serving.update h (hturn k c p (h k c p hslot))
  | alone i => exact h

/-- The state satisfies `P`, and so it will after the statements under way. -/
structure Holds (P : σ → Prop) (s : Service κ τ σ ε α) : Prop where
  state : P s.state
  slots : s.Serving fun _ _ p => p.Keeps P

theorem Holds.step (h : s.Holds P) (act : ServiceAct κ τ ι)
    (hcall : ∀ k c, act = .call k c → (serve c).Keeps P)
    (halone : ∀ i, act = .alone i → P (alone s.state i)) : (s.step serve alone act).Holds P where
  state := by
    cases act with
    | call k c =>
        rw [Service.step]
        split_ifs <;> exact h.state
    | turn k =>
        cases hslot : s.slots k with
        | none =>
            rw [Service.step, hslot]
            exact h.state
        | some served =>
            obtain ⟨c, p⟩ := served
            rw [step_turn hslot]
            exact ((h.slots k c p hslot).turn h.state).1
    | alone i => exact halone i rfl
  slots := h.slots.step act hcall fun _ _ _ hp => (hp.turn h.state).2

theorem run_holds {C : Service κ τ σ ε α → ServiceAct κ τ ι → Prop}
    (hcall : ∀ s k c, C s (.call k c) → (serve c).Keeps P)
    (halone : ∀ s i, P s.state → C s (.alone i) → P (alone s.state i))
    {is : List (ServiceAct κ τ ι)} (hs : s.Holds P) (hrun : Along (step serve alone) C s is) :
    (runFrom (step serve alone) s is).Holds P := by
  refine Along.invariant (P := Holds P) (fun s act hs hC => hs.step act ?_ ?_) hs hrun
  · rintro k c rfl
    exact hcall s k c hC
  · rintro i rfl
    exact halone s i hs.state hC

/-- The same, where what the statements keep they keep only from the states in `P`, and the run
makes its steps in these. -/
theorem run_keeps {I : σ → Prop} {C : Service κ τ σ ε α → ServiceAct κ τ ι → Prop}
    (hcall : ∀ s k c, C s (.call k c) → (serve c).Does P fun s t => I s → I t)
    (halone : ∀ s i, C s (.alone i) → I s.state → I (alone s.state i))
    (hslots : s.Serving fun _ _ p => p.Does P fun s t => I s → I t) (hI : I s.state)
    {is : List (ServiceAct κ τ ι)}
    (hrun : Along (step serve alone) (fun s act => P s.state ∧ C s act) s is) :
    I (runFrom (step serve alone) s is).state := by
  refine (Along.invariant (P := fun s : Service κ τ σ ε α => I s.state ∧
    s.Serving fun _ _ p => p.Does P fun s t => I s → I t) ?_ ⟨hI, hslots⟩ hrun).1
  rintro s act ⟨hI, hslots⟩ ⟨hP, hC⟩
  constructor
  · cases act with
    | call k c =>
        rw [Service.step]
        split_ifs <;> exact hI
    | turn k =>
        cases hslot : s.slots k with
        | none =>
            rw [Service.step, hslot]
            exact hI
        | some served =>
            obtain ⟨c, p⟩ := served
            rw [step_turn hslot]
            exact ((hslots k c p hslot).turn hP fun h => h).1 hI
    | alone i => exact halone s i hC hI
  · refine hslots.step act ?_ fun k c p hp => (hp.turn hP fun h => h).2
    rintro k c rfl
    exact hcall s k c hC

/-- What the last statement of a call leaves behind is there when the call returns.  Nothing need
be known of the other slots. -/
theorem run_returns {k : κ} (hserve : ∀ c, (serve c).Leaves P (Q c))
    {is : List (ServiceAct κ τ ι)} (hs : ∀ c p, s.slots k = some (c, p) → p.Leaves P (Q c))
    (hrun : Along (step serve alone) (fun s _ => P s.state) s is) {c : τ} {a : α}
    (hlast : P (runFrom (step serve alone) s is).state)
    (hreturns : (runFrom (step serve alone) s is).Returns k c a) :
    Q c a ((runFrom (step serve alone) s is).step serve alone (.turn k)).state := by
  have hserving := Along.invariant (P := Serving fun k' c p => k' = k → p.Leaves P (Q c))
    (fun s act hs hC => hs.step act (fun _ c _ _ => hserve c) fun _ _ _ hp hk => (hp hk).turn hC)
    (by rintro k' c p hslot rfl; exact hs c p hslot) hrun
  obtain ⟨next, write, hslot, hnext⟩ := hreturns
  rw [step_turn hslot]
  exact (hserving k c _ hslot rfl _ hlast).1 a hnext

end Service
end Sahay
