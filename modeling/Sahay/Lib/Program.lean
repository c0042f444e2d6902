import Mathlib.Logic.Basic

/-!
# Programs of atomic statements

A program runs on a shared state one statement after the other.  A statement reads the state,
writes it, and decides from what it has read how the program goes on; what it has written
stays, also when the program throws later.  The unit of interleaving is the statement: run
alone a program is `exec`.

`SameFrom L` compares two programs from two states: they end with the same result, in states
that `L` relates again.
-/

namespace Sahay

/-- A program over the state `σ` that returns an `α` or throws an `ε`. -/
inductive Program (σ ε α : Type)
  | done (r : Except ε α)
  | stmt (next : σ → Program σ ε α) (write : σ → σ)

namespace Program

variable {σ ε α β : Type}

/-! ## Sequencing -/

protected def bind : Program σ ε α → (α → Program σ ε β) → Program σ ε β
  | done (.ok a), f => f a
  | done (.error e), _ => done (.error e)
  | stmt next write, f => stmt (fun s => (next s).bind f) write

instance : Monad (Program σ ε) where
  pure a := done (.ok a)
  bind := Program.bind

def throw (e : ε) : Program σ ε α := done (.error e)

/-- A `SELECT`. -/
def read (f : σ → α) : Program σ ε α := stmt (fun s => done (.ok (f s))) id

def update (f : σ → α × σ) : Program σ ε α := stmt (fun s => done (.ok (f s).1)) fun s => (f s).2

def write (f : σ → σ) : Program σ ε Unit := stmt (fun _ => done (.ok ())) f

/-- A transaction taken as one statement: all of it, or none of it and its error. -/
def transaction (f : σ → Except ε (α × σ)) : Program σ ε α :=
  stmt (fun s => done ((f s).map Prod.fst)) fun s => ((f s).map Prod.snd).toOption.getD s

/-! ## Execution -/

def exec : Program σ ε α → σ → Except ε α × σ
  | done r, s => (r, s)
  | stmt next write, s => (next s).exec (write s)

/-- The next statement alone: what is left of the program, and the state after it. -/
def turn : Program σ ε α → σ → Program σ ε α × σ
  | done r, s => (done r, s)
  | stmt next write, s => (next s, write s)

variable {m m' : Program σ ε α} {f f' : α → Program σ ε β} {s s' t : σ}

@[simp] theorem exec_pure (a : α) : (pure a : Program σ ε α).exec s = (.ok a, s) := rfl

@[simp] theorem exec_throw (e : ε) : (throw e : Program σ ε α).exec s = (.error e, s) := rfl

@[simp] theorem exec_read (g : σ → α) : (read g : Program σ ε α).exec s = (.ok (g s), s) := rfl

@[simp] theorem exec_update (g : σ → α × σ) :
    (update g : Program σ ε α).exec s = (.ok (g s).1, (g s).2) := rfl

@[simp] theorem exec_write (g : σ → σ) : (write g : Program σ ε Unit).exec s = (.ok (), g s) := rfl

theorem exec_transaction_ok {g : σ → Except ε (α × σ)} {a : α} (h : g s = .ok (a, t)) :
    (transaction g).exec s = (.ok a, t) := by
  simp [transaction, exec, h, Except.map, Except.toOption]

theorem exec_transaction_error {g : σ → Except ε (α × σ)} {e : ε} (h : g s = .error e) :
    (transaction g).exec s = (.error e, s) := by
  simp [transaction, exec, h, Except.map, Except.toOption]

theorem exec_bind : (m >>= f).exec s =
    match m.exec s with
    | (.ok a, t) => (f a).exec t
    | (.error e, t) => (.error e, t) := by
  induction m generalizing s with
  | done r => cases r <;> rfl
  | stmt next write ih => exact ih s

theorem exec_bind_ok {a : α} (h : m.exec s = (.ok a, t)) : (m >>= f).exec s = (f a).exec t := by
  rw [exec_bind, h]

theorem exec_bind_error {e : ε} (h : m.exec s = (.error e, t)) :
    (m >>= f).exec s = (.error e, t) := by
  rw [exec_bind, h]

theorem exec_bind_eq_ok {b : β} (h : (m >>= f).exec s = (.ok b, t)) :
    ∃ a u, m.exec s = (.ok a, u) ∧ (f a).exec u = (.ok b, t) := by
  rw [exec_bind] at h
  rcases hm : m.exec s with ⟨r, u⟩
  rw [hm] at h
  cases r with
  | error e => cases h
  | ok a => exact ⟨a, u, rfl, h⟩

/-! ## Two runs -/

/-- The programs give the same result, and leave states that `L` relates. -/
def SameFrom (L : σ → σ → Prop) (s s' : σ) (m m' : Program σ ε α) : Prop :=
  (m.exec s).1 = (m'.exec s').1 ∧ L (m.exec s).2 (m'.exec s').2

variable {L : σ → σ → Prop}

theorem SameFrom.pure (h : L s s') (a : α) :
    SameFrom L s s' (pure a : Program σ ε α) (pure a) := ⟨rfl, h⟩

theorem SameFrom.throw (h : L s s') (e : ε) :
    SameFrom L s s' (throw e : Program σ ε α) (throw e) := ⟨rfl, h⟩

theorem SameFrom.read (h : L s s') {g g' : σ → α} (hg : g s = g' s') :
    SameFrom L s s' (read g : Program σ ε α) (read g') := ⟨congrArg Except.ok hg, h⟩

theorem SameFrom.update {g g' : σ → α × σ} (hg : (g s).1 = (g' s').1)
    (h : L (g s).2 (g' s').2) : SameFrom L s s' (update g : Program σ ε α) (update g') :=
  ⟨congrArg Except.ok hg, h⟩

theorem SameFrom.write {g g' : σ → σ} (h : L (g s) (g' s')) :
    SameFrom L s s' (write g : Program σ ε Unit) (write g') := ⟨rfl, h⟩

/-- The second halves are compared from the states and the value that the first halves end
with. -/
theorem SameFrom.bind (hm : SameFrom L s s' m m')
    (hf : ∀ a t t', m.exec s = (.ok a, t) → m'.exec s' = (.ok a, t') → L t t' →
      SameFrom L t t' (f a) (f' a)) :
    SameFrom L s s' (m >>= f) (m' >>= f') := by
  rcases hr : m.exec s with ⟨r, t⟩
  rcases hr' : m'.exec s' with ⟨r', t'⟩
  rw [SameFrom, hr, hr'] at hm
  obtain ⟨heq, hL⟩ := hm
  dsimp only at heq hL
  subst heq
  cases r with
  | error e =>
    rw [SameFrom, exec_bind_error hr, exec_bind_error hr']
    exact ⟨rfl, hL⟩
  | ok a =>
    rw [SameFrom, exec_bind_ok hr, exec_bind_ok hr']
    exact hf a t t' hr hr' hL

theorem SameFrom.bind_of_error (hm : SameFrom L s s' m m') (herr : ∀ a t, m.exec s ≠ (.ok a, t)) :
    SameFrom L s s' (m >>= f) (m' >>= f') :=
  hm.bind fun a t _ h _ _ => absurd h (herr a t)

end Program
end Sahay
