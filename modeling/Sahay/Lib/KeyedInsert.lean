import Sahay.Lib.Connection
import Sahay.Lib.Guard

/-!
# Inserting once under a key

A call that inserts a row under a key looks for the row first, and returns it if it is there.
Otherwise it checks its input and, in a transaction, whether a further row is admitted, and
inserts.  When the unique index refuses the row it looks for the one that has come before it:
in the transaction that this refusal has failed.

However many calls with one key interleave, at most one of them inserts, and whatever is
returned is its row.  A call whose insert is refused ends with an error.
-/

namespace Sahay

variable {ι σ κ ε τ ρ : Type}

def applyAll (changes : List (Change σ κ)) (s : σ) : σ :=
  changes.foldl (fun s change => change.apply s) s

theorem applyAll_concat (changes : List (Change σ κ)) (change : Change σ κ) :
    applyAll (changes ++ [change]) = change.apply ∘ applyAll changes := by
  funext s
  simp [applyAll]

/-- What of a call is its own. -/
structure KeyedInsert (σ κ ε τ ρ : Type) where
  entry : κ
  /-- The row under the key. -/
  find : σ → Option ρ
  /-- The checks before the transaction, and what they leave for it. -/
  checks : σ → Except ε τ
  /-- The check in the transaction. -/
  admits : τ → σ → Except ε Unit
  before : τ → List (Change σ κ)
  /-- The row, and the table with it. -/
  row : τ → σ → Except ε (ρ × (σ → σ))
  after : ρ → List (Change σ κ)
  /-- The errors after which the call looks again. -/
  catches : ε → Bool

namespace KeyedInsert

/-! ## The script of a call -/

def abort (e : ε) : Script σ κ ε ρ := .send .rollback fun _ => .done (.error e)

def commit (row : ρ) : Script σ κ ε ρ :=
  .send .commit fun
    | .ok _ => .done (.ok row)
    | .error e => .done (.error e)

/-- Send the changes, and go on. -/
def sendAll (rest : Script σ κ ε ρ) : List (Change σ κ) → Script σ κ ε ρ
  | [] => rest
  | change :: changes =>
      .send (.update fun _ => .ok change) fun
        | .ok _ => sendAll rest changes
        | .error e => abort e

variable (c : KeyedInsert σ κ ε τ ρ)

/-- Look for the row that has come before, with the error at hand. -/
def fallback (e : ε) : Script σ κ ε ρ :=
  .send .select fun
    | .ok s =>
        match c.find s with
        | some row => commit row
        | none => abort e
    | .error e => abort e

def insert (t : τ) : Script σ κ ε ρ :=
  .send (.insert c.entry fun s => (c.row t s).map Prod.snd) fun
    | .ok s =>
        match c.row t s with
        | .ok (row, _) => sendAll (commit row) (c.after row)
        | .error e => abort e
    | .error e => if c.catches e then c.fallback e else abort e

def guarded (t : τ) : Script σ κ ε ρ :=
  .send .select fun
    | .ok s =>
        match c.admits t s with
        | .ok () => sendAll (c.insert t) (c.before t)
        | .error e => abort e
    | .error e => abort e

def transaction (t : τ) : Script σ κ ε ρ :=
  .send .start fun
    | .ok _ => c.guarded t
    | .error e => .done (.error e)

def check : Script σ κ ε ρ :=
  .send .select fun
    | .ok s =>
        match c.checks s with
        | .ok t => c.transaction t
        | .error e => .done (.error e)
    | .error e => .done (.error e)

def script : Script σ κ ε ρ :=
  .send .select fun
    | .ok s =>
        match c.find s with
        | some row => .done (.ok row)
        | none => c.check
    | .error e => .done (.error e)

/-- The call in one go. -/
def run (s : σ) : Except ε (ρ × σ) :=
  match c.find s with
  | some row => .ok (row, s)
  | none => do
      let t ← c.checks s
      c.admits t s
      let s := applyAll (c.before t) s
      let (row, put) ← c.row t s
      return (row, applyAll (c.after row) (put s))

/-! ## Calls with one key -/

/-- The calls agree on the key; what they do beside the insert does not touch it; and they refuse
with errors of their own. -/
structure Shares (engine : Engine σ κ ε) (entry : κ) (find : σ → Option ρ) (refuses : ε → Prop)
    (c : KeyedInsert σ κ ε τ ρ) : Prop where
  entry_eq : c.entry = entry
  find_eq : c.find = find
  contains : ∀ s, engine.contains s entry = (find s).isSome
  checks : ∀ s e, c.checks s = .error e → refuses e
  admits : ∀ t s e, c.admits t s = .error e → refuses e
  before : ∀ t, ∀ change ∈ c.before t, entry ∉ change.locks ∧
    ∀ s, find (change.apply s) = find s
  row : ∀ s₁ t s, c.checks s₁ = .ok t → find s = none →
    ∃ row put, c.row t s = .ok (row, put) ∧ find (put s) = some row
  after : ∀ row, ∀ change ∈ c.after row, ∀ s, find (change.apply s) = find s
  uniqueViolation : ¬refuses engine.uniqueViolation
  transactionAborted : ¬refuses engine.transactionAborted

variable {engine : Engine σ κ ε} {entry : κ} {find : σ → Option ρ} {refuses : ε → Prop}
  {c : KeyedInsert σ κ ε τ ρ} {s s' : σ} {connection connection' : Connection σ κ ε ρ}

def Checked (c : KeyedInsert σ κ ε τ ρ) (find : σ → Option ρ) (s : σ) (t : τ) : Prop :=
  (∃ s₁, c.checks s₁ = .ok t) ∧ (find s = none → c.checks s = .ok t)

/-- The index has refused the row; nothing that the call still does succeeds. -/
inductive Doomed (refuses : ε → Prop) (c : KeyedInsert σ κ ε τ ρ) : Connection σ κ ε ρ → Prop
  | fallback (e : ε) : Doomed refuses c ⟨c.fallback e, .failed⟩
  | abort (e : ε) (he : ¬refuses e) : Doomed refuses c ⟨KeyedInsert.abort e, .failed⟩
  | failed (e : ε) (he : ¬refuses e) : Doomed refuses c ⟨.done (.error e), .idle⟩

/-- How far a call has come, beside the committed rows `s`. -/
inductive Phase (entry : κ) (find : σ → Option ρ) (refuses : ε → Prop)
    (c : KeyedInsert σ κ ε τ ρ) (s : σ) : Connection σ κ ε ρ → Prop
  | replay : Phase entry find refuses c s ⟨c.script, .idle⟩
  | check : Phase entry find refuses c s ⟨c.check, .idle⟩
  | transaction (t : τ) (ht : c.Checked find s t) :
      Phase entry find refuses c s ⟨c.transaction t, .idle⟩
  | guarded (t : τ) (ht : c.Checked find s t) :
      Phase entry find refuses c s ⟨c.guarded t, .active id []⟩
  | before (t : τ) (sent unsent : List (Change σ κ)) (locks : List κ)
      (ht : c.Checked find s t) (hadmits : find s = none → c.admits t s = .ok ())
      (hbefore : c.before t = sent ++ unsent) (hlocks : entry ∉ locks) :
      Phase entry find refuses c s ⟨sendAll (c.insert t) unsent, .active (applyAll sent) locks⟩
  | after (t : τ) (row : ρ) (put : σ → σ) (sent unsent : List (Change σ κ)) (locks : List κ)
      (hs : find s = none) (ht : c.checks s = .ok t) (hadmits : c.admits t s = .ok ())
      (hrow : c.row t (applyAll (c.before t) s) = .ok (row, put))
      (hput : find (put (applyAll (c.before t) s)) = some row)
      (hafter : c.after row = sent ++ unsent) (hlocks : entry ∈ locks) :
      Phase entry find refuses c s
        ⟨sendAll (commit row) unsent, .active (applyAll sent ∘ put ∘ applyAll (c.before t)) locks⟩
  | refuse (e : ε) (he : refuses e) (write : σ → σ) (locks : List κ) (hlocks : entry ∉ locks) :
      Phase entry find refuses c s ⟨abort e, .active write locks⟩
  | returned (row : ρ) (hs : find s = some row) :
      Phase entry find refuses c s ⟨.done (.ok row), .idle⟩
  | refused (e : ε) (he : refuses e) : Phase entry find refuses c s ⟨.done (.error e), .idle⟩

theorem find_applyAll {changes : List (Change σ κ)}
    (h : ∀ change ∈ changes, ∀ s, find (change.apply s) = find s) (s : σ) :
    find (applyAll changes s) = find s := by
  induction changes generalizing s with
  | nil => rfl
  | cons change changes ih =>
    have hrest : find (applyAll changes (change.apply s)) = find (change.apply s) :=
      ih (fun other hmem => h other (List.mem_cons_of_mem change hmem)) _
    exact hrest.trans (h change List.mem_cons_self s)

theorem Doomed.next {free : List κ → Bool} (hc : c.Shares engine entry find refuses)
    (h : Doomed refuses c connection)
    (hnext : connection.next engine s free = some (connection', s')) :
    Doomed refuses c connection' ∧ s' = s := by
  cases h with
  | fallback e =>
    cases hnext
    exact ⟨.abort _ hc.transactionAborted, rfl⟩
  | abort e he =>
    cases hnext
    exact ⟨.failed e he, rfl⟩
  | failed e he => cases hnext

theorem run_of_find {row : ρ} (h : c.find s = some row) : c.run s = .ok (row, s) := by
  rw [run, h]

theorem Shares.find_run (hc : c.Shares engine entry find refuses) {row : ρ}
    (h : c.run s = .ok (row, s')) : find s' = some row := by
  rw [run, hc.find_eq] at h
  cases hfind : find s with
  | some stored =>
    rw [hfind] at h
    cases h
    exact hfind
  | none =>
    rw [hfind] at h
    simp only [bind_ok, pure_ok, Prod.mk.injEq] at h
    obtain ⟨t, hchecks, _, -, ⟨_, put⟩, hrow, rfl, rfl⟩ := h
    have hview : find (applyAll (c.before t) s) = none :=
      (find_applyAll (fun change hmem => (hc.before t change hmem).2) s).trans hfind
    obtain ⟨row', put', hrow', hput⟩ := hc.row s t _ hchecks hview
    cases hrow.symm.trans hrow'
    rw [find_applyAll (hc.after _)]
    exact hput

theorem run_throws {p : ε → Prop} (hchecks : ∀ s, Throws p (c.checks s))
    (hadmits : ∀ t s, Throws p (c.admits t s)) (hrow : ∀ t s, Throws p (c.row t s)) (s : σ) :
    Throws p (c.run s) := by
  rw [run]
  cases c.find s with
  | some row => exact .pure _
  | none =>
    refine (hchecks s).bind fun t => (hadmits t s).bind fun _ => ?_
    exact (hrow t _).bind fun _ => .pure _

/-- Rows that another call commits leave a call where it is, as long as it holds no lock on the
key. -/
theorem Phase.of_committed (h : Phase entry find refuses c s connection) (hs : find s = none)
    (hlocks : entry ∉ connection.tx.locks) (hs' : (find s').isSome = true) :
    Phase entry find refuses c s' connection := by
  have hsome : find s' ≠ none := Option.isSome_iff_ne_none.mp hs'
  cases h with
  | replay => exact .replay
  | check => exact .check
  | transaction t ht => exact .transaction t ⟨ht.1, fun hnone => absurd hnone hsome⟩
  | guarded t ht => exact .guarded t ⟨ht.1, fun hnone => absurd hnone hsome⟩
  | before t sent unsent locks ht hadmits hbefore hfree =>
    exact .before t sent unsent locks ⟨ht.1, fun hnone => absurd hnone hsome⟩
      (fun hnone => absurd hnone hsome) hbefore hfree
  | after t row put sent unsent locks hnone ht hadmits hrow hput hafter hheld =>
    exact absurd hheld hlocks
  | refuse e he write locks hfree => exact .refuse e he write locks hfree
  | returned row hrow =>
    rw [hs] at hrow
    cases hrow
  | refused e he => exact .refused e he

variable {free : List κ → Bool}

theorem next_insert_doomed (hc : c.Shares engine entry find refuses) {t : τ} {write : σ → σ}
    {locks : List κ} (hfound : (find (write s)).isSome = true) :
    ∃ connection', Connection.next engine s free ⟨c.insert t, .active write locks⟩ =
      some (connection', s) ∧ Doomed refuses c connection' := by
  have hcontains : engine.contains (write s) c.entry = true := by
    rw [hc.entry_eq, hc.contains]
    exact hfound
  refine ⟨_, Connection.next_insert_taken hcontains, ?_⟩
  dsimp only
  split_ifs
  · exact .fallback _
  · exact .abort _ hc.uniqueViolation

theorem next_insert_after (hc : c.Shares engine entry find refuses) {t : τ} {locks : List κ}
    (hs : find s = none) (ht : c.checks s = .ok t) (hadmits : c.admits t s = .ok ())
    (hnext : Connection.next engine s free ⟨c.insert t, .active (applyAll (c.before t)) locks⟩ =
      some (connection', s')) :
    Phase entry find refuses c s connection' ∧ s' = s := by
  have hview : find (applyAll (c.before t) s) = none :=
    (find_applyAll (fun change hmem => (hc.before t change hmem).2) s).trans hs
  have hcontains : engine.contains (applyAll (c.before t) s) c.entry = false := by
    rw [hc.entry_eq, hc.contains, hview]
    rfl
  obtain ⟨row, put, hrow, hput⟩ := hc.row s t _ ht hview
  have hinsert : ((c.row t (applyAll (c.before t) s)).map Prod.snd) = .ok put := by
    rw [hrow]
    rfl
  rw [insert, Connection.next_insert_free hcontains hinsert] at hnext
  split_ifs at hnext
  cases hnext
  refine ⟨?_, rfl⟩
  dsimp only
  rw [hrow]
  exact .after t row put [] (c.after row) (c.entry :: locks) hs ht hadmits hrow hput rfl
    (hc.entry_eq ▸ List.mem_cons_self)

def Collides (entry : κ) (find : σ → Option ρ) (s : σ) (connection : Connection σ κ ε ρ) : Prop :=
  connection.script.entry? = some entry ∧ (find s).isSome = true

instance [DecidableEq κ] : Decidable (Collides entry find s connection) :=
  inferInstanceAs (Decidable (_ ∧ _))

theorem Phase.next_of_collides (hc : c.Shares engine entry find refuses)
    (h : Phase entry find refuses c s connection) (hcollides : Collides entry find s connection) :
    ∃ connection', connection.next engine s free = some (connection', s) ∧
      Doomed refuses c connection' := by
  obtain ⟨hentry, hs⟩ := hcollides
  cases h with
  | before t sent unsent locks ht hadmits hbefore hlocks =>
    cases unsent with
    | nil =>
      rw [List.append_nil] at hbefore
      subst hbefore
      apply next_insert_doomed hc
      rw [find_applyAll (fun change hmem => (hc.before t change hmem).2) s]
      exact hs
    | cons change unsent => cases hentry
  | after t row put sent unsent => cases unsent <;> cases hentry
  | _ => cases hentry

/-- A call in its turn, unless it collides: it goes on, and commits nothing or its own row. -/
theorem Phase.next (hc : c.Shares engine entry find refuses) (hfree : free [] = true)
    (h : Phase entry find refuses c s connection) (hcollides : ¬Collides entry find s connection)
    (hnext : connection.next engine s free = some (connection', s')) :
    Phase entry find refuses c s' connection' ∧
      (s' = s ∨ entry ∈ connection.tx.locks ∧ find s = none ∧
        ∃ row, find s' = some row ∧ c.run s = .ok (row, s')) := by
  cases h with
  | replay =>
    rw [script, Connection.next_select_idle hfree] at hnext
    cases hnext
    refine ⟨?_, .inl rfl⟩
    dsimp only
    rw [hc.find_eq]
    cases hs : find s with
    | none => exact .check
    | some row => exact .returned row hs
  | check =>
    rw [KeyedInsert.check, Connection.next_select_idle hfree] at hnext
    cases hnext
    refine ⟨?_, .inl rfl⟩
    dsimp only
    cases hchecks : c.checks s with
    | error e => exact .refused e (hc.checks s e hchecks)
    | ok t => exact .transaction t ⟨⟨s, hchecks⟩, fun _ => hchecks⟩
  | transaction t ht =>
    rw [KeyedInsert.transaction, Connection.next_start] at hnext
    cases hnext
    exact ⟨.guarded t ht, .inl rfl⟩
  | guarded t ht =>
    rw [KeyedInsert.guarded, Connection.next_select_active hfree] at hnext
    cases hnext
    refine ⟨?_, .inl rfl⟩
    dsimp only [id]
    cases hadmits : c.admits t s with
    | error e => exact .refuse e (hc.admits t s e hadmits) id [] List.not_mem_nil
    | ok _ =>
      exact .before t [] (c.before t) [] ht (fun _ => hadmits) rfl List.not_mem_nil
  | before t sent unsent locks ht hadmits hbefore hlocks =>
    cases unsent with
    | nil =>
      rw [List.append_nil] at hbefore
      subst hbefore
      cases hs : find s with
      | none =>
        obtain ⟨hphase, rfl⟩ := next_insert_after hc hs (ht.2 hs) (hadmits hs) hnext
        exact ⟨hphase, .inl rfl⟩
      | some row =>
        exact absurd ⟨congrArg some hc.entry_eq, Option.isSome_of_eq_some hs⟩ hcollides
    | cons change unsent =>
      rw [sendAll, Connection.next_update] at hnext
      split_ifs at hnext
      cases hnext
      refine ⟨?_, .inl rfl⟩
      rw [← applyAll_concat]
      have hmem : change ∈ c.before t := hbefore ▸ List.mem_append_right sent List.mem_cons_self
      apply Phase.before t (sent ++ [change]) unsent _ ht hadmits
      · rw [hbefore, List.append_assoc]
        rfl
      · rw [List.mem_append]
        exact fun hor => hor.elim (hc.before t change hmem).1 hlocks
  | after t row put sent unsent locks hs ht hadmits hrow hput hafter hlocks =>
    cases unsent with
    | nil =>
      rw [List.append_nil] at hafter
      subst hafter
      rw [sendAll, commit, Connection.next_commit] at hnext
      cases hnext
      have hrow' : find ((applyAll (c.after row) ∘ put ∘ applyAll (c.before t)) s) = some row :=
        (find_applyAll (hc.after row) _).trans hput
      refine ⟨.returned row hrow', .inr ⟨hlocks, hs, row, hrow', ?_⟩⟩
      simp only [run, hc.find_eq, hs, ht, hadmits, hrow, bind, Except.bind, pure, Except.pure,
        Function.comp_apply]
    | cons change unsent =>
      rw [sendAll, Connection.next_update] at hnext
      split_ifs at hnext
      cases hnext
      refine ⟨?_, .inl rfl⟩
      have hwrite : change.apply ∘ applyAll sent ∘ put ∘ applyAll (c.before t) =
          applyAll (sent ++ [change]) ∘ put ∘ applyAll (c.before t) := by
        rw [applyAll_concat]
        rfl
      rw [hwrite]
      apply Phase.after t row put (sent ++ [change]) unsent _ hs ht hadmits hrow hput
      · rw [hafter, List.append_assoc]
        rfl
      · exact List.mem_append_right _ hlocks
  | refuse e he write locks hlocks =>
    rw [KeyedInsert.abort, Connection.next_rollback] at hnext
    cases hnext
    exact ⟨.refused e he, .inl rfl⟩
  | returned row hs => cases hnext
  | refused e he => cases hnext

/-! The results of calls. -/

theorem Phase.result (h : Phase entry find refuses c s connection) {result : Except ε ρ}
    (hresult : connection.script.result? = some result) :
    (∃ row, result = .ok row ∧ find s = some row) ∨ ∃ e, result = .error e ∧ refuses e := by
  cases h with
  | returned row hs =>
    cases hresult
    exact .inl ⟨row, rfl, hs⟩
  | refused e he =>
    cases hresult
    exact .inr ⟨e, rfl, he⟩
  | before t sent unsent => cases unsent <;> cases hresult
  | after t row put sent unsent => cases unsent <;> cases hresult
  | _ => cases hresult

theorem Doomed.result (h : Doomed refuses c connection) {result : Except ε ρ}
    (hresult : connection.script.result? = some result) : ∃ e, result = .error e ∧ ¬refuses e := by
  cases h with
  | failed e he =>
    cases hresult
    exact ⟨e, rfl, he⟩
  | _ => cases hresult

/-! ## Any number of calls -/

section Calls

variable [Fintype ι] [DecidableEq ι] [DecidableEq κ] {calls : ι → KeyedInsert σ κ ε τ ρ} {s₀ : σ}
  {pool : Pool ι σ κ ε ρ} {i : ι}

/-- Every call is in one of its phases or doomed, and what has been committed is nothing or the row
of one call. -/
structure Coordinated (entry : κ) (find : σ → Option ρ) (refuses : ε → Prop)
    (calls : ι → KeyedInsert σ κ ε τ ρ) (s₀ : σ) (pool : Pool ι σ κ ε ρ) : Prop where
  phase : ∀ i, Phase entry find refuses (calls i) pool.committed (pool.connections i) ∨
    (find pool.committed).isSome = true ∧ Doomed refuses (calls i) (pool.connections i)
  exclusive : pool.Exclusive
  committed : pool.committed = s₀ ∨ find s₀ = none ∧
    ∃ i row, find pool.committed = some row ∧ (calls i).run s₀ = .ok (row, pool.committed)

omit [Fintype ι] [DecidableEq ι] [DecidableEq κ] in
theorem init_coordinated (entry : κ) (find : σ → Option ρ) (refuses : ε → Prop) (s₀ : σ) :
    Coordinated entry find refuses calls s₀ (.init s₀ fun i => (calls i).script) where
  phase _ := .inl .replay
  exclusive := Pool.init_exclusive s₀ _
  committed := .inl rfl

/-- What a turn leaves behind. -/
theorem Coordinated.turn (hc : ∀ i, (calls i).Shares engine entry find refuses)
    (h : Coordinated entry find refuses calls s₀ pool)
    (hnext : (pool.connections i).next engine pool.committed (pool.free i) =
      some (connection', s')) :
    (Phase entry find refuses (calls i) s' connection' ∨
        (find s').isSome = true ∧ Doomed refuses (calls i) connection') ∧
      (s' = pool.committed ∨ entry ∈ (pool.connections i).tx.locks ∧ find pool.committed = none ∧
        ∃ row, find s' = some row ∧ (calls i).run pool.committed = .ok (row, s')) := by
  rcases h.phase i with hphase | ⟨hfound, hdoomed⟩
  · by_cases hcollides : Collides entry find pool.committed (pool.connections i)
    · obtain ⟨doomed, hnext', hdoomed⟩ := hphase.next_of_collides (hc i) hcollides
      obtain ⟨rfl, rfl⟩ := Prod.mk.inj (Option.some.inj (hnext'.symm.trans hnext))
      exact ⟨.inr ⟨hcollides.2, hdoomed⟩, .inl rfl⟩
    · obtain ⟨hphase', hcommitted⟩ := hphase.next (hc i) pool.free_nil hcollides hnext
      exact ⟨.inl hphase', hcommitted⟩
  · obtain ⟨hdoomed', rfl⟩ := hdoomed.next (hc i) hnext
    exact ⟨.inr ⟨hfound, hdoomed'⟩, .inl rfl⟩

theorem step_coordinated (hc : ∀ i, (calls i).Shares engine entry find refuses)
    (h : Coordinated entry find refuses calls s₀ pool) (i : ι) :
    Coordinated entry find refuses calls s₀ (pool.step engine i) where
  exclusive := Pool.step_exclusive h.exclusive
  phase := by
    apply Pool.step_forall (P := fun j committed connection =>
      Phase entry find refuses (calls j) committed connection ∨
        (find committed).isSome = true ∧ Doomed refuses (calls j) connection) h.phase
    intro connection committed hnext
    obtain ⟨hturn, hcommitted⟩ := h.turn hc hnext
    refine ⟨hturn, fun j hj => ?_⟩
    rcases hcommitted with rfl | ⟨hlocks, hnone, row, hrow, -⟩
    · exact h.phase j
    · have hfound : (find committed).isSome = true := Option.isSome_of_eq_some hrow
      have hother : entry ∉ (pool.connections j).tx.locks :=
        fun hmem => hj (h.exclusive j i entry hmem hlocks)
      rcases h.phase j with hphase | ⟨-, hdoomed⟩
      · exact .inl (hphase.of_committed hnone hother hfound)
      · exact .inr ⟨hfound, hdoomed⟩
  committed := by
    rcases pool.step_cases engine i with hsame | ⟨connection, committed, hnext, hstep⟩
    · rw [hsame]
      exact h.committed
    · rw [hstep]
      obtain ⟨-, hcommitted⟩ := h.turn hc hnext
      rcases hcommitted with rfl | ⟨-, hnone, row, hrow, hrun⟩
      · exact h.committed
      · rcases h.committed with hstart | ⟨-, j, other, hother, -⟩
        · rw [hstart] at hnone hrun
          exact .inr ⟨hnone, i, row, hrow, hrun⟩
        · rw [hnone] at hother
          cases hother

theorem run_coordinated (hc : ∀ i, (calls i).Shares engine entry find refuses) (s₀ : σ)
    (schedule : List ι) :
    Coordinated entry find refuses calls s₀
      (runFrom (Pool.step engine) (.init s₀ fun i => (calls i).script) schedule) := by
  have hreached : Reachable (Pool.step engine) (.init s₀ fun i => (calls i).script)
      (runFrom (Pool.step engine) (.init s₀ fun i => (calls i).script) schedule) :=
    ⟨schedule, rfl⟩
  exact Reachable.invariant (P := fun pool => Coordinated entry find refuses calls s₀ pool)
    (fun _ i h => step_coordinated hc h i) (init_coordinated entry find refuses s₀) hreached

/-! ### Results -/

omit [Fintype ι] [DecidableEq ι] [DecidableEq κ] in
theorem Coordinated.result_ok (h : Coordinated entry find refuses calls s₀ pool) {row : ρ}
    (hresult : pool.result? i = some (.ok row)) : find pool.committed = some row := by
  rcases h.phase i with hphase | ⟨-, hdoomed⟩
  · rcases hphase.result hresult with ⟨row', hrow, hfound⟩ | ⟨e, he, -⟩
    · cases hrow
      exact hfound
    · cases he
  · obtain ⟨e, he, -⟩ := hdoomed.result hresult
    cases he

theorem run_phase (hc : ∀ i, (calls i).Shares engine entry find refuses) {schedule : List ι}
    (hfree : Along (Pool.step engine)
      (fun pool i => ¬Collides entry find pool.committed (pool.connections i))
      (.init s₀ fun i => (calls i).script) schedule) (i : ι) :
    let pool := runFrom (Pool.step engine) (.init s₀ fun i => (calls i).script) schedule
    Phase entry find refuses (calls i) pool.committed (pool.connections i) := by
  have hrun := hfree.invariant
    (P := fun pool => Coordinated entry find refuses calls s₀ pool ∧
      ∀ i, Phase entry find refuses (calls i) pool.committed (pool.connections i))
    (fun pool i hpool hcollides => ?_) ⟨init_coordinated entry find refuses s₀, fun _ => .replay⟩
  · exact hrun.2 i
  · obtain ⟨hcoordinated, hphase⟩ := hpool
    refine ⟨step_coordinated hc hcoordinated i, ?_⟩
    apply Pool.step_forall (P := fun j committed connection =>
      Phase entry find refuses (calls j) committed connection) hphase
    intro connection committed hnext
    obtain ⟨hturn, hcommitted⟩ := (hphase i).next (hc i) pool.free_nil hcollides hnext
    refine ⟨hturn, fun j hj => ?_⟩
    rcases hcommitted with rfl | ⟨hlocks, hnone, row, hrow, -⟩
    · exact hphase j
    · have hother : entry ∉ (pool.connections j).tx.locks :=
        fun hmem => hj (hcoordinated.exclusive j i entry hmem hlocks)
      exact (hphase j).of_committed hnone hother (Option.isSome_of_eq_some hrow)

theorem step_doomed (hc : ∀ i, (calls i).Shares engine entry find refuses) {j : ι}
    (h : Doomed refuses (calls j) (pool.connections j)) (i : ι) :
    Doomed refuses (calls j) ((pool.step engine i).connections j) := by
  rcases pool.step_cases engine i with hsame | ⟨connection, committed, hnext, hstep⟩
  · rw [hsame]
    exact h
  · rw [hstep]
    dsimp only
    by_cases hj : j = i
    · subst hj
      rw [Function.update_self]
      exact (h.next (hc j) hnext).1
    · rw [Function.update_of_ne hj]
      exact h

theorem run_doomed (hc : ∀ i, (calls i).Shares engine entry find refuses) {j : ι}
    (h : Doomed refuses (calls j) (pool.connections j)) (schedule : List ι) :
    Doomed refuses (calls j) ((runFrom (Pool.step engine) pool schedule).connections j) := by
  induction schedule generalizing pool with
  | nil => exact h
  | cons i schedule ih => exact ih (step_doomed hc h i)

/-- A run in which a call collides leaves it doomed. -/
theorem along_of_no_doom (hc : ∀ i, (calls i).Shares engine entry find refuses)
    (h : Coordinated entry find refuses calls s₀ pool) {schedule : List ι}
    (hnone : ∀ i,
      ¬Doomed refuses (calls i) ((runFrom (Pool.step engine) pool schedule).connections i)) :
    Along (Pool.step engine)
      (fun pool i => ¬Collides entry find pool.committed (pool.connections i)) pool schedule := by
  induction schedule generalizing pool with
  | nil => trivial
  | cons i schedule ih =>
    refine ⟨fun hcollides => ?_, ih (step_coordinated hc h i) hnone⟩
    suffices hdoomed : Doomed refuses (calls i) ((pool.step engine i).connections i) from
      hnone i (run_doomed hc hdoomed schedule)
    rcases h.phase i with hphase | ⟨-, hdoomed⟩
    · obtain ⟨connection, hnext, hdoomed⟩ : ∃ connection,
          (pool.connections i).next engine pool.committed (pool.free i) =
            some (connection, pool.committed) ∧ Doomed refuses (calls i) connection :=
        hphase.next_of_collides (hc i) hcollides
      have hstep : (pool.step engine i).connections i = connection := by
        rw [Pool.step, hnext]
        exact Function.update_self i connection pool.connections
      rw [hstep]
      exact hdoomed
    · exact step_doomed hc hdoomed i

/-- Without a collision a call returns the row under the key or refuses. -/
theorem run_result (hc : ∀ i, (calls i).Shares engine entry find refuses) {schedule : List ι}
    (hfree : Along (Pool.step engine)
      (fun pool i => ¬Collides entry find pool.committed (pool.connections i))
      (.init s₀ fun i => (calls i).script) schedule) {i : ι} {result : Except ε ρ}
    (hresult : (runFrom (Pool.step engine) (.init s₀ fun i => (calls i).script)
      schedule).result? i = some result) :
    (∃ row, result = .ok row) ∨ ∃ e, result = .error e ∧ refuses e := by
  rcases (run_phase hc hfree i).result hresult with ⟨row, hrow, -⟩ | hrefused
  · exact .inl ⟨row, hrow⟩
  · exact .inr hrefused

/-- When all calls have ended and none has failed, none has collided. -/
theorem along_of_results (hc : ∀ i, (calls i).Shares engine entry find refuses)
    {schedule : List ι}
    (hended : ∀ i, ((runFrom (Pool.step engine) (.init s₀ fun i => (calls i).script)
      schedule).result? i).isSome = true)
    (hresults : ∀ i e, (runFrom (Pool.step engine) (.init s₀ fun i => (calls i).script)
      schedule).result? i = some (.error e) → refuses e) :
    Along (Pool.step engine)
      (fun pool i => ¬Collides entry find pool.committed (pool.connections i))
      (.init s₀ fun i => (calls i).script) schedule := by
  apply along_of_no_doom hc (init_coordinated entry find refuses s₀)
  intro i hdoomed
  obtain ⟨result, hresult⟩ := Option.isSome_iff_exists.mp (hended i)
  obtain ⟨e, rfl, he⟩ := hdoomed.result hresult
  exact he (hresults i e hresult)

end Calls

end KeyedInsert
end Sahay
