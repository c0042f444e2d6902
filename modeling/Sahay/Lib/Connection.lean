import Mathlib.Data.Fintype.Basic
import Sahay.Lib.Run

/-!
# Connections on a database

Any number of connections work on one database, which isolates them as `READ COMMITTED` does.  A
statement sees the committed rows and what its own transaction has written; it waits while
another transaction holds a lock that it needs; once a statement of a transaction has failed
the transaction refuses all others until it is rolled back.  A unique index refuses a row whose
entry is there, and an entry that is not committed yet is locked by the transaction that has
inserted it.

A connection is a script of statements, each chosen by what the ones before it have answered.  A
schedule lists the connections in the order in which they execute statements; one that has to
wait, or has ended, does nothing in its turn.
-/

namespace Sahay

/-! ## Statements and scripts -/

/-- What an `UPDATE` does: the locks that it takes, and the rows after it. -/
structure Change (σ κ : Type) where
  locks : List κ := []
  apply : σ → σ

/-- A statement.  What it writes is settled on the snapshot that it sees. -/
inductive Statement (σ κ ε : Type)
  | start
  | select
  | update (change : σ → Except ε (Change σ κ))
  /-- Insert a row under an entry of a unique index. -/
  | insert (entry : κ) (row : σ → Except ε (σ → σ))
  | commit
  | rollback

/-- What a connection has yet to do.  A statement answers with the snapshot that it has seen, or
throws. -/
inductive Script (σ κ ε α : Type)
  | done (result : Except ε α)
  | send (statement : Statement σ κ ε) (next : Except ε σ → Script σ κ ε α)

def Script.result? {σ κ ε α : Type} : Script σ κ ε α → Option (Except ε α)
  | .done result => some result
  | .send _ _ => none

def Script.entry? {σ κ ε α : Type} : Script σ κ ε α → Option κ
  | .send (.insert entry _) _ => some entry
  | _ => none

/-- The transaction of a connection: what it has written, and the locks that it holds. -/
inductive Transaction (σ κ : Type)
  | idle
  | active (write : σ → σ) (locks : List κ)
  | failed

namespace Transaction

variable {σ κ : Type}

def locks : Transaction σ κ → List κ
  | active _ locks => locks
  | _ => []

end Transaction

structure Connection (σ κ ε α : Type) where
  script : Script σ κ ε α
  tx : Transaction σ κ := .idle

/-- What the database refuses: the entries of its unique indexes, and the two errors. -/
structure Engine (σ κ ε : Type) where
  contains : σ → κ → Bool
  uniqueViolation : ε
  transactionAborted : ε

/-! ## One statement -/

/-- What the statement does on a snapshot.  Only `update` and `insert` write. -/
def Statement.change {σ κ ε : Type} (engine : Engine σ κ ε) :
    Statement σ κ ε → σ → Except ε (Change σ κ)
  | .update change, s => change s
  | .insert entry row, s =>
      if engine.contains s entry then .error engine.uniqueViolation
      else (row s).map fun put => { locks := [entry], apply := put }
  | _, _ => .ok { apply := id }

namespace Connection

variable {σ κ ε α : Type} (engine : Engine σ κ ε) (committed : σ) (free : List κ → Bool)

/-- The connection after its next statement, and the committed rows.  Nothing happens in one that
has ended or has to wait for a lock. -/
def next : Connection σ κ ε α → Option (Connection σ κ ε α × σ)
  | ⟨.done _, _⟩ => none
  | ⟨.send .start next, .idle⟩ => some (⟨next (.ok committed), .active id []⟩, committed)
  | ⟨.send .commit next, .active write _⟩ =>
      some (⟨next (.ok committed), .idle⟩, write committed)
  -- The end of a failed transaction is a rollback, whatever it is called.
  | ⟨.send .commit next, _⟩ | ⟨.send .rollback next, _⟩ =>
      some (⟨next (.ok committed), .idle⟩, committed)
  | ⟨.send _ next, .failed⟩ =>
      some (⟨next (.error engine.transactionAborted), .failed⟩, committed)
  | ⟨.send statement next, .active write locks⟩ =>
      match statement.change engine (write committed) with
      | .error e => some (⟨next (.error e), .failed⟩, committed)
      | .ok c =>
          if free c.locks then
            some (⟨next (.ok (write committed)), .active (c.apply ∘ write) (c.locks ++ locks)⟩,
              committed)
          else none
  | ⟨.send statement next, .idle⟩ =>
      match statement.change engine committed with
      | .error e => some (⟨next (.error e), .idle⟩, committed)
      | .ok c =>
          if free c.locks then some (⟨next (.ok committed), .idle⟩, c.apply committed) else none

variable {engine committed free} {connection connection' : Connection σ κ ε α} {committed' : σ}

/-! What the statements do, one by one. -/

section Turns

variable {answer : Except ε σ → Script σ κ ε α} {write : σ → σ} {locks : List κ}

@[simp] theorem next_done (result : Except ε α) (tx : Transaction σ κ) :
    next engine committed free (⟨.done result, tx⟩ : Connection σ κ ε α) = none := rfl

@[simp] theorem next_start :
    next engine committed free ⟨.send .start answer, .idle⟩ =
      some (⟨answer (.ok committed), .active id []⟩, committed) := rfl

@[simp] theorem next_commit :
    next engine committed free ⟨.send .commit answer, .active write locks⟩ =
      some (⟨answer (.ok committed), .idle⟩, write committed) := rfl

@[simp] theorem next_rollback (tx : Transaction σ κ) :
    next engine committed free ⟨.send .rollback answer, tx⟩ =
      some (⟨answer (.ok committed), .idle⟩, committed) := by
  cases tx <;> rfl

theorem next_select_idle (hfree : free [] = true) :
    next engine committed free ⟨.send .select answer, .idle⟩ =
      some (⟨answer (.ok committed), .idle⟩, committed) := by
  simp [next, Statement.change, hfree]

theorem next_select_active (hfree : free [] = true) :
    next engine committed free ⟨.send .select answer, .active write locks⟩ =
      some (⟨answer (.ok (write committed)), .active write locks⟩, committed) := by
  simp [next, Statement.change, hfree]

@[simp] theorem next_select_failed :
    next engine committed free ⟨.send .select answer, .failed⟩ =
      some (⟨answer (.error engine.transactionAborted), .failed⟩, committed) := rfl

theorem next_update (change : Change σ κ) :
    next engine committed free ⟨.send (.update fun _ => .ok change) answer, .active write locks⟩ =
      if free change.locks then
        some (⟨answer (.ok (write committed)),
          .active (change.apply ∘ write) (change.locks ++ locks)⟩, committed)
      else none := rfl

theorem next_insert_taken {entry : κ} {row : σ → Except ε (σ → σ)}
    (h : engine.contains (write committed) entry = true) :
    next engine committed free ⟨.send (.insert entry row) answer, .active write locks⟩ =
      some (⟨answer (.error engine.uniqueViolation), .failed⟩, committed) := by
  simp [next, Statement.change, h]

theorem next_insert_free {entry : κ} {row : σ → Except ε (σ → σ)} {put : σ → σ}
    (h : engine.contains (write committed) entry = false)
    (hrow : row (write committed) = .ok put) :
    next engine committed free ⟨.send (.insert entry row) answer, .active write locks⟩ =
      if free [entry] then
        some (⟨answer (.ok (write committed)), .active (put ∘ write) (entry :: locks)⟩, committed)
      else none := by
  simp [next, Statement.change, h, hrow, Except.map]

end Turns

theorem next_locks (h : connection.next engine committed free = some (connection', committed'))
    {k : κ} (hk : k ∈ connection'.tx.locks) :
    k ∈ connection.tx.locks ∨ ∃ locks, free locks = true ∧ k ∈ locks := by
  unfold next at h
  split at h
  case h_7 =>
    split at h
    · cases h
      cases hk
    next c hc =>
      split_ifs at h with hfree
      cases h
      rcases List.mem_append.mp hk with hnew | hold
      · exact .inr ⟨c.locks, hfree, hnew⟩
      · exact .inl hold
  case h_8 =>
    split at h
    · cases h
      cases hk
    · split_ifs at h
      cases h
      cases hk
  all_goals
    cases h
    try cases hk

end Connection

/-! ## Any number of connections -/

/-- The committed rows, and the connections. -/
structure Pool (ι σ κ ε α : Type) where
  committed : σ
  connections : ι → Connection σ κ ε α

namespace Pool

variable {ι σ κ ε α : Type} [Fintype ι] [DecidableEq ι] [DecidableEq κ]

def init (committed : σ) (scripts : ι → Script σ κ ε α) : Pool ι σ κ ε α :=
  ⟨committed, fun i => ⟨scripts i, .idle⟩⟩

variable (engine : Engine σ κ ε) (pool : Pool ι σ κ ε α) (i : ι)

def free (locks : List κ) : Bool :=
  decide (∀ j, j ≠ i → ∀ k ∈ locks, k ∉ (pool.connections j).tx.locks)

/-- The turn of the connection `i`. -/
def step : Pool ι σ κ ε α :=
  match (pool.connections i).next engine pool.committed (pool.free i) with
  | none => pool
  | some (connection, committed) => ⟨committed, Function.update pool.connections i connection⟩

def result? : Option (Except ε α) := (pool.connections i).script.result?

/-! ## Locks -/

def Exclusive : Prop :=
  ∀ i j k, k ∈ (pool.connections i).tx.locks → k ∈ (pool.connections j).tx.locks → i = j

variable {engine pool i}

theorem free_iff {locks : List κ} :
    pool.free i locks = true ↔ ∀ j, j ≠ i → ∀ k ∈ locks, k ∉ (pool.connections j).tx.locks :=
  decide_eq_true_iff

omit [Fintype ι] [DecidableEq ι] [DecidableEq κ] in
theorem init_exclusive (committed : σ) (scripts : ι → Script σ κ ε α) :
    (init committed scripts).Exclusive := by
  intro i j k hi
  cases hi

@[simp] theorem free_nil : pool.free i [] = true :=
  free_iff.mpr fun _ _ _ hk => absurd hk List.not_mem_nil

theorem step_cases (engine : Engine σ κ ε) (pool : Pool ι σ κ ε α) (i : ι) :
    pool.step engine i = pool ∨ ∃ connection committed,
      (pool.connections i).next engine pool.committed (pool.free i) = some (connection, committed) ∧
        pool.step engine i = ⟨committed, Function.update pool.connections i connection⟩ := by
  unfold step
  cases hnext : (pool.connections i).next engine pool.committed (pool.free i) with
  | none => exact .inl rfl
  | some moved => exact .inr ⟨moved.1, moved.2, rfl, rfl⟩

/-- The rule for what holds of every connection beside the committed rows: the one whose turn it is
keeps it, and so do the others under what that one commits. -/
theorem step_forall {P : ι → σ → Connection σ κ ε α → Prop}
    (h : ∀ j, P j pool.committed (pool.connections j))
    (hturn : ∀ connection committed,
      (pool.connections i).next engine pool.committed (pool.free i) = some (connection, committed) →
      P i committed connection ∧ ∀ j, j ≠ i → P j committed (pool.connections j)) :
    ∀ j, P j (pool.step engine i).committed ((pool.step engine i).connections j) := by
  rcases pool.step_cases engine i with hsame | ⟨connection, committed, hnext, hstep⟩
  · rw [hsame]
    exact h
  · rw [hstep]
    exact (Function.forall_update_iff pool.connections fun j => P j committed).2
      (hturn connection committed hnext)

theorem step_exclusive (h : pool.Exclusive) : (pool.step engine i).Exclusive := by
  rcases pool.step_cases engine i with hsame | ⟨connection, committed, hnext, hstep⟩
  · rw [hsame]
    exact h
  · -- What `i` holds now, nobody else does.
    have hown (j : ι) (hj : j ≠ i) (k : κ) (hk : k ∈ connection.tx.locks) :
        k ∉ (pool.connections j).tx.locks := by
      rcases Connection.next_locks hnext hk with hold | ⟨locks, hfree, hmem⟩
      · exact fun hother => hj (h j i k hother hold)
      · exact free_iff.mp hfree j hj k hmem
    rw [hstep]
    let owns (connection : Connection σ κ ε α) (k : κ) : Prop := k ∈ connection.tx.locks
    exact exclusive_update owns h fun k hk j hj => hown j hj k hk

end Pool
end Sahay
