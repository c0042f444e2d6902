import Sahay.Server.System

/-!
# Creating requests concurrently

`createRequest` statement by statement: the replay lookup, the checks, the count
in the transaction, and the insert with which it commits.  Calls that are under
way are program counters beside the database, and the statements of different
calls interleave freely with each other and with whole operations.
-/

namespace Sahay

/-- The statement that a call of `createRequest` issues next. -/
inductive CreateStage
  | replay (auth : AuthContext) (input : CreateRequestInput)
  | prepare (auth : AuthContext) (input : CreateRequestInput)
  | count (input : CreateRequestInput) (ticket : RequestTicket)
  | insert (input : CreateRequestInput) (ticket : RequestTicket)

namespace CreateStage

/-- Issue the statement.  The call goes on in the stage returned, or has ended. -/
def issue (env : Env) (db : Db) : CreateStage → Option CreateStage × Db
  | .replay auth input =>
      if (db.findByIdempotencyKey auth.userId input.idempotencyKey).isSome then (none, db)
      else (some (.prepare auth input), db)
  | .prepare auth input =>
      match db.prepareRequest env auth input with
      | .ok ticket => (some (.count input ticket), db)
      | .error _ => (none, db)
  | .count input ticket =>
      if db.countActiveRequests ticket.row.requesterId < Limits.maxActiveRequestsPerUser then
        (some (.insert input ticket), db)
      else (none, db)
  | .insert _ ticket =>
      match db.insertRequest env ticket with
      | .ok (_, db') => (none, db')
      | .error _ => (none, db)

/-- Issue up to `n` statements of one call in a row. -/
def issueAll (env : Env) : ℕ → Option CreateStage × Db → Option CreateStage × Db
  | n + 1, (some stage, db) => issueAll env n (stage.issue env db)
  | _, r => r

end CreateStage

/-- The database and the calls of `createRequest` that are under way. -/
structure Concurrent where
  db : Db := Db.empty
  creations : Table ℕ CreateStage := ∅

inductive Act
  /-- A whole operation. -/
  | op (op : Op)
  /-- An authenticated call of `createRequest` begins. -/
  | call (token : String) (input : CreateRequestInput)
  /-- The call `id` issues its next statement. -/
  | statement (id : ℕ)

namespace Concurrent

def step (s : Concurrent) (i : Env × Act) : Concurrent :=
  match i.2 with
  | .op op => { s with db := s.db.step (i.1, op) }
  | .call token input =>
      match s.db.authenticate i.1.now token with
      | .ok auth =>
          let id := s.creations.freshKey i.1.uuid.request
          { s with creations := s.creations.put id (.replay auth input) }
      | .error _ => s
  | .statement id =>
      match s.creations.lookup id with
      | none => s
      | some stage =>
          let issued := stage.issue i.1 s.db
          { db := issued.2
            creations := match issued.1 with
              | some next => s.creations.replace id next
              | none => s.creations.drop id }

end Concurrent
end Sahay
