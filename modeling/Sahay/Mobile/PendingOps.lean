import Sahay.Server.System

/-!
# The offline queue of the mobile app

`pendingOps.ts`: adds that could not reach the server wait in one stored list, which
`enqueueInventoryOp` and `flush` read and write back.  Nothing else runs between two awaits,
so a step is what lies between two of them: a read or a write of the stored list, or an
answer of the server.  `created` and `rejected` record what the server has done.
-/

namespace Sahay

def TxError.status : TxError → ℕ
  | .app e => e.status
  | _ => 500

structure PendingInventoryOp where
  id : String
  eventId : EventId
  body : AddInventoryInput
  createdAt : Time
  attempts : ℕ
  lastError : Option String := none
  /-- The id doubles as the idempotency key. -/
  keyed : body.idempotencyKey = some id

namespace PendingInventoryOp

/-- The operation that `submit` enqueues. -/
def saved (now : Time) (eventId : EventId) (body : AddInventoryInput) (key : String) :
    PendingInventoryOp :=
  { id := key
    eventId := eventId
    body := { body with idempotencyKey := some key }
    createdAt := now
    attempts := 0
    keyed := rfl }

def retried (id message : String) (o : PendingInventoryOp) : PendingInventoryOp :=
  if o.id = id then { o with attempts := o.attempts + 1, lastError := some message } else o

end PendingInventoryOp

/-! ## Calls of the API -/

/-- What the server answers: a 2xx, or an error with its status. -/
inductive Answer
  | created
  | refused (status : ℕ)

/-- What becomes of an answer; `message` is the text of the error that `api` throws. -/
inductive Delivery
  | arrives (message : String)
  /-- Its body is lost on the way. -/
  | cut (message : String)
  /-- `fetch` fails or is aborted. -/
  | lost

/-- How `api` ends. -/
inductive ApiResult
  | ok
  | failed (status : Option ℕ) (message : String)
  /-- `isOfflineError`. -/
  | offline

def Answer.deliver : Answer → Delivery → ApiResult
  | _, .lost => .offline
  | .created, .arrives _ => .ok
  | .created, .cut message => .failed none message
  | .refused status, .arrives message | .refused status, .cut message =>
      .failed (some status) message

/-! ## Calls under way -/

/-- Where a call of `enqueueInventoryOp` stands. -/
inductive EnqueueStage
  | read (op : PendingInventoryOp)
  /-- It has read `q`. -/
  | write (op : PendingInventoryOp) (q : List PendingInventoryOp)

/-- Where `flush` stands: `rest` is what it has still to send of the list that it read first,
`q` the list that it has last read or written. -/
inductive FlushStage
  | idle
  | read (token : String)
  | send (token : String) (op : PendingInventoryOp) (rest q : List PendingInventoryOp)
  /-- The server has handled the call. -/
  | reply (token : String) (op : PendingInventoryOp) (rest q : List PendingInventoryOp)
      (answer : Answer)
  /-- `removeInventoryOp`. -/
  | removeRead (token : String) (id : String) (rest : List PendingInventoryOp)
  | removeWrite (token : String) (id : String) (rest q : List PendingInventoryOp)
  | retryWrite (token : String) (id : String) (rest q : List PendingInventoryOp)
      (message : String)

namespace FlushStage

def next (token : String) (rest q : List PendingInventoryOp) : FlushStage :=
  match rest with
  | [] => .idle
  | op :: rest => .send token op rest q

/-- The `try` and its `catch` after the call for `op`. -/
def afterCall (token : String) (op : PendingInventoryOp) (rest q : List PendingInventoryOp) :
    ApiResult → FlushStage
  | .ok => .removeRead token op.id rest
  | .offline => .idle
  | .failed status message =>
      if status = some 409 ∨ 4 ≤ op.attempts then .removeRead token op.id rest
      else .retryWrite token op.id rest q message

end FlushStage

/-- The server and the device, with the ids of the operations that have been enqueued, for
which the server has created an item, and, once for each time, that it has rejected. -/
structure Phone where
  db : Db
  stored : List PendingInventoryOp := []
  enqueues : Table ℕ EnqueueStage := ∅
  flush : FlushStage := .idle
  enqueued : List String := []
  created : List String := []
  rejected : List String := []

inductive PhoneAct
  /-- The call `call` of `enqueueInventoryOp` begins. -/
  | enqueue (call : ℕ) (now : Time) (eventId : EventId) (body : AddInventoryInput) (key : String)
  /-- It reads or writes the queue. -/
  | enqueueStep (call : ℕ)
  | flush (token : String)
  /-- `flush` reads or writes the queue. -/
  | flushStep
  /-- The server runs `addInventory` for the call of the flush. -/
  | serve (env : Env)
  /-- It refuses the call before that. -/
  | refuse (status : ℕ)
  | receive (delivery : Delivery)
  /-- Anything else that the server does. -/
  | server (i : Env × Op)

namespace Phone

/-- The request of the flush for `op`. -/
def posts (token : String) (op : PendingInventoryOp) : Op :=
  .addInventory token op.eventId op.body

/-- After the request the caller has an item under the key of `op`. -/
def holds (db : Db) (env : Env) (token : String) (op : PendingInventoryOp) : Bool :=
  (db.authenticate env.now token).toOption.any fun auth =>
    ((db.step (env, posts token op)).itemByIdempotencyKey auth.userId (some op.id)).isSome

/-- The server handles the call for `op`. -/
def handle (s : Phone) (env : Env) (token : String) (op : PendingInventoryOp)
    (rest q : List PendingInventoryOp) : Phone :=
  let made := if holds s.db env token op then op.id :: s.created else s.created
  match s.db.exec env (posts token op) with
  | .ok (_, db) =>
      { s with db := db, created := made, flush := .reply token op rest q .created }
  | .error e =>
      { s with
        created := made
        rejected := op.id :: s.rejected
        flush := .reply token op rest q (.refused e.status) }

def stepEnqueue (s : Phone) (call : ℕ) : Phone :=
  match s.enqueues.lookup call with
  | none => s
  | some (.read op) => { s with enqueues := s.enqueues.replace call (.write op s.stored) }
  | some (.write op q) =>
      { s with
        stored := q ++ [op]
        enqueues := s.enqueues.drop call
        enqueued := op.id :: s.enqueued }

def stepFlush (s : Phone) : Phone :=
  match s.flush with
  | .read token => { s with flush := .next token s.stored s.stored }
  | .removeRead token id rest => { s with flush := .removeWrite token id rest s.stored }
  | .removeWrite token id rest q =>
      let kept := q.filter fun o => o.id ≠ id
      { s with stored := kept, flush := .next token rest kept }
  | .retryWrite token id rest q message =>
      let updated := q.map (PendingInventoryOp.retried id message)
      { s with stored := updated, flush := .next token rest updated }
  | _ => s

def step (s : Phone) : PhoneAct → Phone
  | .enqueue call now eventId body key =>
      if call ∈ s.enqueues then s
      else { s with enqueues := s.enqueues.put call (.read (.saved now eventId body key)) }
  | .enqueueStep call => s.stepEnqueue call
  | .flush token =>
      match s.flush with
      | .idle => if token = "" then s else { s with flush := .read token }
      | _ => s
  | .flushStep => s.stepFlush
  | .serve env =>
      match s.flush with
      | .send token op rest q => s.handle env token op rest q
      | _ => s
  | .refuse status =>
      match s.flush with
      | .send token op rest q =>
          { s with
            rejected := op.id :: s.rejected
            flush := .reply token op rest q (.refused status) }
      | _ => s
  | .receive delivery =>
      match s.flush, delivery with
      | .send .., .lost => { s with flush := .idle }
      | .reply token op rest q answer, delivery =>
          { s with flush := .afterCall token op rest q (answer.deliver delivery) }
      | _, _ => s
  | .server i => { s with db := s.db.step i }

end Phone
end Sahay
