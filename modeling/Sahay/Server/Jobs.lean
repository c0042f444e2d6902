import Sahay.Server.System

/-!
# Jobs

The queues of `queues.ts` as a set of pending messages beside the database.  What an
operation enqueues after its commit is added with the commit; a message is delivered
once, in any order, at any time from its delay on, and the processor of
`workers/matching.ts` runs the operation it names.
-/

namespace Sahay

/-- The messages of the queues `match` and `offer-timeout`. -/
inductive Job
  | matching (requestId : RequestId)
  | offerTimeout (offerId : OfferId)
  | finalize (matchId : MatchId)
  deriving DecidableEq

/-- A message that waits for its delivery, and the instant up to which it waits. -/
structure Pending where
  job : Job
  notBefore : Time
  deriving DecidableEq

/-- What an effect puts on a queue at the instant `now`. -/
def Effect.pending? (now : Time) : Effect → Option Pending
  | .matchJob requestId delay => some ⟨.matching requestId, now + delay⟩
  | .offerTimeoutJob offerId delay => some ⟨.offerTimeout offerId, now + delay⟩
  | .finalizeJob matchId delay => some ⟨.finalize matchId, now + delay⟩
  | _ => none

def enqueued (now : Time) (effects : List Effect) : List Pending :=
  effects.filterMap (Effect.pending? now)

def Job.op (choices : PassChoices) : Job → Op
  | .matching requestId => .runMatchPass requestId choices
  | .offerTimeout offerId => .expireOffer offerId
  | .finalize matchId => .autoFinalizeMatch matchId

/-- The operations that only a processor runs. -/
def Op.isJob : Op → Bool
  | .runMatchPass .. | .expireOffer .. | .autoFinalizeMatch .. => true
  | _ => false

/-- The database and the messages that wait. -/
structure Queued where
  db : Db := Db.empty
  pending : List Pending := []

inductive QueueAct
  /-- A call, or anything else that is not the processing of a message. -/
  | call (op : Op)
  /-- The message in place `i` is delivered. -/
  | deliver (i : ℕ) (choices : PassChoices)

namespace Queued

def run (s : Queued) (env : Env) (op : Op) : Queued :=
  match s.db.exec env op with
  | .ok (effects, db) => ⟨db, s.pending ++ enqueued env.now effects⟩
  | .error _ => s

def step (s : Queued) (i : Env × QueueAct) : Queued :=
  match i.2 with
  | .call op => if op.isJob then s else s.run i.1 op
  | .deliver n choices =>
      match s.pending[n]? with
      | none => s
      | some p =>
          if p.notBefore ≤ i.1.now then
            { s with pending := s.pending.eraseIdx n }.run i.1 (p.job.op choices)
          else s

end Queued

/-! ## What waits for a message -/

def Match.AwaitsPeer (m : Match) : Prop :=
  m.status = .active ∧ ∃ side, (m.confirmedQty side).isSome = true ∧
    m.confirmedQty side.other = none

namespace Db

/-- The row that the message is about is in a state that only this message, or
somebody's call, ends. -/
def Waits (db : Db) : Job → Prop
  | .matching requestId => ∃ r, db.requests.lookup requestId = some r ∧ r.status = .searching
  | .offerTimeout offerId => ∃ o, db.matchOffers.lookup offerId = some o ∧ o.status = .offered
  | .finalize matchId => ∃ m, db.matchRows.lookup matchId = some m ∧ m.AwaitsPeer

end Db
end Sahay
