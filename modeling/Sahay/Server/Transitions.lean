import Sahay.Server.Shared

/-!
# Request state machine

`modules/requests/transitions.ts`: the table of permitted transitions, and
`transitionRequest`, the only writer of `request.status`.
-/

namespace Sahay

/-- `REQUEST_TRANSITIONS`; `none` is the state before creation. -/
def requestTransitions : Option RequestStatus → List RequestStatus
  | none => [.searching]
  | some .searching => [.offering, .cancelled, .expired, .noMatch, .moderated]
  | some .offering => [.searching, .matched, .cancelled, .expired, .moderated]
  | some .matched => [.fulfilled, .partiallyFulfilled, .searching, .cancelled, .moderated]
  | some .fulfilled => []
  | some .partiallyFulfilled => [.searching, .fulfilled, .cancelled, .moderated]
  | some .cancelled => [.searching]
  | some .expired => [.searching]
  | some .noMatch => [.searching]
  | some .disputed => []
  | some .moderated => []

def canTransition (source : Option RequestStatus) (target : RequestStatus) : Bool :=
  (requestTransitions source).contains target

namespace Db

def recordCreationTransition (db : Db) (requestId : RequestId) (actor : TransitionActor)
    (reason : Option String) (now : Time) : Db :=
  { db with requestTransitions := db.requestTransitions ++
      [⟨requestId, none, .searching, actor, reason, now⟩] }

/-- Check and apply a status change and append its audit row.  `source` is the
status in the row that the caller locked; `set` writes the further columns. -/
def transitionRequest (db : Db) (requestId : RequestId) (source target : RequestStatus)
    (actor : TransitionActor) (reason : Option String) (now : Time)
    (set : Request → Request := id) : Outcome Db := do
  ensure (canTransition (some source) target) errors.conflict
  let db ← db.updateRequest requestId fun request => set { request with status := target }
  return { db with requestTransitions := db.requestTransitions ++
      [⟨requestId, some source, target, actor, reason, now⟩] }

end Db
end Sahay
