import Sahay.Server.Shared

/-!
# Reliability counters

`modules/matches/reliability.ts`: each lifecycle event bumps its counters of the
helper and recomputes the displayed label, in the caller's transaction.
-/

namespace Sahay

namespace ReliabilityCounters

instance : Add ReliabilityCounters where
  add c d :=
    { accepted := c.accepted + d.accepted
      completed := c.completed + d.completed
      requesterConfirmed := c.requesterConfirmed + d.requesterConfirmed
      cancelledPreMeeting := c.cancelledPreMeeting + d.cancelledPreMeeting
      cancelledPostMeeting := c.cancelledPostMeeting + d.cancelledPostMeeting
      timeouts := c.timeouts + d.timeouts
      noShows := c.noShows + d.noShows
      disputes := c.disputes + d.disputes
      offersReceived30d := c.offersReceived30d + d.offersReceived30d
      offersResponded30d := c.offersResponded30d + d.offersResponded30d }

end ReliabilityCounters

def rowToCounters (row : Option ReliabilityStats) : ReliabilityCounters :=
  row.elim {} ReliabilityStats.toReliabilityCounters

namespace Db

/-- Insert the user's row if it is missing, add the increments, and store the
label of the new counters where it differs from the old one. -/
def bump (db : Db) (userId : UserId) (increments : ReliabilityCounters) (now : Time) : Db :=
  let stats :=
    if userId ∈ db.reliabilityStats then db.reliabilityStats
    else db.reliabilityStats.put userId { updatedAt := now }
  let stats := stats.modify userId fun row =>
    { row with
      toReliabilityCounters := row.toReliabilityCounters + increments
      updatedAt := now }
  let stats := stats.modify userId fun row =>
    let label := row.toReliabilityCounters.reliabilityLabel
    if label = row.label then row else { row with label := label }
  { db with reliabilityStats := stats }

variable (db : Db)

def applyOfferReceived (helperId : UserId) (now : Time) : Db :=
  db.bump helperId { offersReceived30d := 1 } now

def applyOfferResponded (helperId : UserId) (now : Time) : Db :=
  db.bump helperId { offersResponded30d := 1 } now

def applyAccepted (helperId : UserId) (now : Time) : Db :=
  db.bump helperId { accepted := 1, offersResponded30d := 1 } now

def applyCompleted (helperId : UserId) (finalQty : Qty) (requesterConfirmedPositive : Bool)
    (now : Time) : Db :=
  db.bump helperId
    { completed := if 0 < finalQty then 1 else 0
      requesterConfirmed := if requesterConfirmedPositive then 1 else 0 } now

def applyHelperCancel (helperId : UserId) (postMeeting : Bool) (now : Time) : Db :=
  db.bump helperId
    (if postMeeting then { cancelledPostMeeting := 1 } else { cancelledPreMeeting := 1 }) now

def applyDispute (userId : UserId) (now : Time) : Db :=
  db.bump userId { disputes := 1 } now

/-! ## What a bump writes -/

/-- What a bump makes of the row it may have to insert. -/
theorem lookup_bump (userId : UserId) (increments : ReliabilityCounters) (now : Time)
    (id : UserId) :
    (db.bump userId increments now).reliabilityStats.lookup id =
      if id = userId then
        some
          { toReliabilityCounters := rowToCounters (db.reliabilityStats.lookup id) + increments
            label := (rowToCounters (db.reliabilityStats.lookup id) + increments).reliabilityLabel
            updatedAt := now }
      else db.reliabilityStats.lookup id := by
  simp only [bump]
  by_cases hid : id = userId
  · subst hid
    rw [if_pos rfl, Table.lookup_modify_self, Table.lookup_modify_self]
    split_ifs with hmem
    · obtain ⟨row, hrow⟩ := Table.mem_iff_exists.mp hmem
      simp only [hrow, Option.map_some, rowToCounters, Option.elim_some]
      split_ifs with hlabel
      · simp only [hlabel]
      · rfl
    · have hnone : db.reliabilityStats.lookup id = none := by
        cases hrow : db.reliabilityStats.lookup id with
        | none => rfl
        | some row => exact absurd (Table.mem_iff_exists.mpr ⟨row, hrow⟩) hmem
      simp only [hnone, Table.lookup_put, if_true, Option.map_some, rowToCounters,
        Option.elim_none]
      split_ifs with hlabel
      · simp only [hlabel]
      · rfl
  · rw [if_neg hid, Table.lookup_modify_ne hid, Table.lookup_modify_ne hid]
    split_ifs with hmem
    · rfl
    · rw [Table.lookup_put, if_neg hid]

/-! Bumping a counter writes nothing else. -/

@[simp] theorem bump_toExchange (userId : UserId) (increments : ReliabilityCounters)
    (now : Time) : (db.bump userId increments now).toExchange = db.toExchange := rfl

@[simp] theorem bump_toDirectory (userId : UserId) (increments : ReliabilityCounters)
    (now : Time) : (db.bump userId increments now).toDirectory = db.toDirectory := rfl

end Db
end Sahay
