import Sahay.Lib.Cadence
import Sahay.Server.Access

/-!
# Attendance

`workers/attendance.ts`: an event of several days recurs at the time of day of its start,
and a day before each occurrence its members are asked whether they come.  The answer is
`answerAttendance` of `modules/events/service.ts`.  The server's time zone is UTC, so a day
is 24 hours.
-/

namespace Sahay

def dayMs : ℤ := 24 * 60 * 60 * 1000

/-- `RETENTION_EVERY_MS`, the distance of the scheduler's ticks. -/
def retentionEveryMs : ℤ := 5 * 60000

/-- The loop of `nextDailyStart`, with its `occ` as the first argument.  A date past the last
representable one is past `endsAt` as well. -/
def nextDailyStart (startsAt endsAt «from» : Time) : Option Time :=
  if startsAt < «from» then
    if endsAt < startsAt + dayMs then none
    else nextDailyStart (startsAt + dayMs) endsAt «from»
  else if startsAt ≤ endsAt then some startsAt
  else none
termination_by («from» - startsAt).toNat
decreasing_by
  unfold Time dayMs at *
  omega

/-- `now` falls in the tick that begins a day before the occurrence. -/
def isReminderDue (occurrence now : Time) : Bool :=
  let due := occurrence - dayMs
  due ≤ now && now < due + retentionEveryMs

theorem isReminderDue_iff {occurrence now : ℤ} :
    isReminderDue occurrence now = true ↔
      occurrence - dayMs ≤ now ∧ now < occurrence - dayMs + retentionEveryMs := by
  simp [isReminderDue]

/-- The days of an event: a day apart from its start on, up to its end. -/
def Event.dailyStarts (event : Event) : Set Time :=
  {x ∈ cadence event.startsAt dayMs | x ≤ event.endsAt}

structure AttendanceAnswer where
  leftEvent : Bool
  nextOccurrence : Option Time

namespace Db

variable (db : Db)

def leaveEvent (env : Env) (userId : UserId) (eventId : EventId) : Db :=
  let joined (key : UserId × EventId) (m : Membership) : Bool :=
    key = (userId, eventId) && m.leftAt.isNone
  let leave (m : Membership) : Membership := { m with leftAt := some env.now }
  let switchOff (a : Availability) : Availability :=
    { a with isOn := false, «until» := none, updatedAt := env.now }
  { db with
    memberships := db.memberships.updateWhere joined leave
    availability := db.availability.modify (userId, eventId) switchOff
    memberLocations := db.memberLocations.deleteWhere fun key _ => key = (userId, eventId) }

/-- An answer to the reminder.  What it is asked about is the next occurrence a minute from
now; the last one, declined, ends the membership. -/
def answerAttendance (env : Env) (userId : UserId) (eventId : EventId) (attending : Bool) :
    Outcome (AttendanceAnswer × Db) := do
  let event ← found (db.events.lookup eventId) errors.notFound
  let next := nextDailyStart event.startsAt event.endsAt (env.now + 60000)
  if attending || next.isSome then
    return ({ leftEvent := false, nextOccurrence := next }, db)
  return ({ leftEvent := true, nextOccurrence := none }, db.leaveEvent env userId eventId)

variable {db}

theorem getMembership_leaveEvent (env : Env) (userId : UserId) (eventId : EventId) :
    (db.leaveEvent env userId eventId).getMembership eventId userId = none := by
  simp only [Directory.getMembership, leaveEvent, Table.lookup_updateWhere,
    Option.filter_eq_none_iff]
  rintro m hm
  obtain ⟨row, -, rfl⟩ := Option.map_eq_some_iff.mp hm
  cases hleft : row.leftAt <;> simp [hleft]

end Db

/-! ## The walk over the days -/

theorem dayMs_pos : 0 < dayMs := by unfold dayMs; decide

/-- The walk finds the first day that is not before `from`, unless the event is over by then. -/
theorem nextDailyStart_of_isLeast {startsAt endsAt «from» x : ℤ}
    (hx : IsLeast {y ∈ cadence startsAt dayMs | «from» ≤ y} x) :
    nextDailyStart startsAt endsAt «from» = if x ≤ endsAt then some x else none := by
  fun_induction nextDailyStart startsAt endsAt «from» with
  | case1 occ hbefore hover =>
    -- the next day is past the end, and `x` is no earlier than the next day
    obtain ⟨hmem, hfrom⟩ := hx.1
    have hnext : occ + dayMs ≤ x :=
      add_le_of_lt dayMs_pos first_mem_cadence hmem (hbefore.trans_le hfrom)
    rw [if_neg (not_le.mpr (hover.trans_le hnext))]
  | case2 occ hbefore hover ih =>
    refine ih ⟨⟨?_, hx.1.2⟩, fun y hy => hx.2 ⟨?_, hy.2⟩⟩
    · refine (mem_cadence_iff.mp hx.1.1).resolve_left ?_
      rintro rfl
      exact absurd hx.1.2 (not_le.mpr hbefore)
    · exact mem_cadence_iff.mpr (.inr hy.1)
  | case3 occ hfrom hend =>
    have : x = occ := hx.unique ⟨⟨first_mem_cadence, not_lt.mp hfrom⟩,
      fun y hy => first_le_of_mem dayMs_pos hy.1⟩
    rw [this, if_pos hend]
  | case4 occ hfrom hend =>
    have : x = occ := hx.unique ⟨⟨first_mem_cadence, not_lt.mp hfrom⟩,
      fun y hy => first_le_of_mem dayMs_pos hy.1⟩
    rw [this, if_neg hend]

/-- A day of the event is the next one for as long as it lies ahead and the day before it,
if there is one, is past. -/
theorem nextDailyStart_eq_some_iff {startsAt endsAt «from» x : ℤ} :
    nextDailyStart startsAt endsAt «from» = some x ↔
      x ∈ cadence startsAt dayMs ∧ «from» ≤ x ∧ (x = startsAt ∨ x - dayMs < «from») ∧
        x ≤ endsAt := by
  obtain ⟨least, hleast⟩ := exists_isLeast_cadence dayMs_pos startsAt «from»
  have hiff : x ∈ cadence startsAt dayMs ∧ «from» ≤ x ∧ (x = startsAt ∨ x - dayMs < «from») ↔
      least = x := by
    rw [← isLeast_cadence_iff dayMs_pos]
    exact ⟨hleast.unique, fun h => h ▸ hleast⟩
  rw [nextDailyStart_of_isLeast hleast, ← and_assoc, ← and_assoc, and_assoc (a := x ∈ _), hiff,
    Option.ite_none_right_eq_some, Option.some.injEq, and_comm]
  exact and_congr_right fun h => by rw [h]

theorem nextDailyStart_eq_none_iff {startsAt endsAt «from» : ℤ} :
    nextDailyStart startsAt endsAt «from» = none ↔
      ∀ x ∈ cadence startsAt dayMs, «from» ≤ x → endsAt < x := by
  obtain ⟨least, hleast⟩ := exists_isLeast_cadence dayMs_pos startsAt «from»
  rw [nextDailyStart_of_isLeast hleast, ite_eq_right_iff]
  constructor
  · intro h x hx hfrom
    have hle : least ≤ x := hleast.2 ⟨hx, hfrom⟩
    by_contra hge
    exact absurd (h (by omega)) (Option.some_ne_none least)
  · intro h hle
    exact absurd (h least hleast.1.1 hleast.1.2) (not_lt.mpr hle)

end Sahay
