import Sahay.Server.Attendance
import Sahay.Server.System

/-!
# Attendance

What the reminders and the answers to them are worth.  Both rest on `nextDailyStart`, which
is exact; but a tick at the very instant a reminder falls due still sees the day before, and
an answer given more than a minute ahead is taken for one about the day it declines.
-/

namespace Sahay

/-- Whatever the order of the three instants, the loop ends, and finds the first of the days
from the start on that is not before `from`, provided it is not past the end. -/
theorem nextDailyStart_exact (startsAt endsAt «from» : ℤ) :
    ∃ x, IsLeast {y | (∃ k : ℕ, y = startsAt + k * (24 * 60 * 60 * 1000)) ∧ «from» ≤ y} x ∧
      nextDailyStart startsAt endsAt «from» = if x ≤ endsAt then some x else none := by
  obtain ⟨x, hleast⟩ := exists_isLeast_cadence dayMs_pos startsAt «from»
  exact ⟨x, hleast, nextDailyStart_of_isLeast hleast⟩

/-! ## Reminders -/

/-- At `now` the reminder for the day `x` goes out. -/
def Reminds (startsAt endsAt now x : Time) : Prop :=
  nextDailyStart startsAt endsAt now = some x ∧ isReminderDue x now = true

/-- The instants at which the reminder for a day can go out: all of the window, except that
the instant it opens belongs to the day before, if there is one. -/
theorem reminds_iff {startsAt endsAt now x : ℤ} (hx : x ∈ cadence startsAt dayMs)
    (hend : x ≤ endsAt) :
    Reminds startsAt endsAt now x ↔
      x - dayMs ≤ now ∧ now < x - dayMs + retentionEveryMs ∧
        (x = startsAt ∨ now ≠ x - dayMs) := by
  rw [Reminds, nextDailyStart_eq_some_iff, isReminderDue_iff]
  unfold dayMs retentionEveryMs at *
  constructor
  · rintro ⟨⟨-, -, hfirst, -⟩, hdue, hopen⟩
    exact ⟨hdue, hopen, hfirst.imp_right fun h => by omega⟩
  · rintro ⟨hdue, hopen, hfirst⟩
    exact ⟨⟨hx, by omega, hfirst.imp_right fun h => by omega, hend⟩, hdue, hopen⟩

/-- A day of an event is reminded of at exactly one tick, unless it has a day before it and a
tick stands where its window opens: that tick still sees the day before. -/
theorem reminded_once_iff (ticks : Ticks retentionEveryMs) {startsAt endsAt : ℤ} (k : ℕ)
    (hend : startsAt + k * dayMs ≤ endsAt)
    (hcovers : ticks.Surrounds (startsAt + k * dayMs - dayMs)) :
    (∃! now, now ∈ ticks.times ∧ Reminds startsAt endsAt now (startsAt + k * dayMs)) ↔
      (k = 0 ∨ startsAt + k * dayMs - dayMs ∉ ticks.times) := by
  have hperiod : 0 < retentionEveryMs := by unfold retentionEveryMs; decide
  have hfirst : startsAt + k * dayMs = startsAt ↔ k = 0 := by
    simp [dayMs]
  obtain ⟨now, ⟨hnow, hdue, hopen⟩, hunique⟩ := hcovers.existsUnique hperiod
  have hreminds (t : ℤ) := @reminds_iff startsAt endsAt t _ (mem_cadence k) hend
  constructor
  · rintro ⟨t, ⟨ht, hreminded⟩, -⟩
    obtain ⟨hle, hlt, hopens⟩ := (hreminds t).mp hreminded
    refine Or.imp hfirst.mp (fun hne hmem => hne ?_) hopens
    -- the window holds one tick only
    rw [hunique t ⟨ht, hle, hlt⟩, hunique _ ⟨hmem, le_rfl, by omega⟩]
  · intro hopens
    have hreminded : Reminds startsAt endsAt now (startsAt + k * dayMs) := by
      refine (hreminds now).mpr ⟨hdue, hopen, hopens.imp hfirst.mpr ?_⟩
      rintro hno rfl
      exact hno hnow
    refine ⟨now, ⟨hnow, hreminded⟩, ?_⟩
    rintro t ⟨ht, hreminded⟩
    obtain ⟨hle, hlt, -⟩ := (hreminds t).mp hreminded
    exact hunique t ⟨ht, hle, hlt⟩

def everyTick : Ticks retentionEveryMs := ⟨0, Set.univ, Set.ordConnected_univ⟩

theorem surrounds_everyTick {t : ℤ} (hpos : 0 ≤ t) (hle : t ≤ retentionEveryMs) :
    everyTick.Surrounds t :=
  ⟨⟨0, ⟨0, trivial, rfl⟩, hpos⟩, _, ⟨1, trivial, rfl⟩, by simpa [everyTick] using hle⟩

/-- No tick reminds of the second day of an event that starts at 0 and runs for two. -/
theorem second_day_not_reminded :
    everyTick.Surrounds (0 + (1 : ℕ) * dayMs - dayMs) ∧
      ¬∃! now, now ∈ everyTick.times ∧ Reminds 0 dayMs now (0 + (1 : ℕ) * dayMs) := by
  refine ⟨surrounds_everyTick (by simp) (by simp [retentionEveryMs]), ?_⟩
  rintro ⟨now, ⟨⟨i, -, rfl⟩, hreminds⟩, -⟩
  obtain ⟨hdue, hopen, hne⟩ := (reminds_iff (mem_cadence 1) (by simp)).mp hreminds
  simp only [everyTick, dayMs, retentionEveryMs, Nat.cast_one] at hdue hopen hne
  omega

/-- A second later, the second day is reminded of once. -/
theorem second_day_reminded :
    ∃! now, now ∈ everyTick.times ∧ Reminds 1000 (1000 + dayMs) now (1000 + (1 : ℕ) * dayMs) := by
  refine (reminded_once_iff everyTick 1 (by simp)
    (surrounds_everyTick (by simp) (by simp [retentionEveryMs]))).mpr (.inr ?_)
  rintro ⟨i, -, hi⟩
  simp only [everyTick, dayMs, retentionEveryMs, Nat.cast_one] at hi
  omega

/-! ## Answers -/

namespace Db

variable {db : Db} {env : Env} {userId : UserId} {eventId : EventId} {event : Event}

/-- What an answer that declines the day `x` owes: without a later day it ends the
membership, with one it keeps it and names such a day. -/
structure DeclineHandled (db : Db) (userId : UserId) (eventId : EventId) (event : Event)
    (x : Time) (r : AttendanceAnswer × Db) : Prop where
  leaves : r.2.getMembership eventId userId = none ↔ ∀ y ∈ event.dailyStarts, y ≤ x
  keeps : (∃ y ∈ event.dailyStarts, x < y) →
    r.2.getMembership eventId userId = db.getMembership eventId userId ∧
      ∃ y ∈ event.dailyStarts, x < y ∧ r.1.nextOccurrence = some y

theorem decline_some (hevent : db.events.lookup eventId = some event) {y : Time}
    (hnext : nextDailyStart event.startsAt event.endsAt (env.now + 60000) = some y) :
    db.answerAttendance env userId eventId false = .ok (⟨false, some y⟩, db) := by
  simp only [answerAttendance, hevent, found_some, bind_ok_left, hnext]
  rfl

theorem decline_none (hevent : db.events.lookup eventId = some event)
    (hnext : nextDailyStart event.startsAt event.endsAt (env.now + 60000) = none) :
    db.answerAttendance env userId eventId false =
      .ok (⟨true, none⟩, db.leaveEvent env userId eventId) := by
  simp only [answerAttendance, hevent, found_some, bind_ok_left, hnext]
  rfl

/-- An answer that comes after the reminder for a day and before the day itself is handled
as it should be only within the last minute. -/
theorem decline_handled_iff {m : Membership} {x : ℤ}
    (hevent : db.events.lookup eventId = some event)
    (hjoined : db.getMembership eventId userId = some m) (hx : x ∈ event.dailyStarts)
    (hreminded : x - dayMs ≤ env.now) (hahead : env.now < x) :
    (∃ r, db.answerAttendance env userId eventId false = .ok r ∧
      db.DeclineHandled userId eventId event x r) ↔ x < env.now + 60000 := by
  constructor
  · rintro ⟨r, hr, hhandled⟩
    by_contra hearly
    -- the next day found is the declined one
    have hnext : nextDailyStart event.startsAt event.endsAt (env.now + 60000) = some x :=
      nextDailyStart_eq_some_iff.mpr
        ⟨hx.1, not_lt.mp hearly, .inr (hreminded.trans_lt (by simp)), hx.2⟩
    rw [decline_some hevent hnext, Except.ok.injEq] at hr
    subst hr
    have hlater : ∃ y ∈ event.dailyStarts, x < y := by
      have hstays : ¬∀ y ∈ event.dailyStarts, y ≤ x := fun hlast => by
        have := hhandled.leaves.mpr hlast
        rw [hjoined] at this
        cases this
      simpa using hstays
    obtain ⟨-, y, -, hlt, hy⟩ := hhandled.keeps hlater
    exact absurd (Option.some.inj hy) hlt.ne
  · intro hlate
    cases hnext : nextDailyStart event.startsAt event.endsAt (env.now + 60000) with
    | some y =>
      obtain ⟨hy, hfrom, -, hend⟩ := nextDailyStart_eq_some_iff.mp hnext
      have hlt : x < y := hlate.trans_le hfrom
      refine ⟨_, decline_some hevent hnext, ?_, fun _ => ⟨rfl, y, ⟨hy, hend⟩, hlt, rfl⟩⟩
      rw [hjoined]
      exact iff_of_false (Option.some_ne_none m) fun hlast =>
        absurd (hlast y ⟨hy, hend⟩) (not_le.mpr hlt)
    | none =>
      have hlast : ∀ y ∈ event.dailyStarts, y ≤ x := fun y hy => by
        by_contra hlt
        have hgap := add_le_of_lt dayMs_pos hx.1 hy.1 (not_le.mp hlt)
        have hfrom : env.now + 60000 ≤ y := by
          unfold dayMs at hgap
          linarith
        exact absurd hy.2 (not_le.mpr (nextDailyStart_eq_none_iff.mp hnext y hy.1 hfrom))
      refine ⟨_, decline_none hevent hnext, ?_, ?_⟩
      · exact iff_of_true (getMembership_leaveEvent env userId eventId) hlast
      · rintro ⟨y, hy, hlt⟩
        exact absurd (hlast y hy) (not_le.mpr hlt)

def oneMember : Db := { Db.empty with toDirectory := SmallEvent.directory [1] [] }

def twoDays : Event := { status := .active, startsAt := 0, endsAt := 100000000 }

theorem second_day_mem : dayMs ∈ twoDays.dailyStarts := ⟨⟨1, by simp [twoDays]⟩, by decide⟩

theorem second_day_is_last : ∀ y ∈ twoDays.dailyStarts, y ≤ dayMs := by
  rintro _ ⟨⟨k, rfl⟩, hend⟩
  simp only [twoDays, dayMs, Time] at hend ⊢
  omega

/-- Declined as soon as the reminder has come, the last day of the event is named as the next
one, and the member stays. -/
theorem last_day_declined_early :
    ¬∃ r, oneMember.answerAttendance (SmallEvent.clock 0) 1 1 false = .ok r ∧
      oneMember.DeclineHandled 1 1 twoDays dayMs r := by
  rintro ⟨r, hr, hhandled⟩
  have hnext : nextDailyStart twoDays.startsAt twoDays.endsAt ((SmallEvent.clock 0).now + 60000) =
      some dayMs :=
    nextDailyStart_eq_some_iff.mpr
      ⟨second_day_mem.1, by decide, .inr (by decide), second_day_mem.2⟩
  rw [decline_some (by rfl) hnext, Except.ok.injEq] at hr
  subst hr
  have hleft := hhandled.leaves.mpr second_day_is_last
  exact absurd hleft (by decide +kernel)

/-- Declined within the minute before it, the last day ends the membership. -/
theorem last_day_declined_late :
    ∃ r, oneMember.answerAttendance (SmallEvent.clock (dayMs - 1)) 1 1 false = .ok r ∧
      oneMember.DeclineHandled 1 1 twoDays dayMs r :=
  (decline_handled_iff (m := {}) (by rfl) (by rfl) second_day_mem (by decide) (by decide)).mpr
    (by decide)

end Db
end Sahay
