import Mathlib.Tactic.GCongr
import Mathlib.Tactic.Positivity
import Sahay.Refinement.Counters

/-!
# Reliability

The counters of a helper never overtake each other, the stored label is that of the stored
counters, and both the completion score and the label reward completions only and punish
failures only.
-/

namespace Sahay

def ReliabilityLabel.level : ReliabilityLabel → ℕ
  | .newHelper => 0
  | .activeHelper => 1
  | .reliableHelper => 2
  | .highlyReliableHelper => 3

/-! ## Scores -/

namespace ReliabilityCounters

variable (c : ReliabilityCounters)

def failures : ℚ :=
  c.cancelledPreMeeting * (1 / 4) + (c.cancelledPostMeeting + c.timeouts + c.noShows)

theorem failures_nonneg : 0 ≤ c.failures := by
  unfold failures
  positivity

theorem completionScore_eq :
    c.completionScore = (c.completed + 2) / (c.completed + c.failures + 4) := by
  unfold completionScore failures
  dsimp only
  rw [add_assoc (c.completed : ℚ) (c.cancelledPreMeeting * (1 / 4))]

theorem completionScore_pos : 0 < c.completionScore := by
  have hfailures := c.failures_nonneg
  rw [completionScore_eq]
  positivity

theorem completionScore_lt_one : c.completionScore < 1 := by
  have hfailures := c.failures_nonneg
  have htrials : (0 : ℚ) < c.completed + c.failures + 4 := by positivity
  rw [completionScore_eq, div_lt_one htrials]
  linarith

theorem responsivenessScore_nonneg : 0 ≤ c.responsivenessScore := by
  unfold responsivenessScore
  split_ifs
  · norm_num
  · positivity

theorem responsivenessScore_le_one (h : c.offersResponded30d ≤ c.offersReceived30d) :
    c.responsivenessScore ≤ 1 := by
  unfold responsivenessScore
  split_ifs
  · norm_num
  · exact div_le_one_of_le₀ (Nat.cast_le.mpr h) (Nat.cast_nonneg _)

theorem rankingReliability_pos : 0 < c.rankingReliability := by
  have hcompletion := c.completionScore_pos
  have hresponsiveness := c.responsivenessScore_nonneg
  unfold rankingReliability
  positivity

theorem rankingReliability_lt_one (h : c.offersResponded30d ≤ c.offersReceived30d) :
    c.rankingReliability < 1 := by
  have hcompletion := c.completionScore_lt_one
  have hresponsiveness := c.responsivenessScore_le_one h
  unfold rankingReliability
  linarith

/-! ## Monotonicity -/

variable {c} {d : ReliabilityCounters}

theorem completionScore_mono (hcompleted : c.completed ≤ d.completed)
    (hfailures : d.failures ≤ c.failures) : c.completionScore ≤ d.completionScore := by
  have hc : (0 : ℚ) < c.completed + c.failures + 4 := by
    have hfailures := c.failures_nonneg
    positivity
  have hd : (0 : ℚ) < d.completed + d.failures + 4 := by
    have hfailures := d.failures_nonneg
    positivity
  have hmore : (c.completed : ℚ) ≤ d.completed := Nat.cast_le.mpr hcompleted
  have hsplit (e : ReliabilityCounters) (he : (0 : ℚ) < e.completed + e.failures + 4) :
      e.completionScore = 1 - (e.failures + 2) / (e.completed + e.failures + 4) := by
    rw [completionScore_eq, eq_sub_iff_add_eq, ← add_div, div_eq_one_iff_eq he.ne']
    ring
  rw [hsplit c hc, hsplit d hd, sub_le_sub_iff_left, div_le_div_iff₀ hd hc]
  have hnonneg := d.failures_nonneg
  nlinarith

theorem level_mono (hcompleted : c.completed ≤ d.completed)
    (hscore : c.completionScore ≤ d.completionScore) :
    c.reliabilityLabel.level ≤ d.reliabilityLabel.level := by
  unfold reliabilityLabel
  by_cases hnew : c.completed < 3
  · rw [if_pos hnew]
    exact Nat.zero_le _
  · have hold : ¬d.completed < 3 := by omega
    rw [if_neg hnew, if_neg hold]
    by_cases hhigh : 20 ≤ c.completed ∧ 85 / 100 ≤ c.completionScore
    · have hhigh' : 20 ≤ d.completed ∧ 85 / 100 ≤ d.completionScore :=
        ⟨hhigh.1.trans hcompleted, hhigh.2.trans hscore⟩
      rw [if_pos hhigh, if_pos hhigh']
    · rw [if_neg hhigh]
      by_cases hreliable : 8 ≤ c.completed ∧ 75 / 100 ≤ c.completionScore
      · have hreliable' : 8 ≤ d.completed ∧ 75 / 100 ≤ d.completionScore :=
          ⟨hreliable.1.trans hcompleted, hreliable.2.trans hscore⟩
        rw [if_pos hreliable, if_pos hreliable']
        split_ifs <;> decide
      · rw [if_neg hreliable]
        split_ifs <;> decide

/-- The counters of what a helper did wrong. -/
inductive Failure
  | cancelledPreMeeting
  | cancelledPostMeeting
  | timeout
  | noShow

/-- The counters after `n` more failures of a kind. -/
def fail (c : ReliabilityCounters) (n : ℕ) : Failure → ReliabilityCounters
  | .cancelledPreMeeting => { c with cancelledPreMeeting := c.cancelledPreMeeting + n }
  | .cancelledPostMeeting => { c with cancelledPostMeeting := c.cancelledPostMeeting + n }
  | .timeout => { c with timeouts := c.timeouts + n }
  | .noShow => { c with noShows := c.noShows + n }

/-- The counters after `n` more completions. -/
def complete (c : ReliabilityCounters) (n : ℕ) : ReliabilityCounters :=
  { c with completed := c.completed + n }

theorem fail_completed (c : ReliabilityCounters) (n : ℕ) (kind : Failure) :
    (c.fail n kind).completed = c.completed := by
  cases kind <;> rfl

theorem failures_le_fail (c : ReliabilityCounters) (n : ℕ) (kind : Failure) :
    c.failures ≤ (c.fail n kind).failures := by
  have hn : (0 : ℚ) ≤ n := Nat.cast_nonneg n
  unfold failures
  cases kind <;> simp only [fail, Nat.cast_add] <;> linarith

/-- Completions raise the score and the label, failures lower them, and with equal completions
the label follows the score. -/
theorem reliability_monotone (c : ReliabilityCounters) :
    (∀ n, c.completionScore ≤ (c.complete n).completionScore ∧
      c.reliabilityLabel.level ≤ (c.complete n).reliabilityLabel.level) ∧
    (∀ n kind, (c.fail n kind).completionScore ≤ c.completionScore ∧
      (c.fail n kind).reliabilityLabel.level ≤ c.reliabilityLabel.level) ∧
    ∀ d : ReliabilityCounters, d.completed = c.completed →
      c.completionScore < d.completionScore →
      c.reliabilityLabel.level ≤ d.reliabilityLabel.level := by
  refine ⟨fun n => ?_, fun n kind => ?_, fun d hcompleted hscore => ?_⟩
  · have hmore : c.completed ≤ (c.complete n).completed := Nat.le_add_right _ _
    have hscore : c.completionScore ≤ (c.complete n).completionScore :=
      completionScore_mono hmore le_rfl
    exact ⟨hscore, level_mono hmore hscore⟩
  · have hsame := (c.fail_completed n kind).le
    have hscore : (c.fail n kind).completionScore ≤ c.completionScore :=
      completionScore_mono hsame (c.failures_le_fail n kind)
    exact ⟨hscore, level_mono hsame hscore⟩
  · exact level_mono hcompleted.ge hscore.le

/-- Twenty completions each, with four no-shows and without. -/
theorem reliability_monotone_noShows :
    let c : ReliabilityCounters := { completed := 20, noShows := 4 }
    let d : ReliabilityCounters := { completed := 20 }
    c.reliabilityLabel = .reliableHelper ∧ d.reliabilityLabel = .highlyReliableHelper ∧
      c.reliabilityLabel.level ≤ d.reliabilityLabel.level :=
  ⟨by decide +kernel, by decide +kernel,
    (reliability_monotone _).2.2 _ rfl (by decide +kernel)⟩

end ReliabilityCounters

namespace Db

variable {db db' : Db}

/-! ## The counters are tallied -/

/-- Nobody has ended more matches than accepted, accepted more offers than answered, or
answered more than received; open offers and active matches are still to come. -/
def Tallied (db : Db) : Prop :=
  ∀ u, (db.counters u).ended + db.helperMatches u ≤ (db.counters u).accepted ∧
    (db.counters u).accepted ≤ (db.counters u).offersResponded30d ∧
    (db.counters u).offersResponded30d + db.openOffersTo u ≤ (db.counters u).offersReceived30d

theorem Tallied.counts (hdb : db.Tallied) (h : Counts db db') : db'.Tallied := by
  intro u
  obtain ⟨hmatched, haccepted, hanswered⟩ := hdb u
  cases h with
  | quiet hstats hopen hactive =>
      have hsame : db'.counters u = db.counters u := by rw [counters, hstats, counters]
      have hopen' := hopen u
      have hactive' := hactive u
      rw [hsame]
      omega
  | bump helperId increments now hstats hpaid hopen hactive =>
      have hcounters := counters_bump db helperId increments now u
      rw [counters, ← hstats] at hcounters
      change db'.counters u = _ at hcounters
      have hopen' := hopen u
      have hactive' := hactive u
      rw [hcounters]
      by_cases hu : helperId = u
      · rw [if_pos hu, if_pos hu] at hopen' hactive'
        rw [if_pos hu]
        change (db.counters u).completed + increments.completed +
            ((db.counters u).cancelledPreMeeting + increments.cancelledPreMeeting) +
            ((db.counters u).cancelledPostMeeting + increments.cancelledPostMeeting) +
            db'.helperMatches u ≤ (db.counters u).accepted + increments.accepted ∧
          (db.counters u).accepted + increments.accepted ≤
            (db.counters u).offersResponded30d + increments.offersResponded30d ∧
          (db.counters u).offersResponded30d + increments.offersResponded30d +
            db'.openOffersTo u ≤
            (db.counters u).offersReceived30d + increments.offersReceived30d
        simp only [ReliabilityCounters.ended] at hmatched hactive'
        omega
      · rw [if_neg hu, if_neg hu] at hopen' hactive'
        rw [if_neg hu]
        omega

theorem step_tallied (db : Db) (i : Env × Op) (hdb : db.Tallied) : (db.step i).Tallied := by
  rcases db.step_cases i with ⟨effects, h⟩ | h
  · exact (exec_counts h).invariant (fun _ _ hdb hstep => hdb.counts hstep) hdb
  · rw [h]
    exact hdb

theorem Reached.tallied (h : db.Reached) : db.Tallied :=
  Reachable.invariant (P := Tallied) (fun db i hdb => step_tallied db i hdb)
    (fun _ => ⟨Nat.le_refl _, Nat.le_refl _, Nat.le_refl _⟩) h

theorem Reached.responded_le_received (h : db.Reached) (helperId : UserId) :
    (db.counters helperId).offersResponded30d ≤ (db.counters helperId).offersReceived30d :=
  (Nat.le_add_right _ _).trans (h.tallied helperId).2.2

/-- The counters of every helper are ordered, so that all scores are between 0 and 1. -/
theorem counters_ordered (h : db.Reached) (helperId : UserId) :
    let c := db.counters helperId
    (c.completed + c.cancelledPreMeeting + c.cancelledPostMeeting + db.helperMatches helperId ≤
        c.accepted ∧
      c.accepted ≤ c.offersResponded30d ∧ c.offersResponded30d ≤ c.offersReceived30d) ∧
    c.completionScore ∈ Set.Icc 0 1 ∧ c.responsivenessScore ∈ Set.Icc 0 1 ∧
      c.rankingReliability ∈ Set.Icc 0 1 := by
  intro c
  obtain ⟨hmatched, haccepted, -⟩ := h.tallied helperId
  have hresponded := h.responded_le_received helperId
  refine ⟨⟨hmatched, haccepted, hresponded⟩, ⟨?_, ?_⟩, ⟨?_, ?_⟩, ?_, ?_⟩
  · exact c.completionScore_pos.le
  · exact c.completionScore_lt_one.le
  · exact c.responsivenessScore_nonneg
  · exact c.responsivenessScore_le_one hresponded
  · exact c.rankingReliability_pos.le
  · exact (c.rankingReliability_lt_one hresponded).le

/-- User 2 has been offered three requests and has accepted two. -/
theorem counters_ordered_twoMatches :
    let db := runFrom Db.step Db.empty SmallEvent.twoMatches
    db.helperMatches 2 = 2 ∧ (db.counters 2).accepted = 2 ∧
      (db.counters 2).offersReceived30d = 3 ∧
      (db.counters 2).responsivenessScore ∈ Set.Icc 0 1 :=
  ⟨by decide +kernel, by decide +kernel, by decide +kernel,
    (counters_ordered ⟨_, rfl⟩ 2).2.2.1⟩

/-! ## The stored label -/

def LabelsCurrent (db : Db) : Prop :=
  ∀ u row, db.reliabilityStats.lookup u = some row →
    row.label = row.toReliabilityCounters.reliabilityLabel

def label (db : Db) (userId : UserId) : ReliabilityLabel :=
  (db.reliabilityStats.lookup userId).elim .newHelper ReliabilityStats.label

/-- The kinds of bumps of `modules/matches/reliability.ts`. -/
inductive CounterBump
  | offerReceived
  | offerResponded
  | accepted
  | completed (finalQty : Qty) (requesterConfirmedPositive : Bool)
  | helperCancel (postMeeting : Bool)
  | dispute

def applyBump (db : Db) (userId : UserId) (now : Time) : CounterBump → Db
  | .offerReceived => db.applyOfferReceived userId now
  | .offerResponded => db.applyOfferResponded userId now
  | .accepted => db.applyAccepted userId now
  | .completed finalQty positive => db.applyCompleted userId finalQty positive now
  | .helperCancel postMeeting => db.applyHelperCancel userId postMeeting now
  | .dispute => db.applyDispute userId now

def applyBumps (db : Db) (bumps : List (UserId × Time × CounterBump)) : Db :=
  bumps.foldl (fun db b => db.applyBump b.1 b.2.1 b.2.2) db

def CounterBump.isNeutral : CounterBump → Bool
  | .offerReceived | .offerResponded | .accepted | .dispute => true
  | .completed .. | .helperCancel .. => false

theorem LabelsCurrent.bump (h : db.LabelsCurrent) (userId : UserId)
    (increments : ReliabilityCounters) (now : Time) :
    (db.bump userId increments now).LabelsCurrent := by
  intro u row hrow
  rw [lookup_bump] at hrow
  split_ifs at hrow
  · obtain rfl := Option.some.inj hrow
    rfl
  · exact h u row hrow

theorem LabelsCurrent.applyBump (h : db.LabelsCurrent) (userId : UserId) (now : Time)
    (b : CounterBump) : (db.applyBump userId now b).LabelsCurrent := by
  cases b <;> exact h.bump _ _ _

theorem LabelsCurrent.applyBumps (h : db.LabelsCurrent)
    (bumps : List (UserId × Time × CounterBump)) : (db.applyBumps bumps).LabelsCurrent := by
  induction bumps generalizing db with
  | nil => exact h
  | cons b bumps ih => exact ih (h.applyBump b.1 b.2.1 b.2.2)

theorem LabelsCurrent.counts (h : db.LabelsCurrent) (hcounts : Counts db db') :
    db'.LabelsCurrent := by
  cases hcounts with
  | quiet hstats =>
      intro u row hrow
      rw [hstats] at hrow
      exact h u row hrow
  | bump helperId increments now hstats =>
      intro u row hrow
      rw [hstats] at hrow
      exact h.bump helperId increments now u row hrow

theorem Reached.labelsCurrent (h : db.Reached) : db.LabelsCurrent := by
  apply Reachable.invariant (P := LabelsCurrent) _ _ h
  · intro db i hdb
    rcases db.step_cases i with ⟨effects, h⟩ | h
    · exact (exec_counts h).invariant (fun _ _ hdb hstep => hdb.counts hstep) hdb
    · rw [h]
      exact hdb
  · intro u row hrow
    cases hrow

theorem LabelsCurrent.label_eq (h : db.LabelsCurrent) (u : UserId) :
    db.label u = (db.counters u).reliabilityLabel := by
  unfold label counters
  cases hrow : db.reliabilityStats.lookup u with
  | none => rfl
  | some row => exact h u row hrow

theorem reliabilityLabel_congr {c d : ReliabilityCounters} (hcompleted : c.completed = d.completed)
    (hfailures : c.failures = d.failures) : c.reliabilityLabel = d.reliabilityLabel := by
  unfold ReliabilityCounters.reliabilityLabel
  rw [c.completionScore_eq, d.completionScore_eq, hcompleted, hfailures]

theorem label_bump (h : db.LabelsCurrent) (userId : UserId) {increments : ReliabilityCounters}
    (hcompleted : increments.completed = 0) (hfailures : increments.failures = 0) (now : Time)
    (u : UserId) : (db.bump userId increments now).label u = db.label u := by
  rw [(h.bump userId increments now).label_eq, h.label_eq, counters_bump]
  split_ifs
  · apply reliabilityLabel_congr
    · change (db.counters u).completed + increments.completed = (db.counters u).completed
      rw [hcompleted, Nat.add_zero]
    · have hadd : (db.counters u + increments).failures =
          (db.counters u).failures + increments.failures := by
        change (((db.counters u).cancelledPreMeeting + increments.cancelledPreMeeting : ℕ) : ℚ) *
            (1 / 4) +
            (((db.counters u).cancelledPostMeeting + increments.cancelledPostMeeting : ℕ) +
            ((db.counters u).timeouts + increments.timeouts : ℕ) +
            ((db.counters u).noShows + increments.noShows : ℕ)) = _
        unfold ReliabilityCounters.failures
        push_cast
        ring
      rw [hadd, hfailures, add_zero]
  · rfl

/-- After any bumps, the stored label is that of the stored counters; and receiving,
answering or accepting an offer and a dispute leave it as it is. -/
theorem label_cached (h : db.Reached) (bumps : List (UserId × Time × CounterBump)) :
    let db' := db.applyBumps bumps
    (∀ u row, db'.reliabilityStats.lookup u = some row →
      row.label = row.toReliabilityCounters.reliabilityLabel) ∧
    ∀ userId now b, CounterBump.isNeutral b = true →
      ∀ u, (db'.applyBump userId now b).label u = db'.label u := by
  intro db'
  have hcurrent : db'.LabelsCurrent := h.labelsCurrent.applyBumps bumps
  refine ⟨hcurrent, fun userId now b hb u => ?_⟩
  cases b with
  | offerReceived | offerResponded | accepted | dispute =>
      exact label_bump hcurrent userId rfl (by norm_num [ReliabilityCounters.failures]) now u
  | completed | helperCancel => cases hb

/-- Three completions make user 2 an active helper. -/
theorem label_cached_completed :
    let db := runFrom Db.step Db.empty SmallEvent.twoMatches
    let bumps : List (UserId × Time × CounterBump) := List.replicate 3 (2, 10, .completed 1 true)
    (db.applyBumps bumps).label 2 = .activeHelper ∧
      ((db.applyBumps bumps).applyBump 2 11 .dispute).label 2 = .activeHelper := by
  intro db bumps
  have hactive : (db.applyBumps bumps).label 2 = .activeHelper := by decide +kernel
  exact ⟨hactive, ((label_cached ⟨_, rfl⟩ bumps).2 2 11 .dispute rfl 2).trans hactive⟩

end Db
end Sahay
