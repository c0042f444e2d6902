import Mathlib
import Sahay.Lib.FixedWindow
import Sahay.Server.LimiterTraffic

/-!
# What a rate limit lets through

A key of Redis names its window, and its `EXPIRE` comes no earlier than the window begins, so
a key outlives its window and the count in it is never lost.  The limiter is therefore the
fixed-window counter, whatever the delays of its commands.
-/

namespace Sahay
namespace Auth

open FixedWindow

variable {scope id : String} {max windowSec : ℕ} {st : AuthState} {now : Time}

def windowOf (windowSec : ℕ) (t : Time) : ℤ := t / (windowSec * 1000)

theorem rateLimitKey_eq_iff {t t' : Time} :
    rateLimitKey t scope id windowSec = rateLimitKey t' scope id windowSec ↔
      windowOf windowSec t = windowOf windowSec t' := by
  unfold rateLimitKey windowOf
  rw [String.append_right_inj]
  exact Int.repr_inj

/-- After `count w` calls in every window `w`, the keys hold these counts, and none runs out
before its window ends. -/
def Counts (scope id : String) (windowSec : ℕ) (count : ℤ → ℕ) (st : AuthState) : Prop :=
  ∀ t : Time,
    (count (windowOf windowSec t) = 0 ∧
      st.counters.lookup (rateLimitKey t scope id windowSec) = none) ∨
    ∃ counter, st.counters.lookup (rateLimitKey t scope id windowSec) = some counter ∧
      counter.n = count (windowOf windowSec t) ∧ 0 < counter.n ∧
      ∀ e ∈ counter.expiresAt, (windowOf windowSec t + 1) * (windowSec * 1000) ≤ e

/-- The `INCR` of a call writes a count that is one more than before. -/
theorem Counts.counted {count : ℤ → ℕ} (hpos : 0 < windowSec)
    (h : Counts scope id windowSec count st) (now : Time) :
    ∃ counter : Counter,
      counted scope id windowSec now st = (counter.n, { st with
        counters := st.counters.upsert (rateLimitKey now scope id windowSec) counter
          (fun _ => counter) }) ∧
      counter.n = count (windowOf windowSec now) + 1 ∧
      ∀ e ∈ counter.expiresAt, (windowOf windowSec now + 1) * (windowSec * 1000) ≤ e := by
  unfold Auth.counted incr
  rcases h now with ⟨hzero, hnone⟩ | ⟨counter, hsome, hn, -, hlives⟩
  · rw [hnone]
    exact ⟨{ n := 1 }, rfl, by rw [hzero], by simp⟩
  · have hlive : (counter.expiresAt.all fun t => now < t) = true := by
      rw [Option.all_eq_true]
      intro e he
      have hend : now < (windowOf windowSec now + 1) * (windowSec * 1000) :=
        Int.lt_ediv_add_one_mul_self now (by omega)
      exact decide_eq_true (hend.trans_le (hlives e he))
    rw [hsome]
    simp only [Option.filter_some, hlive, if_true, Option.getD_some]
    exact ⟨{ counter with n := counter.n + 1 }, rfl, congrArg (· + 1) hn, hlives⟩

theorem Counts.call {count : ℤ → ℕ} (hpos : 0 < windowSec) (h : Counts scope id windowSec count st)
    (now : Time) :
    (Auth.counted scope id windowSec now st).1 = count (windowOf windowSec now) + 1 ∧
      Counts scope id windowSec (bump count (windowOf windowSec now))
        (Auth.counted scope id windowSec now st).2 := by
  obtain ⟨counter, hcounted, hn, hlives⟩ := h.counted hpos now
  rw [hcounted]
  refine ⟨hn, fun t => ?_⟩
  simp only [Table.lookup_upsert, rateLimitKey_eq_iff]
  by_cases hsame : windowOf windowSec t = windowOf windowSec now
  · rw [hsame, bump_self, if_pos rfl]
    refine .inr ⟨counter, ?_, hn, hn ▸ Nat.succ_pos _, hlives⟩
    cases st.counters.lookup (rateLimitKey now scope id windowSec) <;> rfl
  · rw [if_neg hsame, bump_of_ne count hsame]
    exact h t

/-- An `EXPIRE` that comes after the calls it may stem from keeps every key for its window. -/
theorem Counts.expire {count : ℤ → ℕ} (h : Counts scope id windowSec count st) (called : Time)
    (hpast : ∀ w, 0 < count w → w * (windowSec * 1000) ≤ now) :
    Counts scope id windowSec count
      (Auth.expire now (rateLimitKey called scope id windowSec) windowSec st) := by
  intro t
  simp only [Auth.expire, Table.lookup_modify, rateLimitKey_eq_iff]
  rcases h t with ⟨hzero, hnone⟩ | ⟨counter, hsome, hn, hn0, hlives⟩
  · exact .inl ⟨hzero, by rw [hnone]; rfl⟩
  · rw [hsome, Option.map_some]
    by_cases hsame : windowOf windowSec t = windowOf windowSec called
    · rw [if_pos hsame]
      refine .inr ⟨_, rfl, hn, hn0, ?_⟩
      rintro _ ⟨⟩
      have := hpast _ (hn ▸ hn0)
      rw [add_mul, one_mul]
      exact add_le_add_left this _
    · rw [if_neg hsame]
      exact .inr ⟨counter, rfl, hn, hn0, hlives⟩

/-- Along commands in the order of their times, the limiter is the fixed-window counter. -/
theorem limiterAnswers_eq {count : ℤ → ℕ} {events : List (Time × LimiterEvent)}
    (hpos : 0 < windowSec) (h : Counts scope id windowSec count st)
    (hsorted : (events.map Prod.fst).Pairwise (· ≤ ·))
    (hpast : ∀ w, 0 < count w → ∀ e ∈ events, w * (windowSec * 1000) ≤ e.1) :
    limiterAnswers scope id max windowSec st events =
      decisions (windowOf windowSec) max count (callTimes events) := by
  induction events generalizing st count with
  | nil => rfl
  | cons e events ih =>
    obtain ⟨now, event⟩ := e
    rw [List.map_cons, List.pairwise_cons] at hsorted
    obtain ⟨hlater, hsorted⟩ := hsorted
    cases event with
    | call =>
      obtain ⟨hn, hcounts⟩ := h.call hpos now
      rw [limiterAnswers, callTimes, decisions, ← hn]
      refine congrArg (_ :: ·) (ih hcounts hsorted fun w hw e he => ?_)
      by_cases hsame : w = windowOf windowSec now
      · have hbegan : w * (windowSec * 1000) ≤ now :=
          hsame ▸ Int.ediv_mul_le now (by omega)
        exact hbegan.trans (hlater _ (List.mem_map_of_mem he))
      · rw [bump_of_ne count hsame] at hw
        exact hpast w hw e (List.mem_cons_of_mem _ he)
    | expire called =>
      rw [limiterAnswers, callTimes]
      exact ih (h.expire called fun w hw => hpast w hw _ List.mem_cons_self) hsorted
        fun w hw e he => hpast w hw e (List.mem_cons_of_mem _ he)

theorem windowOf_of_between (hpos : 0 < windowSec) {a t : Time} (hle : a ≤ t)
    (hlt : t ≤ a + windowSec * 1000) :
    windowOf windowSec t = windowOf windowSec a ∨
      windowOf windowSec t = windowOf windowSec a + 1 := by
  have hW : (0 : ℤ) < windowSec * 1000 := by omega
  have hlow : windowOf windowSec a ≤ windowOf windowSec t := Int.ediv_le_ediv hW hle
  have hhigh : windowOf windowSec t ≤ windowOf windowSec a + 1 := by
    have := Int.ediv_le_ediv hW hlt
    rwa [Int.add_ediv_of_dvd_right (dvd_refl _), Int.ediv_self hW.ne'] at this
  omega

/-- Every aligned window lets its first `max` calls through, and every interval of the same
length at most twice as many. -/
theorem rateLimit_bounds {events : List (Time × LimiterEvent)} (hpos : 0 < windowSec)
    (hnew : ∀ t, rateLimitKey t scope id windowSec ∉ st.counters)
    (hsorted : (events.map Prod.fst).Pairwise (· ≤ ·)) :
    (∀ w : ℤ,
      (limiterAnswers scope id max windowSec st events).countP
          (fun answer => answer.1 / ((windowSec : ℤ) * 1000) = w && answer.2) =
        min ((callTimes events).countP fun t => t / ((windowSec : ℤ) * 1000) = w) max) ∧
    ∀ a : Time,
      (limiterAnswers scope id max windowSec st events).countP
          (fun answer => (a ≤ answer.1 && answer.1 ≤ a + windowSec * 1000) && answer.2) ≤
        2 * max := by
  have hcounts : Counts scope id windowSec (fun _ => 0) st := fun t =>
    .inl ⟨rfl, AList.lookup_eq_none.mpr (hnew t)⟩
  rw [limiterAnswers_eq hpos hcounts hsorted fun _ hw => absurd hw (Nat.lt_irrefl 0)]
  refine ⟨fun w => admittedIn_eq (windowOf windowSec) max w (callTimes events), fun a => ?_⟩
  have htouch (t : Time) (ht : (a ≤ t && t ≤ a + windowSec * 1000) = true) :
      windowOf windowSec t = windowOf windowSec a ∨
        windowOf windowSec t = windowOf windowSec a + 1 := by
    rw [Bool.and_eq_true_iff, decide_eq_true_eq, decide_eq_true_eq] at ht
    exact windowOf_of_between hpos ht.1 ht.2
  exact admitted_le_two max htouch (callTimes events)

def noCalls : AuthState := { backend := {} }

/-- Five calls around the end of a window, the `EXPIRE` of the first one late. -/
def aroundTheEnd : List (Time × LimiterEvent) :=
  [(500, .call), (700, .call), (990, .call), (995, .expire 500), (1010, .call), (1020, .call)]

/-- With two calls a second, four of the five go through. -/
theorem aroundTheEnd_bounds :
    (limiterAnswers "login" "1" 2 1 noCalls aroundTheEnd).countP
        (fun answer => answer.1 / (((1 : ℕ) : ℤ) * 1000) = 0 && answer.2) = 2 ∧
    (limiterAnswers "login" "1" 2 1 noCalls aroundTheEnd).countP
        (fun answer => (500 ≤ answer.1 && answer.1 ≤ 500 + ((1 : ℕ) : ℤ) * 1000) && answer.2) ≤
      2 * 2 := by
  obtain ⟨haligned, hinterval⟩ := @rateLimit_bounds "login" "1" 2 1 noCalls aroundTheEnd
    (by decide) (fun _ => AList.notMem_empty _) (by decide)
  exact ⟨haligned 0, hinterval 500⟩

end Auth
end Sahay
