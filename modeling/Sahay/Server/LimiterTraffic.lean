import Sahay.Server.Auth

/-!
# Traffic on one rate limit

The calls of `rateLimit` for one scope and id as Redis sees them.  A call computes its key
and counts with `INCR`, which decides its answer; the `EXPIRE` of a first call is a command
of its own and comes whenever it comes, or never.
-/

namespace Sahay
namespace Auth

inductive LimiterEvent
  /-- `INCR` of a call. -/
  | call
  /-- `EXPIRE` of the key of the call that was made at `called`. -/
  | expire (called : Time)
  deriving DecidableEq

variable (scope id : String) (max windowSec : ℕ)

/-- The `INCR` of a call: the count after it, and the state. -/
def counted (now : Time) (st : AuthState) : ℕ × AuthState :=
  incr now (rateLimitKey now scope id windowSec) st

/-- The answers `n <= max` of the calls, in their order. -/
def limiterAnswers : AuthState → List (Time × LimiterEvent) → List (Time × Bool)
  | _, [] => []
  | st, (now, .call) :: events =>
      let (n, st) := counted scope id windowSec now st
      (now, decide (n ≤ max)) :: limiterAnswers st events
  | st, (now, .expire called) :: events =>
      limiterAnswers (expire now (rateLimitKey called scope id windowSec) windowSec st) events

def callTimes : List (Time × LimiterEvent) → List Time
  | [] => []
  | (now, .call) :: events => now :: callTimes events
  | (_, .expire _) :: events => callTimes events

variable {scope id max windowSec}

/-- Run alone, a call is its `INCR`, and its `EXPIRE` if it is the first one. -/
theorem exec_rateLimit {env : AuthEnv} {st : AuthState} (hserved : env.redis scope = .served) :
    (rateLimit env scope id max windowSec).exec st =
      (.ok (decide ((counted scope id windowSec env.now st).1 ≤ max)),
        if (counted scope id windowSec env.now st).1 = 1 then
          expire env.now (rateLimitKey env.now scope id windowSec) windowSec
            (counted scope id windowSec env.now st).2
        else (counted scope id windowSec env.now st).2) := by
  unfold rateLimit
  simp only [hserved, reduceCtorEq, if_false]
  rw [Program.exec_bind_ok (Program.exec_update _)]
  unfold counted
  split_ifs <;> rfl

end Auth
end Sahay
