import Mathlib.Data.List.Basic
import Mathlib.Data.Option.Basic

/-!
# Push providers

`ExpoPushProvider.send` of `lib/push.ts`: messages go out in batches, and the tickets that
answer a batch say which of its tokens are dead.  What is sent does not matter here, only
which tokens are reported.
-/

namespace Sahay
namespace Push

structure PushToken where
  provider : String
  token : String

/-- One ticket of an answer; `error` is `details?.error`. -/
structure Ticket where
  status : String
  error : Option String := none

/-- How the request of a batch ends. -/
inductive BatchOutcome
  | httpError
  | networkFailure
  | tickets (data : List Ticket)

def expoBatchSize : ℕ := 100

def expoPermanentErrors : List String := ["DeviceNotRegistered", "InvalidCredentials"]

def Ticket.isPermanent (ticket : Ticket) : Bool :=
  ticket.status = "error" && ticket.error.getD "" ∈ expoPermanentErrors

/-- `data` of an answer, in the order of the messages; a failed request disables nothing. -/
def BatchOutcome.data : BatchOutcome → List Ticket
  | .httpError | .networkFailure => []
  | .tickets data => data

/-- What one ticket, at index `idx` of its answer, reports. -/
def ticketFailure (batch : List PushToken) (idx : ℕ) (ticket : Ticket) : Option String := do
  let t ← batch[idx]?
  -- `!token` holds of the empty string, too
  guard (t.token ≠ "")
  guard ticket.isPermanent
  return t.token

def batchFailures (batch : List PushToken) (outcome : BatchOutcome) : List String :=
  outcome.data.zipIdx.filterMap fun entry => ticketFailure batch entry.2 entry.1

/-- The loop over the batches, from index `i` on; `outcomes` numbers the requests. -/
def failuresFrom (expoTokens : List PushToken) (outcomes : ℕ → BatchOutcome) (i : ℕ) :
    List String :=
  if i < expoTokens.length then
    batchFailures ((expoTokens.drop i).take expoBatchSize) (outcomes (i / expoBatchSize)) ++
      failuresFrom expoTokens outcomes (i + expoBatchSize)
  else []
termination_by expoTokens.length - i
decreasing_by
  unfold expoBatchSize
  omega

def expoTokens (tokens : List PushToken) : List PushToken :=
  tokens.filter fun t => t.provider = "expo"

/-- `failed` of `ExpoPushProvider.send`. -/
def send (tokens : List PushToken) (outcomes : ℕ → BatchOutcome) : List String :=
  failuresFrom (expoTokens tokens) outcomes 0

end Push
end Sahay
