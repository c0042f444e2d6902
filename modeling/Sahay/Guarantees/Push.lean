import Sahay.Server.Push

/-!
# Whose token a ticket condemns

Tokens are filtered, cut into batches and matched to tickets by their index.  The indices
agree: a token is reported for the ticket at its own place in the answer to its own batch.
-/

namespace Sahay
namespace Push

variable {outcomes : ℕ → BatchOutcome} {token : String}

theorem ticketFailure_eq_some_iff {batch : List PushToken} {idx : ℕ} {ticket : Ticket} :
    ticketFailure batch idx ticket = some token ↔
      ∃ t, batch[idx]? = some t ∧ t.token = token ∧ token ≠ "" ∧ ticket.isPermanent = true := by
  simp only [ticketFailure, Option.bind_eq_bind, Option.bind_eq_some_iff, Option.guard_eq_some']
  constructor
  · rintro ⟨t, ht, -, hne, -, hperm, hsome⟩
    obtain rfl := Option.some.inj hsome
    exact ⟨t, ht, rfl, hne, hperm⟩
  · rintro ⟨t, ht, rfl, hne, hperm⟩
    exact ⟨t, ht, (), hne, (), hperm, rfl⟩

/-- The ticket at index `idx` of the answer to batch `n`. -/
def ticketAt (outcomes : ℕ → BatchOutcome) (n idx : ℕ) : Option Ticket := (outcomes n).data[idx]?

/-- The token at place `place` is dead, by the ticket at its index in the answer to its batch. -/
def CondemnedAt (expoTokens : List PushToken) (outcomes : ℕ → BatchOutcome) (token : String)
    (place : ℕ) : Prop :=
  ∃ t ticket, expoTokens[place]? = some t ∧ t.token = token ∧
    ticketAt outcomes (place / expoBatchSize) (place % expoBatchSize) = some ticket ∧
    ticket.isPermanent = true

theorem mem_batchFailures {expoTokens : List PushToken} {n : ℕ} :
    token ∈ batchFailures ((expoTokens.drop (n * expoBatchSize)).take expoBatchSize) (outcomes n) ↔
      token ≠ "" ∧ ∃ idx < expoBatchSize,
        CondemnedAt expoTokens outcomes token (n * expoBatchSize + idx) := by
  have hbatch {idx : ℕ} (hidx : idx < expoBatchSize) :
      ((expoTokens.drop (n * expoBatchSize)).take expoBatchSize)[idx]? =
        expoTokens[n * expoBatchSize + idx]? := by
    rw [List.getElem?_take_of_lt hidx, List.getElem?_drop]
  have hplace {idx : ℕ} (hidx : idx < expoBatchSize) :
      (n * expoBatchSize + idx) / expoBatchSize = n ∧
        (n * expoBatchSize + idx) % expoBatchSize = idx := by
    unfold expoBatchSize at *
    omega
  simp only [batchFailures, List.mem_filterMap, Prod.exists, List.mem_zipIdx_iff_getElem?,
    ticketFailure_eq_some_iff]
  constructor
  · rintro ⟨ticket, idx, hticket, t, ht, htoken, hne, hperm⟩
    have hidx : idx < expoBatchSize := by
      have hlt := (List.getElem?_eq_some_iff.mp ht).1
      rw [List.length_take] at hlt
      omega
    refine ⟨hne, idx, hidx, t, ticket, hbatch hidx ▸ ht, htoken, ?_, hperm⟩
    rw [(hplace hidx).1, (hplace hidx).2]
    exact hticket
  · rintro ⟨hne, idx, hidx, t, ticket, ht, htoken, hticket, hperm⟩
    rw [(hplace hidx).1, (hplace hidx).2] at hticket
    exact ⟨ticket, idx, hticket, t, (hbatch hidx).trans ht, htoken, hne, hperm⟩

/-- From batch `n` on, the tokens of the places from there on. -/
theorem mem_failuresFrom {expoTokens : List PushToken} {i n : ℕ} (hi : i = n * expoBatchSize) :
    token ∈ failuresFrom expoTokens outcomes i ↔
      token ≠ "" ∧ ∃ place, i ≤ place ∧ CondemnedAt expoTokens outcomes token place := by
  fun_induction failuresFrom expoTokens outcomes i generalizing n with
  | case1 i hlt ih =>
    subst hi
    have hbatch : n * expoBatchSize / expoBatchSize = n := Nat.mul_div_cancel n (by decide)
    rw [List.mem_append, hbatch, mem_batchFailures, ih (Nat.succ_mul n _).symm, ← and_or_left]
    refine and_congr_right fun _ => ⟨?_, ?_⟩
    · rintro (⟨idx, -, hat⟩ | ⟨place, hle, hat⟩)
      · exact ⟨_, Nat.le_add_right _ _, hat⟩
      · exact ⟨place, Nat.le_of_add_right_le hle, hat⟩
    · rintro ⟨place, hle, hat⟩
      rcases Nat.lt_or_ge place (n * expoBatchSize + expoBatchSize) with hlt | hge
      · refine .inl ⟨place - n * expoBatchSize, by omega, ?_⟩
        rwa [Nat.add_sub_cancel' hle]
      · exact .inr ⟨place, hge, hat⟩
  | case2 i hend =>
    -- no place is left
    refine iff_of_false List.not_mem_nil ?_
    rintro ⟨-, place, hle, t, -, ht, -⟩
    exact hend (Nat.lt_of_le_of_lt hle (List.getElem?_eq_some_iff.mp ht).1)

/-- A token is reported exactly if it is not empty and, at some place among the Expo tokens,
the ticket at its index in the answer to its batch says that it is dead. -/
theorem mem_send_iff (tokens : List PushToken) (outcomes : ℕ → BatchOutcome) (token : String) :
    token ∈ send tokens outcomes ↔
      token ≠ "" ∧ ∃ place t ticket, (expoTokens tokens)[place]? = some t ∧ t.token = token ∧
        (outcomes (place / 100)).data[place % 100]? = some ticket ∧
        ticket.status = "error" ∧
        (ticket.error = some "DeviceNotRegistered" ∨ ticket.error = some "InvalidCredentials") := by
  have hperm (ticket : Ticket) : ticket.isPermanent = true ↔ ticket.status = "error" ∧
      (ticket.error = some "DeviceNotRegistered" ∨
        ticket.error = some "InvalidCredentials") := by
    cases herror : ticket.error <;> simp [Ticket.isPermanent, expoPermanentErrors, herror]
  rw [send, mem_failuresFrom (n := 0) (by simp)]
  simp only [CondemnedAt, ticketAt, Nat.zero_le, true_and, hperm, expoBatchSize]

/-- An empty token is not reported, whatever its ticket says. -/
theorem empty_token_kept :
    let tokens : List PushToken := [⟨"expo", ""⟩]
    let outcomes (_ : ℕ) : BatchOutcome := .tickets [⟨"error", some "DeviceNotRegistered"⟩]
    CondemnedAt (expoTokens tokens) outcomes "" 0 ∧ "" ∉ send tokens outcomes := by
  intro tokens outcomes
  refine ⟨⟨_, _, rfl, rfl, rfl, by decide⟩, ?_⟩
  rw [send, mem_failuresFrom (n := 0) (by simp)]
  exact fun hmem => hmem.1 rfl

end Push
end Sahay
