import Sahay.Server.Locks

/-!
# Deadlock freedom

Transactions that lock in the global order never wait for each other in a circle.
The loops that supersede open offers do so under the lock of the request, so they
are in order only when there is no offer to supersede; the matching pass locks the
offers it will supersede first, and is in order when it meets no other.
-/

namespace Sahay

/-- The transaction locks in the global order. -/
def Txn.InOrder : Txn → Prop
  | .runMatchPass _ selected branch =>
      selected.Pairwise (· < ·) ∧ branch.offers ⊆ selected
  | .cancelOpenRequest _ superseded => superseded = []
  | .confirmCompletion m (some true) => m.helperId ≤ m.requesterId
  | .disableEvent _ opened | .deletionCancelRequests opened =>
      (opened.map Prod.fst).Pairwise (· < ·) ∧ ∀ e ∈ opened, e.2 = []
  | .deletionZeroInventory items => items.Pairwise (· < ·)
  | _ => True

theorem Row.lt_of_kind {kind kind' id id' : ℕ} (h : kind < kind') :
    toLex (kind, id) < toLex (kind', id') :=
  Prod.Lex.toLex_lt_toLex.mpr (.inl h)

namespace Locking

variable {held : List Row}

theorem AscendingFrom.of_keys {row : ℕ → Row} {kind : ℕ}
    (hrank : ∀ id, (row id).rank = toLex (kind, id)) {ids : List ℕ} (hids : ids.Pairwise (· < ·))
    (hheld : ∀ h ∈ held, h.rank < toLex (kind, 0)) :
    AscendingFrom Row.rank held (ids.map row) := by
  apply AscendingFrom.of_pairwise
  · intro r hr h hh
    obtain ⟨id, -, rfl⟩ := List.mem_map.mp hr
    have hle : toLex (kind, 0) ≤ toLex (kind, id) :=
      Prod.Lex.toLex_mono ⟨le_refl kind, Nat.zero_le id⟩
    rw [hrank]
    exact (hheld h hh).trans_le hle
  · rw [List.pairwise_map]
    refine hids.imp fun {id id'} hlt => ?_
    rw [hrank, hrank, Prod.Lex.toLex_lt_toLex]
    exact .inr ⟨rfl, hlt⟩

theorem ascendingFrom_singleton {r : Row} :
    AscendingFrom Row.rank held [r] ↔ r ∈ held ∨ ∀ h ∈ held, h.rank < r.rank :=
  and_iff_left trivial

theorem ascendingFrom_closeOpenRequests {opened : List (RequestId × List OfferId)}
    (hsorted : (opened.map Prod.fst).Pairwise (· < ·)) (hnone : ∀ e ∈ opened, e.2 = [])
    (hheld : ∀ h ∈ held, h.rank < toLex (2, 0)) :
    AscendingFrom Row.rank held (closeOpenRequestsLocks opened) := by
  have hfront : opened.map (fun e => Row.request e.1) = (opened.map Prod.fst).map .request := by
    rw [List.map_map]
    rfl
  rw [closeOpenRequestsLocks, ascendingFrom_append]
  constructor
  · rw [hfront]
    exact AscendingFrom.of_keys (fun _ => rfl) hsorted hheld
  · refine AscendingFrom.of_subset fun r hr => ?_
    obtain ⟨e, he, hmem⟩ := List.mem_flatMap.mp hr
    rw [hnone e he] at hmem
    obtain rfl : r = Row.request e.1 := by simpa using hmem
    exact List.mem_append_left _ (List.mem_reverse.mpr (List.mem_map_of_mem he))

end Locking

open Locking

namespace MatchRefs

variable (m : MatchRefs)

theorem settle_ascending (written : Option MatchId) (hwritten : ∀ id ∈ written, id = m.matchId)
    {disputed : Bool} (hpeers : disputed = true → m.helperId ≤ m.requesterId) :
    AscendingFrom Row.rank []
      (m.lockMatchRows ++ written.toList.map .matchRow ++ m.settleLocked disputed) := by
  have hpeers' : disputed = true → m.requesterId = m.helperId ∨ m.helperId < m.requesterId :=
    fun hdisputed => (hpeers hdisputed).eq_or_lt.imp_left Eq.symm
  have hlocked : ∀ l, (l = [] ∨ l = [Row.matchRow m.matchId]) → AscendingFrom Row.rank []
      (m.lockMatchRows ++ l ++ m.settleLocked disputed) := by
    rintro l (rfl | rfl) <;> cases disputed <;>
      simp [lockMatchRows, settleLocked, AscendingFrom, Row.rank, Prod.Lex.toLex_lt_toLex,
        hpeers']
  cases written with
  | none => exact hlocked [] (.inl rfl)
  | some id =>
      obtain rfl := hwritten id rfl
      exact hlocked _ (.inr rfl)

theorem cancel_ascending (abandoned : Bool) :
    AscendingFrom Row.rank [] (m.lockMatchRows ++ m.cancelMatchLocked abandoned) := by
  cases abandoned <;>
    simp [lockMatchRows, cancelMatchLocked, AscendingFrom, Row.rank, Prod.Lex.toLex_lt_toLex]

end MatchRefs

theorem PassBranch.ascending {requestId : RequestId} {selected : List OfferId}
    {branch : PassBranch} (hsorted : selected.Pairwise (· < ·))
    (hoffers : branch.offers ⊆ selected) :
    AscendingFrom Row.rank []
      (selected.map Row.matchOffer ++ [.request requestId] ++ branch.locks requestId) := by
  have hheld : ∀ ids ⊆ selected, ids.map Row.matchOffer ++ [Row.request requestId] ⊆
      (selected.map Row.matchOffer ++ [Row.request requestId]).reverse ++ [] := by
    intro ids hids r hr
    rw [List.append_nil, List.mem_reverse]
    rcases List.mem_append.mp hr with hoffer | hrequest
    · exact List.mem_append_left _ (List.map_subset _ hids hoffer)
    · exact List.mem_append_right _ hrequest
  have hbelow : ∀ h ∈ selected.map Row.matchOffer, h.rank < Row.rank (.request requestId) := by
    intro h hh
    obtain ⟨id, -, rfl⟩ := List.mem_map.mp hh
    exact Row.lt_of_kind (by decide)
  rw [ascendingFrom_append, ascendingFrom_append]
  refine ⟨⟨.of_keys (fun _ => rfl) hsorted (by simp), ?_⟩, ?_⟩
  · rw [ascendingFrom_singleton]
    exact .inr fun h hh => hbelow h (by simpa using hh)
  · cases branch with
    | leave => trivial
    | expire superseded => exact .of_subset (hheld _ hoffers)
    | resume swept offeredTo =>
        rw [locks, ascendingFrom_append]
        refine ⟨.of_subset (hheld _ hoffers), ?_⟩
        cases offeredTo with
        | none => trivial
        | some helperId =>
            refine ascendingFrom_singleton.mpr (.inr fun h hh => ?_)
            simp only [List.append_nil, List.mem_append, List.mem_reverse, List.mem_map,
              List.mem_singleton] at hh
            rcases hh with (⟨id, -, rfl⟩ | rfl) | ⟨id, -, rfl⟩ | rfl <;>
              exact Row.lt_of_kind (by decide)

theorem Txn.InOrder.ascending {t : Txn} (h : t.InOrder) : AscendingFrom Row.rank [] t.locks := by
  cases t with
  | runMatchPass requestId selected branch => exact PassBranch.ascending h.1 h.2
  | cancelOpenRequest requestId superseded =>
      obtain rfl : superseded = [] := h
      simp [locks, AscendingFrom]
  | confirmCompletion m settles =>
      cases settles with
      | none => simp [locks, MatchRefs.lockMatchRows, AscendingFrom, Row.rank,
          Prod.Lex.toLex_lt_toLex]
      | some disputed =>
          refine m.settle_ascending (some m.matchId) (fun _ hid => (Option.some.inj hid).symm) ?_
          rintro rfl
          exact h
  | autoFinalizeMatch m => exact m.settle_ascending none (by simp) (by simp)
  | cancelMatch m abandoned => exact m.cancel_ascending abandoned
  | cancelMatchForModeration m => exact m.cancel_ascending false
  | disableEvent eventId opened =>
      refine ⟨.inr (by simp), ascendingFrom_closeOpenRequests h.1 h.2 fun r hr => ?_⟩
      obtain rfl := List.mem_singleton.mp hr
      exact Row.lt_of_kind (by decide)
  | deletionCancelRequests opened =>
      exact ascendingFrom_closeOpenRequests h.1 h.2 (by simp)
  | deletionZeroInventory items => exact .of_keys (fun _ => rfl) h (by simp)
  | acceptOffer offerId requestId itemId helperId reserves =>
      cases reserves <;> simp [locks, AscendingFrom, Row.rank, Prod.Lex.toLex_lt_toLex]
  | declineOffer offerId requestId helperId eventId alsoStopReceiving =>
      cases alsoStopReceiving <;>
        simp [locks, AscendingFrom, Row.rank, Prod.Lex.toLex_lt_toLex]
  | cancelMatchedRequest m =>
      simp [locks, MatchRefs.lockMatchRows, MatchRefs.cancelMatchLocked, AscendingFrom, Row.rank,
        Prod.Lex.toLex_lt_toLex]
  | expireOffer | renewRequest | continueRequest | anonymize =>
      simp [locks, AscendingFrom, Row.rank, Prod.Lex.toLex_lt_toLex]

/-! ## Deadlock freedom -/

/-- The lock sequences of the transactions that satisfy `C`. -/
def Txn.programs (C : Txn → Prop) : Set (List Row) := {l | ∃ t, C t ∧ t.locks = l}

/-- Transactions that lock in the global order never come to wait for each other in
a circle, however many there are and however their locks interleave. -/
theorem Txn.inOrder_deadlockFree {τ : Type} [DecidableEq τ] {s : τ → Locking Row}
    (h : Reached (programs InOrder) s) : DeadlockFree s := by
  have hprograms : ∀ program ∈ programs InOrder, AscendingFrom Row.rank [] program := by
    rintro _ ⟨t, ht, rfl⟩
    exact ht.ascending
  exact h.deadlockFree hprograms

def accepting : ℕ → Locking Row :=
  Function.update (fun _ => {}) 0
    { held := [.matchOffer 30], todo := (Txn.acceptOffer 30 20 10 2 true).locks.tail }

def halfway (todo : List Row) : ℕ → Locking Row :=
  Function.update accepting 1 { held := [.request 20], todo := todo }

theorem accepting_reached {C : Txn → Prop} (haccept : C (.acceptOffer 30 20 10 2 true)) :
    Reached (Txn.programs C) accepting := by
  let started : ℕ → Locking Row :=
    Function.update (fun _ => {}) 0 { todo := (Txn.acceptOffer 30 20 10 2 true).locks }
  have hbegin : Step (Txn.programs C) (fun _ => {}) started :=
    .begin 0 _ rfl ⟨_, haccept, rfl⟩
  have hlock : Step (Txn.programs C) started _ := .lock 0 (.matchOffer 30) _ rfl
    fun t ht => by
      simp only [started, Function.update_of_ne ht]
      exact List.not_mem_nil
  rw [Function.update_idem] at hlock
  exact .tail (.single hbegin) hlock

theorem halfway_reached {C : Txn → Prop} (other : Txn) {todo : List Row}
    (haccept : C (.acceptOffer 30 20 10 2 true)) (hother : C other)
    (hlocks : other.locks = .request 20 :: todo) :
    Reached (Txn.programs C) (halfway todo) := by
  let started : ℕ → Locking Row := Function.update accepting 1 { todo := other.locks }
  have hbegin : Step (Txn.programs C) accepting started :=
    .begin 1 _ rfl ⟨other, hother, rfl⟩
  have htodo : (started 1).todo = .request 20 :: todo := hlocks
  have hlock : Step (Txn.programs C) started _ := .lock 1 (.request 20) todo htodo
    fun t ht => by
      simp only [started, Function.update_of_ne ht, accepting, Function.update_apply]
      split_ifs <;> simp
  rw [Function.update_idem] at hlock
  exact .tail (.tail (accepting_reached haccept) hbegin) hlock

theorem Txn.inOrder_deadlockFree_renew : DeadlockFree (halfway [.request 20]) :=
  Txn.inOrder_deadlockFree (halfway_reached (.renewRequest 20) trivial trivial rfl)

/-- An acceptance holds its offer and waits for the request; the requester's
cancellation holds the request and waits for the offer. -/
theorem Txn.deadlocks : ¬ ∀ s : ℕ → Locking Row,
    Reached (programs fun _ => True) s → DeadlockFree s := by
  intro h
  have hreached : Reached (programs fun _ => True) (halfway [.matchOffer 30, .request 20]) :=
    halfway_reached (.cancelOpenRequest 20 [30]) trivial trivial rfl
  have hwaits : WaitsFor (halfway [.matchOffer 30, .request 20]) 0 1 :=
    ⟨by decide, .request 20, List.mem_singleton_self _, rfl⟩
  have hwaits' : WaitsFor (halfway [.matchOffer 30, .request 20]) 1 0 :=
    ⟨by decide, .matchOffer 30, List.mem_singleton_self _, rfl⟩
  exact h _ hreached 0 (.tail (.single hwaits) hwaits')

end Sahay
