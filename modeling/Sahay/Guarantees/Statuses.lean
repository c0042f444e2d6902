import Sahay.Refinement.System

/-!
# The statuses of requests, offers and matches agree

Six modules write the three statuses by hand.  In every reached state a request
in offering has exactly one open offer, a request in matched exactly one active
match, and no other request has either.
-/

namespace Sahay

namespace Db

/-- The open offers and the active matches of a request are those of its status. -/
structure StatusesAgree (db : Db) (rid : RequestId) (r : Request) : Prop where
  offering : r.status = .offering ↔ openCount db.matchOffers rid = 1
  matched : r.status = .matched ↔ activeCount db.matchRows rid = 1
  noOpenOffer : r.status ≠ .offering → openCount db.matchOffers rid = 0
  noActiveMatch : r.status ≠ .matched → activeCount db.matchRows rid = 0

theorem StatusesAgree.of_coupledAt {db : Db} {rid : RequestId} {r : Request}
    (h : CoupledAt (some r.status) (openCount db.matchOffers rid)
      (activeCount db.matchRows rid)) : db.StatusesAgree rid r := by
  obtain ⟨hopen, hactive⟩ := h
  simp only [Option.some.injEq] at hopen hactive
  constructor
  · rw [hopen]
    split_ifs with hoffering <;> simp [hoffering]
  · rw [hactive]
    split_ifs with hmatched <;> simp [hmatched]
  · intro hne
    rw [hopen, if_neg hne]
  · intro hne
    rw [hactive, if_neg hne]

/-- The statuses agree in every reached state. -/
theorem statuses_agree {db : Db} (h : db.Reached) (rid : RequestId) (r : Request)
    (hr : db.requests.lookup rid = some r) : db.StatusesAgree rid r := by
  have hcoupled := (Reached.consistent h).exchange.coupled rid
  rw [statusOf_some hr] at hcoupled
  exact .of_coupledAt hcoupled

/-- The request of an active match. -/
theorem statuses_agree_oneMatch :
    let db := runFrom Db.step Db.empty SmallEvent.oneMatch
    ∃ r, db.requests.lookup 20 = some r ∧ r.status = .matched ∧ db.StatusesAgree 20 r := by
  have hr : ∃ r, (runFrom Db.step Db.empty SmallEvent.oneMatch).requests.lookup 20 = some r ∧
      r.status = .matched := by
    have hstatus : statusOf (runFrom Db.step Db.empty SmallEvent.oneMatch).requests 20 =
        some .matched := by decide +kernel
    exact Option.map_eq_some_iff.mp hstatus
  obtain ⟨r, hr, hmatched⟩ := hr
  exact ⟨r, hr, hmatched, statuses_agree ⟨_, rfl⟩ 20 r hr⟩

end Db
end Sahay
