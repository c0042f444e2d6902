import Sahay.Guarantees.Reliability

/-!
# The order of the candidates

The score adds the distance, the recent offers, the reliability and the jitter.  Reliability
and jitter together stay below one step of the distance, the recent offers do not: they move
a located candidate behind those whose location is unknown.
-/

namespace Sahay

def ReliabilityCounters.Reached (c : ReliabilityCounters) : Prop :=
  ∃ db : Db, db.Reached ∧ ∃ helperId, db.counters helperId = c

theorem ReliabilityCounters.Reached.rankingReliability_lt_one {c : ReliabilityCounters}
    (h : c.Reached) : c.rankingReliability < 1 := by
  obtain ⟨db, hdb, helperId, rfl⟩ := h
  exact ReliabilityCounters.rankingReliability_lt_one _ (hdb.responded_le_received helperId)

/-- Every draw is in `[0, 1)`. -/
def IsJitter (rng : ℕ → ℚ) : Prop := ∀ i, 0 ≤ rng i ∧ rng i < 1

/-! ## The order is by score -/

section Order

variable {cs : List Candidate} {rng : ℕ → ℚ}

/-- What `rankCandidates` sorts. -/
def scored (cs : List Candidate) (rng : ℕ → ℚ) : List (Candidate × ℚ) :=
  cs.zipIdx.map fun c => (c.1, scoreCandidate c.1 (rng c.2))

theorem mem_scored {e : Candidate × ℚ} :
    e ∈ scored cs rng ↔ ∃ i, cs[i]? = some e.1 ∧ e.2 = scoreCandidate e.1 (rng i) := by
  simp only [scored, List.mem_map, Prod.exists, List.mem_zipIdx_iff_getElem?]
  constructor
  · rintro ⟨c, i, hc, rfl⟩
    exact ⟨i, hc, rfl⟩
  · rintro ⟨i, hc, hscore⟩
    exact ⟨e.1, i, hc, Prod.ext rfl hscore.symm⟩

/-- A relation that the scores rule out never holds in the order. -/
theorem rankCandidates_pairwise {r : Candidate → Candidate → Prop}
    (h : ∀ i j a b, cs[i]? = some a → cs[j]? = some b →
      scoreCandidate a (rng i) ≤ scoreCandidate b (rng j) → r a b) :
    (rankCandidates cs rng).Pairwise r := by
  have hsorted := List.pairwise_insertionSort (fun a b : Candidate × ℚ => a.2 ≤ b.2)
    (scored cs rng)
  apply List.pairwise_map.mpr
  apply hsorted.imp_of_mem
  intro a b ha hb hle
  obtain ⟨i, hi, hscore⟩ := mem_scored.mp ((List.mem_insertionSort _).mp ha)
  obtain ⟨j, hj, hscore'⟩ := mem_scored.mp ((List.mem_insertionSort _).mp hb)
  rw [hscore, hscore'] at hle
  exact h i j a.1 b.1 hi hj hle

end Order

/-! ## Distance buckets -/

/-- Both are located and equally often asked, and the first is in a nearer bucket. -/
def Candidate.NearerPeer (a b : Candidate) : Prop :=
  a.distanceM.isSome = true ∧ b.distanceM.isSome = true ∧ a.recentOffers = b.recentOffers ∧
    (bucketForDistanceM a.distanceM).rank < (bucketForDistanceM b.distanceM).rank

theorem ProximityBucket.rank_step {p q : ProximityBucket} (h : p.rank < q.rank) :
    p.rank + 1 ≤ q.rank := by
  revert h
  cases p <;> cases q <;> norm_num [ProximityBucket.rank]

theorem Candidate.NearerPeer.score_lt {a b : Candidate} (h : a.NearerPeer b)
    (hb : b.counters.Reached) {jitter jitter' : ℚ}
    (hjitter : jitter < 1) (hjitter' : 0 ≤ jitter') :
    scoreCandidate a jitter < scoreCandidate b jitter' := by
  obtain ⟨-, -, hrecent, hrank⟩ := h
  have hstep := ProximityBucket.rank_step hrank
  have hlow := a.counters.rankingReliability_pos
  have hhigh := hb.rankingReliability_lt_one
  unfold scoreCandidate distanceWeight reliabilityWeight
  rw [hrecent]
  linarith

/-- The candidates are put in an order, and of two located ones who were equally often asked, the
one in the nearer bucket comes first. -/
theorem rankCandidates_nearer_first {cs : List Candidate} {rng : ℕ → ℚ}
    (hcs : ∀ c ∈ cs, c.counters.Reached) (hrng : IsJitter rng) :
    (rankCandidates cs rng).Perm cs ∧
      (rankCandidates cs rng).Pairwise fun first later => ¬later.NearerPeer first := by
  refine ⟨rankCandidates_perm cs rng, ?_⟩
  apply rankCandidates_pairwise
  intro i j a b ha hb hle hnearer
  have hlt := hnearer.score_lt (hcs a (List.mem_of_getElem? ha)) (hrng j).2 (hrng i).1
  exact absurd hle (not_le.mpr hlt)

theorem reached_fresh : ReliabilityCounters.Reached {} :=
  ⟨Db.empty, ⟨[], rfl⟩, 0, rfl⟩

/-- A candidate without any history. -/
def freshCandidate (helperId : UserId) (distanceM : Option ℚ) (recentOffers : ℕ) : Candidate :=
  { helperId := helperId
    itemId := helperId
    availableQty := 1
    distanceM := distanceM
    recentOffers := recentOffers
    counters := {} }

/-- The nearer of two candidates comes first, with the worse jitter. -/
theorem rankCandidates_nearer_first_two :
    let cs := [freshCandidate 1 (some 900) 0, freshCandidate 2 (some 100) 0]
    let rng (i : ℕ) : ℚ := if i = 1 then 9 / 10 else 0
    (freshCandidate 2 (some 100) 0).NearerPeer (freshCandidate 1 (some 900) 0) ∧
      (rankCandidates cs rng).Perm cs ∧
        (rankCandidates cs rng).Pairwise fun first later => ¬later.NearerPeer first := by
  intro cs rng
  refine ⟨⟨rfl, rfl, rfl, by decide +kernel⟩, rankCandidates_nearer_first (fun c hc => ?_)
    fun i => ?_⟩
  · obtain rfl | rfl : c = freshCandidate 1 (some 900) 0 ∨ c = freshCandidate 2 (some 100) 0 := by
      simpa [cs] using hc
    · exact reached_fresh
    · exact reached_fresh
  · dsimp only [rng]
    split_ifs <;> norm_num

/-! ## Unknown locations -/

def Candidate.handicap (c : Candidate) : ℚ :=
  fairnessWeight * (min c.recentOffers fairnessRecentOffersCap : ℕ) -
    reliabilityWeight * c.counters.rankingReliability

/-- The handicap of the located candidate, with a full jitter, stays within the steps to the
rank of unknown locations. -/
def Candidate.WithinBucket (a b : Candidate) : Prop :=
  a.handicap + 1 ≤
    distanceWeight * (ProximityBucket.unknown.rank - (bucketForDistanceM a.distanceM).rank) +
      b.handicap

instance (a b : Candidate) : Decidable (a.WithinBucket b) :=
  inferInstanceAs (Decidable (_ ≤ _))

/-- A located candidate who was not asked more often stays within their bucket. -/
theorem Candidate.withinBucket_of_recent {a b : Candidate} (hlocated : a.distanceM.isSome = true)
    (hb : b.counters.Reached)
    (hrecent : min a.recentOffers fairnessRecentOffersCap ≤
      min b.recentOffers fairnessRecentOffersCap) : a.WithinBucket b := by
  have hlow := a.counters.rankingReliability_pos
  have hhigh := hb.rankingReliability_lt_one
  have hcast : ((min a.recentOffers fairnessRecentOffersCap : ℕ) : ℚ) ≤
      (min b.recentOffers fairnessRecentOffersCap : ℕ) := Nat.cast_le.mpr hrecent
  have hrank : (bucketForDistanceM a.distanceM).rank ≤ 3 := by
    obtain ⟨d, hd⟩ := Option.isSome_iff_exists.mp hlocated
    rw [hd, bucketForDistanceM]
    split_ifs <;> norm_num [ProximityBucket.rank]
  unfold WithinBucket handicap distanceWeight fairnessWeight reliabilityWeight
  change _ ≤ 3 * (4 - (bucketForDistanceM a.distanceM).rank) + _
  linarith

end Sahay
