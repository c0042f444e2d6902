import Sahay.Refinement.System

/-!
# What operations count

The counters are bumped from three modules, and no bump looks at the others.  What keeps
them apart is the state beside them: an answer is counted only for an open offer, whose
reception was counted, and the end of a match only for an active match, whose acceptance
was counted.  Every operation is a run of statements and bumps of this kind.
-/

namespace Sahay

def ReliabilityCounters.ended (c : ReliabilityCounters) : ℕ :=
  c.completed + c.cancelledPreMeeting + c.cancelledPostMeeting

namespace Db

def counters (db : Db) (userId : UserId) : ReliabilityCounters :=
  rowToCounters (db.reliabilityStats.lookup userId)

def openOffersTo (db : Db) (userId : UserId) : ℕ :=
  db.matchOffers.count fun _ o => o.helperId = userId && o.status = .offered

def helperMatches (db : Db) (userId : UserId) : ℕ :=
  db.matchRows.count fun _ m => m.helperId = userId && m.status = .active

variable {db db' : Db}

theorem counters_bump (db : Db) (helperId : UserId) (increments : ReliabilityCounters)
    (now : Time) (userId : UserId) :
    (db.bump helperId increments now).counters userId =
      if helperId = userId then db.counters userId + increments else db.counters userId := by
  by_cases h : helperId = userId
  · rw [counters, lookup_bump, if_pos h.symm, if_pos h]
    rfl
  · rw [counters, lookup_bump, if_neg (Ne.symm h), if_neg h]
    rfl

/-! ## What counts -/

/-- A statement that leaves the counters alone and opens nothing, or a bump that the open
offers and the active matches of its helper account for. -/
inductive Counts (db db' : Db) : Prop
  | quiet (hstats : db'.reliabilityStats = db.reliabilityStats)
      (hopen : ∀ u, db'.openOffersTo u ≤ db.openOffersTo u)
      (hactive : ∀ u, db'.helperMatches u ≤ db.helperMatches u)
  | bump (helperId : UserId) (increments : ReliabilityCounters) (now : Time)
      (hstats : db'.reliabilityStats = (db.bump helperId increments now).reliabilityStats)
      (haccepted : increments.accepted ≤ increments.offersResponded30d)
      (hopen : ∀ u,
        db'.openOffersTo u + (if helperId = u then increments.offersResponded30d else 0) ≤
          db.openOffersTo u + if helperId = u then increments.offersReceived30d else 0)
      (hactive : ∀ u,
        db'.helperMatches u + (if helperId = u then increments.ended else 0) ≤
          db.helperMatches u + if helperId = u then increments.accepted else 0)

abbrev CountRun : Db → Db → Prop := Relation.ReflTransGen Counts

theorem CountRun.invariant {P : Db → Prop} (hstep : ∀ db db', P db → Counts db db' → P db')
    (hdb : P db) (h : CountRun db db') : P db' := by
  induction h with
  | refl => exact hdb
  | tail _ hlast ih => exact hstep _ _ ih hlast

theorem CountRun.same (hstats : db'.reliabilityStats = db.reliabilityStats)
    (hoffers : db'.matchOffers = db.matchOffers) (hmatches : db'.matchRows = db.matchRows) :
    CountRun db db' := by
  have hopen (u : UserId) : db'.openOffersTo u = db.openOffersTo u := by
    rw [openOffersTo, hoffers, openOffersTo]
  have hactive (u : UserId) : db'.helperMatches u = db.helperMatches u := by
    rw [helperMatches, hmatches, helperMatches]
  exact .single (.quiet hstats (fun u => (hopen u).le) fun u => (hactive u).le)

/-! ## Offers and matches -/

theorem openOffersTo_closeOffer {oid : OfferId} {o : MatchOffer}
    (ho : db.matchOffers.lookup oid = some o) (hoffered : o.status = .offered)
    {status : OfferStatus} (hstatus : status ≠ .offered) (now : Time) (u : UserId) :
    (db.closeOffer oid status now).openOffersTo u + (if o.helperId = u then 1 else 0) =
      db.openOffersTo u := by
  have hcount := Table.count_modify ho
    (fun o => { o with status := status, respondedAt := some now })
    fun _ o => o.helperId = u && o.status = .offered
  simp only [hoffered, hstatus, decide_true, decide_false, Bool.and_true, Bool.and_false,
    decide_eq_true_eq, Bool.false_eq_true, if_false, Nat.add_zero] at hcount
  exact hcount

theorem openOffersTo_le {f : OfferId → MatchOffer → MatchOffer}
    (hhelper : ∀ oid o, (f oid o).helperId = o.helperId)
    (hstatus : ∀ oid o, (f oid o).status = .offered → o.status = .offered) (u : UserId) :
    ({ db with matchOffers := db.matchOffers.mapVal f } : Db).openOffersTo u ≤
      db.openOffersTo u := by
  apply Table.count_le_count
  intro oid o' ho' hp
  obtain ⟨o, ho, rfl⟩ := Option.map_eq_some_iff.mp ((Table.lookup_mapVal _ _ _).symm.trans ho')
  rw [Bool.and_eq_true, decide_eq_true_eq, decide_eq_true_eq] at hp
  rw [hhelper] at hp
  exact ⟨o, ho, by rw [hp.1, hstatus oid o hp.2]; simp⟩

theorem closeOffer_counts (db : Db) (oid : OfferId) {status : OfferStatus}
    (hstatus : status ≠ .offered) (now : Time) : CountRun db (db.closeOffer oid status now) := by
  refine .single (.quiet rfl (openOffersTo_le (fun id o => ?_) fun id o h => ?_) fun u => le_rfl)
  · split_ifs <;> rfl
  · split_ifs at h
    · exact absurd h hstatus
    · exact h

theorem supersedeOffers_counts (db : Db) (requestId : RequestId) (now : Time) :
    CountRun db (db.supersedeOffers requestId now) := by
  refine .single (.quiet rfl (openOffersTo_le (fun id o => ?_) fun id o h => ?_) fun u => le_rfl)
  · split_ifs <;> rfl
  · split_ifs at h
    exact h

theorem helperMatches_closed {mid : MatchId} {m : Match} (hm : db.matchRows.lookup mid = some m)
    (hactive : m.status = .active) {set : Match → Match} (hclosed : (set m).status ≠ .active)
    (u : UserId) :
    (db.updateMatch mid set).helperMatches u + (if m.helperId = u then 1 else 0) =
      db.helperMatches u := by
  have hcount := Table.count_modify hm set fun _ m => m.helperId = u && m.status = .active
  simp only [hactive, hclosed, decide_true, decide_false, Bool.and_true, Bool.and_false,
    decide_eq_true_eq, Bool.false_eq_true, if_false, Nat.add_zero] at hcount
  exact hcount

theorem transitionRequest_counts {id : RequestId} {source target : RequestStatus}
    {actor : TransitionActor} {reason : Option String} {now : Time} {set : Request → Request}
    (h : db.transitionRequest id source target actor reason now set = .ok db') :
    CountRun db db' := by
  obtain ⟨-, r, -, -, rfl⟩ := transitionRequest_ok.mp h
  exact .same rfl rfl rfl

theorem updateInventoryItem_counts {id : ItemId} {set : InventoryItem → InventoryItem}
    (h : db.updateInventoryItem id set = .ok db') : CountRun db db' := by
  obtain ⟨item, -, -, rfl⟩ := updateInventoryItem_ok.mp h
  exact .same rfl rfl rfl

theorem insertSystemMessage_counts (db : Db) (env : Env) (cid : ConversationId)
    (senderId : UserId) (bodyKey : String) :
    CountRun db (db.insertSystemMessage env cid senderId bodyKey) :=
  .same rfl rfl rfl

/-! ## Requests and offers -/

section Operations

variable {env : Env} {effects : List Effect}

theorem closeOpenRequests_counts {target : RequestStatus} {actor : TransitionActor}
    {reason : String} {ids : List RequestId}
    (h : closeOpenRequests env target actor reason ids db = .ok db') : CountRun db db' := by
  induction ids generalizing db with
  | nil =>
      obtain rfl := pure_ok.mp h
      exact .refl
  | cons id ids ih =>
      obtain ⟨mid, hclose, hrest⟩ := bind_ok.mp h
      simp only [closeOpenRequest, bind_ok] at hclose
      obtain ⟨request, -, hmove⟩ := hclose
      have hclosed : CountRun db mid :=
        (supersedeOffers_counts db id env.now).trans (transitionRequest_counts hmove)
      exact hclosed.trans (ih hrest)

theorem createRequest_counts {auth : AuthContext} {input : CreateRequestInput}
    (h : db.createRequest env auth input = .ok (effects, db')) : CountRun db db' := by
  rcases createRequest_ok.mp h with ⟨-, -, rfl⟩ | ⟨-, ticket, -, -, hinsert⟩
  · exact .refl
  · simp only [insertRequest, bind_ok, pure_ok, Prod.mk.injEq] at hinsert
    obtain ⟨-, -, -, -, -, rfl⟩ := hinsert
    split
    · exact .same rfl rfl rfl
    · exact .same rfl rfl rfl

theorem declineOffer_counts {helperId : UserId} {offerId : OfferId} {alsoStopReceiving : Bool}
    (h : db.declineOffer env helperId offerId alsoStopReceiving = .ok (effects, db')) :
    CountRun db db' := by
  simp only [declineOffer, bind_ok] at h
  obtain ⟨o, hlock, request, -, h⟩ := h
  obtain ⟨ho, rfl, hoffered, -⟩ := lockPendingOffer_ok.mp hlock
  have hanswered : CountRun db
      ((db.closeOffer offerId .declined env.now).applyOfferResponded o.helperId env.now) := by
    refine .single (.bump o.helperId { offersResponded30d := 1 } env.now rfl (Nat.zero_le _)
      (fun u => ?_) fun u => ?_)
    · have hclosed := openOffersTo_closeOffer ho hoffered
        (show OfferStatus.declined ≠ .offered by decide) env.now u
      change (db.closeOffer offerId .declined env.now).openOffersTo u +
        (if o.helperId = u then 1 else 0) ≤ db.openOffersTo u + if o.helperId = u then 0 else 0
      rw [hclosed, ite_self]
      exact le_rfl
    · have hsame : ((db.closeOffer offerId .declined env.now).applyOfferResponded o.helperId
          env.now).helperMatches u = db.helperMatches u := rfl
      rw [hsame]
      exact le_rfl
  have hstopped (mid : Db) : CountRun mid
      (if alsoStopReceiving then mid.stopReceiving o.helperId request.eventId env.now
        else mid) := by
    split_ifs
    · exact .same rfl rfl rfl
    · exact .refl
  by_cases hoffering : request.status = .offering
  · rw [if_pos hoffering] at h
    simp only [bind_ok, pure_ok, Prod.mk.injEq] at h
    obtain ⟨mid, hmove, -, rfl⟩ := h
    exact (hanswered.trans (transitionRequest_counts hmove)).trans (hstopped mid)
  · rw [if_neg hoffering] at h
    simp only [bind_ok, pure_ok, Prod.mk.injEq] at h
    obtain ⟨_, rfl, -, rfl⟩ := h
    exact hanswered.trans (hstopped _)

theorem acceptOffer_counts {helperId : UserId} {offerId : OfferId} {draws : List (ℕ × ℕ)}
    {outcome : AcceptOutcome}
    (h : db.acceptOffer env helperId offerId draws = .ok (outcome, effects, db')) :
    CountRun db db' := by
  simp only [acceptOffer, bind_ok] at h
  obtain ⟨o, hlock, request, -, -, -, item, -, h⟩ := h
  obtain ⟨ho, rfl, hoffered, -⟩ := lockPendingOffer_ok.mp hlock
  generalize computeReserveQty o.qty (request.qty - request.qtyFulfilled)
    (if item.active = true then item.qtyOnHand - item.qtyReserved else 0)
    ((db.categories.lookup request.categoryId).elim false Category.fractional) = q at h
  by_cases hnone : q ≤ 0
  · rw [if_pos hnone] at h
    simp only [bind_ok, pure_ok, Prod.mk.injEq] at h
    obtain ⟨mid, hmove, -, -, rfl⟩ := h
    exact (closeOffer_counts _ _ (by decide) _).trans (transitionRequest_counts hmove)
  · rw [if_neg hnone] at h
    simp only [bind_ok, updateInventoryItem_ok, transitionRequest_ok, pure_ok,
      Prod.mk.injEq] at h
    obtain ⟨_, ⟨row, -, -, rfl⟩, aliases, -, -, -, _, ⟨-, r, -, -, rfl⟩, -, -, rfl⟩ := h
    refine .single (.bump o.helperId { accepted := 1, offersResponded30d := 1 } env.now rfl
      (Nat.le_refl _) (fun u => ?_) fun u => ?_)
    · have hclosed := openOffersTo_closeOffer ho hoffered
        (show OfferStatus.accepted ≠ .offered by decide) env.now u
      change (db.closeOffer offerId .accepted env.now).openOffersTo u +
        (if o.helperId = u then 1 else 0) ≤ db.openOffersTo u + if o.helperId = u then 0 else 0
      rw [hclosed, ite_self]
      exact le_rfl
    · have hput := Table.count_put (Table.freshKey_notMem db.matchRows env.uuid.matchRow)
        (o.newMatch offerId request o.helperId q aliases env.now)
        fun _ m => m.helperId = u && m.status = .active
      change ({ db with
        matchRows := db.matchRows.put (db.matchRows.freshKey env.uuid.matchRow)
          (o.newMatch offerId request o.helperId q aliases env.now) } : Db).helperMatches u +
        (if o.helperId = u then 0 else 0) ≤ db.helperMatches u + if o.helperId = u then 1 else 0
      rw [ite_self, Nat.add_zero, helperMatches, hput, Nat.add_comm]
      by_cases hu : o.helperId = u
      · simp [MatchOffer.newMatch, helperMatches, hu]
      · simp [MatchOffer.newMatch, helperMatches, hu]

theorem expireOffer_counts {offerId : OfferId}
    (h : db.expireOffer env offerId = .ok (effects, db')) : CountRun db db' := by
  have hclosed : CountRun db (db.closeOffer offerId .expired env.now) :=
    closeOffer_counts db offerId (by decide) env.now
  cases expireOffer_cases h with
  | keeps _ => exact .refl
  | resumes _ _ _ _ _ hmove => exact hclosed.trans (transitionRequest_counts hmove)
  | closes _ _ _ _ => exact hclosed

/-! ## Matching passes -/

variable {requestId : RequestId} {request : Request} {event : Event} {choices : PassChoices}

theorem createOffer_counts {w : Candidate} {offerQty : Qty}
    (h : db.createOffer env requestId request event w offerQty = .ok (effects, db')) :
    CountRun db db' := by
  obtain ⟨-, r, -, -, -, rfl⟩ := createOffer_ok.mp h
  let offer := newOffer env requestId event w offerQty
  refine .single (.bump w.helperId { offersReceived30d := 1 } env.now rfl (Nat.le_refl _)
    (fun u => ?_) fun u => ?_)
  · have hput := Table.count_put (Table.freshKey_notMem db.matchOffers env.uuid.matchOffer) offer
      fun _ o => o.helperId = u && o.status = .offered
    change ({ db with
      matchOffers := db.matchOffers.put (db.matchOffers.freshKey env.uuid.matchOffer)
        offer } : Db).openOffersTo u + (if w.helperId = u then 0 else 0) ≤
      db.openOffersTo u + if w.helperId = u then 1 else 0
    rw [ite_self, Nat.add_zero, openOffersTo, hput, Nat.add_comm]
    by_cases hu : w.helperId = u
    · simp [offer, newOffer, openOffersTo, hu]
    · simp [offer, newOffer, openOffersTo, hu]
  · change db.helperMatches u + (if w.helperId = u then 0 else 0) ≤
      db.helperMatches u + if w.helperId = u then 0 else 0
    exact le_rfl

theorem search_counts (h : db.search env requestId request event choices = .ok (effects, db')) :
    CountRun db db' := by
  unfold search at h
  split at h
  · exact createOffer_counts h
  · rcases widenOrRetry_ok.mp h with ⟨-, r, -, -, -, rfl⟩ | ⟨-, -, rfl⟩
    · exact .same rfl rfl rfl
    · exact .refl

theorem sweepOverdueOffer_counts (h : db.sweepOverdueOffer env requestId request = .ok db') :
    CountRun db db' := by
  cases hopen : db.openOffer requestId with
  | none =>
      simp only [sweepOverdueOffer, hopen] at h
      exact transitionRequest_counts h
  | some e =>
      simp only [sweepOverdueOffer, hopen] at h
      exact (closeOffer_counts _ _ (by decide) _).trans (transitionRequest_counts h)

theorem expireRequest_counts (h : db.expireRequest env requestId request = .ok (effects, db')) :
    CountRun db db' := by
  simp only [expireRequest, bind_ok, pure_ok, Prod.mk.injEq] at h
  obtain ⟨mid, hmove, -, rfl⟩ := h
  exact (supersedeOffers_counts _ _ _).trans (transitionRequest_counts hmove)

theorem resumeSearch_counts
    (h : db.resumeSearch env requestId request event choices = .ok (effects, db')) :
    CountRun db db' := by
  cases resumeSearch_cases h with
  | waits _ _ => exact .refl
  | sweeps _ _ hsweep hsearch =>
      exact (sweepOverdueOffer_counts hsweep).trans (search_counts hsearch)
  | searches _ hsearch => exact search_counts hsearch

theorem runMatchPass_counts (h : db.runMatchPass env requestId choices = .ok (effects, db')) :
    CountRun db db' := by
  cases runMatchPass_cases h with
  | idle _ => exact .refl
  | expires _ _ _ hexpire => exact expireRequest_counts hexpire
  | defers _ _ _ _ => exact .refl
  | resumes _ _ _ _ _ _ hresume => exact resumeSearch_counts hresume

/-! ## Matches -/

variable {matchId : MatchId} {locks : MatchLocks}

theorem applyDispute_counts (db : Db) (userId : UserId) (now : Time) :
    CountRun db (db.applyDispute userId now) := by
  refine .single (.bump userId { disputes := 1 } now rfl (Nat.le_refl _) (fun u => ?_)
    fun u => ?_)
  · change db.openOffersTo u + (if userId = u then 0 else 0) ≤
      db.openOffersTo u + if userId = u then 0 else 0
    exact le_rfl
  · change db.helperMatches u + (if userId = u then 0 else 0) ≤
      db.helperMatches u + if userId = u then 0 else 0
    exact le_rfl

/-- `db'` is `db` with the match closed, as far as counting goes. -/
structure ClosesMatch (db db' : Db) (mid : MatchId) (m : Match) : Prop where
  before : db.matchRows.lookup mid = some m
  active : m.status = .active
  after : ∃ set : Match → Match, (set m).status ≠ .active ∧
    db'.matchRows = (db.updateMatch mid set).matchRows
  offers : db'.matchOffers = db.matchOffers
  stats : db'.reliabilityStats = db.reliabilityStats

theorem ClosesMatch.helperMatches {mid : MatchId} {m : Match} (h : ClosesMatch db db' mid m)
    (u : UserId) :
    db'.helperMatches u + (if m.helperId = u then 1 else 0) = db.helperMatches u := by
  obtain ⟨set, hclosed, hrows⟩ := h.after
  have hcount := helperMatches_closed h.before h.active hclosed u
  rwa [Db.helperMatches, ← hrows] at hcount

theorem ClosesMatch.counts {mid : MatchId} {m : Match} (h : ClosesMatch db db' mid m) :
    CountRun db db' := by
  refine .single (.quiet h.stats (fun u => ?_) fun u => ?_)
  · rw [openOffersTo, h.offers, openOffersTo]
  · have hclosed := h.helperMatches u
    omega

theorem ClosesMatch.bump_counts {mid : MatchId} {m : Match} (h : ClosesMatch db db' mid m)
    {increments : ReliabilityCounters} (hended : increments.ended ≤ 1)
    (haccepted : increments.accepted = 0) (hresponded : increments.offersResponded30d = 0)
    (now : Time) : CountRun db (db'.bump m.helperId increments now) := by
  refine .single (.bump m.helperId increments now ?_ ?_ (fun u => ?_) fun u => ?_)
  · simp only [bump, h.stats]
  · rw [haccepted, hresponded]
  · have hopen : (db'.bump m.helperId increments now).openOffersTo u = db.openOffersTo u := by
      rw [openOffersTo, bump_toExchange, h.offers, openOffersTo]
    rw [hopen, hresponded, ite_self]
    exact Nat.le_add_right _ _
  · have hclosed := h.helperMatches u
    have hactive : (db'.bump m.helperId increments now).helperMatches u = db'.helperMatches u :=
      rfl
    rw [hactive, haccepted, ite_self]
    split_ifs at hclosed ⊢
    · omega
    · omega

theorem applySettlement_counts {mid : MatchId} {m m' : Match} (h : ClosesMatch db db' mid m)
    (hhelper : m'.helperId = m.helperId) (opts : SettleOptions) (now : Time) :
    CountRun db (db'.applySettlement m' opts now) := by
  have hcompleted : CountRun db (db'.applyCompleted m'.helperId opts.finalQty
      opts.requesterConfirmedPositive now) := by
    rw [hhelper]
    apply h.bump_counts _ rfl rfl
    simp only [ReliabilityCounters.ended]
    split_ifs <;> omega
  unfold applySettlement
  split_ifs
  · exact h.counts
  · exact (hcompleted.trans (applyDispute_counts _ _ _)).trans (applyDispute_counts _ _ _)
  · exact hcompleted

theorem settleLocked_counts {opts : SettleOptions} {m : Match}
    (hm : db.matchRows.lookup matchId = some m) (hactive : m.status = .active)
    (hhelper : locks.matchRow.helperId = m.helperId)
    (h : db.settleLocked env matchId locks opts = .ok (effects, db')) : CountRun db db' := by
  have hsettled {stocked mid : Db} {set : Match → Match} {credit : Request → Request}
      {target : RequestStatus}
      (hmove : (stocked.updateMatch matchId set).transitionRequest locks.matchRow.requestId
        locks.request.status target opts.actor (some opts.closeReason) env.now credit = .ok mid)
      (hset : (set m).status ≠ .active) (hrows : stocked.matchRows = db.matchRows)
      (hoffers : stocked.matchOffers = db.matchOffers)
      (hstats : stocked.reliabilityStats = db.reliabilityStats) (body : String) : CountRun db
        (((mid.updateConversation locks.conversationId fun c =>
          { c with expiresAt := some (env.now + conversationGraceMs) }).applySettlement
            locks.matchRow opts env.now).insertSystemMessage env locks.conversationId
              opts.senderUserId body) := by
    obtain ⟨-, r, -, -, rfl⟩ := transitionRequest_ok.mp hmove
    have hmodify : stocked.matchRows.modify matchId set = db.matchRows.modify matchId set := by
      rw [hrows]
    refine Relation.ReflTransGen.trans ?_ (insertSystemMessage_counts _ _ _ _ _)
    refine applySettlement_counts (?_ : ClosesMatch db _ matchId m) hhelper opts env.now
    exact ⟨hm, hactive, ⟨set, hset, hmodify⟩, hoffers, hstats⟩
  unfold settleLocked at h
  cases happlied : locks.matchRow.inventoryApplied with
  | true =>
      simp only [happlied, if_true, bind_ok, pure_ok, Prod.mk.injEq] at h
      obtain ⟨_, rfl, mid, hmove, -, rfl⟩ := h
      exact hsettled hmove (by exact settledMatchStatus_ne_active _ _) rfl rfl rfl _
  | false =>
      simp only [happlied, Bool.false_eq_true, if_false, bind_ok, updateInventoryItem_ok, pure_ok,
        Prod.mk.injEq] at h
      obtain ⟨_, ⟨item, -, -, rfl⟩, mid, hmove, -, rfl⟩ := h
      exact hsettled hmove (by exact settledMatchStatus_ne_active _ _) rfl rfl rfl _

theorem confirmCompletion_counts {viewerUserId : UserId} {qty : ConfirmQty}
    (h : db.confirmCompletion env matchId viewerUserId qty = .ok (effects, db')) :
    CountRun db db' := by
  have hconfirmed {locks : MatchLocks} (hlocks : db.lockMatchRows matchId = some locks)
      (side : Side) : CountRun db { db with
        matchRows :=
          db.matchRows.replace matchId (locks.matchRow.setConfirmedQty side qty.1) } := by
    refine .single (.quiet rfl (fun _ => le_rfl) fun u => ?_)
    have hcount := Table.count_replace (lockMatchRows_some hlocks).matchRow
      (locks.matchRow.setConfirmedQty side qty.1) fun _ m => m.helperId = u && m.status = .active
    have hhelper : (locks.matchRow.setConfirmedQty side qty.1).helperId =
        locks.matchRow.helperId := by
      cases side <;> rfl
    rw [hhelper, Match.setConfirmedQty_status, Nat.add_right_cancel_iff] at hcount
    exact hcount.le
  cases confirmCompletion_cases h with
  | replays _ _ _ => exact .refl
  | first hlocks _ _ _ _ _ _ => exact hconfirmed hlocks _
  | @second locks side _ _ _ hlocks _ hactive _ _ _ _ hsettle =>
      apply (hconfirmed hlocks side).trans
      have hrow := (Table.lookup_replace (lockMatchRows_some hlocks).matchRow
        (locks.matchRow.setConfirmedQty side qty.1) matchId).trans (if_pos rfl)
      have hstatus : (locks.matchRow.setConfirmedQty side qty.1).status = .active :=
        (Match.setConfirmedQty_status _ _ _).trans hactive
      exact settleLocked_counts hrow hstatus rfl hsettle

theorem autoFinalizeMatch_counts (h : db.autoFinalizeMatch env matchId = .ok (effects, db')) :
    CountRun db db' := by
  rcases db.autoFinalizeMatch_cases env matchId with
    ⟨hidle, -⟩ | ⟨locks, side, qty, hlocks, hactive, -, -, -, hsettle⟩
  · obtain ⟨-, rfl⟩ := Prod.mk.inj (pure_ok.mp (hidle.symm.trans h))
    exact .refl
  · rw [hsettle] at h
    exact settleLocked_counts (lockMatchRows_some hlocks).matchRow hactive rfl h

theorem applyCancellation_counts {mid : MatchId} {m : Match} (h : ClosesMatch db db' mid m)
    (opts : CancelOptions) (now : Time) : CountRun db (db'.applyCancellation m opts now) := by
  unfold applyCancellation
  split_ifs
  · apply h.bump_counts
    · cases m.postMeeting <;> exact le_rfl
    · cases m.postMeeting <;> rfl
    · cases m.postMeeting <;> rfl
  · exact h.counts

theorem cancelMatchLocked_counts {opts : CancelOptions}
    (hm : db.matchRows.lookup matchId = some locks.matchRow)
    (h : db.cancelMatchLocked env matchId locks opts = .ok (effects, db')) : CountRun db db' := by
  have hcancelled {stocked mid : Db} {set : Match → Match} {talk : Conversation → Conversation}
      {close : Request → Request}
      (hmove : ((stocked.updateMatch matchId set).updateConversation locks.conversationId
        talk).transitionRequest locks.matchRow.requestId locks.request.status opts.actor.route.1
          opts.actor.route.2 (some opts.reason) env.now close = .ok mid)
      (hactive : locks.matchRow.status = .active) (hset : (set locks.matchRow).status ≠ .active)
      (hrows : stocked.matchRows = db.matchRows) (hoffers : stocked.matchOffers = db.matchOffers)
      (hstats : stocked.reliabilityStats = db.reliabilityStats) : CountRun db
        (((mid.forgetLocation locks.matchRow opts).applyCancellation locks.matchRow opts
          env.now).insertSystemMessage env locks.conversationId
            (opts.cancellerUserId.getD locks.matchRow.requesterId) "match.cancelled") := by
    obtain ⟨-, r, -, -, rfl⟩ := transitionRequest_ok.mp hmove
    have hmodify : stocked.matchRows.modify matchId set = db.matchRows.modify matchId set := by
      rw [hrows]
    refine Relation.ReflTransGen.trans ?_ (insertSystemMessage_counts _ _ _ _ _)
    refine applyCancellation_counts ⟨hm, hactive, ⟨set, hset, ?_⟩, ?_, ?_⟩ opts env.now
    · rw [forgetLocation_toExchange]
      exact hmodify
    · rw [forgetLocation_toExchange]
      exact hoffers
    · unfold forgetLocation
      split <;> exact hstats
  have hclosed : opts.matchStatus ≠ .active :=
    MatchStatus.isCancelled.ne_active (CancelOptions.matchStatus_isCancelled opts)
  simp only [cancelMatchLocked, bind_ok, ensure_ok] at h
  obtain ⟨-, hactive, h⟩ := h
  cases happlied : locks.matchRow.inventoryApplied with
  | true =>
      simp only [happlied, if_true, bind_ok, pure_ok, Prod.mk.injEq] at h
      obtain ⟨_, rfl, mid, hmove, -, rfl⟩ := h
      exact hcancelled hmove hactive (by exact hclosed) rfl rfl rfl
  | false =>
      simp only [happlied, Bool.false_eq_true, if_false, bind_ok, updateInventoryItem_ok, pure_ok,
        Prod.mk.injEq] at h
      obtain ⟨_, ⟨item, -, -, rfl⟩, mid, hmove, -, rfl⟩ := h
      exact hcancelled hmove hactive (by exact hclosed) rfl rfl rfl

theorem cancelMatchInTx_counts {opts : CancelOptions}
    (h : db.cancelMatchInTx env matchId opts = .ok (effects, db')) : CountRun db db' := by
  simp only [cancelMatchInTx, bind_ok, found_ok] at h
  obtain ⟨locks, hlocks, h⟩ := h
  exact cancelMatchLocked_counts (lockMatchRows_some hlocks).matchRow h

theorem cancelRequest_counts {userId : UserId}
    (h : db.cancelRequest env userId requestId = .ok (effects, db')) : CountRun db db' := by
  simp only [cancelRequest, bind_ok] at h
  obtain ⟨r, -, h⟩ := h
  split_ifs at h
  · simp only [bind_ok] at h
    obtain ⟨mid, -, h⟩ := h
    exact cancelMatchInTx_counts h
  · simp only [bind_ok, pure_ok, Prod.mk.injEq] at h
    obtain ⟨-, -, mid, hmove, -, rfl⟩ := h
    exact (supersedeOffers_counts _ _ _).trans (transitionRequest_counts hmove)

/-! ## Moderation -/

theorem moderate_counts {auth : AuthContext} {input : AdminModerateInput}
    (h : db.moderate env auth input = .ok (effects, db')) : CountRun db db' := by
  simp only [moderate, bind_ok, ensure_ok] at h
  obtain ⟨-, -, h⟩ := h
  cases haction : input.action <;> simp only [haction] at h
  case warn | restrictRequests | restrictHelping | unsuspend =>
    simp only [moderateUser, bind_ok, pure_ok, Prod.mk.injEq] at h
    obtain ⟨userId, -, -, rfl⟩ := h
    exact .same rfl rfl rfl
  case suspend =>
    simp only [suspend, bind_ok, pure_ok, Prod.mk.injEq] at h
    obtain ⟨userId, -, -, rfl⟩ := h
    exact .same rfl rfl rfl
  case eventPause | eventUnpause | eventApprovePublic | eventRejectPublic =>
    simp only [moderateEvent, bind_ok, pure_ok, Prod.mk.injEq] at h
    obtain ⟨_, ⟨eventId, -, rfl⟩, -, rfl⟩ := h
    exact .same rfl rfl rfl
  case eventDisable =>
    simp only [disableEvent, bind_ok, pure_ok, Prod.mk.injEq] at h
    obtain ⟨eventId, -, mid, hclose, -, rfl⟩ := h
    have hdisabled {disabled : Db} {ids : List RequestId}
        (hclose : closeOpenRequests env .moderated .moderator input.reason ids disabled = .ok mid)
        (hstats : disabled.reliabilityStats = db.reliabilityStats)
        (hoffers : disabled.matchOffers = db.matchOffers)
        (hmatches : disabled.matchRows = db.matchRows) : CountRun db mid :=
      (CountRun.same hstats hoffers hmatches).trans (closeOpenRequests_counts hclose)
    exact (hdisabled hclose rfl rfl rfl).trans (CountRun.same rfl rfl rfl)
  case matchCancel =>
    simp only [bind_ok, pure_ok, Prod.mk.injEq] at h
    obtain ⟨matchId, -, m, -, -, rfl⟩ := h
    exact .same rfl rfl rfl
  case reportResolve | reportDismiss =>
    simp only [moderateReport, bind_ok, pure_ok, Prod.mk.injEq] at h
    obtain ⟨reportId, -, report, -, -, rfl⟩ := h
    exact .same rfl rfl rfl

/-! ## Every operation -/

theorem exec_counts {op : Op} (h : db.exec env op = .ok (effects, db')) : CountRun db db' := by
  cases op <;> simp only [exec] at h
  case directory dir =>
    have hreplace := (silently_ok h).1
    simp only [replaceDirectory, bind_ok, pure_ok] at hreplace
    obtain ⟨-, -, rfl⟩ := hreplace
    exact .same rfl rfl rfl
  case addInventory token eventId input =>
    obtain ⟨auth, -, -, h⟩ := asUser_ok h
    obtain ⟨⟨itemId, mid⟩, hadd, hpure⟩ := bind_ok.mp (silently_ok h).1
    obtain rfl := pure_ok.mp hpure
    rcases addInventory_ok hadd with ⟨-, rfl⟩ | ⟨item, -, rfl⟩
    · exact .refl
    · exact .same rfl rfl rfl
  case updateInventory token itemId input =>
    obtain ⟨auth, -, -, h⟩ := asUser_ok h
    obtain ⟨item, -, h⟩ := bind_ok.mp (silently_ok h).1
    obtain ⟨-, -, h⟩ := bind_ok.mp h
    exact updateInventoryItem_counts h
  case deleteInventory token itemId =>
    obtain ⟨auth, -, -, h⟩ := asUser_ok h
    have hdelete := (silently_ok h).1
    simp only [deleteInventory, bind_ok] at hdelete
    obtain ⟨-, -, hdelete⟩ := hdelete
    split_ifs at hdelete
    · exact updateInventoryItem_counts hdelete
    · obtain rfl := pure_ok.mp hdelete
      exact .same rfl rfl rfl
  case createRequest token input =>
    obtain ⟨auth, -, -, h⟩ := asUser_ok h
    exact createRequest_counts h
  case cancelRequest token requestId =>
    obtain ⟨auth, -, -, h⟩ := asUser_ok h
    exact cancelRequest_counts h
  case renewRequest token requestId expiresInMinutes =>
    obtain ⟨auth, -, -, h⟩ := asUser_ok h
    simp only [renewRequest, bind_ok, pure_ok, Prod.mk.injEq] at h
    obtain ⟨request, -, -, -, mid, hmove, -, rfl⟩ := h
    exact transitionRequest_counts hmove
  case continueRequest token requestId continueSearching =>
    obtain ⟨auth, -, -, h⟩ := asUser_ok h
    simp only [continueRequest, bind_ok] at h
    obtain ⟨request, -, -, -, h⟩ := h
    split_ifs at h
    · simp only [bind_ok, pure_ok, Prod.mk.injEq] at h
      obtain ⟨-, -, mid, hmove, -, rfl⟩ := h
      exact transitionRequest_counts hmove
    all_goals
      simp only [bind_ok, pure_ok, Prod.mk.injEq] at h
      obtain ⟨mid, hmove, -, rfl⟩ := h
      exact transitionRequest_counts hmove
  case runMatchPass requestId choices => exact runMatchPass_counts h
  case acceptOffer token offerId draws =>
    obtain ⟨auth, -, -, h⟩ := asUser_ok h
    simp only [bind_ok, pure_ok, Prod.mk.injEq] at h
    obtain ⟨r, haccept, -, rfl⟩ := h
    exact acceptOffer_counts haccept
  case declineOffer token offerId alsoStopReceiving =>
    obtain ⟨auth, -, -, h⟩ := asUser_ok h
    exact declineOffer_counts h
  case expireOffer offerId => exact expireOffer_counts h
  case setMeetingState token matchId state =>
    obtain ⟨auth, -, -, h⟩ := asUser_ok h
    have hset := (silently_ok h).1
    simp only [setMeetingState, bind_ok, found_ok, pure_ok] at hset
    obtain ⟨m, hm, side, -, -, -, rfl⟩ := hset
    refine .single (.quiet rfl (fun _ => le_rfl) fun u => ?_)
    have hcount := Table.count_modify hm (fun row => row.setMeetingState side state)
      fun _ m => m.helperId = u && m.status = .active
    have hrow : (m.setMeetingState side state).helperId = m.helperId ∧
        (m.setMeetingState side state).status = m.status := by
      cases side <;> exact ⟨rfl, rfl⟩
    rw [hrow.1, hrow.2, Nat.add_right_cancel_iff] at hcount
    exact hcount.le
  case confirmCompletion token matchId qty =>
    obtain ⟨auth, -, -, h⟩ := asUser_ok h
    exact confirmCompletion_counts h
  case autoFinalizeMatch matchId => exact autoFinalizeMatch_counts h
  case cancelMatch token matchId reason note =>
    obtain ⟨auth, -, -, h⟩ := asUser_ok h
    simp only [cancelMatch, bind_ok, found_ok] at h
    obtain ⟨locks, hlocks, side, -, h⟩ := h
    exact cancelMatchLocked_counts (lockMatchRows_some hlocks).matchRow h
  case cancelMatchForModeration matchId reason => exact cancelMatchInTx_counts h
  case moderate token input =>
    obtain ⟨auth, -, h⟩ := bind_ok.mp h
    exact moderate_counts h
  case deletionCancelRequests userId => exact closeOpenRequests_counts (silently_ok h).1
  case deletionZeroInventory userId =>
    have hzero := (silently_ok h).1
    simp only [deletionZeroInventory] at hzero
    split_ifs at hzero
    obtain rfl := pure_ok.mp hzero
    exact .same rfl rfl rfl
  case deletionStatement userId statement =>
    obtain ⟨-, rfl⟩ := Prod.mk.inj (pure_ok.mp h)
    cases statement <;> exact .same rfl rfl rfl
  case blockViaMatch token matchId =>
    obtain ⟨auth, -, -, h⟩ := asUser_ok h
    simp only [blockViaMatch, bind_ok, pure_ok, Prod.mk.injEq] at h
    obtain ⟨peer, -, -, rfl⟩ := h
    split_ifs
    · exact .refl
    · exact .same rfl rfl rfl
  case sendMessage token conversationId input =>
    obtain ⟨auth, -, -, h⟩ := asUser_ok h
    simp only [sendMessage, bind_ok] at h
    obtain ⟨context, -, h⟩ := h
    split_ifs at h
    · obtain ⟨-, rfl⟩ := Prod.mk.inj (pure_ok.mp h)
      exact .refl
    all_goals
      simp only [bind_ok, pure_ok, Prod.mk.injEq] at h
      obtain ⟨-, -, -, -, -, rfl⟩ := h
      exact .same rfl rfl rfl

end Operations

end Db
end Sahay
