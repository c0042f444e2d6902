import Sahay.Lifecycle.Fulfilment

/-!
# Where live rows come from

An active match after a step was active before it, or the step accepted an
offer, and a match that has closed never changes; an open offer was open before, or
the step made it; a request that is in the pool was there before, or its owner put
it there.
-/

namespace Sahay

variable {c : Ctx} {x x' : Exchange}

/-! ## Active matches -/

/-- The step has accepted the open offer `o` by the match `m`. -/
structure Accepted (c : Ctx) (x x' : Exchange) (mid : MatchId) (m : Match) (oid : OfferId)
    (o : MatchOffer) (r : Request) : Prop where
  accepts : c.Accepts oid o.helperId
  offer : x.matchOffers.lookup oid = some o
  offered : o.status = .offered
  inTime : c.now < o.respondBy
  request : x.requests.lookup o.requestId = some r
  offering : r.status = .offering
  opens : m.Opens oid o r
  fresh : mid ∉ x.matchRows
  put : x'.matchRows = x.matchRows.put mid m

/-- The active matches of `x'` are active matches of `x`. -/
abbrev Exchange.KeepsActive (x x' : Exchange) : Prop :=
  Table.Inherits (fun m : Match => m.status = .active) Match.identity x.matchRows x'.matchRows

theorem Lifecycle.active_before (h : Lifecycle c x x') :
    x.KeepsActive x' ∨ ∃ mid m oid o r, Accepted c x x' mid m oid o r := by
  cases h with
  | accept oid o r item mid m cid ho hoffered hcaller hr hoffering hi hmid hm hcid hpos hneed
      hfree htime =>
      exact .inr ⟨mid, m, oid, o, r, hcaller, ho, hoffered, htime, hr, hoffering, hm, hmid, rfl⟩
  | confirm mid m side qty hm hactive =>
      exact .inl (.replace hm fun _ => ⟨hactive, m.setConfirmedQty_identity side qty⟩)
  | settle mid m m' r item cid conversation final disputed closeReason actor hm =>
      exact .inl (.replace hm fun hactive => absurd hactive (settledMatchStatus_ne_active _ _))
  | cancel mid m r item cid conversation conversation' canceller status closeReason reason hm
      hactive hstatus =>
      exact .inl (.replace hm fun hactive' => absurd hactive'
        (MatchStatus.isCancelled.ne_active hstatus))
  | meet mid m side state hm hactive =>
      exact .inl (.replace hm fun _ => ⟨hactive, m.setMeetingState_identity side state⟩)
  | _ => exact .inl (.refl _ _ _)

theorem Lifecycle.match_before (h : Lifecycle c x x') {mid : MatchId} {m' : Match}
    (hm' : x'.matchRows.lookup mid = some m') :
    mid ∈ x.matchRows ∨ ∃ oid o r, Accepted c x x' mid m' oid o r := by
  by_cases hmid : mid ∈ x.matchRows
  · exact .inl hmid
  have hold : mid ∉ x'.matchRows ∨ ∃ oid o r, Accepted c x x' mid m' oid o r := by
    cases h with
    | accept oid o r item mid₀ m cid ho hoffered hcaller hr hoffering hi hmid₀ hm hcid hpos hneed
        hfree htime =>
        have hlookup := hm'
        rw [Exchange.moveRequest_matchRows, Table.lookup_put] at hlookup
        split_ifs at hlookup with hk
        · obtain rfl := Option.some.inj hlookup
          subst hk
          exact .inr ⟨oid, o, r, hcaller, ho, hoffered, htime, hr, hoffering, hm, hmid, rfl⟩
        · exact absurd (Table.mem_iff_exists.mpr ⟨m', hlookup⟩) hmid
    | confirm | settle | cancel | meet => exact .inl (by simpa using hmid)
    | _ => exact .inl hmid
  exact hold.imp_left fun habsent => absurd (Table.mem_iff_exists.mpr ⟨m', hm'⟩) habsent

theorem Lifecycle.closed_stays (h : Lifecycle c x x') {mid : MatchId} {m : Match}
    (hm : x.matchRows.lookup mid = some m)
    (hclosed : m.status ≠ .active) : x'.matchRows.lookup mid = some m := by
  have hother {mid₀ : MatchId} {m₀ m₀' : Match} (hm₀ : x.matchRows.lookup mid₀ = some m₀)
      (hactive : m₀.status = .active) :
      (x.matchRows.replace mid₀ m₀').lookup mid = some m := by
    have hne : mid ≠ mid₀ := by
      rintro rfl
      exact hclosed (Option.some.inj (hm₀.symm.trans hm) ▸ hactive)
    rw [Table.lookup_replace hm₀, if_neg hne, hm]
  cases h with
  | accept oid o r item mid₀ m₀ cid ho hoffered hcaller hr hoffering hi hmid =>
      have hne : mid ≠ mid₀ := by
        rintro rfl
        exact hmid (Table.mem_iff_exists.mpr ⟨m, hm⟩)
      rw [Exchange.moveRequest_matchRows, Table.lookup_put, if_neg hne, hm]
  | confirm mid₀ m₀ side qty hm₀ hactive => exact hother hm₀ hactive
  | settle mid₀ m₀ m₀' r item cid conversation final disputed closeReason actor hm₀ hactive =>
      exact hother hm₀ hactive
  | cancel mid₀ m₀ r item cid conversation conversation' canceller status closeReason reason hm₀
      hactive => exact hother hm₀ hactive
  | meet mid₀ m₀ side state hm₀ hactive => exact hother hm₀ hactive
  | _ => exact hm

/-! ## Open offers -/

/-- The step has made the offer `o` for the request `r`. -/
structure Offered (c : Ctx) (x x' : Exchange) (oid : OfferId) (o : MatchOffer) (r : Request) :
    Prop where
  request : x.requests.lookup o.requestId = some r
  searching : r.status = .searching
  notBlocked : (o.helperId, r.requesterId) ∉ c.dir.blocks
  notBlocked' : (r.requesterId, o.helperId) ∉ c.dir.blocks
  put : x'.matchOffers = x.matchOffers.put oid o

/-- The open offers of `x'` are open offers of `x`. -/
abbrev Exchange.KeepsOpen (x x' : Exchange) : Prop :=
  Table.Inherits (fun o : MatchOffer => o.status = .offered) MatchOffer.identity x.matchOffers
    x'.matchOffers

theorem Lifecycle.open_before (h : Lifecycle c x x') :
    x.KeepsOpen x' ∨ ∃ oid o r, Offered c x x' oid o r := by
  cases h with
  | closeRequest =>
      exact .inl (.updateWhere _ _ fun o hoffered => absurd hoffered (by simp))
  | createOffer oid o r item hoid hoffered hr hsearching hi howner hevent hcategory hpeer hasked
      hblocked hblocked' =>
      exact .inr ⟨oid, o, r, hr, hsearching, hblocked, hblocked', rfl⟩
  | closeOffer oid o r status actor reason ho hoffered hstatus =>
      refine .inl (.replace ho fun hoffered' => absurd hoffered' ?_)
      rcases hstatus with rfl | rfl <;> simp
  | accept oid o r item mid m cid ho =>
      exact .inl (.replace ho fun hoffered => absurd hoffered (by simp))
  | _ => exact .inl (.refl _ _ _)

/-! ## Requests in the pool -/

/-- The step has put the request `r'` into the pool, on its owner's call. -/
inductive Entered (c : Ctx) (x x' : Exchange) (rid : RequestId) (r' : Request) : Prop
  | created (hcaller : c.Creates r'.requesterId)
      (hfresh : rid ∉ x.requests)
      (hput : x'.requests = x.requests.put rid r')
  | reopened (r : Request) (hcaller : c.Reopens rid r)
      (hr : x.requests.lookup rid = some r)
      (howner : r'.requesterId = r.requesterId)
      (hput : x'.requests = x.requests.replace rid r')

/-- The requests of `x'` in the pool are such requests of `x`. -/
abbrev Exchange.KeepsPool (x x' : Exchange) : Prop :=
  Table.Inherits (fun r : Request => r.status.isActive = true) Request.identity x.requests
    x'.requests

theorem RequestStatus.isActive_of_isOpen {s : RequestStatus} (h : s.isOpen = true) :
    s.isActive = true := by
  revert h
  cases s <;> decide

theorem Lifecycle.pool_before (h : Lifecycle c x x') :
    x.KeepsPool x' ∨ ∃ rid r', Entered c x x' rid r' := by
  cases h with
  | openRequest id r hid hcaller => exact .inr ⟨id, r, .created hcaller hid rfl⟩
  | reopen id r expiresAt reason hr hcaller =>
      exact .inr ⟨id, r.reopened expiresAt, .reopened r hcaller hr rfl rfl⟩
  | closeRequest id r target actor reason hr hopen =>
      exact .inl (.replace hr fun _ => ⟨RequestStatus.isActive_of_isOpen hopen, rfl⟩)
  | createOffer oid o r item hoid hoffered hr hsearching =>
      exact .inl (.replace hr fun _ => ⟨by rw [hsearching]; rfl, rfl⟩)
  | closeOffer oid o r status actor reason ho hoffered hstatus hr hoffering =>
      exact .inl (.replace hr fun _ => ⟨by rw [hoffering]; rfl, rfl⟩)
  | accept oid o r item mid m cid ho hoffered hcaller hr hoffering =>
      exact .inl (.replace hr fun _ => ⟨by rw [hoffering]; rfl, rfl⟩)
  | settle mid m m' r item cid conversation final disputed closeReason actor hm hactive
      hconfirms hfinal hr hmatched =>
      exact .inl (.replace hr fun _ => ⟨by rw [hmatched]; rfl, rfl⟩)
  | cancel mid m r item cid conversation conversation' canceller status closeReason reason hm
      hactive hstatus hr hmatched =>
      exact .inl (.replace hr fun _ => ⟨by rw [hmatched]; rfl, rfl⟩)
  | conclude id r target hr hstatus htarget =>
      refine .inl (.replace hr fun hactive => absurd hactive ?_)
      rcases htarget with rfl | rfl <;> simp [RequestStatus.isActive]
  | widen id r radius hr => exact .inl (.replace hr fun hactive => ⟨hactive, rfl⟩)
  | _ => exact .inl (.refl _ _ _)

end Sahay
