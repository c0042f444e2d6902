import Sahay.Lifecycle.Fulfilment

/-!
# Answers to offers

An offer is written once: a step that answers it finds it open, and what has been
answered stays as it is.  The accepted offers are the ones with a match, and each
of them has one.
-/

namespace Sahay

def matchCount (t : Table MatchId Match) (oid : OfferId) : ℕ :=
  t.count fun _ m => m.offerId = oid

def offerStatusOf (t : Table OfferId MatchOffer) (oid : OfferId) : Option OfferStatus :=
  (t.lookup oid).map MatchOffer.status

def Exchange.Answered (x : Exchange) : Prop :=
  ∀ oid, matchCount x.matchRows oid =
    if offerStatusOf x.matchOffers oid = some .accepted then 1 else 0

variable {c : Ctx} {x x' : Exchange} {oid : OfferId} {o : MatchOffer}

theorem offerStatusOf_some {t : Table OfferId MatchOffer} (h : t.lookup oid = some o) :
    offerStatusOf t oid = some o.status := by
  rw [offerStatusOf, h]
  rfl

theorem matchCount_put {t : Table MatchId Match} {mid : MatchId} (hmid : mid ∉ t) (m : Match)
    (oid : OfferId) :
    matchCount (t.put mid m) oid = matchCount t oid + if m.offerId = oid then 1 else 0 := by
  rw [matchCount, Table.count_put hmid, add_comm, matchCount]
  simp

theorem matchCount_replace {t : Table MatchId Match} {mid : MatchId} {m : Match}
    (h : t.lookup mid = some m) (m' : Match) (hid : m'.identity = m.identity) (oid : OfferId) :
    matchCount (t.replace mid m') oid = matchCount t oid := by
  simp only [Match.identity, Prod.mk.injEq] at hid
  have hcount := Table.count_replace h m' fun _ m => m.offerId = oid
  rw [hid.2.1] at hcount
  exact Nat.add_right_cancel hcount

/-- A write of one offer that does not touch whether it is accepted. -/
theorem Exchange.Answered.rewrite (h : x.Answered) {o' : MatchOffer}
    (ho : x.matchOffers.lookup oid = some o) (hne : o.status ≠ .accepted)
    (hne' : o'.status ≠ .accepted) (oid' : OfferId) :
    matchCount x.matchRows oid' =
      if offerStatusOf (x.matchOffers.replace oid o') oid' = some .accepted then 1 else 0 := by
  have hold := h oid'
  rw [offerStatusOf, Table.lookup_replace ho]
  by_cases hk : oid' = oid
  · subst hk
    rw [offerStatusOf_some ho, if_neg (by simpa using hne)] at hold
    rw [hold, if_pos rfl, if_neg (by simpa using hne')]
  · rw [if_neg hk]
    exact hold

theorem Lifecycle.answered (h : Lifecycle c x x') (hx : x.Answered) : x'.Answered := by
  intro oid'
  cases h with
  | closeRequest id =>
      rw [Exchange.moveRequest_matchRows, Exchange.moveRequest_matchOffers, offerStatusOf,
        Exchange.supersede, Table.lookup_updateWhere]
      have hold := hx oid'
      rw [offerStatusOf] at hold
      cases ho : x.matchOffers.lookup oid' with
      | none =>
          rw [ho] at hold
          exact hold
      | some o =>
          rw [ho] at hold
          by_cases hoffered : o.status = .offered
          · simp only [Option.map_some, Option.some.injEq, hoffered] at hold ⊢
            split_ifs <;> simp_all
          · simpa [hoffered] using hold
  | createOffer oid o r item hoid hoffered =>
      have hold := hx oid'
      rw [Exchange.moveRequest_matchRows, Exchange.moveRequest_matchOffers, offerStatusOf,
        Table.lookup_put]
      by_cases hk : oid' = oid
      · subst hk
        rw [offerStatusOf, AList.lookup_eq_none.mpr hoid] at hold
        rw [if_pos rfl, Option.map_some, hoffered]
        exact hold
      · rw [if_neg hk]
        exact hold
  | closeOffer oid o r status actor reason ho hoffered hstatus =>
      refine hx.rewrite ho (by rw [hoffered]; decide) ?_ oid'
      rcases hstatus with rfl | rfl <;> simp
  | accept oid o r item mid m cid ho hoffered hcaller hr hoffering hi hmid hm =>
      have hold := hx oid'
      rw [Exchange.moveRequest_matchRows, Exchange.moveRequest_matchOffers,
        matchCount_put hmid, offerStatusOf, Table.lookup_replace ho, hm.offerId]
      by_cases hk : oid' = oid
      · subst hk
        rw [offerStatusOf_some ho, hoffered] at hold
        rw [hold, if_pos rfl, if_pos rfl]
        rfl
      · rw [if_neg hk, if_neg (Ne.symm hk), add_zero]
        exact hold
  | confirm mid m side qty hm =>
      exact (matchCount_replace hm _ (m.setConfirmedQty_identity side qty) oid').trans (hx oid')
  | settle mid m m' r item cid conversation final disputed closeReason actor hm hactive
      hconfirms =>
      let settled := m'.settledAs (settledMatchStatus disputed (r.qty ≤ r.qtyFulfilled + final))
        closeReason c.now
      exact (matchCount_replace hm settled hconfirms.identity oid').trans (hx oid')
  | cancel mid m r item cid conversation conversation' canceller status closeReason reason hm =>
      exact (matchCount_replace hm (m.cancelledAs status closeReason c.now) rfl oid').trans
        (hx oid')
  | meet mid m side state hm =>
      exact (matchCount_replace hm _ (m.setMeetingState_identity side state) oid').trans (hx oid')
  | _ => exact hx oid'

theorem Exchange.answered_empty : ({} : Exchange).Answered := fun _ => rfl

theorem Lifecycle.answer_stays (h : Lifecycle c x x') (ho : x.matchOffers.lookup oid = some o)
    (hclosed : o.status ≠ .offered) : x'.matchOffers.lookup oid = some o := by
  have hother {oid₀ : OfferId} {o₀ o₀' : MatchOffer} (ho₀ : x.matchOffers.lookup oid₀ = some o₀)
      (hoffered : o₀.status = .offered) :
      (x.matchOffers.replace oid₀ o₀').lookup oid = some o := by
    have hne : oid ≠ oid₀ := by
      rintro rfl
      exact hclosed (Option.some.inj (ho₀.symm.trans ho) ▸ hoffered)
    rw [Table.lookup_replace ho₀, if_neg hne, ho]
  cases h with
  | closeRequest id =>
      rw [Exchange.moveRequest_matchOffers, Exchange.supersede, Table.lookup_updateWhere, ho]
      simp [hclosed]
  | createOffer oid₀ o₀ r item hoid =>
      have hne : oid ≠ oid₀ := by
        rintro rfl
        exact hoid (Table.mem_iff_exists.mpr ⟨o, ho⟩)
      rw [Exchange.moveRequest_matchOffers, Table.lookup_put, if_neg hne, ho]
  | closeOffer oid₀ o₀ r status actor reason ho₀ hoffered => exact hother ho₀ hoffered
  | accept oid₀ o₀ r item mid m cid ho₀ hoffered => exact hother ho₀ hoffered
  | _ => exact ho

theorem Lifecycle.keeps_respondBy (h : Lifecycle c x x') :
    Table.Keeps MatchOffer.respondBy x.matchOffers x'.matchOffers := by
  cases h with
  | closeRequest id => exact .updateWhere _ _ fun _ => rfl
  | createOffer oid o r item hoid => exact .put _ hoid o
  | closeOffer oid o r status actor reason ho => exact .replace ho rfl
  | accept oid o r item mid m cid ho => exact .replace ho rfl
  | _ => exact .refl _ _

theorem LifecycleRun.keeps_respondBy (h : LifecycleRun c x x') :
    Table.Keeps MatchOffer.respondBy x.matchOffers x'.matchOffers := by
  induction h with
  | refl => exact .refl _ _
  | tail _ hlast ih => exact ih.trans hlast.keeps_respondBy

end Sahay
