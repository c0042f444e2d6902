import Sahay.Lifecycle.Origins

/-!
# Two users apart

What joins two users are open offers, active matches and conversations that take
messages.  Between users of whom one blocks the other a step makes no offer, so
no match is accepted, and a conversation without an active match is not written.
-/

namespace Sahay

def Match.Between (m : Match) (a b : UserId) : Prop :=
  (m.requesterId = a ∧ m.helperId = b) ∨ (m.requesterId = b ∧ m.helperId = a)

instance (m : Match) (a b : UserId) : Decidable (m.Between a b) :=
  inferInstanceAs (Decidable (_ ∨ _))

theorem Match.Between.congr {m m' : Match} {a b : UserId} (h : m.Between a b)
    (hid : m'.identity = m.identity) : m'.Between a b := by
  simp only [Match.identity, Prod.mk.injEq] at hid
  rwa [Match.Between, hid.2.2.2.1, hid.2.2.2.2.1]

namespace Exchange

variable (x : Exchange)

def OfferBetween (o : MatchOffer) (a b : UserId) : Prop :=
  ∃ r, x.requests.lookup o.requestId = some r ∧
    ((r.requesterId = a ∧ o.helperId = b) ∨ (r.requesterId = b ∧ o.helperId = a))

/-- The users share no open offer and no active match, but for `spared` ones. -/
structure Parted (a b : UserId) (spared : MatchId → Prop) : Prop where
  offers : ∀ oid o, x.matchOffers.lookup oid = some o → o.status = .offered →
    ¬x.OfferBetween o a b
  matchRows : ∀ mid m, x.matchRows.lookup mid = some m → m.status = .active →
    m.Between a b → spared mid

instance (o : MatchOffer) (a b : UserId) : Decidable (x.OfferBetween o a b) :=
  decidable_of_iff ((x.requests.lookup o.requestId).any fun r =>
      (r.requesterId = a ∧ o.helperId = b) ∨ (r.requesterId = b ∧ o.helperId = a))
    (by simp [OfferBetween, Option.any_eq_true])

instance (a b : UserId) (spared : MatchId → Prop) [DecidablePred spared] :
    Decidable (x.Parted a b spared) :=
  have := x.matchOffers.decidableForall fun _ o => o.status = .offered → ¬x.OfferBetween o a b
  have := x.matchRows.decidableForall fun mid m =>
    m.status = .active → m.Between a b → spared mid
  decidable_of_iff _ ⟨fun h => ⟨h.1, h.2⟩, fun h => And.intro h.1 h.2⟩

/-- No conversation between the users takes messages from `t` on. -/
def Silent (a b : UserId) (t : Time) : Prop :=
  ∀ cid conv m, x.conversations.lookup cid = some conv →
    x.matchRows.lookup conv.matchId = some m → m.Between a b → conv.effectiveStatus t ≠ .open

end Exchange

variable {c : Ctx} {x x' : Exchange} {a b : UserId} {spared : MatchId → Prop}

theorem Exchange.OfferBetween.before {o o' : MatchOffer} (h : x'.OfferBetween o' a b)
    (hk : x.Keeps x') {r : Request} (hr : x.requests.lookup o.requestId = some r)
    (hid : o.identity = o'.identity) : x.OfferBetween o a b := by
  simp only [MatchOffer.identity, Prod.mk.injEq] at hid
  obtain ⟨r', hr', hrid⟩ := hk.requests _ r hr
  obtain ⟨r₁, hr₁, hpair⟩ := h
  rw [← hid.1, hr'] at hr₁
  obtain rfl := Option.some.inj hr₁
  simp only [Request.identity, Prod.mk.injEq] at hrid
  exact ⟨r, hr, by rwa [hid.2.1, ← hrid.2.1]⟩

/-- Blocked users are not offered each other's requests. -/
theorem Lifecycle.parted_offers (h : Lifecycle c x x') (hl : x.Linked)
    (hblocked : (a, b) ∈ c.dir.blocks) (hp : x.Parted a b spared) {oid : OfferId}
    {o' : MatchOffer} (ho' : x'.matchOffers.lookup oid = some o')
    (hoffered : o'.status = .offered) :
    ¬x'.OfferBetween o' a b := by
  intro hbetween
  have hold {o : MatchOffer} (ho : x.matchOffers.lookup oid = some o) (hopen : o.status = .offered)
      (hid : o.identity = o'.identity) : False := by
    obtain ⟨r, hr, -⟩ := (hl.offers oid o ho).request
    exact hp.offers oid o ho hopen (hbetween.before h.keeps hr hid)
  rcases h.open_before with hkeeps | ⟨oid₀, o₀, r, hnew⟩
  · obtain ⟨o, ho, hopen, hid⟩ := hkeeps oid o' ho' hoffered
    exact hold ho hopen hid.symm
  · have hlookup := ho'
    rw [hnew.put, Table.lookup_put] at hlookup
    split_ifs at hlookup with hk
    · obtain rfl := Option.some.inj hlookup
      obtain ⟨r₁, hr₁, hpair⟩ := hbetween.before h.keeps hnew.request rfl
      obtain rfl := Option.some.inj (hnew.request.symm.trans hr₁)
      rcases hpair with ⟨hrequester, hhelper⟩ | ⟨hrequester, hhelper⟩
      · exact hnew.notBlocked' (by rwa [hrequester, hhelper])
      · exact hnew.notBlocked (by rwa [hrequester, hhelper])
    · exact hold hlookup hoffered rfl

theorem Lifecycle.parted_matches (h : Lifecycle c x x') (hp : x.Parted a b spared) {mid : MatchId}
    {m' : Match} (hm' : x'.matchRows.lookup mid = some m') (hactive : m'.status = .active)
    (hbetween : m'.Between a b) : spared mid := by
  rcases h.active_before with hkeeps | ⟨mid₀, m₀, oid, o, r, hnew⟩
  · obtain ⟨m, hm, hopen, hid⟩ := hkeeps mid m' hm' hactive
    exact hp.matchRows mid m hm hopen (hbetween.congr hid.symm)
  · rw [hnew.put, Table.lookup_put] at hm'
    split_ifs at hm' with hk
    · obtain rfl := Option.some.inj hm'
      rw [Match.Between, hnew.opens.requesterId, hnew.opens.helperId] at hbetween
      exact absurd ⟨r, hnew.request, hbetween⟩ (hp.offers oid o hnew.offer hnew.offered)
    · exact hp.matchRows mid m' hm' hactive hbetween

theorem Lifecycle.parted (h : Lifecycle c x x') (hl : x.Linked)
    (hblocked : (a, b) ∈ c.dir.blocks) (hp : x.Parted a b spared) : x'.Parted a b spared where
  offers _ _ ho hoffered := h.parted_offers hl hblocked hp ho hoffered
  matchRows _ _ hm hactive hbetween := h.parted_matches hp hm hactive hbetween

theorem Lifecycle.silent (h : Lifecycle c x x') (hp : x.Parted a b fun _ => False)
    (hconversed : x.Conversed) {t : Time} (hs : x.Silent a b t) : x'.Silent a b t := by
  intro cid conv' m' hconv' hm' hbetween
  have hbefore {m : Match} (hm : x.matchRows.lookup conv'.matchId = some m) :
      m.Between a b := by
    obtain ⟨m₁, hm₁, hid⟩ := h.keeps.matchRows _ m hm
    obtain rfl := Option.some.inj (hm'.symm.trans hm₁)
    exact hbetween.congr hid.symm
  have hknown {conv : Conversation} (hconv : x.conversations.lookup cid = some conv)
      (hmatch : conv.matchId = conv'.matchId) :
      ∃ m, x.matchRows.lookup conv'.matchId = some m :=
    hmatch ▸ Table.mem_iff_exists.mp (hconversed.known cid conv hconv)
  rcases h.conversations_before with hold | ⟨cid₀, conv₀, m₀, -, hactive, hrows, hput⟩
  · obtain ⟨conv, hconv, hmatch, rfl | ⟨m, hm, hactive⟩⟩ := hold cid conv' hconv'
    · obtain ⟨m, hm⟩ := hknown hconv rfl
      exact hs cid conv m hconv hm (hbefore hm)
    · exact (hp.matchRows _ m hm hactive (hbefore hm)).elim
  · rw [hput, Table.lookup_put] at hconv'
    split_ifs at hconv' with hk
    · -- The new match would be one between them.
      obtain rfl := Option.some.inj hconv'
      have hnew := hm'
      rw [hrows, Table.lookup_put, if_pos rfl] at hnew
      exact (h.parted_matches hp hm' (Option.some.inj hnew ▸ hactive) hbetween).elim
    · obtain ⟨m, hm⟩ := hknown hconv' rfl
      exact hs cid conv' m hconv' hm (hbefore hm)

end Sahay
