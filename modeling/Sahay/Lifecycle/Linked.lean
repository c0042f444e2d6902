import Sahay.Lifecycle.Step

/-!
# References between rows

The foreign keys of offers and matches, and the agreements between the rows they
join: an offer's item belongs to its helper and its request to somebody else; a
match repeats its offer and its request and has a conversation.
-/

namespace Sahay

namespace Exchange

/-- The rows an offer refers to. -/
structure OfferLinked (x : Exchange) (o : MatchOffer) : Prop where
  request : ∃ r, x.requests.lookup o.requestId = some r ∧ o.helperId ≠ r.requesterId
  item : ∃ item, x.inventoryItems.lookup o.inventoryItemId = some item ∧
    item.userId = o.helperId

/-- The rows a match refers to. -/
structure MatchLinked (x : Exchange) (mid : MatchId) (m : Match) : Prop where
  request : ∃ r, x.requests.lookup m.requestId = some r ∧
    r.requesterId = m.requesterId ∧ r.eventId = m.eventId
  offer : ∃ o, x.matchOffers.lookup m.offerId = some o ∧ o.requestId = m.requestId ∧
    o.helperId = m.helperId ∧ o.inventoryItemId = m.inventoryItemId
  conversation : ∃ cid conversation, x.conversations.lookup cid = some conversation ∧
    conversation.matchId = mid

structure Linked (x : Exchange) : Prop where
  offers : ∀ oid o, x.matchOffers.lookup oid = some o → x.OfferLinked o
  matchRows : ∀ mid m, x.matchRows.lookup mid = some m → x.MatchLinked mid m

/-- The references of `x` lead to the same rows in `x'`. -/
structure Keeps (x x' : Exchange) : Prop where
  requests : Table.Keeps Request.identity x.requests x'.requests
  matchOffers : Table.Keeps MatchOffer.identity x.matchOffers x'.matchOffers
  matchRows : Table.Keeps Match.identity x.matchRows x'.matchRows
  conversations : Table.Keeps Conversation.matchId x.conversations x'.conversations

variable {x x' : Exchange}

theorem Linked.item (h : x.Linked) {mid : MatchId} {m : Match}
    (hm : x.matchRows.lookup mid = some m) :
    ∃ item, x.inventoryItems.lookup m.inventoryItemId = some item := by
  obtain ⟨o, ho, -, -, hitem⟩ := (h.matchRows mid m hm).offer
  obtain ⟨item, hi, -⟩ := (h.offers _ o ho).item
  exact ⟨item, hitem ▸ hi⟩

theorem Linked.peer (h : x.Linked) {mid : MatchId} {m : Match}
    (hm : x.matchRows.lookup mid = some m) : m.helperId ≠ m.requesterId := by
  obtain ⟨o, ho, hreq, hhelper, -⟩ := (h.matchRows mid m hm).offer
  obtain ⟨r, hr, hrequester, -⟩ := (h.matchRows mid m hm).request
  obtain ⟨r', hr', hne⟩ := (h.offers _ o ho).request
  rw [hreq, hr] at hr'
  obtain rfl := Option.some.inj hr'
  rwa [hhelper, hrequester] at hne

theorem OfferLinked.keep {o o' : MatchOffer} (h : x.OfferLinked o) (hk : x.Keeps x')
    (hitem : ∀ item, x.inventoryItems.lookup o.inventoryItemId = some item →
      ∃ item', x'.inventoryItems.lookup o.inventoryItemId = some item' ∧
        item'.identity = item.identity)
    (hid : o'.identity = o.identity) : x'.OfferLinked o' := by
  simp only [MatchOffer.identity, Prod.mk.injEq] at hid
  obtain ⟨hrequest, hhelper, hitemId, -⟩ := hid
  obtain ⟨r, hr, hne⟩ := h.request
  obtain ⟨r', hr', hrid⟩ := hk.requests _ r hr
  obtain ⟨item, hi, howner⟩ := h.item
  obtain ⟨item', hi', hiid⟩ := hitem item hi
  simp only [Request.identity, InventoryItem.identity, Prod.mk.injEq] at hrid hiid
  constructor
  · exact ⟨r', hrequest ▸ hr', by rwa [hhelper, hrid.2.1]⟩
  · exact ⟨item', hitemId ▸ hi', by rw [hhelper, hiid.1, howner]⟩

theorem MatchLinked.keep {mid : MatchId} {m m' : Match} (h : x.MatchLinked mid m)
    (hk : x.Keeps x') (hid : m'.identity = m.identity) : x'.MatchLinked mid m' := by
  simp only [Match.identity, Prod.mk.injEq] at hid
  obtain ⟨hrequest, hoffer, hevent, hrequester, hhelper, hitem, -⟩ := hid
  obtain ⟨r, hr, hru, hre⟩ := h.request
  obtain ⟨r', hr', hrid⟩ := hk.requests _ r hr
  obtain ⟨o, ho, hor, hoh, hoi⟩ := h.offer
  obtain ⟨o', ho', hoid⟩ := hk.matchOffers _ o ho
  obtain ⟨cid, conversation, hc, hcm⟩ := h.conversation
  obtain ⟨conversation', hc', hcid⟩ := hk.conversations _ _ hc
  simp only [Request.identity, MatchOffer.identity, Prod.mk.injEq] at hrid hoid
  constructor
  · exact ⟨r', hrequest ▸ hr', by rw [hrid.2.1, hru, hrequester], by rw [hrid.1, hre, hevent]⟩
  · exact ⟨o', hoffer ▸ ho', by rw [hoid.1, hor, hrequest], by rw [hoid.2.1, hoh, hhelper],
      by rw [hoid.2.2.1, hoi, hitem]⟩
  · exact ⟨cid, conversation', hc', by rw [hcid, hcm]⟩

theorem supersede_keeps (x : Exchange) (id : RequestId) (now : Time) :
    Table.Keeps MatchOffer.identity x.matchOffers (x.supersede id now).matchOffers :=
  Table.Keeps.updateWhere _ _ fun _ => rfl

end Exchange

variable {c : Ctx} {x x' : Exchange}

/-! ## What a step keeps -/

theorem Match.Confirms.identity {m m' : Match} (h : m.Confirms m') : m'.identity = m.identity := by
  rcases h with rfl | ⟨side, qty, -, -, -, rfl⟩
  · rfl
  · cases side <;> rfl

theorem Match.setConfirmedQty_identity (m : Match) (side : Side) (qty : Qty) :
    (m.setConfirmedQty side qty).identity = m.identity := by
  cases side <;> rfl

theorem Match.setMeetingState_identity (m : Match) (side : Side) (state : MeetingState) :
    (m.setMeetingState side state).identity = m.identity := by
  cases side <;> rfl

theorem Lifecycle.keeps (h : Lifecycle c x x') : x.Keeps x' := by
  constructor
  · cases h with
    | openRequest id r hid => exact Table.Keeps.put _ hid r
    | closeRequest id r target actor reason hr => exact Table.Keeps.replace hr rfl
    | createOffer oid o r item hoid hoffered hr => exact Table.Keeps.replace hr rfl
    | closeOffer oid o r status actor reason ho hoffered hstatus hr =>
        exact Table.Keeps.replace hr rfl
    | accept oid o r item mid m cid ho hoffered hcaller hr => exact Table.Keeps.replace hr rfl
    | settle mid m m' r item cid conversation final disputed closeReason actor hm hactive
        hconfirms hfinal hr => exact Table.Keeps.replace hr rfl
    | cancel mid m r item cid conversation conversation' canceller status closeReason reason hm
        hactive hstatus hr => exact Table.Keeps.replace hr rfl
    | reopen id r expiresAt reason hr => exact Table.Keeps.replace hr rfl
    | conclude id r target hr => exact Table.Keeps.replace hr rfl
    | widen id r radius hr => exact Table.Keeps.replace hr rfl
    | _ => exact Table.Keeps.refl _ _
  · cases h with
    | closeRequest id => exact x.supersede_keeps id c.now
    | createOffer oid o r item hoid => exact Table.Keeps.put _ hoid o
    | closeOffer oid o r status actor reason ho => exact Table.Keeps.replace ho rfl
    | accept oid o r item mid m cid ho => exact Table.Keeps.replace ho rfl
    | _ => exact Table.Keeps.refl _ _
  · cases h with
    | accept oid o r item mid m cid ho hoffered hcaller hr hoffering hi hmid =>
        exact Table.Keeps.put _ hmid m
    | confirm mid m side qty hm =>
        exact Table.Keeps.replace hm (m.setConfirmedQty_identity side qty)
    | settle mid m m' r item cid conversation final disputed closeReason actor hm hactive
        hconfirms => exact Table.Keeps.replace hm hconfirms.identity
    | cancel mid m r item cid conversation conversation' canceller status closeReason reason hm =>
        exact Table.Keeps.replace hm rfl
    | meet mid m side state hm =>
        exact Table.Keeps.replace hm (m.setMeetingState_identity side state)
    | _ => exact Table.Keeps.refl _ _
  · cases h with
    | accept oid o r item mid m cid ho hoffered hcaller hr hoffering hi hmid hm hcid =>
        exact Table.Keeps.put _ hcid _
    | settle mid m m' r item cid conversation final disputed closeReason actor hm hactive
        hconfirms hfinal hr hmatched hi hcid => exact Table.Keeps.replace hcid rfl
    | cancel mid m r item cid conversation conversation' canceller status closeReason reason hm
        hactive hstatus hr hmatched hi hcid hconversation hconversation' =>
        exact Table.Keeps.replace hcid (hconversation'.trans hconversation.symm)
    | _ => exact Table.Keeps.refl _ _

theorem Lifecycle.keeps_items (h : Lifecycle c x x') :
    Table.Keeps InventoryItem.identity x.inventoryItems x'.inventoryItems ∨
      ∃ id, (∀ oid o, x'.matchOffers.lookup oid = some o → o.inventoryItemId ≠ id) ∧
        x'.inventoryItems = x.inventoryItems.drop id := by
  cases h with
  | addItem id added hid => exact .inl (Table.Keeps.put _ hid added)
  | editItems f hrestocks hf =>
      refine .inl (Table.Keeps.mapVal _ fun id row hrow => ?_)
      rcases hf id row hrow with heq | ⟨hid, -⟩
      · rw [heq]
      · exact hid
  | dropItem id hrestocks hoffers => exact .inr ⟨id, hoffers, rfl⟩
  | accept oid o r item mid m cid ho hoffered hcaller hr hoffering hi =>
      exact .inl (Table.Keeps.replace hi rfl)
  | settle mid m m' r item cid conversation final disputed closeReason actor hm hactive
      hconfirms hfinal hr hmatched hi => exact .inl (Table.Keeps.replace hi rfl)
  | cancel mid m r item cid conversation conversation' canceller status closeReason reason hm
      hactive hstatus hr hmatched hi => exact .inl (Table.Keeps.replace hi rfl)
  | _ => exact .inl (Table.Keeps.refl _ _)

/-- An item that an offer refers to is not removed. -/
theorem Lifecycle.keeps_item (h : Lifecycle c x x') {oid : OfferId} {o : MatchOffer}
    (ho : x'.matchOffers.lookup oid = some o) {item : InventoryItem}
    (hi : x.inventoryItems.lookup o.inventoryItemId = some item) :
    ∃ item', x'.inventoryItems.lookup o.inventoryItemId = some item' ∧
      item'.identity = item.identity := by
  rcases h.keeps_items with hk | ⟨id, hunused, hdrop⟩
  · exact hk _ item hi
  · refine ⟨item, ?_, rfl⟩
    rw [hdrop, Table.lookup_drop, if_neg (hunused oid o ho), hi]

/-! ## Where the rows after a step come from -/

theorem LifecycleRun.keeps (h : LifecycleRun c x x') : x.Keeps x' := by
  induction h with
  | refl => exact ⟨.refl _ _, .refl _ _, .refl _ _, .refl _ _⟩
  | tail _ hlast ih =>
      exact ⟨ih.requests.trans hlast.keeps.requests, ih.matchOffers.trans hlast.keeps.matchOffers,
        ih.matchRows.trans hlast.keeps.matchRows, ih.conversations.trans hlast.keeps.conversations⟩

theorem Lifecycle.offers_before (h : Lifecycle c x x') :
    Table.Keeps MatchOffer.identity x'.matchOffers x.matchOffers ∨
      ∃ oid o, x'.matchOffers = x.matchOffers.put oid o ∧ x.OfferLinked o := by
  cases h with
  | closeRequest id => exact .inl (Table.Keeps.of_updateWhere _ _ fun _ => rfl)
  | createOffer oid o r item hoid hoffered hr hsearching hi howner hevent hcategory hpeer =>
      exact .inr ⟨oid, o, rfl, ⟨r, hr, hpeer⟩, ⟨item, hi, howner⟩⟩
  | closeOffer oid o r status actor reason ho => exact .inl (Table.Keeps.of_replace ho rfl)
  | accept oid o r item mid m cid ho => exact .inl (Table.Keeps.of_replace ho rfl)
  | _ => exact .inl (Table.Keeps.refl _ _)

theorem Lifecycle.requests_before (h : Lifecycle c x x') :
    Table.Keeps Request.identity x'.requests x.requests ∨
      ∃ id r, x'.requests = x.requests.put id r ∧ r.categoryId ∈ c.dir.categories := by
  cases h with
  | openRequest id r hid hcaller hcategory => exact .inr ⟨id, r, rfl, hcategory⟩
  | closeRequest id r target actor reason hr => exact .inl (Table.Keeps.of_replace hr rfl)
  | createOffer oid o r item hoid hoffered hr => exact .inl (Table.Keeps.of_replace hr rfl)
  | closeOffer oid o r status actor reason ho hoffered hstatus hr =>
      exact .inl (Table.Keeps.of_replace hr rfl)
  | accept oid o r item mid m cid ho hoffered hcaller hr =>
      exact .inl (Table.Keeps.of_replace hr rfl)
  | settle mid m m' r item cid conversation final disputed closeReason actor hm hactive
      hconfirms hfinal hr => exact .inl (Table.Keeps.of_replace hr rfl)
  | cancel mid m r item cid conversation conversation' canceller status closeReason reason hm
      hactive hstatus hr => exact .inl (Table.Keeps.of_replace hr rfl)
  | reopen id r expiresAt reason hr => exact .inl (Table.Keeps.of_replace hr rfl)
  | conclude id r target hr => exact .inl (Table.Keeps.of_replace hr rfl)
  | widen id r radius hr => exact .inl (Table.Keeps.of_replace hr rfl)
  | _ => exact .inl (Table.Keeps.refl _ _)

/-- The matches after a step are matches from before it, but for one just accepted. -/
theorem Lifecycle.matches_before (h : Lifecycle c x x') :
    Table.Keeps Match.identity x'.matchRows x.matchRows ∨
      ∃ mid m oid o r cid conversation, x'.matchRows = x.matchRows.put mid m ∧
        x.matchOffers.lookup oid = some o ∧ x.requests.lookup o.requestId = some r ∧
        m.Opens oid o r ∧ x'.conversations.lookup cid = some conversation ∧
        conversation.matchId = mid := by
  cases h with
  | accept oid o r item mid m cid ho hoffered hcaller hr hoffering hi hmid hm hcid =>
      refine .inr ⟨mid, m, oid, o, r, cid, { matchId := mid, createdAt := c.now }, rfl, ho, hr,
        hm, ?_, rfl⟩
      rw [Exchange.moveRequest_conversations, Table.lookup_put, if_pos rfl]
  | confirm mid m side qty hm =>
      exact .inl (Table.Keeps.of_replace hm (m.setConfirmedQty_identity side qty))
  | settle mid m m' r item cid conversation final disputed closeReason actor hm hactive
      hconfirms => exact .inl (Table.Keeps.of_replace hm hconfirms.identity)
  | cancel mid m r item cid conversation conversation' canceller status closeReason reason hm =>
      exact .inl (Table.Keeps.of_replace hm rfl)
  | meet mid m side state hm =>
      exact .inl (Table.Keeps.of_replace hm (m.setMeetingState_identity side state))
  | _ => exact .inl (Table.Keeps.refl _ _)

/-! ## Links are kept -/

theorem Lifecycle.offer_linked (h : Lifecycle c x x') {oid : OfferId} {o o' : MatchOffer}
    (ho : x.OfferLinked o) (hid : o.identity = o'.identity)
    (ho' : x'.matchOffers.lookup oid = some o') : x'.OfferLinked o' := by
  refine ho.keep h.keeps (fun item hi => ?_) hid.symm
  have hitem : o.inventoryItemId = o'.inventoryItemId := by
    simp only [MatchOffer.identity, Prod.mk.injEq] at hid
    exact hid.2.2.1
  rw [hitem] at hi ⊢
  exact h.keeps_item ho' hi

/-- A match is linked when it is made. -/
theorem Match.Opens.linked {m : Match} {oid : OfferId} {o : MatchOffer} {r : Request}
    (hm : m.Opens oid o r) (ho : x.matchOffers.lookup oid = some o)
    (hr : x.requests.lookup o.requestId = some r) (hk : x.Keeps x') {mid : MatchId}
    {cid : ConversationId} {conversation : Conversation}
    (hc : x'.conversations.lookup cid = some conversation) (hcm : conversation.matchId = mid) :
    x'.MatchLinked mid m := by
  obtain ⟨r', hr', hrid⟩ := hk.requests _ r hr
  obtain ⟨o', ho', hoid⟩ := hk.matchOffers _ o ho
  simp only [Request.identity, MatchOffer.identity, Prod.mk.injEq] at hrid hoid
  constructor
  · exact ⟨r', by rw [hm.requestId, hr'], by rw [hrid.2.1, hm.requesterId],
      by rw [hrid.1, hm.eventId]⟩
  · exact ⟨o', by rw [hm.offerId, ho'], by rw [hoid.1, hm.requestId],
      by rw [hoid.2.1, hm.helperId], by rw [hoid.2.2.1, hm.inventoryItemId]⟩
  · exact ⟨cid, conversation, hc, hcm⟩

theorem Lifecycle.linked (h : Lifecycle c x x') (hl : x.Linked) : x'.Linked := by
  constructor
  · intro oid o' ho'
    rcases h.offers_before with hold | ⟨oid₀, o, hput, hnew⟩
    · obtain ⟨o, ho, hid⟩ := hold oid o' ho'
      exact h.offer_linked (hl.offers oid o ho) hid ho'
    · have hlookup := ho'
      rw [hput, Table.lookup_put] at hlookup
      split_ifs at hlookup with hk
      · exact h.offer_linked hnew (by rw [Option.some.inj hlookup]) ho'
      · exact h.offer_linked (hl.offers oid o' hlookup) rfl ho'
  · intro mid m' hm'
    rcases h.matches_before with
      hold | ⟨mid₀, m, oid, o, r, cid, conversation, hput, ho, hr, hm, hc, hcm⟩
    · obtain ⟨m, hm, hid⟩ := hold mid m' hm'
      exact (hl.matchRows mid m hm).keep h.keeps hid.symm
    · rw [hput, Table.lookup_put] at hm'
      split_ifs at hm' with hk
      · obtain rfl := Option.some.inj hm'
        exact hm.linked ho hr h.keeps hc (hcm.trans hk.symm)
      · exact (hl.matchRows mid m' hm').keep h.keeps rfl

end Sahay
