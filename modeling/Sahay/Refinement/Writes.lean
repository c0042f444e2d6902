import Sahay.Refinement.System

/-!
# What operations write

Every operation is a run of the statements below, whatever the database it starts from;
so what each statement keeps, every operation keeps, also where rows have been purged
and the invariants of the lifecycle no longer hold.
-/

namespace Sahay

/-- The operations that write accounts or events. -/
def Op.rewrites : Op → Bool
  | .directory .. | .moderate .. | .deletionStatement _ (.anonymize _) => true
  | _ => false

namespace Db

/-- Accounts, events and recorded actions are the same. -/
structure SameAccounts (db db' : Db) : Prop where
  users : db'.users = db.users
  events : db'.events = db.events
  moderationActions : db'.moderationActions = db.moderationActions

/-- A statement of an operation.  `asks` tells which offers it may make, `rewrites` whether
it may write accounts and events. -/
inductive Writes (asks : MatchOffer → Prop) (rewrites : Bool) (db : Db) : Db → Prop
  | rewriteRequest (id : RequestId) (r r' : Request)
      (hr : db.requests.lookup id = some r)
      (hcheck : r'.check)
      (hid : r'.identity = r.identity)
      (hstatus : r'.status = r.status) :
      Writes asks rewrites db { db with requests := db.requests.replace id r' }
  | moveRequest (id : RequestId) (r r' : Request) (source target : RequestStatus)
      (actor : TransitionActor) (reason : Option String) (now : Time)
      (hr : db.requests.lookup id = some r)
      (hcan : canTransition (some source) target = true)
      (hstatus : r'.status = target)
      (hcheck : r'.check)
      (hid : r'.identity = r.identity)
      (hoffering : target = .offering →
        ∃ oid o, db.matchOffers.lookup oid = some o ∧ o.requestId = id) :
      Writes asks rewrites db (db.moved id source r' target actor reason now)
  | openRequest (id : RequestId) (r : Request) (actor : TransitionActor) (reason : Option String)
      (now : Time)
      (hid : id ∉ db.requests)
      (hcheck : r.check)
      (hstatus : r.status = .searching) :
      Writes asks rewrites db
        ({ db with requests := db.requests.put id r }.recordCreationTransition id actor reason now)
  | stock (t : Table ItemId InventoryItem) :
      Writes asks rewrites db { db with inventoryItems := t }
  | answer (f : OfferId → MatchOffer → MatchOffer)
      (hid : ∀ id o, (f id o).identity = o.identity) :
      Writes asks rewrites db { db with matchOffers := db.matchOffers.mapVal f }
  | ask (id : OfferId) (o : MatchOffer)
      (hid : id ∉ db.matchOffers)
      (hasks : asks o) :
      Writes asks rewrites db { db with matchOffers := db.matchOffers.put id o }
  | matchRows (t : Table MatchId Match) :
      Writes asks rewrites db { db with matchRows := t }
  | converse (id : ConversationId) (c : Conversation)
      (hid : id ∉ db.conversations)
      (hopen : c.status = .open) :
      Writes asks rewrites db { db with conversations := db.conversations.put id c }
  | conversation (f : ConversationId → Conversation → Conversation)
      (hmatch : ∀ id c, (f id c).matchId = c.matchId)
      (hexpired : ∀ id c, (f id c).status = .expired → c.status = .expired) :
      Writes asks rewrites db { db with conversations := db.conversations.mapVal f }
  | say (id : MessageId) (message : Message)
      (hid : id ∉ db.messages)
      (hopen : message.kind = .system ∨
        ∃ c, db.conversations.lookup message.conversationId = some c ∧ c.status = .open) :
      Writes asks rewrites db { db with messages := db.messages.put id message }
  | outside (db' : Db)
      (hexchange : db'.toExchange = db.toExchange)
      (hmessages : db'.messages = db.messages)
      (haccounts : rewrites = false → SameAccounts db db') :
      Writes asks rewrites db db'

abbrev WriteRun (asks : MatchOffer → Prop) (rewrites : Bool) : Db → Db → Prop :=
  Relation.ReflTransGen (Writes asks rewrites)

theorem WriteRun.invariant {asks : MatchOffer → Prop} {rewrites : Bool} {P : Db → Prop}
    (hstep : ∀ db db', P db → Writes asks rewrites db db' → P db') {db db' : Db} (hdb : P db)
    (h : WriteRun asks rewrites db db') : P db' := by
  induction h with
  | refl => exact hdb
  | tail _ hlast ih => exact hstep _ _ ih hlast

theorem SameAccounts.refl (db : Db) : SameAccounts db db := ⟨rfl, rfl, rfl⟩

theorem SameAccounts.trans {db db' db'' : Db} (h : SameAccounts db db')
    (h' : SameAccounts db' db'') : SameAccounts db db'' :=
  ⟨h'.users.trans h.users, h'.events.trans h.events,
    h'.moderationActions.trans h.moderationActions⟩

theorem Writes.accounts {asks : MatchOffer → Prop} {db db' : Db} (h : Writes asks false db db') :
    SameAccounts db db' := by
  cases h with
  | outside db' hexchange hmessages haccounts => exact haccounts rfl
  | _ => exact ⟨rfl, rfl, rfl⟩

theorem Writes.weaken {asks asks' : MatchOffer → Prop} {rewrites : Bool} {db db' : Db}
    (h : Writes asks rewrites db db') (hasks : ∀ o, asks o → asks' o) :
    Writes asks' rewrites db db' := by
  cases h with
  | rewriteRequest id r r' hr hcheck hid hstatus =>
      exact .rewriteRequest id r r' hr hcheck hid hstatus
  | moveRequest id r r' source target actor reason now hr hcan hstatus hcheck hid hoffering =>
      exact .moveRequest id r r' source target actor reason now hr hcan hstatus hcheck hid hoffering
  | openRequest id r actor reason now hid hcheck hstatus =>
      exact .openRequest id r actor reason now hid hcheck hstatus
  | stock t => exact .stock t
  | answer f hid => exact .answer f hid
  | ask id o hid hask => exact .ask id o hid (hasks o hask)
  | matchRows t => exact .matchRows t
  | converse id c hid hopen => exact .converse id c hid hopen
  | conversation f hmatch hexpired => exact .conversation f hmatch hexpired
  | say id message hid hopen => exact .say id message hid hopen
  | outside db' hexchange hmessages haccounts => exact .outside db' hexchange hmessages haccounts

theorem WriteRun.weaken {asks asks' : MatchOffer → Prop} {rewrites : Bool} {db db' : Db}
    (h : WriteRun asks rewrites db db') (hasks : ∀ o, asks o → asks' o) :
    WriteRun asks' rewrites db db' := by
  induction h with
  | refl => exact .refl
  | tail _ hlast ih => exact ih.tail (hlast.weaken hasks)

theorem WriteRun.accounts {asks : MatchOffer → Prop} {db db' : Db}
    (h : WriteRun asks false db db') : SameAccounts db db' :=
  h.invariant (P := SameAccounts db) (fun _ _ hdb hstep => hdb.trans hstep.accounts) (.refl db)

/-- The offer is one of the table, or one that may be asked, answered since. -/
def OfferFrom (asks : MatchOffer → Prop) (t : Table OfferId MatchOffer) (o : MatchOffer) : Prop :=
  ∃ o', o'.identity = o.identity ∧ ((∃ oid, t.lookup oid = some o') ∨ asks o')

theorem OfferFrom.congr {asks : MatchOffer → Prop} {t : Table OfferId MatchOffer}
    {o o' : MatchOffer} (h : OfferFrom asks t o) (hid : o'.identity = o.identity) :
    OfferFrom asks t o' := by
  obtain ⟨source, hsource, hfrom⟩ := h
  exact ⟨source, hsource.trans hid.symm, hfrom⟩

theorem WriteRun.offers_before {asks : MatchOffer → Prop} {rewrites : Bool} {db db' : Db}
    (h : WriteRun asks rewrites db db') :
    ∀ oid o, db'.matchOffers.lookup oid = some o → OfferFrom asks db.matchOffers o := by
  apply h.invariant (P := fun mid =>
    ∀ oid o, mid.matchOffers.lookup oid = some o → OfferFrom asks db.matchOffers o)
  · intro mid mid' hmid hstep
    cases hstep with
    | answer f hid =>
        intro oid o ho
        rw [Table.lookup_mapVal] at ho
        obtain ⟨before, hbefore, rfl⟩ := Option.map_eq_some_iff.mp ho
        exact (hmid oid before hbefore).congr (hid oid before)
    | ask id offer hid hasks => exact Table.forall_put hmid ⟨offer, rfl, .inr hasks⟩
    | outside mid' hexchange =>
        rw [hexchange]
        exact hmid
    | _ => exact hmid
  · exact fun oid o ho => ⟨o, rfl, .inl ⟨oid, ho⟩⟩

section Statements

variable {asks : MatchOffer → Prop} {rewrites : Bool} {db db' db'' : Db} {env : Env}
  {effects : List Effect}

/-! ## Statements -/

theorem WriteRun.outside (hexchange : db'.toExchange = db.toExchange)
    (hmessages : db'.messages = db.messages) (haccounts : SameAccounts db db') :
    WriteRun asks rewrites db db' :=
  .single (.outside db' hexchange hmessages fun _ => haccounts)

theorem updateInventoryItem_writes {id : ItemId} {set : InventoryItem → InventoryItem}
    (h : db.updateInventoryItem id set = .ok db') : WriteRun asks rewrites db db' := by
  obtain ⟨item, -, -, rfl⟩ := updateInventoryItem_ok.mp h
  exact .single (.stock _)

theorem transitionRequest_writes {id : RequestId} {source target : RequestStatus}
    {actor : TransitionActor} {reason : Option String} {now : Time} {set : Request → Request}
    (h : db.transitionRequest id source target actor reason now set = .ok db')
    (hset : ∀ r, (set r).identity = r.identity ∧ (set r).status = r.status)
    (hoffering : target = .offering →
      ∃ oid o, db.matchOffers.lookup oid = some o ∧ o.requestId = id) :
    WriteRun asks rewrites db db' := by
  obtain ⟨hcan, r, hr, hcheck, rfl⟩ := transitionRequest_ok.mp h
  obtain ⟨hid, hstatus⟩ := hset { r with status := target }
  exact .single (.moveRequest id r _ source target actor reason now hr hcan hstatus hcheck hid
    hoffering)

theorem leaveRequest_writes {id : RequestId} {source target : RequestStatus}
    {actor : TransitionActor} {reason : Option String} {now : Time} {set : Request → Request}
    (h : db.transitionRequest id source target actor reason now set = .ok db')
    (hset : ∀ r, (set r).identity = r.identity ∧ (set r).status = r.status)
    (htarget : target ≠ .offering) : WriteRun asks rewrites db db' :=
  transitionRequest_writes h hset fun hoffering => absurd hoffering htarget

theorem closeOffer_writes (db : Db) (oid : OfferId) (status : OfferStatus) (now : Time) :
    WriteRun asks rewrites db (db.closeOffer oid status now) := by
  refine .single (.answer _ fun id o => ?_)
  split_ifs <;> rfl

theorem supersedeOffers_writes (db : Db) (requestId : RequestId) (now : Time) :
    WriteRun asks rewrites db (db.supersedeOffers requestId now) := by
  refine .single (.answer _ fun id o => ?_)
  split_ifs <;> rfl

theorem insertSystemMessage_writes (db : Db) (env : Env) (cid : ConversationId)
    (senderId : UserId) (bodyKey : String) :
    WriteRun asks rewrites db (db.insertSystemMessage env cid senderId bodyKey) :=
  .single (.say _ _ (Table.freshKey_notMem _ _) (.inl rfl))

theorem updateConversation_writes (db : Db) (id : ConversationId)
    (set : Conversation → Conversation) (hmatch : ∀ c, (set c).matchId = c.matchId)
    (hexpired : ∀ c, (set c).status = .expired → c.status = .expired) :
    WriteRun asks rewrites db (db.updateConversation id set) := by
  refine .single (.conversation _ (fun k c => ?_) fun k c => ?_)
  · split_ifs
    · exact hmatch c
    · rfl
  · split_ifs
    · exact hexpired c
    · exact fun h => h

/-! ## Inventory and requests -/

theorem addInventory_writes {userId : UserId} {eventId : EventId} {input : AddInventoryInput}
    {itemId : ItemId} (h : db.addInventory env userId eventId input = .ok (itemId, db')) :
    WriteRun asks rewrites db db' := by
  rcases addInventory_ok h with ⟨-, rfl⟩ | ⟨item, -, rfl⟩
  · exact .refl
  · exact .single (.stock _)

theorem deleteInventory_writes {userId : UserId} {itemId : ItemId}
    (h : db.deleteInventory env userId itemId = .ok db') : WriteRun asks rewrites db db' := by
  simp only [deleteInventory, bind_ok] at h
  obtain ⟨-, -, h⟩ := h
  split_ifs at h
  · exact updateInventoryItem_writes h
  · obtain rfl := pure_ok.mp h
    exact .single (.stock _)

theorem insertRequest_writes {ticket : RequestTicket} (hnew : ticket.row.status = .searching)
    (h : db.insertRequest env ticket = .ok (effects, db')) : WriteRun asks rewrites db db' := by
  simp only [insertRequest, bind_ok, ensure_ok, pure_ok, Prod.mk.injEq] at h
  obtain ⟨-, -, -, hcheck, -, rfl⟩ := h
  have hinsert (mid : Db) : Writes asks rewrites mid
      ({ mid with
          requests := mid.requests.put (mid.requests.freshKey env.uuid.request)
            { ticket.row with createdAt := env.now } }.recordCreationTransition
        (mid.requests.freshKey env.uuid.request) .requester (some "created") env.now) :=
    .openRequest _ _ .requester (some "created") env.now (Table.freshKey_notMem _ _) hcheck hnew
  split
  · rename_i coords hcoords
    have hlocated : WriteRun asks rewrites db
        (db.upsertMemberLocation env ticket.row.requesterId ticket.row.eventId coords) :=
      .outside rfl rfl ⟨rfl, rfl, rfl⟩
    exact hlocated.tail (hinsert _)
  · exact .single (hinsert db)

theorem createRequest_writes {auth : AuthContext} {input : CreateRequestInput}
    (h : db.createRequest env auth input = .ok (effects, db')) : WriteRun asks rewrites db db' := by
  rcases createRequest_ok.mp h with ⟨-, -, rfl⟩ | ⟨-, ticket, hticket, -, hinsert⟩
  · exact .refl
  · exact insertRequest_writes (prepareRequest_new hticket).1 hinsert

theorem renewRequest_writes {userId : UserId} {requestId : RequestId} {expiresInMinutes : ℕ}
    (h : db.renewRequest env userId requestId expiresInMinutes = .ok (effects, db')) :
    WriteRun asks rewrites db db' := by
  simp only [renewRequest, bind_ok, pure_ok, Prod.mk.injEq] at h
  obtain ⟨request, -, -, -, mid, hmove, -, rfl⟩ := h
  exact leaveRequest_writes hmove (fun _ => ⟨rfl, rfl⟩) (by decide)

theorem continueRequest_writes {userId : UserId} {requestId : RequestId}
    {continueSearching : Bool}
    (h : db.continueRequest env userId requestId continueSearching = .ok (effects, db')) :
    WriteRun asks rewrites db db' := by
  simp only [continueRequest, bind_ok] at h
  obtain ⟨request, -, -, -, h⟩ := h
  split_ifs at h
  · simp only [bind_ok, pure_ok, Prod.mk.injEq] at h
    obtain ⟨-, -, mid, hmove, -, rfl⟩ := h
    exact leaveRequest_writes hmove (fun _ => ⟨rfl, rfl⟩) (by decide)
  all_goals
    simp only [bind_ok, pure_ok, Prod.mk.injEq] at h
    obtain ⟨mid, hmove, -, rfl⟩ := h
    exact leaveRequest_writes hmove (fun _ => ⟨rfl, rfl⟩) (by decide)

theorem closeOpenRequest_writes {target : RequestStatus} {actor : TransitionActor}
    {reason : String} {requestId : RequestId} (htarget : target ≠ .offering)
    (h : db.closeOpenRequest env target actor reason requestId = .ok db') :
    WriteRun asks rewrites db db' := by
  simp only [closeOpenRequest, bind_ok] at h
  obtain ⟨request, -, hmove⟩ := h
  exact (supersedeOffers_writes _ _ _).trans
    (leaveRequest_writes hmove (fun _ => ⟨rfl, rfl⟩) htarget)

theorem closeOpenRequests_writes {target : RequestStatus} {actor : TransitionActor}
    {reason : String} {ids : List RequestId} (htarget : target ≠ .offering)
    (h : closeOpenRequests env target actor reason ids db = .ok db') :
    WriteRun asks rewrites db db' := by
  induction ids generalizing db with
  | nil =>
      obtain rfl := pure_ok.mp h
      exact .refl
  | cons id ids ih =>
      obtain ⟨mid, hclose, hrest⟩ := bind_ok.mp h
      exact (closeOpenRequest_writes htarget hclose).trans (ih hrest)

/-! ## Offers -/

theorem declineOffer_writes {helperId : UserId} {offerId : OfferId} {alsoStopReceiving : Bool}
    (h : db.declineOffer env helperId offerId alsoStopReceiving = .ok (effects, db')) :
    WriteRun asks rewrites db db' := by
  have hresponded : WriteRun asks rewrites db
      ((db.closeOffer offerId .declined env.now).applyOfferResponded helperId env.now) :=
    (closeOffer_writes db offerId .declined env.now).trans
      (WriteRun.outside rfl rfl ⟨rfl, rfl, rfl⟩)
  have hstopped (mid : Db) (eventId : EventId) : WriteRun asks rewrites mid
      (if alsoStopReceiving then mid.stopReceiving helperId eventId env.now else mid) := by
    split_ifs
    · exact .outside rfl rfl ⟨rfl, rfl, rfl⟩
    · exact .refl
  simp only [declineOffer, bind_ok] at h
  obtain ⟨offer, -, request, -, h⟩ := h
  by_cases hoffering : request.status = .offering
  · rw [if_pos hoffering] at h
    simp only [bind_ok, pure_ok, Prod.mk.injEq] at h
    obtain ⟨mid, hmove, -, rfl⟩ := h
    have hmoved : WriteRun asks rewrites _ mid :=
      leaveRequest_writes hmove (fun _ => ⟨rfl, rfl⟩) (by decide)
    exact (hresponded.trans hmoved).trans (hstopped mid _)
  · rw [if_neg hoffering] at h
    simp only [bind_ok, pure_ok, Prod.mk.injEq] at h
    obtain ⟨_, rfl, -, rfl⟩ := h
    exact hresponded.trans (hstopped _ _)

theorem acceptOffer_writes {helperId : UserId} {offerId : OfferId} {draws : List (ℕ × ℕ)}
    {outcome : AcceptOutcome}
    (h : db.acceptOffer env helperId offerId draws = .ok (outcome, effects, db')) :
    WriteRun asks rewrites db db' := by
  simp only [acceptOffer, bind_ok] at h
  obtain ⟨offer, -, request, -, -, -, item, -, h⟩ := h
  generalize computeReserveQty offer.qty (request.qty - request.qtyFulfilled)
    (if item.active = true then item.qtyOnHand - item.qtyReserved else 0)
    ((db.categories.lookup request.categoryId).elim false Category.fractional) = q at h
  by_cases hnone : q ≤ 0
  · rw [if_pos hnone] at h
    simp only [bind_ok, pure_ok, Prod.mk.injEq] at h
    obtain ⟨mid, hmove, -, -, rfl⟩ := h
    exact (closeOffer_writes _ _ _ _).trans
      (leaveRequest_writes hmove (fun _ => ⟨rfl, rfl⟩) (by decide))
  · rw [if_neg hnone] at h
    simp only [bind_ok, pure_ok, Prod.mk.injEq] at h
    obtain ⟨reserved, hreserve, aliases, -, -, -, mid, hmove, -, -, rfl⟩ := h
    have hreserved : WriteRun asks rewrites db reserved := updateInventoryItem_writes hreserve
    have hmatched : WriteRun asks rewrites reserved mid := by
      refine ((closeOffer_writes reserved offerId .accepted env.now).tail (.matchRows _)).trans
        (leaveRequest_writes hmove (fun _ => ⟨rfl, rfl⟩) (by decide))
    have hopened : Writes asks rewrites mid { mid with
        conversations := mid.conversations.put (mid.conversations.freshKey env.uuid.conversation)
          { matchId := (reserved.closeOffer offerId .accepted env.now).matchRows.freshKey
              env.uuid.matchRow
            createdAt := env.now } } :=
      .converse _ _ (Table.freshKey_notMem _ _) rfl
    have hannounced := ((hreserved.trans hmatched).tail hopened).trans
      (insertSystemMessage_writes _ env (mid.conversations.freshKey env.uuid.conversation) helperId
        "match.matched")
    exact hannounced.trans (WriteRun.outside rfl rfl ⟨rfl, rfl, rfl⟩)

theorem expireOffer_writes {offerId : OfferId}
    (h : db.expireOffer env offerId = .ok (effects, db')) : WriteRun asks rewrites db db' := by
  cases expireOffer_cases h with
  | keeps _ => exact .refl
  | resumes _ _ _ _ _ hmove =>
      exact (closeOffer_writes _ _ _ _).trans
        (leaveRequest_writes hmove (fun _ => ⟨rfl, rfl⟩) (by decide))
  | closes _ _ _ _ => exact closeOffer_writes _ _ _ _

/-! ## Matching passes -/

variable {requestId : RequestId} {request : Request} {event : Event} {choices : PassChoices}

/-- A pass over the request gets as far as the candidate query: the request is open and
unexpired, its event takes place and is not paused, and no open offer is awaited. -/
structure Searches (db : Db) (env : Env) (requestId : RequestId) (request : Request)
    (event : Event) : Prop where
  row : db.requests.lookup requestId = some request
  held : db.events.lookup request.eventId = some event
  isOpen : request.status.isOpen = true
  unexpired : env.now < request.expiresAt
  active : event.status = .active
  unpaused : event.matchingPaused = false
  unanswered : request.status = .offering →
    ((db.openOffer requestId).any fun o => env.now < o.2.respondBy) = false

def Invites (db : Db) (env : Env) (requestId : RequestId) (o : MatchOffer) : Prop :=
  o.requestId = requestId ∧ ∃ request event item, db.Searches env requestId request event ∧
    db.inventoryItems.lookup o.inventoryItemId = some item ∧
    db.candidateEligible env requestId request event item = true

/-- An item that the query admits in `db'` is admitted in `db`. -/
structure AdmitsFrom (db db' : Db) (env : Env) (requestId : RequestId) (request : Request)
    (event : Event) : Prop where
  items : db'.inventoryItems = db.inventoryItems
  eligible : ∀ item, db'.candidateEligible env requestId request event item = true →
    ∃ request, db.Searches env requestId request event ∧
      db.candidateEligible env requestId request event item = true

theorem search_writes (hfrom : AdmitsFrom db db' env requestId request event)
    (h : db'.search env requestId request event choices = .ok (effects, db'')) :
    WriteRun (db.Invites env requestId) rewrites db' db'' := by
  unfold search at h
  split at h
  · rename_i w offerQty hwinner
    obtain ⟨⟨item, hi, -, heligible⟩, -, -⟩ := winner_some hwinner
    obtain ⟨r, hsearches, heligible⟩ := hfrom.eligible item heligible
    rw [hfrom.items] at hi
    obtain ⟨hcan, r', hr', hcheck, -, rfl⟩ := createOffer_ok.mp h
    let offer := newOffer env requestId event w offerQty
    let inserted : Db := { db' with
      matchOffers := db'.matchOffers.put (db'.matchOffers.freshKey env.uuid.matchOffer) offer }
    have hask : Writes (db.Invites env requestId) rewrites db' inserted :=
      .ask _ _ (Table.freshKey_notMem _ _) ⟨rfl, r, event, item, hsearches, hi, heligible⟩
    have hmoved : Writes (db.Invites env requestId) rewrites inserted
        (inserted.moved requestId request.status (offeredRow request r') .offering .system
          (some "offer-created") env.now) :=
      .moveRequest _ r' _ _ _ _ _ _ hr' hcan rfl hcheck rfl fun _ =>
        ⟨_, offer, (Table.lookup_put _ _ _ _).trans (if_pos rfl), rfl⟩
    exact .head hask (.head hmoved (WriteRun.outside rfl rfl ⟨rfl, rfl, rfl⟩))
  · rcases widenOrRetry_ok.mp h with ⟨-, r, hr, hcheck, -, rfl⟩ | ⟨-, -, rfl⟩
    · exact .single (.rewriteRequest _ r _ hr hcheck rfl rfl)
    · exact .refl

/-- Answering offers makes nobody a candidate. -/
theorem candidateEligible_before {item : InventoryItem} (hdir : db'.toDirectory = db.toDirectory)
    (hmatches : db'.matchRows = db.matchRows)
    (hoffers : ∀ oid o, db.matchOffers.lookup oid = some o →
      ∃ o', db'.matchOffers.lookup oid = some o' ∧ o'.identity = o.identity)
    (h : db'.candidateEligible env requestId request event item = true) :
    db.candidateEligible env requestId request event item = true := by
  have hpair : db'.pairEligible requestId request.requesterId item.userId = true →
      db.pairEligible requestId request.requesterId item.userId = true := by
    intro hpair
    obtain ⟨hpeer, hblocked, hblocked', hasked⟩ := pairEligible_iff.mp hpair
    rw [hdir] at hblocked hblocked'
    refine pairEligible_iff.mpr ⟨hpeer, hblocked, hblocked', ?_⟩
    intro oid o ho hrid hhelper
    obtain ⟨o', ho', hid⟩ := hoffers oid o ho
    simp only [MatchOffer.identity, Prod.mk.injEq] at hid
    exact hasked oid o' ho' (hid.1.trans hrid) (hid.2.1.trans hhelper)
  simp only [candidateEligible, helperEligible, candidateDistance, liveLocation, hdir, hmatches,
    Bool.and_eq_true] at h ⊢
  obtain ⟨⟨⟨hhelper, hasked⟩, hitem⟩, hradius⟩ := h
  exact ⟨⟨⟨hhelper, hpair hasked⟩, hitem⟩, hradius⟩

theorem sweepOverdueOffer_admits (hsearches : db.Searches env requestId request event)
    (h : db.sweepOverdueOffer env requestId request = .ok db') :
    AdmitsFrom db db' env requestId { request with status := .searching } event := by
  have hframe : db'.toDirectory = db.toDirectory ∧ db'.matchRows = db.matchRows ∧
      db'.inventoryItems = db.inventoryItems ∧
      ∀ oid o, db.matchOffers.lookup oid = some o →
        ∃ o', db'.matchOffers.lookup oid = some o' ∧ o'.identity = o.identity := by
    obtain ⟨-, r, -, -, rfl⟩ := transitionRequest_ok.mp h
    cases hopen : db.openOffer requestId with
    | none => exact ⟨rfl, rfl, rfl, fun oid o ho => ⟨o, ho, rfl⟩⟩
    | some e =>
        refine ⟨rfl, rfl, rfl, fun oid o ho => ?_⟩
        have ho' := Table.lookup_modify db.matchOffers e.1 oid fun o =>
          { o with status := .expired, respondedAt := some env.now }
        rw [ho, Option.map_some] at ho'
        refine ⟨_, ho', ?_⟩
        split_ifs <;> rfl
  obtain ⟨hdir, hmatches, hitems, hoffers⟩ := hframe
  exact ⟨hitems, fun item heligible =>
    ⟨request, hsearches, candidateEligible_before hdir hmatches hoffers heligible⟩⟩

theorem sweepOverdueOffer_writes (h : db.sweepOverdueOffer env requestId request = .ok db') :
    WriteRun (db.Invites env requestId) rewrites db db' := by
  cases hopen : db.openOffer requestId with
  | none =>
      simp only [sweepOverdueOffer, hopen] at h
      exact leaveRequest_writes h (fun _ => ⟨rfl, rfl⟩) (by decide)
  | some e =>
      simp only [sweepOverdueOffer, hopen] at h
      exact (closeOffer_writes _ _ _ _).trans
        (leaveRequest_writes h (fun _ => ⟨rfl, rfl⟩) (by decide))

theorem resumeSearch_writes (hr : db.requests.lookup requestId = some request)
    (hevent : db.events.lookup request.eventId = some event)
    (hopen : request.status.isOpen = true) (hunexpired : env.now < request.expiresAt)
    (hactive : event.status = .active) (hunpaused : event.matchingPaused = false)
    (h : db.resumeSearch env requestId request event choices = .ok (effects, db')) :
    WriteRun (db.Invites env requestId) rewrites db db' := by
  cases resumeSearch_cases h with
  | waits _ _ => exact .refl
  | sweeps _ hover hsweep hsearch =>
      have hsearches : db.Searches env requestId request event :=
        ⟨hr, hevent, hopen, hunexpired, hactive, hunpaused, fun _ => hover⟩
      exact (sweepOverdueOffer_writes hsweep).trans
        (search_writes (sweepOverdueOffer_admits hsearches hsweep) hsearch)
  | searches hoffering hsearch =>
      have hsearches : db.Searches env requestId request event :=
        ⟨hr, hevent, hopen, hunexpired, hactive, hunpaused, fun h => absurd h hoffering⟩
      exact search_writes ⟨rfl, fun item heligible => ⟨request, hsearches, heligible⟩⟩ hsearch

theorem expireRequest_writes (h : db.expireRequest env requestId request = .ok (effects, db')) :
    WriteRun asks rewrites db db' := by
  simp only [expireRequest, bind_ok, pure_ok, Prod.mk.injEq] at h
  obtain ⟨mid, hmove, -, rfl⟩ := h
  exact (supersedeOffers_writes _ _ _).trans
    (leaveRequest_writes hmove (fun _ => ⟨rfl, rfl⟩) (by split_ifs <;> decide))

theorem runMatchPass_writes (h : db.runMatchPass env requestId choices = .ok (effects, db')) :
    WriteRun (db.Invites env requestId) rewrites db db' := by
  cases runMatchPass_cases h with
  | idle _ => exact .refl
  | expires _ _ _ hexpire => exact expireRequest_writes hexpire
  | defers _ _ _ _ => exact .refl
  | resumes hr hopen hunexpired hevent hactive hunpaused hresume =>
      exact resumeSearch_writes hr hevent hopen hunexpired hactive hunpaused hresume

/-! ## Matches and chats -/

variable {matchId : MatchId} {locks : MatchLocks}

theorem bump_writes (db : Db) (userId : UserId) (increments : ReliabilityCounters) (now : Time) :
    WriteRun asks rewrites db (db.bump userId increments now) :=
  .outside rfl rfl ⟨rfl, rfl, rfl⟩

theorem applySettlement_writes (db : Db) (m : Match) (opts : SettleOptions) (now : Time) :
    WriteRun asks rewrites db (db.applySettlement m opts now) := by
  unfold applySettlement
  split_ifs
  · exact .refl
  · exact ((bump_writes db _ _ _).trans (bump_writes _ _ _ _)).trans (bump_writes _ _ _ _)
  · exact bump_writes db _ _ _

theorem applyCancellation_writes (db : Db) (m : Match) (opts : CancelOptions) (now : Time) :
    WriteRun asks rewrites db (db.applyCancellation m opts now) := by
  unfold applyCancellation
  split_ifs
  · exact bump_writes db _ _ _
  · exact .refl

theorem forgetLocation_writes (db : Db) (m : Match) (opts : CancelOptions) :
    WriteRun asks rewrites db (db.forgetLocation m opts) := by
  unfold forgetLocation
  split
  · exact .outside rfl rfl ⟨rfl, rfl, rfl⟩
  · exact .refl

theorem settleLocked_writes {opts : SettleOptions}
    (h : db.settleLocked env matchId locks opts = .ok (effects, db')) :
    WriteRun asks rewrites db db' := by
  have hclosed {mid mid' : Db} {set : Match → Match} {credit : Request → Request}
      {target : RequestStatus}
      (hmove : (mid.updateMatch matchId set).transitionRequest locks.matchRow.requestId
        locks.request.status target opts.actor (some opts.closeReason) env.now credit = .ok mid')
      (hcredit : ∀ r, (credit r).identity = r.identity ∧ (credit r).status = r.status)
      (htarget : target ≠ .offering) (body : String) : WriteRun asks rewrites mid
        (((mid'.updateConversation locks.conversationId fun c =>
          { c with expiresAt := some (env.now + conversationGraceMs) }).applySettlement
            locks.matchRow opts env.now).insertSystemMessage env locks.conversationId
              opts.senderUserId body) := by
    have hmoved : WriteRun asks rewrites mid mid' :=
      .head (.matchRows _) (leaveRequest_writes hmove hcredit htarget)
    have hgrace := hmoved.trans (updateConversation_writes mid' locks.conversationId
      (fun c => { c with expiresAt := some (env.now + conversationGraceMs) })
      (fun _ => rfl) fun _ h => h)
    exact (hgrace.trans (applySettlement_writes _ _ _ _)).trans
      (insertSystemMessage_writes _ _ _ _ _)
  have htarget : settledRequestStatus locks.request
      (locks.request.qtyFulfilled + opts.finalQty) ≠ .offering := by
    unfold settledRequestStatus
    split_ifs <;> decide
  unfold settleLocked at h
  cases happlied : locks.matchRow.inventoryApplied with
  | true =>
      simp only [happlied, if_true, bind_ok, pure_ok, Prod.mk.injEq] at h
      obtain ⟨_, rfl, mid, hmove, -, rfl⟩ := h
      exact hclosed hmove (fun _ => ⟨rfl, rfl⟩) htarget _
  | false =>
      simp only [happlied, Bool.false_eq_true, if_false, bind_ok, pure_ok, Prod.mk.injEq] at h
      obtain ⟨released, hrelease, mid, hmove, -, rfl⟩ := h
      exact (updateInventoryItem_writes hrelease).trans
        (hclosed hmove (fun _ => ⟨rfl, rfl⟩) htarget _)

theorem confirmCompletion_writes {viewerUserId : UserId} {qty : ConfirmQty}
    (h : db.confirmCompletion env matchId viewerUserId qty = .ok (effects, db')) :
    WriteRun asks rewrites db db' := by
  cases confirmCompletion_cases h with
  | replays _ _ _ => exact .refl
  | first _ _ _ _ _ _ _ => exact .single (.matchRows _)
  | second _ _ _ _ _ _ _ hsettle => exact .head (.matchRows _) (settleLocked_writes hsettle)

theorem autoFinalizeMatch_writes (h : db.autoFinalizeMatch env matchId = .ok (effects, db')) :
    WriteRun asks rewrites db db' := by
  rcases db.autoFinalizeMatch_cases env matchId with
    ⟨hidle, -⟩ | ⟨locks, side, qty, -, -, -, -, -, hsettle⟩
  · obtain ⟨-, rfl⟩ := Prod.mk.inj (pure_ok.mp (hidle.symm.trans h))
    exact .refl
  · rw [hsettle] at h
    exact settleLocked_writes h

theorem cancelMatchLocked_writes {opts : CancelOptions}
    (h : db.cancelMatchLocked env matchId locks opts = .ok (effects, db')) :
    WriteRun asks rewrites db db' := by
  have hrest (mid : Db) : WriteRun asks rewrites mid (((mid.forgetLocation locks.matchRow opts
      ).applyCancellation locks.matchRow opts env.now).insertSystemMessage env
        locks.conversationId (opts.cancellerUserId.getD locks.matchRow.requesterId)
        "match.cancelled") :=
    ((forgetLocation_writes mid _ _).trans (applyCancellation_writes _ _ _ _)).trans
      (insertSystemMessage_writes _ _ _ _ _)
  have hclosed {mid mid' : Db} {set : Match → Match} {talk : Conversation → Conversation}
      {close : Request → Request}
      (hmove : ((mid.updateMatch matchId set).updateConversation locks.conversationId
        talk).transitionRequest locks.matchRow.requestId locks.request.status opts.actor.route.1
          opts.actor.route.2 (some opts.reason) env.now close = .ok mid')
      (hclose : ∀ r, (close r).identity = r.identity ∧ (close r).status = r.status)
      (hmatch : ∀ c, (talk c).matchId = c.matchId)
      (hexpired : ∀ c, (talk c).status = .expired → c.status = .expired) :
      WriteRun asks rewrites mid mid' := by
    have htarget : opts.actor.route.1 ≠ .offering := by
      cases opts.actor <;> decide
    have htalked : WriteRun asks rewrites (mid.updateMatch matchId set) _ :=
      updateConversation_writes _ locks.conversationId talk hmatch hexpired
    exact .head (.matchRows _) (htalked.trans (leaveRequest_writes hmove hclose htarget))
  simp only [cancelMatchLocked, bind_ok] at h
  obtain ⟨-, -, h⟩ := h
  cases happlied : locks.matchRow.inventoryApplied with
  | true =>
      simp only [happlied, if_true, bind_ok, pure_ok, Prod.mk.injEq] at h
      obtain ⟨_, rfl, mid, hmove, -, rfl⟩ := h
      refine (hclosed hmove (fun _ => ⟨rfl, rfl⟩) (fun _ => rfl) fun c h => ?_).trans (hrest mid)
      simp only at h
      split_ifs at h
      exact h
  | false =>
      simp only [happlied, Bool.false_eq_true, if_false, bind_ok, pure_ok, Prod.mk.injEq] at h
      obtain ⟨released, hrelease, mid, hmove, -, rfl⟩ := h
      refine ((updateInventoryItem_writes hrelease).trans
        (hclosed hmove (fun _ => ⟨rfl, rfl⟩) (fun _ => rfl) fun c h => ?_)).trans (hrest mid)
      simp only at h
      split_ifs at h
      exact h

theorem cancelMatchInTx_writes {opts : CancelOptions}
    (h : db.cancelMatchInTx env matchId opts = .ok (effects, db')) :
    WriteRun asks rewrites db db' := by
  simp only [cancelMatchInTx, bind_ok] at h
  obtain ⟨locks, -, h⟩ := h
  exact cancelMatchLocked_writes h

theorem cancelMatch_writes {viewerUserId : UserId} {reason : CancelReason}
    {note : Option String} (h : db.cancelMatch env matchId viewerUserId reason note =
      .ok (effects, db')) : WriteRun asks rewrites db db' := by
  simp only [cancelMatch, bind_ok] at h
  obtain ⟨locks, -, side, -, h⟩ := h
  exact cancelMatchLocked_writes h

theorem cancelRequest_writes {userId : UserId}
    (h : db.cancelRequest env userId requestId = .ok (effects, db')) :
    WriteRun asks rewrites db db' := by
  simp only [cancelRequest, bind_ok] at h
  obtain ⟨r, -, h⟩ := h
  split_ifs at h
  · simp only [bind_ok] at h
    obtain ⟨matchId, -, h⟩ := h
    exact cancelMatchInTx_writes h
  · simp only [bind_ok, pure_ok, Prod.mk.injEq] at h
    obtain ⟨-, -, mid, hmove, -, rfl⟩ := h
    exact (supersedeOffers_writes _ _ _).trans
      (leaveRequest_writes hmove (fun _ => ⟨rfl, rfl⟩) (by decide))

theorem sendMessage_writes {conversationId : ConversationId} {viewerUserId : UserId}
    {input : SendMessageInput}
    (h : db.sendMessage env conversationId viewerUserId input = .ok (effects, db')) :
    WriteRun asks rewrites db db' := by
  simp only [sendMessage, contextForViewer, bind_ok, found_ok] at h
  obtain ⟨_, ⟨c, hc, m, -, -, -, hcontext⟩, h⟩ := h
  obtain rfl := pure_ok.mp hcontext
  by_cases hreplay : (db.findMessage viewerUserId input.clientMsgId).isSome
  · rw [if_pos hreplay] at h
    obtain ⟨-, rfl⟩ := Prod.mk.inj (pure_ok.mp h)
    exact .refl
  · rw [if_neg hreplay] at h
    simp only [bind_ok, ensure_ok, pure_ok, Prod.mk.injEq] at h
    obtain ⟨-, hopen, -, -, -, rfl⟩ := h
    have hstatus : c.status = .open := by
      unfold Conversation.effectiveStatus at hopen
      split_ifs at hopen
      exact hopen
    exact .single (.say _ _ (Table.freshKey_notMem _ _) (.inr ⟨c, hc, hstatus⟩))

/-! ## The rest -/

theorem deletionZeroInventory_writes {userId : UserId}
    (h : db.deletionZeroInventory env userId = .ok db') : WriteRun asks rewrites db db' := by
  simp only [deletionZeroInventory] at h
  split_ifs at h
  obtain rfl := pure_ok.mp h
  exact .single (.stock _)

theorem blockViaMatch_writes {userId : UserId}
    (h : db.blockViaMatch env userId matchId = .ok (effects, db')) :
    WriteRun asks rewrites db db' := by
  simp only [blockViaMatch, bind_ok, pure_ok, Prod.mk.injEq] at h
  obtain ⟨peer, -, -, rfl⟩ := h
  split_ifs
  · exact .refl
  · exact WriteRun.outside rfl rfl ⟨rfl, rfl, rfl⟩

theorem disableEvent_writes {actorId : UserId} {input : AdminModerateInput}
    (h : db.disableEvent env actorId input = .ok (effects, db')) : WriteRun asks true db db' := by
  simp only [disableEvent, bind_ok, pure_ok, Prod.mk.injEq] at h
  obtain ⟨eventId, -, mid, hclose, -, rfl⟩ := h
  have hdisabled {disabled : Db} {ids : List RequestId}
      (hclose : closeOpenRequests env .moderated .moderator input.reason ids disabled = .ok mid)
      (hexchange : disabled.toExchange = db.toExchange)
      (hmessages : disabled.messages = db.messages) : WriteRun asks true db mid :=
    .head (.outside disabled hexchange hmessages fun h => by cases h)
      (closeOpenRequests_writes (by decide) hclose)
  exact (hdisabled hclose rfl rfl).tail (.outside _ rfl rfl fun h => by cases h)

theorem moderate_writes {auth : AuthContext} {input : AdminModerateInput}
    (h : db.moderate env auth input = .ok (effects, db')) : WriteRun asks true db db' := by
  have hsilent {mid : Db} (hexchange : mid.toExchange = db.toExchange)
      (hmessages : mid.messages = db.messages) : WriteRun asks true db mid :=
    .single (.outside mid hexchange hmessages fun h => by cases h)
  simp only [moderate, bind_ok, ensure_ok] at h
  obtain ⟨-, -, h⟩ := h
  cases haction : input.action <;> simp only [haction] at h
  case warn | restrictRequests | restrictHelping | unsuspend =>
    simp only [moderateUser, bind_ok, pure_ok, Prod.mk.injEq] at h
    obtain ⟨userId, -, -, rfl⟩ := h
    exact hsilent rfl rfl
  case suspend =>
    simp only [suspend, bind_ok, pure_ok, Prod.mk.injEq] at h
    obtain ⟨userId, -, -, rfl⟩ := h
    exact hsilent rfl rfl
  case eventPause | eventUnpause | eventApprovePublic | eventRejectPublic =>
    simp only [moderateEvent, bind_ok, pure_ok, Prod.mk.injEq] at h
    obtain ⟨_, ⟨eventId, -, rfl⟩, -, rfl⟩ := h
    exact hsilent rfl rfl
  case eventDisable => exact disableEvent_writes h
  case matchCancel =>
    simp only [bind_ok, pure_ok, Prod.mk.injEq] at h
    obtain ⟨matchId, -, m, -, -, rfl⟩ := h
    exact hsilent rfl rfl
  case reportResolve | reportDismiss =>
    simp only [moderateReport, bind_ok, pure_ok, Prod.mk.injEq] at h
    obtain ⟨reportId, -, report, -, -, rfl⟩ := h
    exact hsilent rfl rfl

/-! ## Every operation -/

def OpInvites (db : Db) (env : Env) (op : Op) (o : MatchOffer) : Prop :=
  ∃ choices, op = .runMatchPass o.requestId choices ∧ db.Invites env o.requestId o

theorem exec_writes {op : Op} (h : db.exec env op = .ok (effects, db')) :
    WriteRun (db.OpInvites env op) op.rewrites db db' := by
  cases op <;> simp only [exec] at h
  case directory dir =>
    have hreplace := (silently_ok h).1
    simp only [replaceDirectory, bind_ok, ensure_ok, pure_ok] at hreplace
    obtain ⟨-, -, rfl⟩ := hreplace
    exact .single (.outside _ rfl rfl fun h => by cases h)
  case addInventory token eventId input =>
    obtain ⟨auth, -, -, h⟩ := asUser_ok h
    obtain ⟨⟨itemId, mid⟩, hadd, hpure⟩ := bind_ok.mp (silently_ok h).1
    obtain rfl := pure_ok.mp hpure
    exact addInventory_writes hadd
  case updateInventory token itemId input =>
    obtain ⟨auth, -, -, h⟩ := asUser_ok h
    obtain ⟨item, -, h⟩ := bind_ok.mp (silently_ok h).1
    obtain ⟨-, -, h⟩ := bind_ok.mp h
    exact updateInventoryItem_writes h
  case deleteInventory token itemId =>
    obtain ⟨auth, -, -, h⟩ := asUser_ok h
    exact deleteInventory_writes (silently_ok h).1
  case createRequest token input =>
    obtain ⟨auth, -, -, h⟩ := asUser_ok h
    exact createRequest_writes h
  case cancelRequest token requestId =>
    obtain ⟨auth, -, -, h⟩ := asUser_ok h
    exact cancelRequest_writes h
  case renewRequest token requestId expiresInMinutes =>
    obtain ⟨auth, -, -, h⟩ := asUser_ok h
    exact renewRequest_writes h
  case continueRequest token requestId continueSearching =>
    obtain ⟨auth, -, -, h⟩ := asUser_ok h
    exact continueRequest_writes h
  case runMatchPass requestId choices =>
    have hpass : WriteRun (db.Invites env requestId) false db db' := runMatchPass_writes h
    refine hpass.weaken fun o ho => ?_
    obtain rfl := ho.1
    exact ⟨choices, rfl, ho⟩
  case acceptOffer token offerId draws =>
    obtain ⟨auth, -, -, h⟩ := asUser_ok h
    simp only [bind_ok, pure_ok, Prod.mk.injEq] at h
    obtain ⟨r, haccept, -, rfl⟩ := h
    exact acceptOffer_writes haccept
  case declineOffer token offerId alsoStopReceiving =>
    obtain ⟨auth, -, -, h⟩ := asUser_ok h
    exact declineOffer_writes h
  case expireOffer offerId => exact expireOffer_writes h
  case setMeetingState token matchId state =>
    obtain ⟨auth, -, -, h⟩ := asUser_ok h
    have hset := (silently_ok h).1
    simp only [setMeetingState, bind_ok, pure_ok] at hset
    obtain ⟨-, -, -, -, -, -, rfl⟩ := hset
    exact .single (.matchRows _)
  case confirmCompletion token matchId qty =>
    obtain ⟨auth, -, -, h⟩ := asUser_ok h
    exact confirmCompletion_writes h
  case autoFinalizeMatch matchId => exact autoFinalizeMatch_writes h
  case cancelMatch token matchId reason note =>
    obtain ⟨auth, -, -, h⟩ := asUser_ok h
    exact cancelMatch_writes h
  case cancelMatchForModeration matchId reason => exact cancelMatchInTx_writes h
  case moderate token input =>
    obtain ⟨auth, -, h⟩ := bind_ok.mp h
    exact moderate_writes h
  case deletionCancelRequests userId =>
    exact closeOpenRequests_writes (by decide) (silently_ok h).1
  case deletionZeroInventory userId => exact deletionZeroInventory_writes (silently_ok h).1
  case deletionStatement userId statement =>
    obtain ⟨-, rfl⟩ := Prod.mk.inj (pure_ok.mp h)
    refine .single (.outside _ ?_ ?_ fun hrewrites => ?_)
    · cases statement <;> rfl
    · cases statement <;> rfl
    · cases statement with
      | anonymize avatarSeed => cases hrewrites
      | _ => exact ⟨rfl, rfl, rfl⟩
  case blockViaMatch token matchId =>
    obtain ⟨auth, -, -, h⟩ := asUser_ok h
    exact blockViaMatch_writes h
  case sendMessage token conversationId input =>
    obtain ⟨auth, -, -, h⟩ := asUser_ok h
    exact sendMessage_writes h

end Statements

end Db
end Sahay
