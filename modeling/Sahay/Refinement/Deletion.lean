import Sahay.Lib.Rewrite
import Sahay.Refinement.ModerationCancel
import Sahay.Server.Deletion
import Sahay.Server.Untimed

/-!
# What a deletion makes of the database

Table by table, in terms of the rows before the job: the cancellations of the shared
matches, the closing of the user's open requests, and the statements that wipe the rest.
Clock readings are left open, since every transaction takes its own.
-/

namespace Sahay

def Match.isActiveOf (m : Match) (userId : UserId) : Bool :=
  m.status = .active && (m.requesterId = userId || m.helperId = userId)

namespace Db

variable {db db' db'' : Db} {env : Env} {effects : List Effect} {mid : MatchId} {m : Match}

/-! ## Transactions that commit -/

theorem exec_consistent {op : Op} (hx : db.Consistent)
    (h : db.exec env op = .ok (effects, db')) : db'.Consistent := by
  have hstep := step_consistent db (env, op) hx
  rwa [step_of_ok h] at hstep

theorem commitAll_consistent {is : List (Env × Op)} (hx : db.Consistent)
    (h : commitAll is db = .ok db') : db'.Consistent := by
  induction is generalizing db with
  | nil => exact pure_ok.mp h ▸ hx
  | cons i is ih =>
      obtain ⟨effects, next, hexec, hrest⟩ := commitAll_cons.mp h
      exact ih (exec_consistent hx hexec) hrest

/-! ## One cancellation -/

def sharedMatches (db : Db) (userId : UserId) : List (MatchId × Match) :=
  db.matchRows.select fun _ m => m.isActiveOf userId

def notice (db : Db) (e : MatchId × Match) : Message :=
  { conversationId := (db.conversationOf e.1).getD 0
    senderId := e.2.requesterId
    kind := .system
    body := "match.cancelled" }

def cancelEntry (e : MatchId × Match) : RequestTransition :=
  ⟨e.2.requestId, some .matched, .moderated, .moderator, some "account_deleted", 0⟩

theorem conversationOf_eq (hx : db.toExchange.Consistent) {cid : ConversationId}
    {c : Conversation} (hc : db.conversations.lookup cid = some c) (hmatch : c.matchId = mid) :
    db.conversationOf mid = some cid := by
  obtain ⟨cid', hcid'⟩ := conversationOf_isSome hc hmatch
  obtain ⟨c', hc', hmatch'⟩ := conversationOf_some hcid'
  rw [hcid', hx.conversed.unique cid cid' c c' hc hc' (hmatch.trans hmatch'.symm)]

/-! ## The sweep -/

section Rows

variable (L : List (MatchId × Match)) (now : Time)

def releasedOn (id : ItemId) : Qty :=
  (L.map fun e => if e.2.inventoryItemId = id then e.2.qtyReserved else 0).sum

def sweptMatch (id : MatchId) (m : Match) : Match :=
  if L.any fun e => e.1 = id then m.cancelledAs .cancelledModeration "account_deleted" now else m

def sweptRequest (id : RequestId) (r : Request) : Request :=
  if L.any fun e => e.2.requestId = id then
    { r with status := .moderated, closedAt := some now }
  else r

def sweptItem (id : ItemId) (item : InventoryItem) : InventoryItem :=
  if L.any fun e => e.2.inventoryItemId = id then
    { item with qtyReserved := item.qtyReserved - releasedOn L id, updatedAt := now }
  else item

def sweptConversation (_ : ConversationId) (c : Conversation) : Conversation :=
  if L.any fun e => e.1 = c.matchId then
    { c with status := .readonly, expiresAt := some (now + conversationGraceMs) }
  else c

end Rows

/-- The matches on the list have been cancelled for the deletion of an account, one after
the other. -/
structure Swept (db : Db) (L : List (MatchId × Match)) (db' : Db) : Prop where
  matchRows : Table.Follows (sweptMatch L) db.matchRows db'.matchRows
  requests : Table.Follows (sweptRequest L) db.requests db'.requests
  inventoryItems : Table.Follows (sweptItem L) db.inventoryItems db'.inventoryItems
  conversations : Table.Follows (sweptConversation L) db.conversations db'.conversations
  requestTransitions : ∃ log, db'.requestTransitions = db.requestTransitions ++ log ∧
    (log.map RequestTransition.untimed).Perm (L.map cancelEntry)
  messages : (db'.messages.rows.map Message.untimed).Perm
    (L.map db.notice ++ db.messages.rows.map Message.untimed)
  kept : ∀ id message, db.messages.lookup id = some message →
    db'.messages.lookup id = some message
  sent : ∀ id message, db'.messages.lookup id = some message →
    db.messages.lookup id = some message ∨ ∃ e ∈ L, message.untimed = db.notice e
  frame : db' = { db with
    matchRows := db'.matchRows
    requests := db'.requests
    inventoryItems := db'.inventoryItems
    conversations := db'.conversations
    requestTransitions := db'.requestTransitions
    messages := db'.messages }

theorem Swept.nil (db : Db) : Swept db [] db where
  matchRows := (Table.Follows.refl (δ := Time) _).congr fun _ _ d _ => ⟨d, rfl⟩
  requests := (Table.Follows.refl (δ := Time) _).congr fun _ _ d _ => ⟨d, rfl⟩
  inventoryItems := (Table.Follows.refl (δ := Time) _).congr fun _ _ d _ => ⟨d, rfl⟩
  conversations := (Table.Follows.refl (δ := Time) _).congr fun _ _ d _ => ⟨d, rfl⟩
  requestTransitions := ⟨[], (List.append_nil _).symm, .refl _⟩
  messages := .refl _
  kept _ _ h := h
  sent _ _ h := .inl h
  frame := rfl

theorem any_snoc {α : Type*} (L : List α) (e : α) (p : α → Bool) :
    (L ++ [e]).any p = (L.any p || p e) := by
  simp

theorem fst_ne_of_nodup {α β : Type*} {L es : List (α × β)} {e : α × β}
    (h : ((L ++ e :: es).map Prod.fst).Nodup) : ∀ e' ∈ L, e'.1 ≠ e.1 := by
  intro e' he'
  rw [List.map_append, List.nodup_append] at h
  exact h.2.2 e'.1 (List.mem_map_of_mem he') e.1 (List.mem_map_of_mem List.mem_cons_self)

theorem releasedOn_snoc (L : List (MatchId × Match)) (e : MatchId × Match) (id : ItemId) :
    releasedOn (L ++ [e]) id =
      releasedOn L id + if e.2.inventoryItemId = id then e.2.qtyReserved else 0 := by
  simp [releasedOn]

theorem releasedOn_of_not_any {L : List (MatchId × Match)} {id : ItemId}
    (h : (L.any fun e => e.2.inventoryItemId = id) = false) : releasedOn L id = 0 := by
  refine List.sum_eq_zero fun q hq => ?_
  obtain ⟨e, he, rfl⟩ := List.mem_map.mp hq
  exact if_neg (of_decide_eq_false (Bool.eq_false_iff.mpr fun hon =>
    Bool.eq_false_iff.mp h (List.any_eq_true.mpr ⟨e, he, hon⟩)))

theorem Swept.snoc {L : List (MatchId × Match)} (h : Swept db L db')
    (hx : db.toExchange.Consistent) (hx' : db'.toExchange.Consistent)
    (he : db.matchRows.lookup mid = some m) (hnew : ∀ e ∈ L, e.1 ≠ mid)
    (hcancel : db'.cancelMatchForModeration env mid "account_deleted" = .ok (effects, db'')) :
    Swept db (L ++ [(mid, m)]) db'' := by
  obtain ⟨m', r, item, cid, c, hm', hactive, hr, hmatched, hi, hc, hmatch, rfl⟩ :=
    cancelMatchForModeration_rows hx' hcancel
  have hnot : L.any (fun e => e.1 = mid) = false := by simpa using hnew
  -- Of the rows that the match refers to, only its item may have been touched so far.
  obtain rfl : m = m' := by
    have hm : db'.matchRows.lookup mid = some m :=
      h.matchRows.fixed he fun d => by simp [sweptMatch, hnot]
    exact Option.some.inj (hm.symm.trans hm')
  have hnotRequest : L.any (fun e => e.2.requestId = m.requestId) = false := by
    by_contra hany
    rw [Bool.not_eq_false] at hany
    obtain ⟨r₀, d, hr₀, rfl⟩ := h.requests.before hr
    simp [sweptRequest, hany] at hmatched
  obtain ⟨c₀, d, hc₀, hc'⟩ := h.conversations.before hc
  have hmatch₀ : c₀.matchId = mid := by
    rw [← hmatch, hc', sweptConversation]
    split_ifs <;> rfl
  have hnotice : db.notice (mid, m) =
      { conversationId := cid
        senderId := m.requesterId
        kind := .system
        body := "match.cancelled" } := by
    simp [notice, conversationOf_eq hx hc₀ hmatch₀]
  obtain ⟨log, hlog, hentries⟩ := h.requestTransitions
  constructor
  · refine h.matchRows.trans (Table.follows_replace hm' (fun now (m : Match) =>
      m.cancelledAs .cancelledModeration "account_deleted" now) env.now) fun k r d₁ d₂ hk => ?_
    by_cases heq : k = mid
    · subst heq
      exact ⟨d₂, by simp [sweptMatch, hnot]⟩
    · refine ⟨d₁, ?_⟩
      simp only [sweptMatch, any_snoc, Ne.symm heq, heq, decide_false, Bool.or_false, if_false]
  · refine h.requests.trans (Table.follows_replace hr (fun now (r : Request) =>
      { r with status := .moderated, closedAt := some now }) env.now) fun k r d₁ d₂ hk => ?_
    by_cases heq : k = m.requestId
    · subst heq
      exact ⟨d₂, by simp [sweptRequest, hnotRequest]⟩
    · refine ⟨d₁, ?_⟩
      simp only [sweptRequest, any_snoc, Ne.symm heq, heq, decide_false, Bool.or_false, if_false]
  · refine h.inventoryItems.trans (Table.follows_replace hi (fun now (item : InventoryItem) =>
      { item with qtyReserved := item.qtyReserved - m.qtyReserved, updatedAt := now }) env.now)
      fun k item d₁ d₂ hk => ?_
    by_cases heq : k = m.inventoryItemId
    · subst heq
      refine ⟨d₂, ?_⟩
      cases hany : L.any (fun e => e.2.inventoryItemId = m.inventoryItemId) with
      | true => simp [sweptItem, hany, releasedOn_snoc, sub_sub]
      | false => simp [sweptItem, hany, releasedOn_snoc, releasedOn_of_not_any hany]
    · refine ⟨d₁, ?_⟩
      simp only [sweptItem, any_snoc, releasedOn_snoc, Ne.symm heq, heq, decide_false,
        Bool.or_false, if_false, add_zero]
  · refine h.conversations.trans (Table.follows_replace hc (fun now (c : Conversation) =>
      { c with status := .readonly, expiresAt := some (now + conversationGraceMs) }) env.now)
      fun k c₁ d₁ d₂ hk => ?_
    by_cases heq : k = cid
    · subst heq
      obtain rfl := Option.some.inj (hc₀.symm.trans hk)
      exact ⟨d₂, by simp [sweptConversation, hmatch₀, hnot]⟩
    · have hne : ¬mid = c₁.matchId := by
        intro hk'
        exact heq (hx.conversed.unique k cid c₁ c₀ hk hc₀ (hk'.symm.trans hmatch₀.symm))
      refine ⟨d₁, ?_⟩
      simp only [sweptConversation, any_snoc, hne, heq, decide_false, Bool.or_false, if_false]
  · refine ⟨log ++ [_], by rw [hlog, List.append_assoc], ?_⟩
    rw [List.map_append, List.map_append]
    exact hentries.append_right _
  · rw [Table.rows_put (Table.freshKey_notMem _ _), List.map_cons, List.map_append,
      List.map_singleton, hnotice]
    refine (h.messages.cons _).trans ?_
    rw [List.append_assoc]
    exact List.perm_middle.symm
  · intro id message hmessage
    refine (Table.lookup_put _ _ _ _).trans ((if_neg ?_).trans (h.kept id message hmessage))
    rintro rfl
    exact Table.freshKey_notMem _ _ (Table.mem_iff_exists.mpr ⟨_, h.kept _ message hmessage⟩)
  · intro id message hmessage
    rw [Table.lookup_put] at hmessage
    split_ifs at hmessage
    · obtain rfl := Option.some.inj hmessage
      exact .inr ⟨(mid, m), by simp, hnotice.symm⟩
    · rcases h.sent id message hmessage with hold | ⟨e, he, hsent⟩
      · exact .inl hold
      · exact .inr ⟨e, List.mem_append_left _ he, hsent⟩
  · rw [h.frame]

theorem Swept.lookup {L : List (MatchId × Match)} (h : Swept db L db')
    (hm : db.matchRows.lookup mid = some m) (hnew : ∀ e ∈ L, e.1 ≠ mid) :
    db'.matchRows.lookup mid = some m :=
  h.matchRows.fixed hm fun d => by
    rw [sweptMatch, if_neg]
    rintro hany
    obtain ⟨e, he, heq⟩ := List.any_eq_true.mp hany
    exact hnew e he (of_decide_eq_true heq)

/-- The sweep goes through, over any matches that were active before it. -/
theorem Swept.commits {L es : List (MatchId × Match)} (h : Swept db L db') (hx : db.Consistent)
    (hx' : db'.Consistent)
    (hes : ∀ e ∈ es, db.matchRows.lookup e.1 = some e.2 ∧ e.2.status = .active)
    (hnodup : ((L ++ es).map Prod.fst).Nodup) {is : List (Env × Op)}
    (his : is.map Prod.snd = deletionCancels (es.map Prod.fst)) :
    ∃ db'', commitAll is db' = .ok db'' ∧ Swept db (L ++ es) db'' ∧ db''.Consistent := by
  induction es generalizing L db' is with
  | nil =>
      obtain rfl : is = [] := List.map_eq_nil_iff.mp his
      exact ⟨db', rfl, (List.append_nil L).symm ▸ h, hx'⟩
  | cons e es ih =>
      obtain ⟨⟨env, op⟩, is, rfl, rfl, hrest⟩ := List.map_eq_cons_iff.mp his
      obtain ⟨hm, hactive⟩ := hes e List.mem_cons_self
      have hnew := fst_ne_of_nodup hnodup
      obtain ⟨effects, mid, hcancel⟩ :=
        cancelMatchForModeration_commits env "account_deleted" hx' (h.lookup hm hnew) hactive
      have hexec : db'.exec env (.cancelMatchForModeration e.1 "account_deleted") =
          .ok (effects, mid) := hcancel
      have hmid : mid.Consistent := exec_consistent hx' hexec
      rw [List.append_cons] at hnodup ⊢
      obtain ⟨db'', hcommit, hswept⟩ := ih (h.snoc hx.exchange hx'.exchange hm hnew hcancel) hmid
        (fun e' he' => hes e' (List.mem_cons_of_mem e he')) hnodup hrest
      exact ⟨db'', commitAll_cons.mpr ⟨effects, mid, hexec, hcommit⟩, hswept⟩

/-! ## The user's open requests -/

def ownOpen (db : Db) (userId : UserId) : List (RequestId × Request) :=
  db.requests.select fun _ r => r.requesterId = userId && r.status.isOpen

def closeEntry (e : RequestId × Request) : RequestTransition :=
  ⟨e.1, some e.2.status, .cancelled, .system, some "account_deleted", 0⟩

section Rows

variable (O : List (RequestId × Request)) (now : Time)

def closedRequest (id : RequestId) (r : Request) : Request :=
  if O.any fun e => e.1 = id then { r with status := .cancelled, closedAt := some now } else r

def closedOffer (_ : OfferId) (o : MatchOffer) : MatchOffer :=
  if o.status = .offered && O.any fun e => e.1 = o.requestId then
    { o with status := .superseded, respondedAt := some now }
  else o

end Rows

/-- The requests on the list have been closed for the deletion of an account. -/
structure Closed (db : Db) (O : List (RequestId × Request)) (db' : Db) : Prop where
  requests : Table.Follows (closedRequest O) db.requests db'.requests
  matchOffers : Table.Follows (closedOffer O) db.matchOffers db'.matchOffers
  requestTransitions : ∃ log, db'.requestTransitions = db.requestTransitions ++ log ∧
    (log.map RequestTransition.untimed).Perm (O.map closeEntry)
  frame : db' = { db with
    requests := db'.requests
    matchOffers := db'.matchOffers
    requestTransitions := db'.requestTransitions }

theorem Closed.nil (db : Db) : Closed db [] db where
  requests := (Table.Follows.refl (δ := Time) _).congr fun _ _ d _ => ⟨d, rfl⟩
  matchOffers := (Table.Follows.refl (δ := Time) _).congr fun _ o d _ =>
    ⟨d, by simp [closedOffer]⟩
  requestTransitions := ⟨[], (List.append_nil _).symm, .refl _⟩
  frame := rfl

theorem Closed.lookup {O : List (RequestId × Request)} (h : Closed db O db') {rid : RequestId}
    {r : Request} (hr : db.requests.lookup rid = some r) (hnew : ∀ e ∈ O, e.1 ≠ rid) :
    db'.requests.lookup rid = some r :=
  h.requests.fixed hr fun d => by
    rw [closedRequest, if_neg]
    rintro hany
    obtain ⟨e, he, heq⟩ := List.any_eq_true.mp hany
    exact hnew e he (of_decide_eq_true heq)

theorem Closed.snoc {O : List (RequestId × Request)} (h : Closed db O db') {rid : RequestId}
    {r : Request} (hr : db.requests.lookup rid = some r) (hnew : ∀ e ∈ O, e.1 ≠ rid)
    (hclose : db'.closeOpenRequest env .cancelled .system "account_deleted" rid = .ok db'') :
    Closed db (O ++ [(rid, r)]) db'' := by
  have hr' := h.lookup hr hnew
  simp only [closeOpenRequest, bind_ok, found_ok, transitionRequest_ok] at hclose
  obtain ⟨request, hrequest, -, row, hrow, -, rfl⟩ := hclose
  obtain rfl := Option.some.inj (hr'.symm.trans hrequest)
  obtain rfl := Option.some.inj (hr'.symm.trans hrow)
  have hnot : O.any (fun e => e.1 = rid) = false := by simpa using hnew
  obtain ⟨log, hlog, hentries⟩ := h.requestTransitions
  constructor
  · refine h.requests.trans (Table.follows_replace hr' (fun now (r : Request) =>
      { r with status := .cancelled, closedAt := some now }) env.now) fun k r d₁ d₂ hk => ?_
    by_cases heq : k = rid
    · subst heq
      exact ⟨d₂, by simp [closedRequest, hnot]⟩
    · refine ⟨d₁, ?_⟩
      simp only [closedRequest, any_snoc, Ne.symm heq, heq, decide_false, Bool.or_false, if_false]
  · refine h.matchOffers.trans (Table.follows_updateWhere _ (fun _ (o : MatchOffer) =>
      o.requestId = rid && o.status = .offered) (fun now (o : MatchOffer) =>
      { o with status := .superseded, respondedAt := some now }) env.now) fun k o d₁ d₂ hk => ?_
    by_cases hoffered : o.status = .offered
    · cases hany : O.any (fun e => e.1 = o.requestId) with
      | true => exact ⟨d₁, by simp [closedOffer, hoffered, hany]⟩
      | false =>
          refine ⟨d₂, ?_⟩
          by_cases heq : rid = o.requestId
          · simp [closedOffer, hoffered, hany, heq]
          · simp [closedOffer, hoffered, hany, heq, Ne.symm heq]
    · exact ⟨d₁, by simp [closedOffer, hoffered]⟩
  · refine ⟨log ++ [_], by rw [← List.append_assoc, ← hlog]; rfl, ?_⟩
    rw [List.map_append, List.map_append]
    exact hentries.append_right _
  · rw [h.frame]
    rfl

theorem closeOpenRequest_commits (env : Env) {rid : RequestId} {r : Request}
    (hr : db.requests.lookup rid = some r) (hcheck : r.check) (hopen : r.status.isOpen = true) :
    ∃ db', db.closeOpenRequest env .cancelled .system "account_deleted" rid = .ok db' := by
  have hpermitted : canTransition (some r.status) .cancelled = true := by
    revert hopen
    cases r.status <;> decide
  simp only [closeOpenRequest, bind_ok, found_ok, transitionRequest_ok]
  exact ⟨_, r, hr, hpermitted, r, hr, hcheck, rfl⟩

theorem Closed.commits (env : Env) {O es : List (RequestId × Request)} (h : Closed db O db')
    (hes : ∀ e ∈ es, db.requests.lookup e.1 = some e.2 ∧ e.2.check ∧ e.2.status.isOpen = true)
    (hnodup : ((O ++ es).map Prod.fst).Nodup) :
    ∃ db'', closeOpenRequests env .cancelled .system "account_deleted" (es.map Prod.fst) db' =
      .ok db'' ∧ Closed db (O ++ es) db'' := by
  induction es generalizing O db' with
  | nil => exact ⟨db', rfl, (List.append_nil O).symm ▸ h⟩
  | cons e es ih =>
      obtain ⟨hr, hcheck, hopen⟩ := hes e List.mem_cons_self
      have hnew := fst_ne_of_nodup hnodup
      obtain ⟨mid, hclose⟩ :=
        closeOpenRequest_commits env (h.lookup hr hnew) hcheck hopen
      rw [List.append_cons] at hnodup ⊢
      obtain ⟨db'', hrest, hclosed⟩ := ih (h.snoc hr hnew hclose)
        (fun e' he' => hes e' (List.mem_cons_of_mem e he')) hnodup
      exact ⟨db'', bind_ok.mpr ⟨mid, hclose, hrest⟩, hclosed⟩

theorem deletionCancelRequests_commits (env : Env) (userId : UserId)
    (hx : db.toExchange.Consistent) :
    ∃ O db', O.Perm (db.ownOpen userId) ∧ db.deletionCancelRequests env userId = .ok db' ∧
      Closed db O db' := by
  let isOwnOpen (_ : RequestId) (r : Request) : Bool := r.requesterId = userId && r.status.isOpen
  obtain ⟨O, hperm, hids⟩ := Table.exists_perm_select
    (show (env.selectIds db.requests isOwnOpen).Perm _ from env.scan.perm _)
  have hnodup : (O.map Prod.fst).Nodup :=
    (hperm.map Prod.fst).nodup_iff.mpr (Table.nodup_select _ _)
  have hopen : ∀ e ∈ O, db.requests.lookup e.1 = some e.2 ∧ e.2.check ∧
      e.2.status.isOpen = true := by
    intro e he
    obtain ⟨hr, hp⟩ := Table.mem_select.mp (hperm.subset he)
    exact ⟨hr, (hx.fulfilled e.1 e.2 hr).check, (Bool.and_eq_true_iff.mp hp).2⟩
  obtain ⟨db', hclose, hclosed⟩ := (Closed.nil db).commits env hopen hnodup
  rw [hids] at hclose
  exact ⟨O, db', hperm, hclose, hclosed⟩

/-! ## What is wiped -/

def zeroed (db : Db) (userId : UserId) (now : Time) : Db :=
  { db with
    inventoryItems := db.inventoryItems.updateWhere (fun _ item => item.userId = userId)
      fun item => { item with qtyOnHand := item.qtyReserved, active := false, updatedAt := now } }

/-- Steps 3 to 7 in one go. -/
def wiped (db : Db) (userId : UserId) (avatarSeed : String) (zeroedAt deletedAt : Time) : Db :=
  { db.zeroed userId zeroedAt with
    sessions := db.sessions.deleteWhere fun _ s => s.userId = userId
    pushTokens := db.pushTokens.deleteWhere fun _ t => t.userId = userId
    availability := db.availability.deleteWhere fun key _ => key.1 = userId
    memberLocations := db.memberLocations.deleteWhere fun key _ => key.1 = userId
    notifications := db.notifications.deleteWhere fun _ n => n.userId = userId
    notificationPrefs := db.notificationPrefs.drop userId
    blocks := db.blocks.deleteWhere fun key _ => key.1 = userId
    users := db.users.modify userId fun user =>
      { user with
        pseudonym := "Deleted User"
        avatarSeed := avatarSeed
        phoneEnc := none
        phoneHmac := none
        phoneVerifiedAt := none
        emailEnc := none
        emailHmac := none
        emailVerifiedAt := none
        status := .deleted
        deletedAt := some deletedAt } }

theorem deletionZeroInventory_commits (env : Env) (userId : UserId)
    (hx : db.toExchange.Consistent) :
    db.deletionZeroInventory env userId = .ok (db.zeroed userId env.now) := by
  refine if_pos (List.all_eq_true.mpr fun e he => decide_eq_true ?_)
  obtain ⟨hi, -⟩ := Table.mem_select.mp he
  have hnonneg : 0 ≤ e.2.qtyReserved := (hx.booked e.1 e.2 hi).2.1
  exact ⟨hnonneg, hnonneg, le_rfl⟩

theorem deletionWipes_commit {userId : UserId} {avatarSeed : String} {is : List (Env × Op)}
    (his : is.map Prod.snd = deletionWipes userId avatarSeed) :
    ∃ zeroedAt deletedAt, ∀ db : Db, db.toExchange.Consistent →
      commitAll is db = .ok (db.wiped userId avatarSeed zeroedAt deletedAt) := by
  obtain ⟨⟨e₁, op₁⟩, is₁, rfl, rfl, h₁⟩ := List.map_eq_cons_iff.mp his
  obtain ⟨⟨e₂, op₂⟩, is₂, rfl, rfl, h₂⟩ := List.map_eq_cons_iff.mp h₁
  obtain ⟨⟨e₃, op₃⟩, is₃, rfl, rfl, h₃⟩ := List.map_eq_cons_iff.mp h₂
  obtain ⟨⟨e₄, op₄⟩, is₄, rfl, rfl, h₄⟩ := List.map_eq_cons_iff.mp h₃
  obtain ⟨⟨e₅, op₅⟩, is₅, rfl, rfl, h₅⟩ := List.map_eq_cons_iff.mp h₄
  obtain ⟨⟨e₆, op₆⟩, is₆, rfl, rfl, h₆⟩ := List.map_eq_cons_iff.mp h₅
  obtain ⟨⟨e₇, op₇⟩, is₇, rfl, rfl, h₇⟩ := List.map_eq_cons_iff.mp h₆
  obtain ⟨⟨e₈, op₈⟩, is₈, rfl, rfl, h₈⟩ := List.map_eq_cons_iff.mp h₇
  obtain ⟨⟨e₉, op₉⟩, is₉, rfl, rfl, h₉⟩ := List.map_eq_cons_iff.mp h₈
  obtain rfl := List.map_eq_nil_iff.mp h₉
  refine ⟨e₅.now, e₉.now, fun db hx => ?_⟩
  have hzero {db₅ : Db} (hsame : db₅.toExchange = db.toExchange) :
      db₅.exec e₅ (.deletionZeroInventory userId) = .ok ([], db₅.zeroed userId e₅.now) := by
    rw [exec, deletionZeroInventory_commits e₅ userId (hsame ▸ hx)]
    rfl
  refine commitAll_cons.mpr ⟨_, _, rfl, commitAll_cons.mpr ⟨_, _, rfl, ?_⟩⟩
  refine commitAll_cons.mpr ⟨_, _, rfl, commitAll_cons.mpr ⟨_, _, rfl, ?_⟩⟩
  exact commitAll_cons.mpr ⟨_, _, hzero rfl, rfl⟩

/-! ## The whole job -/

/-- Up to their clocks, runs of the job are these steps. -/
theorem deletion_commits {userId : UserId} {avatarSeed : String} (hx : db.Consistent)
    {is : List (Env × Op)} (his : is.map Prod.snd = db.deletionOps env userId avatarSeed) :
    ∃ L swept O closed zeroedAt deletedAt, L.Perm (db.sharedMatches userId) ∧ Swept db L swept ∧
      O.Perm (swept.ownOpen userId) ∧ Closed swept O closed ∧
      commitAll is db = .ok (closed.wiped userId avatarSeed zeroedAt deletedAt) := by
  obtain ⟨is₁, is₂, rfl, h₁, h₂⟩ := List.map_eq_append_iff.mp his
  obtain ⟨⟨e, op⟩, is₃, rfl, rfl, h₃⟩ := List.map_eq_cons_iff.mp h₂
  let isShared (_ : MatchId) (m : Match) : Bool := m.isActiveOf userId
  obtain ⟨L, hperm, hids⟩ := Table.exists_perm_select
    (show (env.selectIds db.matchRows isShared).Perm _ from env.scan.perm _)
  have hnodup : (L.map Prod.fst).Nodup :=
    (hperm.map Prod.fst).nodup_iff.mpr (Table.nodup_select _ _)
  have hactive : ∀ e ∈ L, db.matchRows.lookup e.1 = some e.2 ∧ e.2.status = .active := by
    intro e he
    obtain ⟨hm, hp⟩ := Table.mem_select.mp (hperm.subset he)
    exact ⟨hm, of_decide_eq_true (Bool.and_eq_true_iff.mp hp).1⟩
  have hops : is₁.map Prod.snd = deletionCancels (L.map Prod.fst) := by
    rw [h₁, hids]
    rfl
  obtain ⟨swept, hcommit₁, hswept, hx₁⟩ := (Swept.nil db).commits hx hx hactive hnodup hops
  obtain ⟨O, closed, hO, hcommit₂, hclosed⟩ :=
    deletionCancelRequests_commits e userId hx₁.exchange
  have hexec : swept.exec e (.deletionCancelRequests userId) = .ok ([], closed) := by
    rw [exec, hcommit₂]
    rfl
  have hx₂ : closed.Consistent := exec_consistent hx₁ hexec
  obtain ⟨zeroedAt, deletedAt, hcommit₃⟩ := deletionWipes_commit h₃
  refine ⟨L, swept, O, closed, zeroedAt, deletedAt, hperm, hswept, hO, hclosed, ?_⟩
  exact commitAll_append.mpr
    ⟨swept, hcommit₁, commitAll_cons.mpr ⟨[], closed, hexec, hcommit₃ closed hx₂.exchange⟩⟩

/-! ## Table by table -/

section Perm

variable {L L' : List (MatchId × Match)} {O O' : List (RequestId × Request)}

theorem sweptMatch_perm (h : L.Perm L') : sweptMatch L = sweptMatch L' := by
  funext now id m
  rw [sweptMatch, sweptMatch, h.any_eq]

theorem sweptRequest_perm (h : L.Perm L') : sweptRequest L = sweptRequest L' := by
  funext now id r
  rw [sweptRequest, sweptRequest, h.any_eq]

theorem sweptItem_perm (h : L.Perm L') : sweptItem L = sweptItem L' := by
  funext now id item
  rw [sweptItem, sweptItem, h.any_eq, releasedOn, releasedOn, (h.map _).sum_eq]

theorem sweptConversation_perm (h : L.Perm L') : sweptConversation L = sweptConversation L' := by
  funext now id c
  rw [sweptConversation, sweptConversation, h.any_eq]

theorem closedRequest_perm (h : O.Perm O') : closedRequest O = closedRequest O' := by
  funext now id r
  rw [closedRequest, closedRequest, h.any_eq]

theorem closedOffer_perm (h : O.Perm O') : closedOffer O = closedOffer O' := by
  funext now id o
  rw [closedOffer, closedOffer, h.any_eq]

end Perm

theorem Swept.perm {L L' : List (MatchId × Match)} (h : Swept db L db') (hperm : L.Perm L') :
    Swept db L' db' where
  matchRows := sweptMatch_perm hperm ▸ h.matchRows
  requests := sweptRequest_perm hperm ▸ h.requests
  inventoryItems := sweptItem_perm hperm ▸ h.inventoryItems
  conversations := sweptConversation_perm hperm ▸ h.conversations
  requestTransitions := by
    obtain ⟨log, hlog, hentries⟩ := h.requestTransitions
    exact ⟨log, hlog, hentries.trans (hperm.map _)⟩
  messages := h.messages.trans ((hperm.map _).append_right _)
  kept := h.kept
  sent id message hmessage := by
    rcases h.sent id message hmessage with hold | ⟨e, he, hsent⟩
    · exact .inl hold
    · exact .inr ⟨e, hperm.subset he, hsent⟩
  frame := h.frame

theorem Closed.perm {O O' : List (RequestId × Request)} (h : Closed db O db') (hperm : O.Perm O') :
    Closed db O' db' where
  requests := closedRequest_perm hperm ▸ h.requests
  matchOffers := closedOffer_perm hperm ▸ h.matchOffers
  requestTransitions := by
    obtain ⟨log, hlog, hentries⟩ := h.requestTransitions
    exact ⟨log, hlog, hentries.trans (hperm.map _)⟩
  frame := h.frame

variable {userId : UserId}

theorem mem_sharedMatches {e : MatchId × Match} :
    e ∈ db.sharedMatches userId ↔
      db.matchRows.lookup e.1 = some e.2 ∧ e.2.isActiveOf userId = true :=
  Table.mem_select

theorem mem_ownOpen {e : RequestId × Request} :
    e ∈ db.ownOpen userId ↔
      db.requests.lookup e.1 = some e.2 ∧ e.2.requesterId = userId ∧ e.2.status.isOpen = true := by
  simp [ownOpen, Table.mem_select]

theorem shared_not_open (hx : db.toExchange.Consistent) {rid : RequestId} {r : Request}
    (hr : db.requests.lookup rid = some r) (hopen : r.status.isOpen = true) :
    ((db.sharedMatches userId).any fun e => e.2.requestId = rid) = false := by
  by_contra hany
  rw [Bool.not_eq_false] at hany
  obtain ⟨e, he, hrid⟩ := List.any_eq_true.mp hany
  obtain ⟨hm, hshared⟩ := mem_sharedMatches.mp he
  have hactive : e.2.status = .active := of_decide_eq_true (Bool.and_eq_true_iff.mp hshared).1
  have hmatched := hx.coupled.matched hm hactive (of_decide_eq_true hrid ▸ hr)
  rw [hmatched] at hopen
  cases hopen

theorem Swept.sharedMatches_perm {L R : List (MatchId × Match)} (h : Swept db L db')
    (hall : (L ++ R).Perm (db.sharedMatches userId)) : (db'.sharedMatches userId).Perm R := by
  have hnodup : ((L ++ R).map Prod.fst).Nodup :=
    (hall.map Prod.fst).nodup_iff.mpr (Table.nodup_select _ _)
  have hrest : R.Nodup := (List.nodup_append.mp (List.Nodup.of_map _ hnodup)).2.1
  refine (List.perm_ext_iff_of_nodup (.of_map _ (Table.nodup_select _ _)) hrest).mpr fun e => ?_
  change e ∈ db'.sharedMatches userId ↔ e ∈ R
  constructor
  · intro he
    obtain ⟨hm', hshared⟩ := mem_sharedMatches.mp he
    obtain ⟨m, d, hm, heq⟩ := h.matchRows.before hm'
    rw [sweptMatch] at heq
    split_ifs at heq with hany
    · rw [heq] at hshared
      cases hshared
    · have hbefore : e ∈ L ++ R := hall.mem_iff.mpr (mem_sharedMatches.mpr ⟨heq ▸ hm, hshared⟩)
      refine (List.mem_append.mp hbefore).resolve_left fun hL => hany ?_
      exact List.any_eq_true.mpr ⟨e, hL, decide_eq_true rfl⟩
  · intro he
    obtain ⟨hm, hshared⟩ := mem_sharedMatches.mp (hall.subset (List.mem_append_right L he))
    refine mem_sharedMatches.mpr ⟨h.lookup hm fun e' he' => ?_, hshared⟩
    rw [List.map_append, List.nodup_append] at hnodup
    exact hnodup.2.2 e'.1 (List.mem_map_of_mem he') e.1 (List.mem_map_of_mem he)

theorem Swept.ownOpen_perm (hx : db.toExchange.Consistent)
    (h : Swept db (db.sharedMatches userId) db') :
    (db'.ownOpen userId).Perm (db.ownOpen userId) := by
  refine (List.perm_ext_iff_of_nodup (.of_map _ (Table.nodup_select _ _))
    (.of_map _ (Table.nodup_select _ _))).mpr fun e => ?_
  change e ∈ db'.ownOpen userId ↔ e ∈ db.ownOpen userId
  rw [mem_ownOpen, mem_ownOpen]
  constructor
  · rintro ⟨hr', howner, hopen⟩
    obtain ⟨r, d, hr, heq⟩ := h.requests.before hr'
    rw [sweptRequest] at heq
    split_ifs at heq
    · rw [heq] at hopen
      cases hopen
    · exact ⟨heq ▸ hr, howner, hopen⟩
  · rintro ⟨hr, howner, hopen⟩
    refine ⟨h.requests.fixed hr fun d => ?_, howner, hopen⟩
    rw [sweptRequest, shared_not_open hx hr hopen]
    rfl

theorem reserved_eq_released (hx : db.toExchange.Consistent) {id : ItemId} {item : InventoryItem}
    (hi : db.inventoryItems.lookup id = some item) (howner : item.userId = userId) :
    item.qtyReserved = releasedOn (db.sharedMatches userId) id := by
  have hbooked : item.qtyReserved = Escrow.held Match.hold db.matchRows id :=
    (hx.booked id item hi).1
  rw [hbooked, Escrow.held, releasedOn, sharedMatches, Table.sum_select]
  refine Table.sum_congr fun mid m hm => ?_
  by_cases hactive : m.status = .active
  · rw [Match.hold_active hactive]
    by_cases hitem : m.inventoryItemId = id
    · -- The helper of a match owns its item.
      obtain ⟨o, ho, -, hhelper, hoi⟩ := (hx.linked.matchRows mid m hm).offer
      obtain ⟨item', hi', howner'⟩ := (hx.linked.offers _ o ho).item
      rw [hoi, hitem, hi] at hi'
      obtain rfl := Option.some.inj hi'
      have hshared : m.isActiveOf userId = true := by
        simp [Match.isActiveOf, hactive, ← hhelper, ← howner', howner]
      rw [hitem, Escrow.amountOn_self]
      simp [hshared]
    · rw [Escrow.amountOn_ne hitem]
      simp [hitem]
  · have hshared : m.isActiveOf userId = false := by simp [Match.isActiveOf, hactive]
    rw [Match.hold_closed hactive]
    simp [hshared]

section Rows

variable (db : Db) (userId : UserId) (now : Time)

/-- What becomes of a request: one with a shared match is moderated, an open one of the
user's own is cancelled. -/
def erasedRequest (id : RequestId) (r : Request) : Request :=
  closedRequest (db.ownOpen userId) now id (sweptRequest (db.sharedMatches userId) now id r)

/-- What becomes of an item: the user's own are emptied, the others get back what shared
matches had reserved. -/
def erasedItem (id : ItemId) (item : InventoryItem) : InventoryItem :=
  if item.userId = userId then
    { item with qtyOnHand := 0, qtyReserved := 0, active := false, updatedAt := now }
  else sweptItem (db.sharedMatches userId) now id item

end Rows

/-- What the job makes of the database. -/
structure Erased (db : Db) (userId : UserId) (db' : Db) : Prop where
  matchRows : Table.Follows (sweptMatch (db.sharedMatches userId)) db.matchRows db'.matchRows
  requests : Table.Follows (db.erasedRequest userId) db.requests db'.requests
  inventoryItems : Table.Follows (db.erasedItem userId) db.inventoryItems db'.inventoryItems
  matchOffers : Table.Follows (closedOffer (db.ownOpen userId)) db.matchOffers db'.matchOffers
  conversations :
    Table.Follows (sweptConversation (db.sharedMatches userId)) db.conversations db'.conversations
  requestTransitions : ∃ log, db'.requestTransitions = db.requestTransitions ++ log ∧
    (log.map RequestTransition.untimed).Perm
      ((db.sharedMatches userId).map cancelEntry ++ (db.ownOpen userId).map closeEntry)
  messages : (db'.messages.rows.map Message.untimed).Perm
    ((db.sharedMatches userId).map db.notice ++ db.messages.rows.map Message.untimed)
  kept : ∀ id message, db.messages.lookup id = some message →
    db'.messages.lookup id = some message
  sent : ∀ id message, db'.messages.lookup id = some message →
    db.messages.lookup id = some message ∨
      ∃ e ∈ db.sharedMatches userId, message.untimed = db.notice e
  frame : ∃ avatarSeed zeroedAt deletedAt,
    db' = { db.wiped userId avatarSeed zeroedAt deletedAt with
      matchRows := db'.matchRows
      requests := db'.requests
      inventoryItems := db'.inventoryItems
      matchOffers := db'.matchOffers
      conversations := db'.conversations
      requestTransitions := db'.requestTransitions
      messages := db'.messages }

theorem deletion_erases {avatarSeed : String} (hx : db.Consistent) {is : List (Env × Op)}
    (his : is.map Prod.snd = db.deletionOps env userId avatarSeed) :
    ∃ db', commitAll is db = .ok db' ∧ Erased db userId db' := by
  obtain ⟨L, swept, O, closed, zeroedAt, deletedAt, hL, hswept, hO, hclosed, hcommit⟩ :=
    deletion_commits hx his
  replace hswept := hswept.perm hL
  replace hclosed := hclosed.perm (hO.trans (hswept.ownOpen_perm hx.exchange))
  refine ⟨_, hcommit, ?_⟩
  have hmatchRows : closed.matchRows = swept.matchRows := by rw [hclosed.frame]
  have hitems : closed.inventoryItems = swept.inventoryItems := by rw [hclosed.frame]
  have hconversations : closed.conversations = swept.conversations := by rw [hclosed.frame]
  have hmessages : closed.messages = swept.messages := by rw [hclosed.frame]
  have hoffers : swept.matchOffers = db.matchOffers := by rw [hswept.frame]
  constructor
  · exact hmatchRows ▸ hswept.matchRows
  · refine hswept.requests.trans hclosed.requests fun rid r d₁ d₂ hr => ?_
    by_cases hopen : r.status.isOpen = true
    · refine ⟨d₂, ?_⟩
      rw [erasedRequest, sweptRequest, sweptRequest, shared_not_open hx.exchange hr hopen]
      rfl
    · have hnot : ((db.ownOpen userId).any fun e => e.1 = rid) = false := by
        by_contra hany
        rw [Bool.not_eq_false] at hany
        obtain ⟨e, he, hrid⟩ := List.any_eq_true.mp hany
        obtain ⟨hr', -, hopen'⟩ := mem_ownOpen.mp he
        rw [of_decide_eq_true hrid, hr] at hr'
        exact hopen (Option.some.inj hr' ▸ hopen')
      exact ⟨d₁, by simp [erasedRequest, closedRequest, hnot]⟩
  · have hfollows := hitems ▸ hswept.inventoryItems
    refine hfollows.trans (Table.follows_updateWhere closed.inventoryItems
      (fun _ item => item.userId = userId) (fun now item =>
        { item with qtyOnHand := item.qtyReserved, active := false, updatedAt := now }) zeroedAt)
      fun id item d₁ d₂ hi => ?_
    have hsame : (sweptItem (db.sharedMatches userId) d₁ id item).userId = item.userId := by
      rw [sweptItem]
      split_ifs <;> rfl
    by_cases howner : item.userId = userId
    · refine ⟨d₂, ?_⟩
      have hreleased := reserved_eq_released hx.exchange hi howner
      cases hany : (db.sharedMatches userId).any fun e => e.2.inventoryItemId = id with
      | true => simp [erasedItem, howner, sweptItem, hany, hreleased]
      | false =>
          rw [releasedOn_of_not_any hany] at hreleased
          simp [erasedItem, howner, sweptItem, hany, hreleased]
    · exact ⟨d₁, by simp [erasedItem, howner, hsame]⟩
  · exact hoffers ▸ hclosed.matchOffers
  · exact hconversations ▸ hswept.conversations
  · obtain ⟨log₁, hlog₁, hentries₁⟩ := hswept.requestTransitions
    obtain ⟨log₂, hlog₂, hentries₂⟩ := hclosed.requestTransitions
    refine ⟨log₁ ++ log₂, ?_, ?_⟩
    · rw [← List.append_assoc, ← hlog₁]
      exact hlog₂
    · rw [List.map_append]
      exact hentries₁.append hentries₂
  · exact hmessages ▸ hswept.messages
  · exact hmessages ▸ hswept.kept
  · exact hmessages ▸ hswept.sent
  · refine ⟨avatarSeed, zeroedAt, deletedAt, ?_⟩
    rw [hclosed.frame, hswept.frame]
    rfl

end Db
end Sahay
