import Sahay.Refinement.Matches
import Sahay.Server.ChatTraffic

/-!
# What transactions do to conversations

Of a conversation the transactions of a match and the statements of the retention change the
status and the grace; none opens it again.  They write into a conversation that they have just
made, or into that of an active match.
-/

namespace Sahay

namespace Db

variable {env : Env} {db db' db'' : Db} {matchId : MatchId} {locks : MatchLocks}
  {effects : List Effect}

def isOpen (db : Db) (cid : ConversationId) : Bool :=
  (db.conversations.lookup cid).any fun c => c.status = .open

def matchActive (db : Db) (mid : MatchId) : Bool :=
  (db.matchRows.lookup mid).any fun m => m.status = .active

theorem isOpen_iff {cid : ConversationId} :
    db.isOpen cid = true ↔ ∃ c, db.conversations.lookup cid = some c ∧ c.status = .open := by
  rw [isOpen, Option.any_eq_true]
  simp only [decide_eq_true_eq]

theorem matchActive_iff {mid : MatchId} :
    db.matchActive mid = true ↔ ∃ m, db.matchRows.lookup mid = some m ∧ m.status = .active := by
  rw [matchActive, Option.any_eq_true]
  simp only [decide_eq_true_eq]

/-! ## What a transaction does to conversations -/

/-- No conversation is opened again, no match revived, and what is written is written into a
conversation that is new or that of an active match.  Unless the retention `sweeps`, a conversation
is closed only with its match. -/
structure ChatMoves (sweeps : Bool) (db db' : Db) : Prop where
  kept : ∀ cid c, db.conversations.lookup cid = some c →
    ∃ c', db'.conversations.lookup cid = some c' ∧ c'.matchId = c.matchId ∧
      (db'.isOpen cid = true → db.isOpen cid = true)
  opened : ∀ cid c', db'.conversations.lookup cid = some c' → cid ∉ db.conversations →
    c'.matchId ∈ db'.matchRows ∧ db'.isOpen cid = true
  matchKept : ∀ mid ∈ db.matchRows, mid ∈ db'.matchRows
  revives : ∀ mid ∈ db.matchRows, db'.matchActive mid = true → db.matchActive mid = true
  posts : ∀ id msg, db'.messages.lookup id = some msg → db.messages.lookup id = some msg ∨
    msg.conversationId ∉ db.conversations ∨
      ∃ c, db.conversations.lookup msg.conversationId = some c ∧ db.matchActive c.matchId = true
  ends : sweeps = false → ∀ cid c, db.conversations.lookup cid = some c → db.isOpen cid = true →
    db'.isOpen cid = false → db'.matchActive c.matchId = false

variable {sweeps : Bool}

theorem ends_of_open (h : ∀ cid, db.isOpen cid = true → db'.isOpen cid = true)
    (cid : ConversationId) (c : Conversation) (_ : db.conversations.lookup cid = some c)
    (hopen : db.isOpen cid = true) (hclosed : db'.isOpen cid = false) :
    db'.matchActive c.matchId = false :=
  absurd (h cid hopen) (Bool.eq_false_iff.1 hclosed)

theorem ChatMoves.of_tables (hconversations : db'.conversations = db.conversations)
    (hmatchRows : db'.matchRows = db.matchRows) (hmessages : db'.messages = db.messages) :
    ChatMoves sweeps db db' where
  kept cid c hc := ⟨c, hconversations ▸ hc, rfl, by rw [isOpen, isOpen, hconversations]; exact id⟩
  opened cid c' hc' hnew :=
    absurd (Table.mem_iff_exists.2 ⟨c', hconversations ▸ hc'⟩) hnew
  matchKept mid hmid := hmatchRows ▸ hmid
  revives mid _ h := by rwa [matchActive, hmatchRows] at h
  posts id msg hmsg := .inl (hmessages ▸ hmsg)
  ends _ := ends_of_open fun cid hopen => by rwa [isOpen, hconversations]

abbrev NoneRevived (t t' : Table MatchId Match) : Prop :=
  Table.Inherits (fun m : Match => m.status = .active) (fun _ => ()) t t'

theorem NoneRevived.matchActive (h : NoneRevived db.matchRows db'.matchRows) {mid : MatchId}
    (hactive : db'.matchActive mid = true) : db.matchActive mid = true := by
  obtain ⟨m', hm', hstatus'⟩ := matchActive_iff.1 hactive
  obtain ⟨m, hm, hstatus, -⟩ := h mid m' hm' hstatus'
  exact matchActive_iff.2 ⟨m, hm, hstatus⟩

theorem noneRevived_modify (t : Table MatchId Match) (matchId : MatchId) {set : Match → Match}
    (hset : ∀ m, (set m).status ≠ .active) : NoneRevived t (t.modify matchId set) := by
  intro mid m' hm' hactive
  rw [Table.lookup_modify, Option.map_eq_some_iff] at hm'
  obtain ⟨m, hm, rfl⟩ := hm'
  split_ifs at hactive ⊢
  · exact absurd hactive (hset m)
  · exact ⟨m, hm, hactive, rfl⟩

/-- An active match ends, or goes on, with a message into its conversation. -/
theorem ChatMoves.of_match {cid : ConversationId} {c : Conversation}
    (hactive : db.matchActive matchId = true) (hc : db.conversations.lookup cid = some c)
    (hmatch : c.matchId = matchId) {talk : Conversation → Conversation}
    (htalk : ∀ c, (talk c).matchId = c.matchId)
    (hstatus : ∀ c, (talk c).status = .open → c.status = .open) {id : MessageId}
    {message : Message} (hmessage : message.conversationId = cid)
    (hconversations : db'.conversations = db.conversations.modify cid talk)
    (hkept : ∀ mid ∈ db.matchRows, mid ∈ db'.matchRows)
    (hrevived : NoneRevived db.matchRows db'.matchRows) (hover : db'.matchActive matchId = false)
    (hmessages : db'.messages = db.messages.put id message) : ChatMoves sweeps db db' where
  kept cid' row hrow := by
    refine ⟨_, by rw [hconversations, Table.lookup_modify, hrow]; rfl, ?_, fun hopen => ?_⟩
    · split_ifs
      · exact htalk row
      · rfl
    · obtain ⟨row', hrow', hstatus'⟩ := isOpen_iff.1 hopen
      rw [hconversations, Table.lookup_modify, hrow, Option.map_some, Option.some.injEq] at hrow'
      refine isOpen_iff.2 ⟨row, hrow, ?_⟩
      subst hrow'
      split_ifs at hstatus'
      · exact hstatus row hstatus'
      · exact hstatus'
  opened cid' row hrow hnew := by
    have hmem : cid' ∈ db'.conversations := Table.mem_iff_exists.2 ⟨row, hrow⟩
    rw [hconversations, Table.mem_modify] at hmem
    exact absurd hmem hnew
  matchKept := hkept
  revives _ _ h := hrevived.matchActive h
  posts id' msg hmsg := by
    rw [hmessages, Table.lookup_put] at hmsg
    split_ifs at hmsg
    · obtain rfl := Option.some.inj hmsg
      exact .inr (.inr ⟨c, hmessage ▸ hc, hmatch ▸ hactive⟩)
    · exact .inl hmsg
  ends _ cid' row hrow hopen hclosed := by
    by_cases heq : cid' = cid
    · obtain rfl := Option.some.inj (hrow.symm.trans (heq ▸ hc))
      exact hmatch ▸ hover
    · rw [isOpen, hconversations, Table.lookup_modify, hrow, Option.map_some, if_neg heq] at hclosed
      rw [isOpen, hrow] at hopen
      exact absurd hopen (Bool.eq_false_iff.1 hclosed)

/-- A new match, with its conversation and a first message. -/
theorem ChatMoves.of_new {mid : MatchId} {m : Match} {cid : ConversationId} {c : Conversation}
    {id : MessageId} {message : Message} (hmid : mid ∉ db.matchRows)
    (hcid : cid ∉ db.conversations) (hmatch : c.matchId = mid) (hopen : c.status = .open)
    (hmessage : message.conversationId = cid)
    (hconversations : db'.conversations = db.conversations.put cid c)
    (hmatchRows : db'.matchRows = db.matchRows.put mid m)
    (hmessages : db'.messages = db.messages.put id message) : ChatMoves sweeps db db' where
  kept cid' row hrow := by
    have hne : cid' ≠ cid := fun heq => hcid (heq ▸ Table.mem_iff_exists.2 ⟨row, hrow⟩)
    have hlookup : db'.conversations.lookup cid' = db.conversations.lookup cid' := by
      rw [hconversations, Table.lookup_put, if_neg hne]
    exact ⟨row, hlookup.trans hrow, rfl, by rw [isOpen, isOpen, hlookup]; exact fun h => h⟩
  opened cid' row hrow hnew := by
    rw [hconversations, Table.lookup_put] at hrow
    split_ifs at hrow with heq
    · obtain rfl := Option.some.inj hrow
      subst heq
      refine ⟨Table.mem_iff_exists.2 ⟨m, ?_⟩, isOpen_iff.2 ⟨c, ?_, hopen⟩⟩
      · rw [hmatchRows, hmatch, Table.lookup_put, if_pos rfl]
      · rw [hconversations, Table.lookup_put, if_pos rfl]
    · exact absurd (Table.mem_iff_exists.2 ⟨row, hrow⟩) hnew
  matchKept mid' hmid' := by
    rw [hmatchRows]
    exact (AList.mem_insert db.matchRows).2 (.inr hmid')
  revives mid' hmid' h := by
    have hne : mid' ≠ mid := fun heq => hmid (heq ▸ hmid')
    rwa [matchActive, hmatchRows, Table.lookup_put, if_neg hne] at h
  posts id' msg hmsg := by
    rw [hmessages, Table.lookup_put] at hmsg
    split_ifs at hmsg
    · obtain rfl := Option.some.inj hmsg
      exact .inr (.inl (hmessage ▸ hcid))
    · exact .inl hmsg
  ends _ := ends_of_open fun cid' hopen => by
    obtain ⟨row, hrow, -⟩ := isOpen_iff.1 hopen
    have hne : cid' ≠ cid := fun heq => hcid (heq ▸ Table.mem_iff_exists.2 ⟨row, hrow⟩)
    rwa [isOpen, hconversations, Table.lookup_put, if_neg hne]

/-! ## The transactions -/

/-- The tables of the chat, and the matches. -/
structure SameChat (db db' : Db) : Prop where
  conversations : db'.conversations = db.conversations
  matchRows : db'.matchRows = db.matchRows
  messages : db'.messages = db.messages

/-- The chat after the end of the match: its conversation goes on or is closed, and the system
has written into it. -/
structure EndsMatch (matchId : MatchId) (cid : ConversationId) (db db' : Db) : Prop where
  conversations : ∃ talk : Conversation → Conversation, (∀ c, (talk c).matchId = c.matchId) ∧
    (∀ c, (talk c).status = .open → c.status = .open) ∧
      db'.conversations = db.conversations.modify cid talk
  matchRows : ∃ set : Match → Match, (∀ m, (set m).status ≠ .active) ∧
    db'.matchRows = db.matchRows.modify matchId set
  messages : ∃ id message, message.conversationId = cid ∧
    db'.messages = db.messages.put id message

theorem SameChat.of_stock {id : ItemId} {set : InventoryItem → InventoryItem}
    (h : db.updateInventoryItem id set = .ok db') : SameChat db db' := by
  obtain ⟨item, -, -, rfl⟩ := updateInventoryItem_ok.1 h
  exact ⟨rfl, rfl, rfl⟩

theorem SameChat.of_move {id : RequestId} {source target : RequestStatus}
    {actor : TransitionActor} {reason : Option String} {now : Time} {set : Request → Request}
    (h : db.transitionRequest id source target actor reason now set = .ok db') :
    SameChat db db' := by
  obtain ⟨-, r, -, -, rfl⟩ := transitionRequest_ok.1 h
  exact ⟨rfl, rfl, rfl⟩

/-- The match is closed, its conversation goes on or is closed, and then the system writes. -/
theorem EndsMatch.of_closed {cid : ConversationId} {set : Match → Match}
    (hset : ∀ m, (set m).status ≠ .active) (talk : Conversation → Conversation)
    (htalk : ∀ c, (talk c).matchId = c.matchId)
    (hstatus : ∀ c, (talk c).status = .open → c.status = .open)
    (hconversations : db'.conversations = db.conversations.modify cid talk)
    (hmatchRows : db'.matchRows = db.matchRows.modify matchId set)
    (hmessages : db'.messages = db.messages) (senderId : UserId) (text : String) :
    EndsMatch matchId cid db (db'.insertSystemMessage env cid senderId text) where
  conversations := ⟨talk, htalk, hstatus, hconversations⟩
  matchRows := ⟨set, hset, hmatchRows⟩
  messages := by
    rw [insertSystemMessage, hmessages]
    exact ⟨_, _, rfl, rfl⟩

theorem bump_messages (db : Db) (userId : UserId) (increments : ReliabilityCounters)
    (now : Time) : (db.bump userId increments now).messages = db.messages := rfl

theorem applySettlement_messages (db : Db) (m : Match) (opts : SettleOptions) (now : Time) :
    (db.applySettlement m opts now).messages = db.messages := by
  unfold applySettlement
  split_ifs
  · rfl
  · exact ((bump_messages _ _ _ _).trans (bump_messages _ _ _ _)).trans (bump_messages db _ _ _)
  · exact bump_messages db _ _ _

theorem settleLocked_ends {opts : SettleOptions}
    (h : db.settleLocked env matchId locks opts = .ok (effects, db')) :
    EndsMatch matchId locks.conversationId db db' := by
  have hstatus (disputed covered : Bool) : settledMatchStatus disputed covered ≠ .active := by
    cases disputed <;> cases covered <;> decide
  have hrest {released mid : Db} {set : Match → Match} (hsame : SameChat db released)
      (hset : ∀ m, (set m).status ≠ .active)
      (hmoved : SameChat (released.updateMatch matchId set) mid) (text : String) :
      EndsMatch matchId locks.conversationId db
        (((mid.updateConversation locks.conversationId fun c =>
          { c with expiresAt := some (env.now + conversationGraceMs) }).applySettlement
            locks.matchRow opts env.now).insertSystemMessage env locks.conversationId
              opts.senderUserId text) := by
    let talk (c : Conversation) : Conversation :=
      { c with expiresAt := some (env.now + conversationGraceMs) }
    refine .of_closed hset talk (fun _ => rfl) (fun c hopen => hopen) ?_ ?_ ?_ _ _
    · rw [applySettlement_toExchange, ← hsame.conversations]
      exact congrArg (fun t => t.modify locks.conversationId talk) hmoved.conversations
    · rw [applySettlement_toExchange, ← hsame.matchRows]
      exact hmoved.matchRows
    · rw [applySettlement_messages, ← hsame.messages]
      exact hmoved.messages
  unfold settleLocked at h
  cases happlied : locks.matchRow.inventoryApplied with
  | true =>
      simp only [happlied, if_true, bind_ok, pure_ok, Prod.mk.injEq] at h
      obtain ⟨_, rfl, mid, hmove, -, rfl⟩ := h
      exact hrest ⟨rfl, rfl, rfl⟩ (fun _ => hstatus _ _) (.of_move hmove) _
  | false =>
      simp only [happlied, Bool.false_eq_true, if_false, bind_ok, pure_ok, Prod.mk.injEq] at h
      obtain ⟨released, hrelease, mid, hmove, -, rfl⟩ := h
      exact hrest (.of_stock hrelease) (fun _ => hstatus _ _) (.of_move hmove) _

theorem cancelMatchLocked_ends {opts : CancelOptions}
    (h : db.cancelMatchLocked env matchId locks opts = .ok (effects, db')) :
    locks.matchRow.status = .active ∧ EndsMatch matchId locks.conversationId db db' := by
  have hcancelled : opts.matchStatus ≠ .active := by
    rw [CancelOptions.matchStatus]
    split_ifs <;> decide
  have hrest {released mid : Db} {set : Match → Match} {closes : Bool}
      (hsame : SameChat db released) (hset : ∀ m, (set m).status ≠ .active)
      (hmoved : SameChat ((released.updateMatch matchId set).updateConversation
        locks.conversationId fun c =>
          { c with
            status := if closes then .readonly else c.status
            expiresAt := some (env.now + conversationGraceMs) }) mid)
      (senderId : UserId) (text : String) :
      EndsMatch matchId locks.conversationId db
        (((mid.forgetLocation locks.matchRow opts).applyCancellation locks.matchRow opts
          env.now).insertSystemMessage env locks.conversationId senderId text) := by
    have hexchange : ((mid.forgetLocation locks.matchRow opts).applyCancellation
        locks.matchRow opts env.now).toExchange = mid.toExchange := by
      rw [applyCancellation_toExchange, forgetLocation_toExchange]
    let talk (c : Conversation) : Conversation :=
      { c with
        status := if closes then .readonly else c.status
        expiresAt := some (env.now + conversationGraceMs) }
    refine .of_closed hset talk (fun _ => rfl) ?_ ?_ ?_ ?_ _ _
    · intro c hopen
      dsimp only [talk] at hopen
      split_ifs at hopen
      exact hopen
    · rw [hexchange, ← hsame.conversations]
      exact hmoved.conversations
    · rw [hexchange, ← hsame.matchRows]
      exact hmoved.matchRows
    · rw [applyCancellation, forgetLocation, ← hsame.messages]
      split_ifs <;> split <;> exact hmoved.messages
  simp only [cancelMatchLocked, bind_ok, ensure_ok] at h
  obtain ⟨-, hactive, h⟩ := h
  refine ⟨hactive, ?_⟩
  cases happlied : locks.matchRow.inventoryApplied with
  | true =>
      simp only [happlied, if_true, bind_ok, pure_ok, Prod.mk.injEq] at h
      obtain ⟨_, rfl, mid, hmove, -, rfl⟩ := h
      exact hrest ⟨rfl, rfl, rfl⟩ (fun _ => hcancelled) (.of_move hmove) _ _
  | false =>
      simp only [happlied, Bool.false_eq_true, if_false, bind_ok, pure_ok, Prod.mk.injEq] at h
      obtain ⟨released, hrelease, mid, hmove, -, rfl⟩ := h
      exact hrest (.of_stock hrelease) (fun _ => hcancelled) (.of_move hmove) _ _

/-- The end of an active match, also if a row of an active match has been written before it. -/
theorem EndsMatch.moves {cid : ConversationId} {c : Conversation}
    (h : EndsMatch matchId cid db'' db') (hactive : db.matchActive matchId = true)
    (hc : db.conversations.lookup cid = some c) (hmatch : c.matchId = matchId)
    (hconversations : db''.conversations = db.conversations)
    (hkept : ∀ mid ∈ db.matchRows, mid ∈ db''.matchRows)
    (hrevived : NoneRevived db.matchRows db''.matchRows)
    (hmessages : db''.messages = db.messages) : ChatMoves sweeps db db' := by
  obtain ⟨⟨talk, htalk, hstatus, htalked⟩, ⟨set, hset, hclosed⟩, id, message, hmessage, hsaid⟩ := h
  refine .of_match hactive hc hmatch htalk hstatus hmessage (hconversations ▸ htalked) ?_ ?_ ?_
    (hmessages ▸ hsaid)
  · intro mid hmid
    rw [hclosed, Table.mem_modify]
    exact hkept mid hmid
  · rw [hclosed]
    exact hrevived.trans (noneRevived_modify _ _ hset)
  · rw [Bool.eq_false_iff]
    intro hstill
    obtain ⟨m, hm, hm'⟩ := matchActive_iff.1 hstill
    rw [hclosed, Table.lookup_modify, Option.map_eq_some_iff] at hm
    obtain ⟨m₀, -, rfl⟩ := hm
    rw [if_pos rfl] at hm'
    exact hset m₀ hm'

theorem Locked.matchActive (hl : db.Locked matchId locks)
    (hactive : locks.matchRow.status = .active) : db.matchActive matchId = true :=
  matchActive_iff.2 ⟨_, hl.matchRow, hactive⟩

theorem ChatMoves.of_row {m m' : Match} (hm : db.matchRows.lookup matchId = some m)
    (hstatus : m'.status = m.status) :
    ChatMoves sweeps db { db with matchRows := db.matchRows.replace matchId m' } where
  kept _ c hc := ⟨c, hc, rfl, id⟩
  opened _ c hc hnew := absurd (Table.mem_iff_exists.2 ⟨c, hc⟩) hnew
  matchKept _ hmid := Table.mem_modify.2 hmid
  revives mid _ h := by
    have hrevived : NoneRevived db.matchRows (db.matchRows.replace matchId m') :=
      .replace hm fun hactive => ⟨hstatus.symm.trans hactive, rfl⟩
    exact hrevived.matchActive h
  posts _ _ hmsg := .inl hmsg
  ends _ := ends_of_open fun _ => id

theorem setMeetingState_moves {viewerUserId : UserId} {state : MeetingState}
    (h : db.setMeetingState matchId viewerUserId state = .ok db') : ChatMoves sweeps db db' := by
  simp only [setMeetingState, bind_ok, found_ok, ensure_ok, pure_ok] at h
  obtain ⟨m, hm, side, -, -, -, rfl⟩ := h
  rw [updateMatch_eq hm]
  refine .of_row hm ?_
  cases side <;> rfl

theorem setConfirmedQty_status (m : Match) (side : Side) (qty : Qty) :
    (m.setConfirmedQty side qty).status = m.status := by
  cases side <;> rfl

theorem confirmCompletion_moves {viewerUserId : UserId} {qty : ConfirmQty}
    (h : db.confirmCompletion env matchId viewerUserId qty = .ok (effects, db')) :
    ChatMoves sweeps db db' := by
  cases confirmCompletion_cases h with
  | replays _ _ _ => exact .of_tables rfl rfl rfl
  | first hlocks _ _ _ _ _ _ =>
      exact .of_row (lockMatchRows_some hlocks).matchRow (setConfirmedQty_status _ _ _)
  | second hlocks _ hactive _ _ _ _ hsettle =>
      have hl := lockMatchRows_some hlocks
      obtain ⟨c, hc, hmatch⟩ := hl.conversation
      refine (settleLocked_ends hsettle).moves (hl.matchActive hactive) hc hmatch rfl ?_ ?_ rfl
      · exact fun _ hmid => Table.mem_modify.2 hmid
      · exact .replace hl.matchRow fun _ => ⟨hactive, rfl⟩

theorem autoFinalizeMatch_moves (h : db.autoFinalizeMatch env matchId = .ok (effects, db')) :
    ChatMoves sweeps db db' := by
  rcases db.autoFinalizeMatch_cases env matchId with
    ⟨hidle, -⟩ | ⟨locks, side, qty, hlocks, hactive, -, -, -, hsettle⟩
  · obtain ⟨-, rfl⟩ := Prod.mk.inj (pure_ok.1 (hidle.symm.trans h))
    exact .of_tables rfl rfl rfl
  · have hl := lockMatchRows_some hlocks
    obtain ⟨c, hc, hmatch⟩ := hl.conversation
    rw [hsettle] at h
    exact (settleLocked_ends h).moves (hl.matchActive hactive) hc hmatch rfl (fun _ => id)
      (.refl _ _ _) rfl

theorem cancelMatchLocked_moves {opts : CancelOptions}
    (hlocks : db.lockMatchRows matchId = some locks)
    (h : db.cancelMatchLocked env matchId locks opts = .ok (effects, db')) :
    ChatMoves sweeps db db' := by
  have hl := lockMatchRows_some hlocks
  obtain ⟨c, hc, hmatch⟩ := hl.conversation
  obtain ⟨hactive, hends⟩ := cancelMatchLocked_ends h
  exact hends.moves (hl.matchActive hactive) hc hmatch rfl (fun _ => id) (.refl _ _ _) rfl

theorem acceptOffer_moves {helperId : UserId} {offerId : OfferId} {draws : List (ℕ × ℕ)}
    {outcome : AcceptOutcome}
    (h : db.acceptOffer env helperId offerId draws = .ok (outcome, effects, db')) :
    ChatMoves sweeps db db' := by
  simp only [acceptOffer, bind_ok] at h
  obtain ⟨offer, -, request, -, -, -, item, -, h⟩ := h
  generalize computeReserveQty offer.qty (request.qty - request.qtyFulfilled)
    (if item.active = true then item.qtyOnHand - item.qtyReserved else 0)
    ((db.categories.lookup request.categoryId).elim false Category.fractional) = q at h
  by_cases hnone : q ≤ 0
  · rw [if_pos hnone] at h
    simp only [bind_ok, pure_ok, Prod.mk.injEq] at h
    obtain ⟨mid, hmove, -, -, rfl⟩ := h
    have hmoved := SameChat.of_move hmove
    exact .of_tables hmoved.conversations hmoved.matchRows hmoved.messages
  · rw [if_neg hnone] at h
    simp only [bind_ok, pure_ok, Prod.mk.injEq] at h
    obtain ⟨reserved, hreserve, aliases, -, -, -, mid, hmove, -, -, rfl⟩ := h
    have hreserved := SameChat.of_stock hreserve
    have hmoved := SameChat.of_move hmove
    have hconversations : mid.conversations = db.conversations :=
      hmoved.conversations.trans hreserved.conversations
    let matchId :=
      (reserved.closeOffer offerId .accepted env.now).matchRows.freshKey env.uuid.matchRow
    let conversationId := mid.conversations.freshKey env.uuid.conversation
    let conversation : Conversation := { matchId := matchId, createdAt := env.now }
    let announcement : Message :=
      { conversationId := conversationId
        senderId := helperId
        kind := .system
        body := "match.matched"
        createdAt := env.now }
    have hmid : matchId ∉ db.matchRows := by
      rw [← hreserved.matchRows]
      exact Table.freshKey_notMem _ _
    have hcid : conversationId ∉ db.conversations := by
      rw [← hconversations]
      exact Table.freshKey_notMem _ _
    have hmatchRows : mid.matchRows = db.matchRows.put matchId
        (offer.newMatch offerId request helperId q aliases env.now) := by
      rw [hmoved.matchRows, ← hreserved.matchRows]
      rfl
    refine .of_new hmid hcid ?_ ?_ ?_
      (congrArg (fun t => t.put conversationId conversation) hconversations) hmatchRows
      (congrArg (fun t => t.put (mid.messages.freshKey env.uuid.message) announcement)
        (hmoved.messages.trans hreserved.messages))
    · rfl
    · rfl
    · rfl

theorem upkeepStatement_moves {statement : UpkeepStatement} (p : Conversation → Bool)
    (status : ConversationStatus) (hstatus : status ≠ .open)
    (hconversations : (db.upkeepStatement env statement).conversations =
      db.conversations.updateWhere (fun _ c => p c) fun c => { c with status := status })
    (hmatchRows : (db.upkeepStatement env statement).matchRows = db.matchRows)
    (hmessages : ∀ id msg, (db.upkeepStatement env statement).messages.lookup id = some msg →
      db.messages.lookup id = some msg) : ChatMoves true db (db.upkeepStatement env statement) where
  kept cid c hc := by
    refine ⟨_, by rw [hconversations, Table.lookup_updateWhere, hc]; rfl, ?_, fun hopen => ?_⟩
    · dsimp only
      split_ifs <;> rfl
    · obtain ⟨c', hc', hstatus'⟩ := isOpen_iff.1 hopen
      rw [hconversations, Table.lookup_updateWhere, hc, Option.map_some, Option.some.injEq] at hc'
      subst hc'
      split_ifs at hstatus'
      · exact absurd hstatus' hstatus
      · exact isOpen_iff.2 ⟨c, hc, hstatus'⟩
  opened cid c hc hnew := by
    have hmem : cid ∈ (db.upkeepStatement env statement).conversations :=
      Table.mem_iff_exists.2 ⟨c, hc⟩
    rw [hconversations, Table.mem_updateWhere] at hmem
    exact absurd hmem hnew
  matchKept mid hmid := hmatchRows ▸ hmid
  revives mid _ h := by rwa [matchActive, hmatchRows] at h
  posts id msg hmsg := .inl (hmessages id msg hmsg)
  ends h := by cases h

end Db

namespace ChatTransaction

variable {env : Env} {db db' : Db}

def sweeps : ChatTransaction → Bool
  | .closeConversations | .purgeMessages => true
  | _ => false

theorem exec_moves {t : ChatTransaction} (h : t.exec env db = .ok db') :
    Db.ChatMoves t.sweeps db db' := by
  cases t with
  | acceptOffer helperId offerId draws =>
      simp only [exec, bind_ok, pure_ok] at h
      obtain ⟨⟨_, _, _⟩, haccept, rfl⟩ := h
      exact Db.acceptOffer_moves haccept
  | setMeetingState matchId viewerUserId state => exact Db.setMeetingState_moves h
  | confirmCompletion matchId viewerUserId qty =>
      simp only [exec, bind_ok, pure_ok] at h
      obtain ⟨⟨_, _⟩, hconfirm, rfl⟩ := h
      exact Db.confirmCompletion_moves hconfirm
  | autoFinalizeMatch matchId =>
      simp only [exec, bind_ok, pure_ok] at h
      obtain ⟨⟨_, _⟩, hfinalize, rfl⟩ := h
      exact Db.autoFinalizeMatch_moves hfinalize
  | cancelMatch matchId viewerUserId reason note =>
      simp only [exec, Db.cancelMatch, bind_ok, found_ok, pure_ok] at h
      obtain ⟨⟨_, _⟩, ⟨locks, hlocks, side, -, hcancel⟩, rfl⟩ := h
      exact Db.cancelMatchLocked_moves hlocks hcancel
  | cancelMatchForModeration matchId reason =>
      simp only [exec, Db.cancelMatchForModeration, Db.cancelMatchInTx, bind_ok, found_ok,
        pure_ok] at h
      obtain ⟨⟨_, _⟩, ⟨locks, hlocks, hcancel⟩, rfl⟩ := h
      exact Db.cancelMatchLocked_moves hlocks hcancel
  | cancelMatchInTx matchId opts =>
      simp only [exec, Db.cancelMatchInTx, bind_ok, found_ok, pure_ok] at h
      obtain ⟨⟨_, _⟩, ⟨locks, hlocks, hcancel⟩, rfl⟩ := h
      exact Db.cancelMatchLocked_moves hlocks hcancel
  | closeConversations =>
      obtain rfl := pure_ok.1 h
      let isOver (c : Conversation) : Bool :=
        c.status = .open && (db.matchRows.lookup c.matchId).isSome &&
          c.expiresAt.any fun t => t < env.now
      exact Db.upkeepStatement_moves isOver .readonly (by decide) rfl rfl fun _ _ hmsg => hmsg
  | purgeMessages =>
      obtain rfl := pure_ok.1 h
      refine Db.upkeepStatement_moves (db.chatOver env) .expired (by decide) rfl rfl ?_
      intro id msg hmsg
      change (db.messages.deleteWhere _).lookup id = some msg at hmsg
      rw [Table.lookup_deleteWhere, Option.filter_eq_some_iff] at hmsg
      exact hmsg.1
  | elsewhere f =>
      obtain rfl := pure_ok.1 h
      exact .of_tables rfl rfl rfl

end ChatTransaction
end Sahay
