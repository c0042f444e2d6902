import Sahay.Server.Listings

/-!
# Pages of messages, notifications and events

A cursor carries the time of a row in milliseconds.  For events that is the whole time, and
following the cursors lists every match of a search.  Messages and notifications are ordered by
microseconds: where the last row of a page was not created on a whole millisecond, the next page
of a conversation begins with it again, and the next page of the notifications leaves out what
was created before it in the same millisecond.
-/

namespace Sahay

/-! ## Cursors are read back -/

theorem splitCursor_append {a : String} (ha : '|' ∉ a.toList) (b : String) :
    splitCursor (a ++ "|" ++ b) = some (a, b) := by
  have hfree : ∀ c ∈ a.toList, decide (c ≠ '|') = true := by
    intro c hc
    apply decide_eq_true
    rintro rfl
    exact ha hc
  have htext : (a ++ "|" ++ b).toList = a.toList ++ '|' :: b.toList := by simp
  rw [splitCursor, htext, List.span_eq_takeWhile_dropWhile, List.takeWhile_append_of_pos hfree,
    List.dropWhile_append_of_pos hfree]
  simp

theorem instant_text_free (t : Time) : '|' ∉ (Format.instant.text t).toList := by
  rw [Format.text, String.toList_ofList]
  intro h
  have halphabet := Format.instant.print_alphabet t _ h
  revert halphabet
  decide

theorem instant_text_ne {t : Time} (h : IsDate t) : Format.instant.text t ≠ "" := by
  intro hempty
  have hparse : Format.instant.parse (Format.instant.text t) = some t := Format.instant.parse_text h
  rw [hempty] at hparse
  have hnone : Format.instant.parse "" = none := by decide
  rw [hnone] at hparse
  cases hparse

theorem uuid_text_ne (id : ℕ) : Format.uuid.text id ≠ "" := by
  intro h
  have hre := uuidRe_text id
  rw [h] at hre
  revert hre
  decide

theorem splitCursor_encodeCursor (t : Time) (id : ℕ) :
    splitCursor (encodeCursor t id) = some (Format.instant.text t, Format.uuid.text id) :=
  splitCursor_append (instant_text_free t) _

theorem encodeCursor_given {t : Time} {id limit : ℕ} :
    (Pagination.mk (some (encodeCursor t id)) limit).given = some (encodeCursor t id) := by
  have hne : encodeCursor t id ≠ "" := by
    intro h
    have hsplit := splitCursor_encodeCursor t id
    rw [h] at hsplit
    revert hsplit
    simp [splitCursor]
  rw [Pagination.given, Option.filter_some, decide_eq_true hne, if_pos rfl]

variable {env : ListingEnv} {t : Time} {id limit : ℕ}

theorem Chat.decodeCursor_encodeCursor (ht : IsDate t) :
    Chat.decodeCursor env (encodeCursor t id) = .ok (t, Format.uuid.text id) := by
  simp only [Chat.decodeCursor, splitCursor_encodeCursor, Option.filter_some,
    decide_eq_true (instant_text_ne ht), if_true, found_some, bind_ok_left,
    dateParse_text env.otherDates ht, ensure_pos (uuid_text_ne id)]
  rfl

theorem Chat.after_encodeCursor (ht : IsDate t) (hid : IsUuid id) :
    Chat.after env ⟨some (encodeCursor t id), limit⟩ = .ok (some (t, id)) := by
  rw [Chat.after, encodeCursor_given]
  simp only [Chat.decodeCursor_encodeCursor ht, found_some, bind_ok_left,
    uuidIn_text env.otherUuids hid]
  rfl

theorem Users.decodeCursor_encodeCursor (ht : IsDate t) :
    Users.decodeCursor env (encodeCursor t id) = some (t, Format.uuid.text id) := by
  simp [Users.decodeCursor, splitCursor_encodeCursor, dateParse_text env.otherDates ht,
    uuid_text_ne]

theorem Users.before_encodeCursor (ht : IsDate t) (hid : IsUuid id) :
    Users.before env ⟨some (encodeCursor t id), limit⟩ = .ok (some (t, id)) := by
  rw [Users.before, encodeCursor_given]
  simp only [Users.decodeCursor_encodeCursor ht, found_some, bind_ok_left,
    uuidIn_text env.otherUuids hid]
  rfl

theorem eventsAfter_encodeCursor {input : EventSearchInput} (hnear : input.near = none)
    (ht : IsDate t) (hid : IsUuid id) :
    eventsAfter env { input with cursor := some (encodeCursor t id) } = .ok (some (t, id)) := by
  have hgiven : ({ input with cursor := some (encodeCursor t id) } : EventSearchInput).given =
      some (encodeCursor t id) := encodeCursor_given
  simp only [eventsAfter, hnear, hgiven, splitCursor_encodeCursor, Option.filter_some,
    decide_eq_true (instant_text_ne ht), if_true, found_some, bind_ok_left,
    dateParse_text env.otherDates ht, ensure_pos (uuidRe_text id), uuidIn_text env.otherUuids hid]
  rfl

/-! ## Keys -/

/-- What `uuid` columns, and `timestamptz` columns behind a `Date`, can hold. -/
def Storable {ρ : Type} (t : Table ℕ ρ) (time : ρ → Time) : Prop :=
  ∀ id r, t.lookup id = some r → IsUuid id ∧ IsDate (time r)

theorem storable_of_all {ρ : Type} {t : Table ℕ ρ} {time : ρ → Time}
    (h : ((t.select fun _ _ => true).all fun e => IsUuid e.1 ∧ IsDate (time e.2)) = true) :
    Storable t time := by
  intro id r hr
  have hmem : (id, r) ∈ t.select fun _ _ => true := Table.mem_select.mpr ⟨hr, rfl⟩
  exact of_decide_eq_true (List.all_eq_true.mp h _ hmem)

def keyMillis (k : ℤ ×ₗ ℕ) : ℤ := (ofLex k).1 / 1000

def keyId (k : ℤ ×ₗ ℕ) : ℕ := (ofLex k).2

/-- The key of a row as a cursor carries it: the whole milliseconds, and the id. -/
def roundKey (k : ℤ ×ₗ ℕ) : ℤ ×ₗ ℕ := toLex (1000 * keyMillis k, keyId k)

def keyCursor (k : ℤ ×ₗ ℕ) : String := encodeCursor (keyMillis k) (keyId k)

theorem keyMillis_stored (micros : ℕ → Fin 1000) (id : ℕ) (t : ℤ) :
    keyMillis (toLex (stored micros id t, id)) = t := by
  have hmicros := (micros id).isLt
  rw [keyMillis, ofLex_toLex, stored]
  omega

theorem roundKey_le (k : ℤ ×ₗ ℕ) : roundKey k ≤ k := by
  have hfloor : 1000 * keyMillis k ≤ (ofLex k).1 := by
    unfold keyMillis
    omega
  rw [Prod.Lex.le_iff]
  rcases hfloor.lt_or_eq with h | h
  · exact .inl h
  · exact .inr ⟨h, le_refl _⟩

theorem roundKey_stored (micros : ℕ → Fin 1000) (id : ℕ) (t : ℤ) :
    roundKey (toLex (stored micros id t, id)) = toLex (stored micros id t, id) ↔
      micros id = 0 := by
  have hvalue : 1000 * t = stored micros id t ↔ (micros id).val = 0 := by
    unfold stored
    omega
  rw [roundKey, keyMillis_stored, keyId, ofLex_toLex, EmbeddingLike.apply_eq_iff_eq,
    Prod.mk.injEq, and_iff_left rfl, hvalue, Fin.ext_iff, Fin.val_zero]

theorem roundKey_lt_iff {k : ℤ ×ₗ ℕ} {s : ℤ} {id : ℕ} : roundKey k < toLex (s, id) ↔
    1000 * keyMillis k < s ∨ s = 1000 * keyMillis k ∧ keyId k < id := by
  rw [roundKey, Prod.Lex.toLex_lt_toLex, eq_comm]

theorem lt_roundKey_iff {k : ℤ ×ₗ ℕ} {s : ℤ} {id : ℕ} : toLex (s, id) < roundKey k ↔
    s < 1000 * keyMillis k ∨ s = 1000 * keyMillis k ∧ id < keyId k := by
  rw [roundKey, Prod.Lex.toLex_lt_toLex]

/-! ## Messages -/

def inConversation (conversationId : ConversationId) (_ : MessageId) (msg : Message) : Bool :=
  msg.conversationId = conversationId

theorem messageKey_id (micros : MessageId → Fin 1000) (e : MessageId × Message) :
    keyId (messageKey micros e) = e.1 := rfl

/-- The call for the page after a cursor; time may pass between two calls. -/
def messagePages (envs : ℕ → ListingEnv) (micros : MessageId → Fin 1000)
    (conversationId : ConversationId) (viewerUserId : UserId) (limit n : ℕ)
    (cursor : Option String) (db : Db) : Outcome (List MessageView × Option String × Db) := do
  let (page, db) ←
    db.listMessages (envs n) micros conversationId viewerUserId { cursor := cursor, limit := limit }
  return (page.items, page.nextCursor, db)

namespace Db

variable (db : Db)

/-- Times and ids of the messages of a conversation, in the order of the listing. -/
def messageOrder (micros : MessageId → Fin 1000) (conversationId : ConversationId) :
    List (ℤ ×ₗ ℕ) :=
  keysInOrder db.messages (inConversation conversationId) (messageKey micros)

/-- Following the cursors from the first page ends, and shows the messages of the conversation,
each once and in their order. -/
def PagesMessages (envs : ℕ → ListingEnv) (micros : MessageId → Fin 1000)
    (conversationId : ConversationId) (viewerUserId : UserId) (limit : ℕ) : Prop :=
  ∃ visited,
    Visits (messagePages envs micros conversationId viewerUserId limit) 0 none db visited ∧
      ListsInOrder db.messages (inConversation conversationId) (messageKey micros)
        (visited.map MessageView.id)

variable {db} {envs : ℕ → ListingEnv} {micros : MessageId → Fin 1000} {c : ConversationId}
  {v : UserId} {context : Conversation × Match} {limit : ℕ}

/-- A page shows its rows; marking them as delivered leaves the order of the conversation. -/
theorem listMessages_page {env : ListingEnv} (micros : MessageId → Fin 1000) {input : Pagination}
    {after : Option (ℤ ×ₗ ℕ)} (hview : db.contextForViewer c v = .ok context)
    (hafter : Chat.after env input = .ok (after.map fun k => (keyMillis k, keyId k))) :
    let rows := queryPage db.messages (inConversation c) (messageKey micros) roundKey input.limit
      after
    ∃ page db', db.listMessages env micros c v input = .ok (page, db') ∧
      page.items.map MessageView.id = rows.map Prod.fst ∧
      page.nextCursor = nextCursor input.limit (fun e => encodeCursor e.2.createdAt e.1) rows ∧
      db'.contextForViewer c v = .ok context ∧
      db'.messageOrder micros c = db.messageOrder micros c := by
  have hmatching : (fun (id : MessageId) (msg : Message) => decide (msg.conversationId = c) &&
      (after.map fun k => (keyMillis k, keyId k)).all fun d =>
        decide (1000 * d.1 < stored micros id msg.createdAt) ||
          (decide (stored micros id msg.createdAt = 1000 * d.1) && decide (d.2 < id))) =
      fun id msg => inConversation c id msg && after.all fun b =>
        decide (roundKey b < messageKey micros (id, msg)) := by
    funext id msg
    cases after <;> simp [inConversation, messageKey, roundKey_lt_iff]
  simp only [listMessages, hview, hafter, hmatching, bind_ok_left]
  refine ⟨_, _, rfl, ?_, rfl, hview, ?_⟩
  · rw [List.map_map]
    rfl
  · apply keysInOrder_mapVal
    · intro id msg
      split_ifs <;> rfl
    · intro id msg
      split_ifs <;> rfl

theorem messagePages_serves (context : Conversation × Match)
    (hstored : Storable db.messages Message.createdAt) :
    Serves (messagePages envs micros c v limit) (db.messageOrder micros c) limit
      (beyondKey roundKey) keyCursor MessageView.id keyId
      fun s => s.contextForViewer c v = .ok context ∧
        s.messageOrder micros c = db.messageOrder micros c := by
  refine serves_of_query (fun s : Db => s.messages)
    (fun e : MessageId × Message => encodeCursor e.2.createdAt e.1) (messageKey_id micros) ?_
    (fun _ hs => hs.2) ?_
  · intro e
    rw [keyCursor, messageKey, keyMillis_stored, keyId, ofLex_toLex]
  · intro n s after hafter hs
    have hdecoded : Chat.after (envs n) ⟨after.map keyCursor, limit⟩ =
        .ok (after.map fun k => (keyMillis k, keyId k)) := by
      cases after with
      | none => rfl
      | some k =>
          obtain ⟨id, msg, hmsg, -, rfl⟩ := mem_keysInOrder.mp (hafter k rfl)
          obtain ⟨hid, ht⟩ := hstored id msg hmsg
          refine Chat.after_encodeCursor ?_ hid
          exact (keyMillis_stored micros id msg.createdAt).symm ▸ ht
    obtain ⟨page, s', hcall, hitems, hnext, hview', horder'⟩ :=
      listMessages_page micros hs.1 hdecoded
    refine ⟨page.items, s', ?_, hitems, hview', horder'.trans hs.2⟩
    simp only [messagePages, hcall, bind_ok_left, hnext]
    rfl

theorem pagesMessages_iff_separates (hview : db.contextForViewer c v = .ok context)
    (hstored : Storable db.messages Message.createdAt) (hlimit : 0 < limit) :
    db.PagesMessages envs micros c v limit ↔
      Separates (beyondKey roundKey) limit (db.messageOrder micros c) :=
  (messagePages_serves context hstored).lists_iff (messageKey_id micros) hlimit ⟨hview, rfl⟩

/-- For a participant, following the cursors of a conversation ends and visits every message
once and in order, exactly if each message that ends a full page was created on a whole
millisecond. -/
theorem pagesMessages_iff (hview : db.contextForViewer c v = .ok context)
    (hstored : Storable db.messages Message.createdAt) (hlimit : 0 < limit) :
    db.PagesMessages envs micros c v limit ↔
      ∀ k rest, EndsPage limit (db.messageOrder micros c) k rest → micros (keyId k) = 0 := by
  have hsorted : (db.messageOrder micros c).Pairwise (· < ·) :=
    keysInOrder_sorted (messageKey_id micros)
  rw [pagesMessages_iff_separates hview hstored hlimit, separates_floor hsorted roundKey_le]
  refine forall₃_congr fun k rest hends => ?_
  obtain ⟨id, msg, -, -, rfl⟩ := mem_keysInOrder.mp hends.mem
  exact roundKey_stored micros id msg.createdAt

/-- Messages that were created on whole milliseconds. -/
theorem pagesMessages_iff_twoMessages :
    (runFrom step empty SmallEvent.twoMessages).PagesMessages (fun _ => SmallEvent.listing 6)
      (fun _ => 0) 40 1 1 := by
  have hview : ((runFrom step empty SmallEvent.twoMessages).contextForViewer 40 1).toOption.any
      (fun _ => true) = true := by decide +kernel
  obtain ⟨context, hcontext, -⟩ := exists_ok hview
  exact (pagesMessages_iff hcontext (storable_of_all (by decide +kernel)) (by decide)).mpr
    fun _ _ _ => rfl

/-- The last of three messages was created half a millisecond past a whole one: it ends the first
page of three, and the next page shows it again. -/
theorem pagesMessages_fails :
    ((runFrom step empty SmallEvent.twoMessages).contextForViewer 40 1).toOption.isSome = true ∧
      ¬(runFrom step empty SmallEvent.twoMessages).PagesMessages (fun _ => SmallEvent.listing 6)
        (fun id => if id = 51 then 500 else 0) 40 1 3 := by
  have hview : ((runFrom step empty SmallEvent.twoMessages).contextForViewer 40 1).toOption.any
      (fun _ => true) = true := by decide +kernel
  have horder : (runFrom step empty SmallEvent.twoMessages).messageOrder
      (fun id => if id = 51 then 500 else 0) 40 =
        [toLex (4000, 40), toLex (5000, 50), toLex (5500, 51)] := by
    decide +kernel
  obtain ⟨context, hcontext, -⟩ := exists_ok hview
  refine ⟨by rw [hcontext]; rfl, ?_⟩
  rw [pagesMessages_iff_separates hcontext (storable_of_all (by decide +kernel)) (by decide),
    horder]
  intro hsep
  have hlast := (hsep (toLex (5500, 51)) []
    ⟨[toLex (4000, 40), toLex (5000, 50)], rfl, by decide⟩).1
  revert hlast
  decide +kernel

end Db

/-! ## Notifications -/

def ofUser (userId : UserId) (_ : ℕ) (n : Notification) : Bool := n.userId = userId

def roundBack (k : (ℤ ×ₗ ℕ)ᵒᵈ) : (ℤ ×ₗ ℕ)ᵒᵈ := OrderDual.toDual (roundKey (OrderDual.ofDual k))

theorem notificationKey_id (micros : ℕ → Fin 1000) (e : ℕ × Notification) :
    keyId (OrderDual.ofDual (notificationKey micros e)) = e.1 := rfl

/-- The call for the page after a cursor. -/
def Db.notificationPages (db : Db) (envs : ℕ → ListingEnv) (micros : ℕ → Fin 1000)
    (userId : UserId) (limit n : ℕ) (cursor : Option String) (_ : Unit) :
    Outcome (List NotificationView × Option String × Unit) := do
  let page ←
    db.listNotifications (envs n) micros userId { cursor := cursor, limit := limit }
  return (page.items, page.nextCursor, ())

namespace Db

variable (db : Db)

/-- Times and ids of the notifications of a user, in the order of the feed. -/
def notificationOrder (micros : ℕ → Fin 1000) (userId : UserId) : List (ℤ ×ₗ ℕ)ᵒᵈ :=
  keysInOrder db.notifications (ofUser userId) (notificationKey micros)

/-- Following the cursors from the first page ends, and shows the notifications of the user,
each once and the newest first. -/
def PagesNotifications (envs : ℕ → ListingEnv) (micros : ℕ → Fin 1000) (userId : UserId)
    (limit : ℕ) : Prop :=
  ∃ visited,
    Visits (db.notificationPages envs micros userId limit) 0 none () visited ∧
      ListsInOrder db.notifications (ofUser userId) (notificationKey micros)
        (visited.map NotificationView.id)

variable {db} {envs : ℕ → ListingEnv} {micros : ℕ → Fin 1000} {userId : UserId} {limit : ℕ}

theorem listNotifications_page {env : ListingEnv} (micros : ℕ → Fin 1000) {input : Pagination}
    {before : Option (ℤ ×ₗ ℕ)ᵒᵈ}
    (hbefore : Users.before env input = .ok (before.map fun k =>
      (keyMillis (OrderDual.ofDual k), keyId (OrderDual.ofDual k)))) :
    let rows := queryPage db.notifications (ofUser userId) (notificationKey micros) roundBack
      input.limit before
    ∃ page, db.listNotifications env micros userId input = .ok page ∧
      page.items.map NotificationView.id = rows.map Prod.fst ∧
      page.nextCursor = nextCursor input.limit (fun e => encodeCursor e.2.createdAt e.1) rows := by
  have hmatching : (fun (id : ℕ) (n : Notification) => decide (n.userId = userId) &&
      (before.map fun k => (keyMillis (OrderDual.ofDual k), keyId (OrderDual.ofDual k))).all
        fun d => decide (stored micros id n.createdAt < 1000 * d.1) ||
          (decide (stored micros id n.createdAt = 1000 * d.1) && decide (id < d.2))) =
      fun id n => ofUser userId id n && before.all fun b =>
        decide (roundBack b < notificationKey micros (id, n)) := by
    funext id n
    cases before <;> simp [ofUser, notificationKey, roundBack, lt_roundKey_iff]
  simp only [listNotifications, hbefore, hmatching, bind_ok_left]
  refine ⟨_, rfl, ?_, rfl⟩
  rw [List.map_map]
  rfl

theorem notificationPages_serves (hstored : Storable db.notifications Notification.createdAt) :
    Serves (db.notificationPages envs micros userId limit) (db.notificationOrder micros userId)
      limit (beyondKey roundBack) (fun k => keyCursor (OrderDual.ofDual k)) NotificationView.id
      (fun k => keyId (OrderDual.ofDual k)) fun _ => True := by
  refine serves_of_query (fun _ : Unit => db.notifications)
    (fun e : ℕ × Notification => encodeCursor e.2.createdAt e.1) (notificationKey_id micros) ?_
    (fun _ _ => rfl) ?_
  · intro e
    rw [keyCursor, notificationKey, OrderDual.ofDual_toDual, keyMillis_stored, keyId, ofLex_toLex]
  · intro n s before hbefore _
    have hdecoded : Users.before (envs n)
        ⟨before.map fun k => keyCursor (OrderDual.ofDual k), limit⟩ = .ok (before.map fun k =>
          (keyMillis (OrderDual.ofDual k), keyId (OrderDual.ofDual k))) := by
      cases before with
      | none => rfl
      | some k =>
          obtain ⟨id, row, hrow, -, rfl⟩ := mem_keysInOrder.mp (hbefore k rfl)
          obtain ⟨hid, ht⟩ := hstored id row hrow
          refine Users.before_encodeCursor ?_ hid
          exact (keyMillis_stored micros id row.createdAt).symm ▸ ht
    obtain ⟨page, hcall, hitems, hnext⟩ := listNotifications_page micros hdecoded
    refine ⟨page.items, (), ?_, hitems, trivial⟩
    simp only [notificationPages, hcall, bind_ok_left, hnext]
    rfl

theorem pagesNotifications_iff_separates
    (hstored : Storable db.notifications Notification.createdAt) (hlimit : 0 < limit) :
    db.PagesNotifications envs micros userId limit ↔
      Separates (beyondKey roundBack) limit (db.notificationOrder micros userId) :=
  (notificationPages_serves hstored).lists_iff (notificationKey_id micros) hlimit trivial

/-- Following the cursors of the feed ends and lists every notification of the user once, the
newest first, exactly if the notification after each full page lies below the cursor: it is
older than the whole milliseconds of the last one on the page, or as old and of a smaller id. -/
theorem pagesNotifications_iff (hstored : Storable db.notifications Notification.createdAt)
    (hlimit : 0 < limit) :
    db.PagesNotifications envs micros userId limit ↔
      ∀ k rest, EndsPage limit (db.notificationOrder micros userId) k rest →
        ∀ r ∈ rest.head?, OrderDual.ofDual r < roundKey (OrderDual.ofDual k) := by
  rw [pagesNotifications_iff_separates hstored hlimit]
  exact separates_ceil fun k => roundKey_le (OrderDual.ofDual k)

/-- Of two notifications of different milliseconds each makes a page. -/
theorem pagesNotifications_iff_two :
    SmallEvent.notificationsApart.PagesNotifications (fun _ => SmallEvent.listing 6)
      (fun _ => 500) 1 1 := by
  refine (pagesNotifications_iff (storable_of_all (by decide +kernel)) (by decide)).mpr ?_
  have horder : SmallEvent.notificationsApart.notificationOrder (fun _ => 500) 1 =
      [OrderDual.toDual (toLex (5500, 2)), OrderDual.toDual (toLex (500, 1))] := by
    decide +kernel
  rw [horder]
  rintro k rest ⟨front, hfront, -⟩ r hr
  cases front with
  | nil =>
      obtain ⟨rfl, rfl⟩ := List.cons.inj hfront
      obtain rfl := Option.some.inj hr
      decide +kernel
  | cons newest front =>
      cases front with
      | nil =>
          obtain ⟨rfl, rfl⟩ := List.cons.inj (List.cons.inj hfront).2
          cases hr
      | cons _ front => simp at hfront

/-- Both notifications were created half a millisecond past a whole one, in one transaction: the
page behind the first of them is empty. -/
theorem pagesNotifications_fails :
    ¬SmallEvent.twoNotifications.PagesNotifications (fun _ => SmallEvent.listing 6)
      (fun _ => 500) 1 1 := by
  have horder : SmallEvent.twoNotifications.notificationOrder (fun _ => 500) 1 =
      [OrderDual.toDual (toLex (500, 2)), OrderDual.toDual (toLex (500, 1))] := by
    decide +kernel
  rw [pagesNotifications_iff_separates (storable_of_all (by decide +kernel)) (by decide), horder]
  intro hsep
  have hnext := (hsep _ [OrderDual.toDual (toLex (500, 1))] ⟨[], rfl, by decide⟩).2 _ rfl
  revert hnext
  decide +kernel

end Db

/-! ## Events -/

theorem eventKey_id (e : EventId × Event) : keyId (eventKey e) = e.1 := rfl

def matchesSearch (env : ListingEnv) (input : EventSearchInput) (_ : EventId) (event : Event) :
    Bool :=
  eventMatches env input none event

def Db.searchPages (db : Db) (env : ListingEnv) (input : EventSearchInput)
    (userId : Option UserId) (_ : ℕ) (cursor : Option String) (_ : Unit) :
    Outcome (List EventSummary × Option String × Unit) := do
  let page ← db.searchEvents env { input with cursor := cursor } userId
  return (page.items, page.nextCursor, ())

namespace Db

variable {db : Db} {env : ListingEnv} {input : EventSearchInput} {userId : Option UserId}

theorem searchEvents_page (userId : Option UserId) (input : EventSearchInput)
    (hnear : input.near = none) {after : Option (ℤ ×ₗ ℕ)}
    (hafter : eventsAfter env input = .ok (after.map fun k => ((ofLex k).1, keyId k))) :
    let rows := queryPage db.events (matchesSearch env input) eventKey (fun k => k) input.limit
      after
    ∃ page, db.searchEvents env input userId = .ok page ∧
      page.items.map EventSummary.id = rows.map Prod.fst ∧
      page.nextCursor = nextCursor input.limit (fun e => encodeCursor e.2.startsAt e.1) rows := by
  have hmatching : (fun (id : EventId) (event : Event) => eventMatches env input none event &&
      (after.map fun k => ((ofLex k).1, keyId k)).all fun d =>
        decide (d.1 < event.startsAt) || (decide (event.startsAt = d.1) && decide (d.2 < id))) =
      fun id event => matchesSearch env input id event && after.all fun b =>
        decide (b < eventKey (id, event)) := by
    funext id event
    cases after <;> simp [matchesSearch, eventKey, Prod.Lex.lt_iff, keyId, eq_comm]
  simp only [searchEvents, hnear, hafter, Option.map_none, hmatching, bind_ok_left]
  refine ⟨_, rfl, ?_, rfl⟩
  rw [List.map_map]
  rfl

theorem searchPages_serves (hnear : input.near = none)
    (hstored : Storable db.events Event.startsAt) :
    Serves (db.searchPages env input userId)
      (keysInOrder db.events (matchesSearch env input) eventKey) input.limit
      (beyondKey fun k => k) (fun k => encodeCursor (ofLex k).1 (keyId k)) EventSummary.id keyId
      fun _ => True := by
  refine serves_of_query (fun _ : Unit => db.events)
    (fun e : EventId × Event => encodeCursor e.2.startsAt e.1) eventKey_id (fun _ => rfl)
    (fun _ _ => rfl) ?_
  intro n s after hafter _
  have hdecoded : eventsAfter env
      { input with cursor := after.map fun k => encodeCursor (ofLex k).1 (keyId k) } =
        .ok (after.map fun k => ((ofLex k).1, keyId k)) := by
    cases after with
    | none =>
        simp [eventsAfter, hnear, Pagination.given]
        rfl
    | some k =>
        obtain ⟨id, event, hevent, -, rfl⟩ := mem_keysInOrder.mp (hafter k rfl)
        obtain ⟨hid, ht⟩ := hstored id event hevent
        exact eventsAfter_encodeCursor hnear ht hid
  obtain ⟨page, hcall, hitems, hnext⟩ := searchEvents_page userId
    { input with cursor := after.map fun k => encodeCursor (ofLex k).1 (keyId k) } hnear hdecoded
  refine ⟨page.items, (), ?_, hitems, trivial⟩
  simp only [searchPages, hcall, bind_ok_left, hnext]
  rfl

/-- Following the cursors of a search without a location ends and lists every event that the
filters select, once and in the order of start times and ids. -/
theorem searchEvents_paged (hnear : input.near = none)
    (hstored : Storable db.events Event.startsAt) (hlimit : 0 < input.limit) :
    ∃ visited, Visits (db.searchPages env input userId) 0 none () visited ∧
      ListsInOrder db.events (matchesSearch env input) eventKey (visited.map EventSummary.id) :=
  ((searchPages_serves hnear hstored).lists_iff eventKey_id hlimit trivial).mpr
    (separates_exact (keysInOrder_sorted eventKey_id))

/-- Two events with the same start, one to a page. -/
theorem searchEvents_paged_two :
    ∃ visited, Visits (SmallEvent.twoEvents.searchPages (SmallEvent.listing 6)
        { limit := 1 } (some 1)) 0 none () visited ∧
      ListsInOrder SmallEvent.twoEvents.events
        (matchesSearch (SmallEvent.listing 6) { limit := 1 }) eventKey
        (visited.map EventSummary.id) :=
  searchEvents_paged rfl (storable_of_all (by decide +kernel)) (by decide)

end Db
end Sahay
