import Sahay.Lib.RelyGuarantee
import Sahay.Server.Threads

/-!
# Receipts tell the truth

A message is marked as delivered or read once, by a call of the other participant of its
conversation, at the time of that call; and what a page shows as delivered is.  Calls, the system
and the retention may come in between any two statements.
-/

namespace Sahay
namespace Thread

abbrev Calls := ConversationId → UserId → Time → Prop

variable {fetches reads : Calls}

/-! ## What may happen to a message -/

/-- The participant who is not the sender has made such a call at the time. -/
def ByPeer (calls : Calls) (db : Db) (msg : Message) (now : Time) : Prop :=
  ∃ viewerUserId p, calls msg.conversationId viewerUserId now ∧ viewerUserId ≠ msg.senderId ∧
    parties db msg.conversationId = some p ∧ (viewerUserId = p.1 ∨ viewerUserId = p.2)

def content (msg : Message) : Message := { msg with deliveredAt := none, readAt := none }

/-- The same message, with receipts that have been missing before. -/
structure Receipted (fetches reads : Calls) (db : Db) (msg msg' : Message) : Prop where
  same : content msg' = content msg
  delivered : msg'.deliveredAt = msg.deliveredAt ∨
    msg.deliveredAt = none ∧ ∃ now, msg'.deliveredAt = some now ∧ ByPeer fetches db msg now
  read : msg'.readAt = msg.readAt ∨
    msg.readAt = none ∧ ∃ now, msg'.readAt = some now ∧ ByPeer reads db msg now

theorem conversationId_of_content {msg msg' : Message} (h : content msg' = content msg) :
    msg'.conversationId = msg.conversationId := by
  show (content msg').conversationId = (content msg).conversationId
  rw [h]

theorem senderId_of_content {msg msg' : Message} (h : content msg' = content msg) :
    msg'.senderId = msg.senderId := by
  show (content msg').senderId = (content msg).senderId
  rw [h]

theorem ByPeer.mono {calls : Calls} {db db' : Db} {msg msg' : Message} {now : Time}
    (h : ByPeer calls db msg now) (hsame : content msg = content msg')
    (hparties : ∀ cid p, parties db cid = some p → parties db' cid = some p) :
    ByPeer calls db' msg' now := by
  obtain ⟨viewerUserId, p, hcall, hother, hp, hviewer⟩ := h
  rw [conversationId_of_content hsame] at hcall hp
  rw [senderId_of_content hsame] at hother
  exact ⟨viewerUserId, p, hcall, hother, hparties _ _ hp, hviewer⟩

section Marks

variable {x y z : Option Time} {P P' : Time → Prop}

theorem marked_trans (h : y = x ∨ x = none ∧ ∃ now, y = some now ∧ P now)
    (h' : z = y ∨ y = none ∧ ∃ now, z = some now ∧ P' now) (hP : ∀ now, P' now → P now) :
    z = x ∨ x = none ∧ ∃ now, z = some now ∧ P now := by
  rcases h' with rfl | ⟨hnone, now, hnow, hby⟩
  · exact h
  · rcases h with rfl | ⟨-, now', hnow', -⟩
    · exact .inr ⟨hnone, now, hnow, hP now hby⟩
    · rw [hnow'] at hnone
      cases hnone

theorem marked_kept (h : y = x ∨ x = none ∧ ∃ now, y = some now ∧ P now) (hsome : x.isSome) :
    y = x := by
  rcases h with hsame | ⟨hnone, -⟩
  · exact hsame
  · rw [hnone] at hsome
    cases hsome

end Marks

namespace Receipted

variable {db db' : Db} {msg msg' msg'' : Message}

theorem refl (msg : Message) : Receipted fetches reads db msg msg := ⟨rfl, .inl rfl, .inl rfl⟩

theorem mono (h : Receipted fetches reads db msg msg')
    (hparties : ∀ cid p, parties db cid = some p → parties db' cid = some p) :
    Receipted fetches reads db' msg msg' where
  same := h.same
  delivered := h.delivered.imp_right fun ⟨hnone, now, hnow, hby⟩ =>
    ⟨hnone, now, hnow, hby.mono rfl hparties⟩
  read := h.read.imp_right fun ⟨hnone, now, hnow, hby⟩ =>
    ⟨hnone, now, hnow, hby.mono rfl hparties⟩

theorem trans (h : Receipted fetches reads db msg msg')
    (h' : Receipted fetches reads db msg' msg'') : Receipted fetches reads db msg msg'' where
  same := h'.same.trans h.same
  delivered := marked_trans h.delivered h'.delivered fun _ hby => hby.mono h.same fun _ _ hp => hp
  read := marked_trans h.read h'.read fun _ hby => hby.mono h.same fun _ _ hp => hp

theorem delivered_kept (h : Receipted fetches reads db msg msg') (hsome : msg.deliveredAt.isSome) :
    msg'.deliveredAt = msg.deliveredAt := marked_kept h.delivered hsome

theorem read_kept (h : Receipted fetches reads db msg msg') (hsome : msg.readAt.isSome) :
    msg'.readAt = msg.readAt := marked_kept h.read hsome

end Receipted

/-! ## What a statement does -/

/-- Ids are given to new messages, which have no receipts; the others are as they were, but for
receipts. -/
structure Moves (fetches reads : Calls) (s t : ThreadState) : Prop where
  given : ∀ id ∈ s.given, id ∈ t.given
  parties : ∀ cid p, parties s.db cid = some p → parties t.db cid = some p
  messages : ∀ id msg', t.db.messages.lookup id = some msg' → ∃ msg,
    Receipted fetches reads t.db msg msg' ∧ (s.db.messages.lookup id = some msg ∨
      id ∉ s.given ∧ msg.deliveredAt = none ∧ msg.readAt = none)

/-- Every message has an id that has been given, and no message is read that is not delivered. -/
structure Kept (st : ThreadState) : Prop where
  given : ∀ id msg, st.db.messages.lookup id = some msg → id ∈ st.given
  delivered : ∀ id msg, st.db.messages.lookup id = some msg → msg.readAt.isSome →
    msg.deliveredAt.isSome

namespace Moves

variable {s t u : ThreadState}

theorem refl (s : ThreadState) : Moves fetches reads s s :=
  ⟨fun _ hid => hid, fun _ _ hp => hp, fun _ msg hmsg => ⟨msg, .refl msg, .inl hmsg⟩⟩

theorem trans (h : Moves fetches reads s t) (h' : Moves fetches reads t u) :
    Moves fetches reads s u where
  given id hid := h'.given id (h.given id hid)
  parties cid p hp := h'.parties cid p (h.parties cid p hp)
  messages id msg'' hmsg'' := by
    obtain ⟨msg', hreceipted', hmsg' | ⟨hnew, hnone⟩⟩ := h'.messages id msg'' hmsg''
    · obtain ⟨msg, hreceipted, horigin⟩ := h.messages id msg' hmsg'
      exact ⟨msg, (hreceipted.mono h'.parties).trans hreceipted', horigin⟩
    · exact ⟨msg', hreceipted', .inr ⟨fun hid => hnew (h.given id hid), hnone⟩⟩

theorem receipted (h : Moves fetches reads s t) (hs : Kept s) {id : MessageId}
    {msg msg' : Message} (hmsg : s.db.messages.lookup id = some msg)
    (hmsg' : t.db.messages.lookup id = some msg') : Receipted fetches reads t.db msg msg' := by
  obtain ⟨old, hreceipted, hold | ⟨hnew, -⟩⟩ := h.messages id msg' hmsg'
  · rw [hmsg] at hold
    cases hold
    exact hreceipted
  · exact absurd (hs.given id msg hmsg) hnew

end Moves

/-- Rows are marked. -/
theorem marks {s : ThreadState} (hs : Kept s) {p : MessageId → Message → Bool}
    {f : Message → Message}
    (hf : ∀ id msg, s.db.messages.lookup id = some msg → p id msg = true →
      Receipted fetches reads s.db msg (f msg) ∧ ((f msg).readAt.isSome →
        (f msg).deliveredAt.isSome)) :
    Kept (setMessages s (s.db.messages.updateWhere p f)) ∧
      Moves fetches reads s (setMessages s (s.db.messages.updateWhere p f)) := by
  have hrow {id : MessageId} {msg' : Message}
      (hmsg' : (s.db.messages.updateWhere p f).lookup id = some msg') :
      ∃ msg, s.db.messages.lookup id = some msg ∧ msg' = if p id msg then f msg else msg := by
    rw [Table.lookup_updateWhere, Option.map_eq_some_iff] at hmsg'
    obtain ⟨msg, hmsg, hmsg'⟩ := hmsg'
    exact ⟨msg, hmsg, hmsg'.symm⟩
  refine ⟨⟨fun id msg' hmsg' => ?_, fun id msg' hmsg' hread => ?_⟩, fun _ hid => hid,
    fun _ _ hp => hp, fun id msg' hmsg' => ?_⟩
  · obtain ⟨msg, hmsg, -⟩ := hrow hmsg'
    exact hs.given id msg hmsg
  · obtain ⟨msg, hmsg, rfl⟩ := hrow hmsg'
    split_ifs at hread ⊢ with hpicked
    · exact (hf id msg hmsg hpicked).2 hread
    · exact hs.delivered id msg hmsg hread
  · obtain ⟨msg, hmsg, rfl⟩ := hrow hmsg'
    refine ⟨msg, ?_, .inl hmsg⟩
    split_ifs with hpicked
    · exact (hf id msg hmsg hpicked).1.mono fun _ _ hp => hp
    · exact .refl msg

theorem posts {s : ThreadState} (hs : Kept s) {message : Message} (proposed : MessageId)
    (hdelivered : message.deliveredAt = none) (hread : message.readAt = none) :
    Kept (post message proposed s) ∧ Moves fetches reads s (post message proposed s) := by
  have hnew : s.given.freshKey proposed ∉ s.given := Table.freshKey_notMem _ _
  have hgiven {id : MessageId} (hid : id ∈ s.given) : id ∈ (post message proposed s).given := by
    rw [post, Table.mem_iff_exists]
    dsimp only
    rw [Table.lookup_put]
    split_ifs
    · exact ⟨(), rfl⟩
    · exact Table.mem_iff_exists.mp hid
  have hrow {id : MessageId} {msg : Message}
      (hmsg : (post message proposed s).db.messages.lookup id = some msg) :
      (id = s.given.freshKey proposed ∧ msg = message) ∨ s.db.messages.lookup id = some msg := by
    change (s.db.messages.put _ message).lookup id = some msg at hmsg
    rw [Table.lookup_put] at hmsg
    split_ifs at hmsg with hid
    · exact .inl ⟨hid, (Option.some.inj hmsg).symm⟩
    · exact .inr hmsg
  refine ⟨⟨fun id msg hmsg => ?_, fun id msg hmsg hsome => ?_⟩, fun _ hid => hgiven hid,
    fun _ _ hp => hp, fun id msg hmsg => ?_⟩
  · rcases hrow hmsg with ⟨rfl, -⟩ | hold
    · rw [post, Table.mem_iff_exists]
      dsimp only
      rw [Table.lookup_put, if_pos rfl]
      exact ⟨(), rfl⟩
    · exact hgiven (hs.given id msg hold)
  · rcases hrow hmsg with ⟨-, rfl⟩ | hold
    · rw [hread] at hsome
      cases hsome
    · exact hs.delivered id msg hold hsome
  · refine ⟨msg, .refl msg, ?_⟩
    rcases hrow hmsg with ⟨rfl, rfl⟩ | hold
    · exact .inr ⟨hnew, hdelivered, hread⟩
    · exact .inl hold

theorem alone_moves {s : ThreadState} (hs : Kept s) (act : ThreadAct) :
    Kept (alone s act) ∧ Moves fetches reads s (alone s act) := by
  cases act with
  | system conversationId senderId bodyKey now uuid => exact posts hs uuid rfl rfl
  | purge p =>
      have hrow {id : MessageId} {msg : Message}
          (hmsg : (s.db.messages.deleteWhere p).lookup id = some msg) :
          s.db.messages.lookup id = some msg := by
        rw [Table.lookup_deleteWhere, Option.filter_eq_some_iff] at hmsg
        exact hmsg.1
      exact ⟨⟨fun id msg hmsg => hs.given id msg (hrow hmsg),
        fun id msg hmsg => hs.delivered id msg (hrow hmsg)⟩, fun _ hid => hid, fun _ _ hp => hp,
        fun id msg hmsg => ⟨msg, .refl msg, .inl (hrow hmsg)⟩⟩
  | elsewhere f =>
      exact ⟨⟨hs.given, hs.delivered⟩, fun _ hid => hid, f.parties_run s.db,
        fun id msg hmsg => ⟨msg, .refl msg, .inl hmsg⟩⟩

/-! ## The calls -/

section Calls

variable {env : ListingEnv} {micros : MessageId → Fin 1000} {conversationId : ConversationId}
  {viewerUserId : UserId}

def TakesPart (conversationId : ConversationId) (viewerUserId : UserId) (st : ThreadState) :
    Prop :=
  ∃ p, parties st.db conversationId = some p ∧ (viewerUserId = p.1 ∨ viewerUserId = p.2)

theorem TakesPart.moves {s t : ThreadState} (h : TakesPart conversationId viewerUserId s)
    (hmoves : Moves fetches reads s t) : TakesPart conversationId viewerUserId t := by
  obtain ⟨p, hp, hviewer⟩ := h
  exact ⟨p, hmoves.parties _ _ hp, hviewer⟩

theorem context_sound (s₀ : ThreadState) :
    (context conversationId viewerUserId).Sound Kept (Moves fetches reads)
      (fun _ => TakesPart conversationId viewerUserId) s₀ := by
  refine .transaction Moves.refl fun s found t _ hs hfound => ?_
  cases hcontext : s.db.contextForViewer conversationId viewerUserId with
  | error e =>
      rw [hcontext] at hfound
      cases hfound
  | ok r =>
      rw [hcontext] at hfound
      cases hfound
      refine ⟨hs, .refl s, ?_⟩
      simp only [Db.contextForViewer, bind_ok, found_ok, ensure_ok, pure_ok] at hcontext
      obtain ⟨conversation, hconversation, m, hm, _, hviewer, -⟩ := hcontext
      refine ⟨(m.requesterId, m.helperId), ?_, hviewer.imp Eq.symm Eq.symm⟩
      rw [parties, hconversation, Option.bind_eq_bind, Option.bind_some, hm]
      rfl

theorem byPeer {calls : Calls} {s : ThreadState} {msg : Message} {now : Time}
    (hcall : calls conversationId viewerUserId now)
    (hviewer : TakesPart conversationId viewerUserId s)
    (hconversation : msg.conversationId = conversationId) (hsender : msg.senderId ≠ viewerUserId) :
    ByPeer calls s.db msg now := by
  obtain ⟨p, hp, hviewer⟩ := hviewer
  subst hconversation
  exact ⟨viewerUserId, p, hcall, hsender.symm, hp, hviewer⟩

theorem markRead_sound (hfetch : fetches conversationId viewerUserId env.now)
    (hread : reads conversationId viewerUserId env.now) (s₀ : ThreadState) :
    (markRead env conversationId viewerUserId).Sound Kept (Moves fetches reads)
      (fun _ _ => True) s₀ := by
  refine .bind (context_sound s₀) fun _ s₁ hviewer => .write fun s hmoves hs => ?_
  have hmarks : Kept (setRead conversationId viewerUserId env.now s) ∧
      Moves fetches reads s (setRead conversationId viewerUserId env.now s) := by
    refine marks hs fun id msg hmsg hunread => ?_
    simp only [Bool.and_eq_true, decide_eq_true_eq, Option.isNone_iff_eq_none] at hunread
    obtain ⟨⟨hconversation, hsender⟩, hnone⟩ := hunread
    have hviewer : TakesPart conversationId viewerUserId s := hviewer.moves hmoves
    refine ⟨⟨rfl, ?_, .inr ⟨hnone, env.now, rfl, byPeer hread hviewer hconversation hsender⟩⟩,
      fun _ => rfl⟩
    cases hdelivered : msg.deliveredAt with
    | some t =>
        refine .inl ?_
        show some (msg.deliveredAt.getD env.now) = some t
        rw [hdelivered, Option.getD_some]
    | none =>
        refine .inr ⟨rfl, env.now, ?_, byPeer hfetch hviewer hconversation hsender⟩
        show some (msg.deliveredAt.getD env.now) = some env.now
        rw [hdelivered, Option.getD_none]
  exact ⟨hmarks.1, hmarks.2, trivial⟩

theorem sendMessage_sound (call : SendCall) (s₀ : ThreadState) :
    (sendMessage env call).Sound Kept (Moves fetches reads) (fun _ _ => True) s₀ := by
  refine .bind (context_sound s₀) fun found s₁ _ => ?_
  obtain ⟨conversation, m⟩ := found
  refine .bind (Q := fun _ _ => True) (.read Moves.refl fun _ _ _ => trivial) fun replay s₂ _ => ?_
  split_ifs
  · exact .pure trivial
  · cases call.check env.toEnv conversation with
    | error e => exact .throw e
    | ok _ =>
        refine .bind (Q := fun _ _ => True) (.update fun s _ hs => ?_) fun inserted s₃ _ => ?_
        · rw [insert]
          split_ifs
          · exact ⟨hs, .refl s, trivial⟩
          · have hposts : Kept (post (call.message env.toEnv) env.uuid.message s) ∧
                Moves fetches reads s (post (call.message env.toEnv) env.uuid.message s) :=
              posts hs env.uuid.message rfl rfl
            exact ⟨hposts.1, hposts.2, trivial⟩
        · split_ifs
          · exact .pure trivial
          · refine .bind (Q := fun _ _ => True) (.read Moves.refl fun _ _ _ => trivial)
              fun existing s₄ _ => ?_
            split_ifs
            · exact .pure trivial
            · exact .throw _

def Shown (items : List MessageView) (st : ThreadState) : Prop :=
  ∀ item ∈ items, item.mine = false → item.deliveredAt.isSome ∧ item.id ∈ st.given ∧
    ∀ msg, st.db.messages.lookup item.id = some msg → msg.deliveredAt.isSome

theorem Shown.moves {items : List MessageView} {s t : ThreadState} (h : Shown items s)
    (hmoves : Moves fetches reads s t) : Shown items t := by
  intro item hitem hpeer
  obtain ⟨hshown, hgiven, hstored⟩ := h item hitem hpeer
  refine ⟨hshown, hmoves.given _ hgiven, fun msg' hmsg' => ?_⟩
  obtain ⟨msg, hreceipted, hmsg | ⟨hnew, -⟩⟩ := hmoves.messages _ _ hmsg'
  · rw [hreceipted.delivered_kept (hstored msg hmsg)]
    exact hstored msg hmsg
  · exact absurd hgiven hnew

/-- The rows of a page, as they were read. -/
structure Fetched (conversationId : ConversationId) (viewerUserId : UserId)
    (rows : List (MessageId × Message)) (st : ThreadState) : Prop where
  kept : Kept st
  viewer : TakesPart conversationId viewerUserId st
  rows : ∀ e ∈ rows, st.db.messages.lookup e.1 = some e.2 ∧ e.2.conversationId = conversationId

theorem mem_page {decoded : Option (Time × MessageId)} {limit : ℕ} {db : Db}
    {e : MessageId × Message} (he : e ∈ page micros conversationId decoded limit db) :
    db.messages.lookup e.1 = some e.2 ∧ e.2.conversationId = conversationId := by
  have hselected := (List.perm_insertionSort _ _).mem_iff.mp (List.mem_of_mem_take he)
  obtain ⟨hlookup, hmatching⟩ := Table.mem_select.mp hselected
  exact ⟨hlookup, of_decide_eq_true (Bool.and_eq_true_iff.mp hmatching).1⟩

theorem mem_undelivered {rows : List (MessageId × Message)} {id : MessageId} :
    id ∈ undelivered viewerUserId rows ↔
      ∃ msg, (id, msg) ∈ rows ∧ msg.senderId ≠ viewerUserId ∧ msg.deliveredAt = none := by
  simp [undelivered]

/-- What is shown of the rows is right once those that were not delivered are. -/
theorem shown_view {m : Match} {limit : ℕ} {rows : List (MessageId × Message)} {s t : ThreadState}
    (h : Fetched conversationId viewerUserId rows s) (hmoves : Moves fetches reads s t)
    (hmarked : ∀ id ∈ undelivered viewerUserId rows, ∀ msg,
      t.db.messages.lookup id = some msg → msg.deliveredAt.isSome) :
    Shown (view env m viewerUserId limit rows).items t := by
  intro item hitem hpeer
  obtain ⟨e, he, rfl⟩ := List.mem_map.mp hitem
  obtain ⟨hrow, -⟩ := h.rows e he
  beta_reduce at hpeer ⊢
  have hgiven : e.1 ∈ t.given := hmoves.given _ (h.kept.given _ _ hrow)
  by_cases hmissing : e.1 ∈ undelivered viewerUserId rows
  · refine ⟨?_, hgiven, hmarked e.1 hmissing⟩
    rw [if_pos hmissing]
    rfl
  · rw [if_neg hmissing] at hpeer ⊢
    have hsender : e.2.senderId ≠ viewerUserId := of_decide_eq_false hpeer
    have hdelivered : e.2.deliveredAt.isSome := by
      rw [Option.isSome_iff_ne_none]
      exact fun hnone => hmissing (mem_undelivered.mpr ⟨e.2, he, hsender, hnone⟩)
    refine ⟨hdelivered, hgiven, fun msg hmsg => ?_⟩
    rw [(hmoves.receipted h.kept hrow hmsg).delivered_kept hdelivered]
    exact hdelivered

theorem listMessages_sound {input : Pagination}
    (hfetch : fetches conversationId viewerUserId env.now) (s₀ : ThreadState) :
    (listMessages env micros conversationId viewerUserId input).Sound Kept (Moves fetches reads)
      (fun page => Shown page.items) s₀ := by
  refine .bind (context_sound s₀) fun found s₁ hviewer => ?_
  obtain ⟨conversation, m⟩ := found
  dsimp only
  cases Chat.after env input with
  | error e => exact .throw e
  | ok decoded =>
      refine .bind (Q := Fetched conversationId viewerUserId)
        (.read Moves.refl fun s hmoves hs => ⟨hs, hviewer.moves hmoves, fun _ he => mem_page he⟩)
        fun rows s₂ hrows => ?_
      split_ifs with hnone
      · have hsame : Moves fetches reads s₂ s₂ := .refl s₂
        refine .pure (shown_view hrows hsame fun id hid => ?_)
        rw [List.isEmpty_iff.mp hnone] at hid
        cases hid
      · refine .bind (Q := fun _ => Shown (view env m viewerUserId input.limit rows).items)
          (.write fun s hmoves hs => ?_) fun _ s hshown => .pure hshown
        have hmarks : Kept (setDelivered (undelivered viewerUserId rows) env.now s) ∧
            Moves fetches reads s (setDelivered (undelivered viewerUserId rows) env.now s) := by
          refine marks hs fun id msg hmsg hpicked => ?_
          obtain ⟨hid, hundelivered⟩ := Bool.and_eq_true_iff.mp hpicked
          obtain ⟨row, hrow, hsender, -⟩ := mem_undelivered.mp (of_decide_eq_true hid)
          obtain ⟨hlookup, hconversation⟩ := hrows.rows _ hrow
          have hsame := (hmoves.receipted hrows.kept hlookup hmsg).same
          rw [← conversationId_of_content hsame] at hconversation
          rw [← senderId_of_content hsame] at hsender
          refine ⟨⟨rfl, .inr ⟨Option.isNone_iff_eq_none.mp hundelivered, env.now, rfl,
            byPeer hfetch (hrows.viewer.moves hmoves) hconversation hsender⟩, .inl rfl⟩,
            fun _ => rfl⟩
        refine ⟨hmarks.1, hmarks.2, shown_view hrows (hmoves.trans hmarks.2) ?_⟩
        intro id hid msg' hmsg'
        change (s.db.messages.updateWhere _ _).lookup id = some msg' at hmsg'
        rw [Table.lookup_updateWhere, Option.map_eq_some_iff] at hmsg'
        obtain ⟨msg, -, rfl⟩ := hmsg'
        split_ifs with hpicked
        · rfl
        · rw [Bool.and_eq_true, decide_eq_true_iff, not_and, Bool.not_eq_true,
            Option.isNone_eq_false_iff] at hpicked
          exact hpicked hid

/-! ## The calls, run alone -/

variable {st : ThreadState} {input : Pagination}

theorem exec_context {found : Conversation × Match}
    (h : st.db.contextForViewer conversationId viewerUserId = .ok found) :
    (context conversationId viewerUserId).exec st = (.ok found, st) :=
  Program.exec_transaction_ok (by rw [h]; rfl)

/-- What the ids pick among the rows of the table is what the call of the listing picks. -/
theorem picked_eq {rows : List (MessageId × Message)}
    (hrows : ∀ e ∈ rows, st.db.messages.lookup e.1 = some e.2) {id : MessageId} {msg : Message}
    (hmsg : st.db.messages.lookup id = some msg) :
    (rows.any (fun e => e.1 = id) && msg.senderId ≠ viewerUserId && msg.deliveredAt.isNone) =
      decide (id ∈ undelivered viewerUserId rows) := by
  rw [Bool.eq_iff_iff]
  simp only [Bool.and_eq_true, decide_eq_true_eq, List.any_eq_true, mem_undelivered,
    Option.isNone_iff_eq_none]
  constructor
  · rintro ⟨⟨⟨e, he, rfl⟩, hsender⟩, hnone⟩
    obtain rfl : e.2 = msg := Option.some.inj ((hrows e he).symm.trans hmsg)
    exact ⟨e.2, he, hsender, hnone⟩
  · rintro ⟨row, hrow, hsender, hnone⟩
    obtain rfl : row = msg := Option.some.inj ((hrows _ hrow).symm.trans hmsg)
    exact ⟨⟨⟨_, hrow, rfl⟩, hsender⟩, hnone⟩

theorem exec_listMessages {shown : Page MessageView} {db' : Db}
    (h : st.db.listMessages env micros conversationId viewerUserId input = .ok (shown, db')) :
    (listMessages env micros conversationId viewerUserId input).exec st =
      (.ok shown, { st with db := db' }) := by
  simp only [Db.listMessages, bind_ok] at h
  obtain ⟨⟨conversation, m⟩, hcontext, decoded, hafter, h⟩ := h
  obtain ⟨hshown, hdb⟩ := Prod.mk.inj (pure_ok.1 h)
  rw [listMessages, Program.exec_bind_ok (exec_context hcontext)]
  dsimp only
  rw [hafter]
  dsimp only
  rw [Program.exec_bind_ok (Program.exec_read _)]
  have hrows : ∀ e ∈ page micros conversationId decoded input.limit st.db,
      st.db.messages.lookup e.1 = some e.2 := fun _ he => (mem_page he).1
  have hview : view env m viewerUserId input.limit
      (page micros conversationId decoded input.limit st.db) = shown := by
    rw [← hshown, view]
    refine congrArg (Page.mk · _) (List.map_congr_left fun e he => ?_)
    refine congrArg (toMessage e.1 · m viewerUserId) (if_congr ?_ rfl rfl)
    exact (Bool.eq_iff_iff.mp (picked_eq hrows (hrows e he))).trans decide_eq_true_iff |>.symm
  have hupdate : setDelivered (undelivered viewerUserId
      (page micros conversationId decoded input.limit st.db)) env.now st =
        { st with db := db' } := by
    rw [← hdb]
    refine congrArg (setMessages st) (Table.updateWhere_congr fun id msg hmsg => ?_)
    refine Eq.trans ?_ (picked_eq hrows hmsg).symm
    rw [Bool.eq_iff_iff, Bool.and_eq_true, decide_eq_true_iff, Option.isNone_iff_eq_none,
      and_iff_left_iff_imp, mem_undelivered]
    rintro ⟨row, hrow, -, hnone⟩
    obtain rfl : row = msg := Option.some.inj ((hrows _ hrow).symm.trans hmsg)
    exact hnone
  split_ifs with hnone
  · have hsame : setDelivered [] env.now st = st :=
      congrArg (setMessages st) (Table.updateWhere_eq_self fun _ _ _ => rfl)
    rw [List.isEmpty_iff.mp hnone, hsame] at hupdate
    rw [Program.exec_pure, hview, ← hupdate]
  · rw [Program.exec_bind_ok (Program.exec_write _), hview, hupdate]
    rfl

theorem exec_listMessages_error {e : TxError}
    (h : st.db.listMessages env micros conversationId viewerUserId input = .error e) :
    (listMessages env micros conversationId viewerUserId input).exec st = (.error e, st) := by
  rw [Db.listMessages] at h
  cases hcontext : st.db.contextForViewer conversationId viewerUserId with
  | error e' =>
      rw [hcontext] at h
      cases h
      have hrefused : (context conversationId viewerUserId).exec st = (.error e, st) :=
        Program.exec_transaction_error (by rw [hcontext]; rfl)
      rw [listMessages, Program.exec_bind_error hrefused]
  | ok found =>
      obtain ⟨conversation, m⟩ := found
      rw [hcontext, bind_ok_left] at h
      cases hafter : Chat.after env input with
      | ok decoded =>
          rw [hafter] at h
          cases h
      | error e' =>
          rw [hafter] at h
          cases h
          rw [listMessages, Program.exec_bind_ok (exec_context hcontext)]
          dsimp only
          rw [hafter]
          rfl

/-- With an id that has never been given, the row is the one of the call in one step. -/
theorem exec_sendMessage {call : SendCall} {effects : List Effect} {db' : Db} (hs : Kept st)
    (hnew : env.uuid.message ∉ st.given)
    (h : st.db.sendMessage env.toEnv call.conversationId call.viewerUserId call.input =
      .ok (effects, db')) :
    ∃ given, (sendMessage env call).exec st = (.ok (), { db := db', given := given }) := by
  simp only [Db.sendMessage, bind_ok] at h
  obtain ⟨⟨conversation, m⟩, hcontext, h⟩ := h
  rw [sendMessage, Program.exec_bind_ok (exec_context hcontext)]
  dsimp only
  rw [Program.exec_bind_ok (Program.exec_read _), SendCall.existing]
  cases hexisting : st.db.findMessage call.viewerUserId call.input.clientMsgId with
  | some replay =>
      rw [hexisting] at h
      obtain ⟨-, rfl⟩ := Prod.mk.inj (pure_ok.1 h)
      exact ⟨st.given, rfl⟩
  | none =>
      simp only [hexisting, Option.isSome_none, Bool.false_eq_true, if_false, bind_ok, ensure_ok,
        pure_ok, Prod.mk.injEq] at h
      obtain ⟨_, hopen, _, hquick, -, rfl⟩ := h
      have hcheck : call.check env.toEnv conversation = .ok () := by
        rw [SendCall.check, ensure_pos hopen, bind_ok_left, ensure_pos hquick]
      have hinsert : insert env call st =
          (true, post (call.message env.toEnv) env.uuid.message st) := by
        rw [insert, SendCall.existing, hexisting]
        rfl
      have hgiven : st.given.freshKey env.uuid.message = env.uuid.message := if_neg hnew
      have hmessages : st.db.messages.freshKey env.uuid.message = env.uuid.message := by
        refine if_neg fun hmem => ?_
        obtain ⟨msg, hmsg⟩ := Table.mem_iff_exists.mp hmem
        exact hnew (hs.given _ msg hmsg)
      rw [hcheck]
      dsimp only
      rw [Option.isSome_none, if_neg Bool.false_ne_true,
        Program.exec_bind_ok (Program.exec_update _), hinsert, hmessages]
      refine ⟨st.given.put env.uuid.message (), ?_⟩
      rw [if_pos rfl, Program.exec_pure, post, hgiven]
      rfl

end Calls

/-! ## Runs -/

section Runs

variable {κ : Type} {micros : MessageId → Fin 1000} {st : ThreadState}
  {is js : List (ServiceAct κ (ListingEnv × ThreadCall) ThreadAct)}

def Reads (is : List (ServiceAct κ (ListingEnv × ThreadCall) ThreadAct)) : Calls :=
  fun conversationId viewerUserId now => ∃ k env, env.now = now ∧
    .call k (env, .markRead conversationId viewerUserId) ∈ is

def Fetches (is : List (ServiceAct κ (ListingEnv × ThreadCall) ThreadAct)) : Calls :=
  fun conversationId viewerUserId now => Reads is conversationId viewerUserId now ∨
    ∃ k env input, env.now = now ∧
      .call k (env, .listMessages conversationId viewerUserId input) ∈ is

def Answers (_ : ListingEnv × ThreadCall) : ThreadReply → ThreadState → Prop
  | .page items, s => Shown items s
  | .done, _ => True

theorem serve_sound {k : κ} {c : ListingEnv × ThreadCall} (hc : .call k c ∈ is)
    (s₀ : ThreadState) :
    (serve micros c).Sound Kept (Moves (Fetches is) (Reads is)) (Answers c) s₀ := by
  obtain ⟨env, call⟩ := c
  cases call with
  | listMessages conversationId viewerUserId input =>
      have hfetch : Fetches is conversationId viewerUserId env.now :=
        .inr ⟨k, env, input, rfl, hc⟩
      exact .bind (listMessages_sound hfetch s₀) fun page s hshown => .pure hshown
  | markRead conversationId viewerUserId =>
      have hread : Reads is conversationId viewerUserId env.now := ⟨k, env, rfl, hc⟩
      exact .bind (markRead_sound (.inl hread) hread s₀) fun _ _ _ => .pure trivial
  | sendMessage call => exact .bind (sendMessage_sound call s₀) fun _ _ _ => .pure trivial

theorem kept_of_empty (hst : st.db.messages = ∅) : Kept st := by
  constructor <;> intro id msg hmsg <;> rw [hst] at hmsg <;> cases hmsg

variable [DecidableEq κ]

abbrev threadRun (micros : MessageId → Fin 1000) (st : ThreadState)
    (is : List (ServiceAct κ (ListingEnv × ThreadCall) ThreadAct)) :
    Service κ (ListingEnv × ThreadCall) ThreadState TxError ThreadReply :=
  runFrom (Service.step (serve micros) alone) { state := st } is

theorem relies_run {s : Service κ (ListingEnv × ThreadCall) ThreadState TxError ThreadReply}
    (hs : s.Relies Kept (Moves (Fetches js) (Reads js)) Answers)
    (hsub : ∀ act ∈ is, act ∈ js) :
    (runFrom (Service.step (serve micros) alone) s is).Relies Kept
        (Moves (Fetches js) (Reads js)) Answers ∧
      Moves (Fetches js) (Reads js) s.state
        (runFrom (Service.step (serve micros) alone) s is).state := by
  refine Service.run_relies (C := fun _ act => act ∈ js) (fun _ _ _ h h' => h.trans h')
    (fun s => .refl s) ?_ ?_ hs (Along.of_forall hsub _)
  · intro s k c _ hact
    exact serve_sound hact s.state
  · intro s i hkept _
    exact alone_moves hkept i

/-- A message is marked as read only if it is as delivered; and either mark is the time of a call
that the participant who has not sent the message has made in the run. -/
theorem receipt_by_recipient (hst : st.db.messages = ∅) {id : MessageId} {msg : Message}
    (h : (threadRun micros st is).state.db.messages.lookup id = some msg) :
    (msg.readAt.isSome → msg.deliveredAt.isSome) ∧
      (∀ now, msg.deliveredAt = some now →
        ByPeer (Fetches is) (threadRun micros st is).state.db msg now) ∧
      ∀ now, msg.readAt = some now →
        ByPeer (Reads is) (threadRun micros st is).state.db msg now := by
  obtain ⟨hrelies, hmoves⟩ : (threadRun micros st is).Relies Kept
      (Moves (Fetches is) (Reads is)) Answers ∧
        Moves (Fetches is) (Reads is) st (threadRun micros st is).state :=
    relies_run (.idle (kept_of_empty hst)) fun _ hact => hact
  obtain ⟨new, hreceipted, hold | ⟨-, hdelivered, hread⟩⟩ := hmoves.messages id msg h
  · rw [hst] at hold
    cases hold
  · refine ⟨hrelies.state.delivered id msg h, fun now hnow => ?_, fun now hnow => ?_⟩
    · rcases hreceipted.delivered with hsame | ⟨-, now', hnow', hby⟩
      · rw [hsame, hdelivered] at hnow
        cases hnow
      · obtain rfl : now' = now := Option.some.inj (hnow'.symm.trans hnow)
        exact hby.mono hreceipted.same.symm fun _ _ hp => hp
    · rcases hreceipted.read with hsame | ⟨-, now', hnow', hby⟩
      · rw [hsame, hread] at hnow
        cases hnow
      · obtain rfl : now' = now := Option.some.inj (hnow'.symm.trans hnow)
        exact hby.mono hreceipted.same.symm fun _ _ hp => hp

/-- A mark is never set again, and nothing else of a message ever changes. -/
theorem receipts_kept (hst : st.db.messages = ∅) {id : MessageId} {msg msg' : Message}
    (h : (threadRun micros st is).state.db.messages.lookup id = some msg)
    (h' : (threadRun micros st (is ++ js)).state.db.messages.lookup id = some msg') :
    content msg' = content msg ∧
      (msg.deliveredAt.isSome → msg'.deliveredAt = msg.deliveredAt) ∧
      (msg.readAt.isSome → msg'.readAt = msg.readAt) := by
  have hrelies : (threadRun micros st is).Relies Kept
      (Moves (Fetches (is ++ js)) (Reads (is ++ js))) Answers :=
    (relies_run (.idle (kept_of_empty hst)) fun _ hact => List.mem_append_left js hact).1
  have hmoves : Moves (Fetches (is ++ js)) (Reads (is ++ js)) (threadRun micros st is).state
      (runFrom (Service.step (serve micros) alone) (threadRun micros st is) js).state :=
    (relies_run hrelies fun _ hact => List.mem_append_right is hact).2
  rw [← runFrom_append] at hmoves
  have hreceipted := hmoves.receipted hrelies.state h h'
  exact ⟨hreceipted.same, hreceipted.delivered_kept, hreceipted.read_kept⟩

/-- Whatever a page shows of the peer is shown as delivered, and is delivered when the page is
answered. -/
theorem page_delivered (hst : st.db.messages = ∅) {k : κ} {c : ListingEnv × ThreadCall}
    {items : List MessageView}
    (h : (threadRun micros st is).slots k = some (c, .done (.ok (.page items)))) :
    ∀ item ∈ items, item.mine = false → item.deliveredAt.isSome ∧ ∀ msg,
      (threadRun micros st is).state.db.messages.lookup item.id = some msg →
        msg.deliveredAt.isSome := by
  have hrelies : (threadRun micros st is).Relies Kept (Moves (Fetches is) (Reads is)) Answers :=
    (relies_run (.idle (kept_of_empty hst)) fun _ hact => hact).1
  have hshown : Answers c (.page items) (threadRun micros st is).state :=
    hrelies.returned h fun s t hs hmoves => Shown.moves hs hmoves
  intro item hitem hpeer
  obtain ⟨hmark, -, hstored⟩ := hshown item hitem hpeer
  exact ⟨hmark, hstored⟩

end Runs

end Thread

/-! ## Non-vacuity -/

namespace SmallThread

open Thread

/-- Users 1 and 2 have a match, and a conversation without messages. -/
def start : ThreadState where
  db := { Db.empty with
    matchRows := (∅ : Table MatchId Match).put 3
      { requestId := 0
        offerId := 0
        eventId := 0
        requesterId := 1
        helperId := 2
        inventoryItemId := 0
        qtyReserved := 1
        requesterAlias := "a"
        helperAlias := "b" }
    conversations := (∅ : Table ConversationId Conversation).put 5 { matchId := 3 } }

def fetch : List (ServiceAct Unit (ListingEnv × ThreadCall) ThreadAct) :=
  [.alone (.system 5 1 "match.matched" 4 9),
    .call () (SmallEvent.listing 6, .listMessages 5 2 {}), .turn (), .turn (), .turn ()]

def readOn : List (ServiceAct Unit (ListingEnv × ThreadCall) ThreadAct) :=
  [.call () (SmallEvent.listing 8, .markRead 5 2), .turn (), .turn ()]

def message : Message where
  conversationId := 5
  senderId := 1
  kind := .system
  body := "match.matched"
  createdAt := 4
  deliveredAt := some 6

def shown : MessageView where
  id := 9
  conversationId := 5
  senderAlias := "a"
  mine := false
  kind := .system
  body := "match.matched"
  createdAt := 4
  deliveredAt := some 6
  readAt := none

end SmallThread

namespace Thread

theorem receipt_by_recipient_fetch : ByPeer (Fetches SmallThread.fetch)
    (threadRun (fun _ => 0) SmallThread.start SmallThread.fetch).state.db SmallThread.message 6 :=
  have hlookup : (threadRun (fun _ => 0) SmallThread.start
      SmallThread.fetch).state.db.messages.lookup 9 = some SmallThread.message := rfl
  (receipt_by_recipient rfl hlookup).2.1 6 rfl

theorem receipts_kept_readOn :
    let later : Message := { SmallThread.message with readAt := some 8 }
    content later = content SmallThread.message ∧
      (SmallThread.message.deliveredAt.isSome →
        later.deliveredAt = SmallThread.message.deliveredAt) ∧
      (SmallThread.message.readAt.isSome → later.readAt = SmallThread.message.readAt) := by
  have hlookup : (threadRun (fun _ => 0) SmallThread.start
      SmallThread.fetch).state.db.messages.lookup 9 = some SmallThread.message := rfl
  have hlater : (threadRun (fun _ => 0) SmallThread.start
      (SmallThread.fetch ++ SmallThread.readOn)).state.db.messages.lookup 9 =
        some { SmallThread.message with readAt := some 8 } := rfl
  exact receipts_kept rfl hlookup hlater

theorem page_delivered_fetch : SmallThread.shown.deliveredAt.isSome ∧
    ∀ item ∈ [SmallThread.shown], item.mine = false → item.deliveredAt.isSome ∧ ∀ msg,
      (threadRun (fun _ => 0) SmallThread.start SmallThread.fetch).state.db.messages.lookup
        item.id = some msg → msg.deliveredAt.isSome := by
  have hslot : (threadRun (fun _ => 0) SmallThread.start SmallThread.fetch).slots () =
      some ((SmallEvent.listing 6, .listMessages 5 2 {}),
        .done (.ok (.page [SmallThread.shown]))) := rfl
  exact ⟨rfl, page_delivered rfl hslot⟩

end Thread
end Sahay
