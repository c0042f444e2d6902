import Sahay.Lib.Service
import Sahay.Server.ChatTraffic
import Sahay.Server.Listings

/-!
# Receipts under way

`listMessages`, `markRead` and `sendMessage` of `modules/chat/service.ts`, statement by statement.
Fetching a page marks what the peer has written in it as delivered, by an update after the query;
between the two, other calls mark, write and delete.
-/

namespace Sahay

/-- An id of a message is random and never given twice: those that have been are kept. -/
structure ThreadState where
  db : Db
  given : Table MessageId Unit := ∅

namespace Thread

abbrev ThreadProgram := Program ThreadState TxError

def setMessages (st : ThreadState) (messages : Table MessageId Message) : ThreadState :=
  { st with db := { st.db with messages := messages } }

/-- The query of `contextForViewer`. -/
def context (conversationId : ConversationId) (viewerUserId : UserId) :
    ThreadProgram (Conversation × Match) :=
  .transaction fun st =>
    (st.db.contextForViewer conversationId viewerUserId).map fun found => (found, st)

/-! ## Marks -/

def deliver (now : Time) (msg : Message) : Message := { msg with deliveredAt := some now }

/-- `UPDATE … WHERE id IN … AND delivered_at IS NULL`. -/
def setDelivered (undelivered : List MessageId) (now : Time) (st : ThreadState) : ThreadState :=
  let isUndelivered (id : MessageId) (msg : Message) : Bool :=
    id ∈ undelivered && msg.deliveredAt.isNone
  setMessages st (st.db.messages.updateWhere isUndelivered (deliver now))

/-- `COALESCE(delivered_at, now)`. -/
def read (now : Time) (msg : Message) : Message :=
  { msg with readAt := some now, deliveredAt := some (msg.deliveredAt.getD now) }

def setRead (conversationId : ConversationId) (viewerUserId : UserId) (now : Time)
    (st : ThreadState) : ThreadState :=
  let isUnread (_ : MessageId) (msg : Message) : Bool :=
    msg.conversationId = conversationId && msg.senderId ≠ viewerUserId && msg.readAt.isNone
  setMessages st (st.db.messages.updateWhere isUnread (read now))

/-! ## The calls -/

section Calls

variable (env : ListingEnv) (micros : MessageId → Fin 1000)

/-- The rows of a page. -/
def page (conversationId : ConversationId) (decoded : Option (Time × MessageId)) (limit : ℕ)
    (db : Db) : List (MessageId × Message) :=
  let matching (id : MessageId) (msg : Message) : Bool :=
    msg.conversationId = conversationId && decoded.all fun c =>
      1000 * c.1 < stored micros id msg.createdAt ||
        (stored micros id msg.createdAt = 1000 * c.1 && c.2 < id)
  (orderBy (messageKey micros) (db.messages.select matching)).take limit

def undelivered (viewerUserId : UserId) (rows : List (MessageId × Message)) : List MessageId :=
  (rows.filter fun e => e.2.senderId ≠ viewerUserId && e.2.deliveredAt.isNone).map Prod.fst

/-- What the viewer is shown of the rows. -/
def view (m : Match) (viewerUserId : UserId) (limit : ℕ) (rows : List (MessageId × Message)) :
    Page MessageView :=
  let shown (e : MessageId × Message) : Message :=
    if e.1 ∈ undelivered viewerUserId rows then deliver env.now e.2 else e.2
  { items := rows.map fun e => toMessage e.1 (shown e) m viewerUserId
    nextCursor := nextCursor limit (fun e => encodeCursor e.2.createdAt e.1) rows }

def listMessages (conversationId : ConversationId) (viewerUserId : UserId) (input : Pagination) :
    ThreadProgram (Page MessageView) := do
  let (_, m) ← context conversationId viewerUserId
  match Chat.after env input with
  | .error e => .throw e
  | .ok decoded => do
      let rows ← .read fun st => page micros conversationId decoded input.limit st.db
      -- Fetching counts as delivery for the peer's messages in this page.
      if (undelivered viewerUserId rows).isEmpty then
        return view env m viewerUserId input.limit rows
      else do
        .write (setDelivered (undelivered viewerUserId rows) env.now)
        return view env m viewerUserId input.limit rows

def markRead (conversationId : ConversationId) (viewerUserId : UserId) : ThreadProgram Unit := do
  let _ ← context conversationId viewerUserId
  .write (setRead conversationId viewerUserId env.now)

def post (message : Message) (proposed : MessageId) (st : ThreadState) : ThreadState :=
  let id := st.given.freshKey proposed
  { setMessages st (st.db.messages.put id message) with given := st.given.put id () }

/-- The insert, unless it violates the unique index on the sender and the client's id. -/
def insert (call : SendCall) (st : ThreadState) : Bool × ThreadState :=
  if (call.existing st.db).isSome then (false, st)
  else (true, post (call.message env.toEnv) env.uuid.message st)

/-- What is written of a message; the answer is the row and leaves no trace. -/
def sendMessage (call : SendCall) : ThreadProgram Unit := do
  let (conversation, _) ← context call.conversationId call.viewerUserId
  let replay ← .read fun st => (call.existing st.db).isSome
  if replay then return
  else
    match call.check env.toEnv conversation with
    | .error e => .throw e
    | .ok () => do
        let inserted ← .update (insert env call)
        if inserted then return
        else do
          let existing ← .read fun st => (call.existing st.db).isSome
          if existing then return else .throw .uniqueViolation

end Calls

/-! ## The machine -/

inductive ThreadCall
  | listMessages (conversationId : ConversationId) (viewerUserId : UserId) (input : Pagination)
  | markRead (conversationId : ConversationId) (viewerUserId : UserId)
  | sendMessage (call : SendCall)

inductive ThreadReply
  | page (items : List MessageView)
  | done

def parties (db : Db) (conversationId : ConversationId) : Option (UserId × UserId) := do
  let conversation ← db.conversations.lookup conversationId
  let m ← db.matchRows.lookup conversation.matchId
  return (m.requesterId, m.helperId)

/-- What is written to the other tables; the participants of a conversation never change. -/
structure Elsewhere where
  run : Db → Db
  parties_run : ∀ db conversationId p, parties db conversationId = some p →
    parties (run db) conversationId = some p

/-- What is no call of these: the system writes, the retention deletes, and all else. -/
inductive ThreadAct
  | system (conversationId : ConversationId) (senderId : UserId) (bodyKey : String)
      (now : Time) (uuid : MessageId)
  | purge (p : MessageId → Message → Bool)
  | elsewhere (f : Elsewhere)

def serve (micros : MessageId → Fin 1000) (c : ListingEnv × ThreadCall) :
    ThreadProgram ThreadReply :=
  match c.2 with
  | .listMessages conversationId viewerUserId input => do
      let page ← listMessages c.1 micros conversationId viewerUserId input
      return .page page.items
  | .markRead conversationId viewerUserId => do
      markRead c.1 conversationId viewerUserId
      return .done
  | .sendMessage call => do
      sendMessage c.1 call
      return .done

def alone (st : ThreadState) : ThreadAct → ThreadState
  | .system conversationId senderId bodyKey now uuid =>
      let message : Message :=
        { conversationId := conversationId
          senderId := senderId
          kind := .system
          body := bodyKey
          createdAt := now }
      post message uuid st
  | .purge p => setMessages st (st.db.messages.deleteWhere p)
  | .elsewhere f => { st with db := { f.run st.db with messages := st.db.messages } }

end Thread
end Sahay
