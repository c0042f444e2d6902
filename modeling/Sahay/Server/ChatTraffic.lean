import Sahay.Server.Chat
import Sahay.Server.Upkeep

/-!
# Messages under way

Calls of `sendMessage` statement by statement, beside the transactions that open a conversation,
write into it and close it.  No statement of a call locks the conversation, so a transaction may
commit between any two of them.
-/

namespace Sahay

/-! ## A call of `sendMessage` -/

structure SendCall where
  conversationId : ConversationId
  viewerUserId : UserId
  input : SendMessageInput

/-- How far a call of `sendMessage` is. -/
inductive SendStage
  | reading
  /-- With the conversation as it was read. -/
  | replaying (conversation : Conversation)
  | inserting
  /-- The insert has violated the unique index. -/
  | rereading
  /-- With the message that the call answers, or its error. -/
  | ended (result : Outcome (MessageId × Message))

namespace SendCall

variable (call : SendCall) (env : Env) (db : Db)

def check (conversation : Conversation) : Outcome Unit := do
  ensure (conversation.effectiveStatus env.now = .open) errors.conflict
  ensure (call.input.quick → call.input.body ∈ quickReplies)
    (errors.validation { field := some "body" })

def message : Message :=
  { conversationId := call.conversationId
    senderId := call.viewerUserId
    kind := if call.input.quick then .quick else .text
    body := if call.input.quick then call.input.body else redactContactDetails call.input.body
    clientMsgId := some call.input.clientMsgId
    createdAt := env.now }

/-- `findExisting`. -/
def existing : Option (MessageId × Message) :=
  db.findMessage call.viewerUserId call.input.clientMsgId

/-- The next statement of the call. -/
def turn : SendStage → SendStage × Db
  | .reading =>
      match db.contextForViewer call.conversationId call.viewerUserId with
      | .ok (conversation, _) => (.replaying conversation, db)
      | .error e => (.ended (.error e), db)
  | .replaying conversation =>
      match call.existing db with
      | some replay => (.ended (.ok replay), db)
      | none =>
          match call.check env conversation with
          | .ok () => (.inserting, db)
          | .error e => (.ended (.error e), db)
  | .inserting =>
      if (call.existing db).isSome then (.rereading, db)
      else
        let id := db.messages.freshKey env.uuid.message
        (.ended (.ok (id, call.message env)),
          { db with messages := db.messages.put id (call.message env) })
  | .rereading => (.ended ((call.existing db).elim (.error .uniqueViolation) .ok), db)
  | .ended result => (.ended result, db)

def alone : SendStage × Db :=
  let (stage, db) := call.turn env db .reading
  let (stage, db) := call.turn env db stage
  call.turn env db stage

/-- Statement by statement this is `sendMessage`, with the message that it answers. -/
theorem alone_of_ok {effects : List Effect} {db' : Db}
    (h : db.sendMessage env call.conversationId call.viewerUserId call.input =
      .ok (effects, db')) : ∃ reply, call.alone env db = (.ended (.ok reply), db') := by
  simp only [Db.sendMessage, bind_ok] at h
  obtain ⟨⟨conversation, m⟩, hcontext, h⟩ := h
  rw [alone, turn, hcontext]
  dsimp only
  rw [turn, existing]
  cases hexisting : db.findMessage call.viewerUserId call.input.clientMsgId with
  | some replay =>
      rw [hexisting] at h
      obtain ⟨-, rfl⟩ := Prod.mk.inj (pure_ok.1 h)
      exact ⟨replay, rfl⟩
  | none =>
      simp only [hexisting, Option.isSome_none, Bool.false_eq_true, if_false, bind_ok, ensure_ok,
        pure_ok, Prod.mk.injEq] at h
      obtain ⟨_, hopen, _, hquick, -, rfl⟩ := h
      have hcheck : call.check env conversation = .ok () := by
        rw [check, ensure_pos hopen, bind_ok_left, ensure_pos hquick]
      dsimp only
      rw [hcheck]
      dsimp only
      rw [turn, existing, hexisting]
      exact ⟨_, rfl⟩

theorem alone_of_error {e : TxError}
    (h : db.sendMessage env call.conversationId call.viewerUserId call.input = .error e) :
    call.alone env db = (.ended (.error e), db) := by
  rw [Db.sendMessage] at h
  rw [alone, turn]
  cases hcontext : db.contextForViewer call.conversationId call.viewerUserId with
  | error e' =>
      rw [hcontext] at h
      cases h
      rfl
  | ok context =>
      obtain ⟨conversation, m⟩ := context
      rw [hcontext, bind_ok_left] at h
      dsimp only at h ⊢
      rw [turn, existing]
      cases hexisting : db.findMessage call.viewerUserId call.input.clientMsgId with
      | some replay =>
          rw [hexisting] at h
          cases h
      | none =>
          rw [hexisting] at h
          have hcheck : call.check env conversation = .error e := by
            simp only [Option.isSome_none, Bool.false_eq_true, if_false, bind_error, ensure_error,
              ensure_ok, pure_error, and_false, exists_false, or_false] at h
            rw [check, bind_error]
            rcases h with hclosed | ⟨_, hopen, hbody⟩
            · exact .inl (ensure_error.2 hclosed)
            · exact .inr ⟨(), ensure_ok.2 hopen, ensure_error.2 hbody⟩
          dsimp only
          rw [hcheck]
          rfl

/-- The message that the call answers, if nothing comes in between. -/
def answer : Outcome ((MessageId × Message) × Db) := do
  let (conversation, _) ← db.contextForViewer call.conversationId call.viewerUserId
  match call.existing db with
  | some replay => return (replay, db)
  | none =>
      call.check env conversation
      let id := db.messages.freshKey env.uuid.message
      let message := call.message env
      return ((id, message), { db with messages := db.messages.put id message })

theorem answer_sendMessage : (call.answer env db).map Prod.snd =
    (db.sendMessage env call.conversationId call.viewerUserId call.input).map Prod.snd := by
  rw [answer, Db.sendMessage]
  cases db.contextForViewer call.conversationId call.viewerUserId with
  | error e => rfl
  | ok context =>
      obtain ⟨conversation, m⟩ := context
      rw [bind_ok_left, bind_ok_left, existing]
      dsimp only
      cases db.findMessage call.viewerUserId call.input.clientMsgId with
      | some replay => rfl
      | none =>
          rw [check]
          by_cases hopen : conversation.effectiveStatus env.now = .open
          · rw [ensure_pos hopen]
            by_cases hquick : call.input.quick → call.input.body ∈ quickReplies
            · rw [ensure_pos hquick]
              rfl
            · rw [ensure_neg hquick]
              rfl
          · rw [ensure_neg hopen]
            rfl

end SendCall

/-! ## Transactions -/

/-- The transactions that open a conversation, write into it or close it; and whatever else
happens, which leaves conversations, messages and the matches alone. -/
inductive ChatTransaction
  | acceptOffer (helperId : UserId) (offerId : OfferId) (draws : List (ℕ × ℕ))
  | setMeetingState (matchId : MatchId) (viewerUserId : UserId) (state : MeetingState)
  | confirmCompletion (matchId : MatchId) (viewerUserId : UserId) (qty : ConfirmQty)
  | autoFinalizeMatch (matchId : MatchId)
  | cancelMatch (matchId : MatchId) (viewerUserId : UserId) (reason : CancelReason)
      (note : Option String)
  | cancelMatchForModeration (matchId : MatchId) (reason : String)
  /-- The requester cancels the request, and with it its match. -/
  | cancelMatchInTx (matchId : MatchId) (opts : CancelOptions)
  | closeConversations
  | purgeMessages
  | elsewhere (f : Db → Db)

namespace ChatTransaction

variable (env : Env) (db : Db)

def exec : ChatTransaction → Outcome Db
  | .acceptOffer helperId offerId draws => do
      let (_, _, db) ← db.acceptOffer env helperId offerId draws
      return db
  | .setMeetingState matchId viewerUserId state => db.setMeetingState matchId viewerUserId state
  | .confirmCompletion matchId viewerUserId qty => do
      let (_, db) ← db.confirmCompletion env matchId viewerUserId qty
      return db
  | .autoFinalizeMatch matchId => do
      let (_, db) ← db.autoFinalizeMatch env matchId
      return db
  | .cancelMatch matchId viewerUserId reason note => do
      let (_, db) ← db.cancelMatch env matchId viewerUserId reason note
      return db
  | .cancelMatchForModeration matchId reason => do
      let (_, db) ← db.cancelMatchForModeration env matchId reason
      return db
  | .cancelMatchInTx matchId opts => do
      let (_, db) ← db.cancelMatchInTx env matchId opts
      return db
  | .closeConversations => return db.upkeepStatement env .closeConversations
  | .purgeMessages => return db.upkeepStatement env .purgeMessages
  | .elsewhere f => return { f db with
      messages := db.messages
      conversations := db.conversations
      matchRows := db.matchRows }

end ChatTransaction

/-! ## The machine -/

variable {κ : Type}

/-- The committed database and the calls under way. -/
structure ChatTraffic (κ : Type) where
  db : Db
  sends : κ → SendStage

inductive ChatAct (κ : Type)
  | transaction (t : ChatTransaction)
  /-- A call executes its next statement. -/
  | send (j : κ)

namespace ChatTraffic

variable [DecidableEq κ] (calls : κ → SendCall)

def step (s : ChatTraffic κ) (i : Env × ChatAct κ) : ChatTraffic κ :=
  match i.2 with
  | .transaction t =>
      match t.exec i.1 s.db with
      | .ok db => { s with db := db }
      | .error _ => s
  | .send j =>
      let (stage, db) := (calls j).turn i.1 s.db (s.sends j)
      { db := db, sends := Function.update s.sends j stage }

def init : ChatTraffic κ := { db := Db.empty, sends := fun _ => .reading }

end ChatTraffic
end Sahay
