import Sahay.Server.Matches

/-!
# Match chat

`modules/chat/service.ts`: sending a message.  An open conversation whose
expiry has passed counts as read-only before any sweep has said so.
-/

namespace Sahay

/-- `QUICK_REPLIES`. -/
def quickReplies : List String :=
  ["where_meet", "near_main_entrance", "i_can_come_to_you", "suggest_landmark",
   "wearing_blue_jacket", "arrived", "cannot_find_you", "need_to_cancel",
   "stay_public_area", "not_comfortable"]

def Conversation.effectiveStatus (c : Conversation) (now : Time) : ConversationStatus :=
  if c.status = .open ∧ c.expiresAt.any fun t => t ≤ now then .readonly else c.status

/-- `zSendMessage`. -/
structure SendMessageInput where
  /-- A quick reply, or free text. -/
  quick : Bool
  body : String
  clientMsgId : String

namespace Db

variable (db : Db)

/-- The conversation and its match, for a participant. -/
def contextForViewer (conversationId : ConversationId) (viewerUserId : UserId) :
    Outcome (Conversation × Match) := do
  let conversation ← found (db.conversations.lookup conversationId) errors.notFound
  let m ← found (db.matchRows.lookup conversation.matchId) errors.notFound
  ensure (m.requesterId = viewerUserId ∨ m.helperId = viewerUserId) errors.notFound
  return (conversation, m)

def findMessage (senderId : UserId) (clientMsgId : String) : Option (MessageId × Message) :=
  db.messages.first fun _ msg => msg.senderId = senderId && msg.clientMsgId = some clientMsgId

def sendMessage (env : Env) (conversationId : ConversationId) (viewerUserId : UserId)
    (input : SendMessageInput) : Outcome (List Effect × Db) := do
  let (conversation, m) ← db.contextForViewer conversationId viewerUserId
  if (db.findMessage viewerUserId input.clientMsgId).isSome then return ([], db)
  ensure (conversation.effectiveStatus env.now = .open) errors.conflict
  ensure (input.quick → input.body ∈ quickReplies)
    (errors.validation { field := some "body" })
  let body := if input.quick then input.body else redactContactDetails input.body
  let message : Message :=
    { conversationId := conversationId
      senderId := viewerUserId
      kind := if input.quick then .quick else .text
      body := body
      clientMsgId := some input.clientMsgId
      createdAt := env.now }
  let db := { db with
    messages := db.messages.put (db.messages.freshKey env.uuid.message) message }
  let peerId := if m.requesterId = viewerUserId then m.helperId else m.requesterId
  return ([.notify peerId "new_message" "notifications.new_message"
    "notifications.vaguePreview"
    (some ("msg:" ++ toString conversationId ++ ":" ++ toString (env.now / 60000)))], db)

end Db
end Sahay
