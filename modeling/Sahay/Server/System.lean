import Sahay.Lib.Run
import Sahay.Server.Chat
import Sahay.Server.Matching
import Sahay.Server.Moderation

/-!
# The server as a machine

One step is one committed transaction: an API call together with its
authentication, a job of a worker, or one cancellation of a sweep.  A step that
throws leaves the database as it was.  Retries, duplicate deliveries and
interleavings are longer input lists.
-/

namespace Sahay

/-- The operations.  `token` is the hash of the caller's bearer token. -/
inductive Op
  /-- Accounts, events, memberships, availability, locations: everything that
  other modules write in the directory. -/
  | directory (dir : Directory)
  | addInventory (token : String) (eventId : EventId) (input : AddInventoryInput)
  | updateInventory (token : String) (itemId : ItemId) (input : UpdateInventoryInput)
  | deleteInventory (token : String) (itemId : ItemId)
  | createRequest (token : String) (input : CreateRequestInput)
  | cancelRequest (token : String) (requestId : RequestId)
  | renewRequest (token : String) (requestId : RequestId) (expiresInMinutes : ℕ)
  | continueRequest (token : String) (requestId : RequestId) (continueSearching : Bool)
  | runMatchPass (requestId : RequestId) (choices : PassChoices)
  | acceptOffer (token : String) (offerId : OfferId) (draws : List (ℕ × ℕ))
  | declineOffer (token : String) (offerId : OfferId) (alsoStopReceiving : Bool)
  | expireOffer (offerId : OfferId)
  | setMeetingState (token : String) (matchId : MatchId) (state : MeetingState)
  | confirmCompletion (token : String) (matchId : MatchId) (qty : ConfirmQty)
  | autoFinalizeMatch (matchId : MatchId)
  | cancelMatch (token : String) (matchId : MatchId) (reason : CancelReason)
      (note : Option String)
  | cancelMatchForModeration (matchId : MatchId) (reason : String)
  | moderate (token : String) (input : AdminModerateInput)
  | deletionCancelRequests (userId : UserId)
  | deletionZeroInventory (userId : UserId)
  | deletionStatement (userId : UserId) (statement : Db.DeletionStatement)
  | blockViaMatch (token : String) (matchId : MatchId)
  | sendMessage (token : String) (conversationId : ConversationId) (input : SendMessageInput)

/-- The token with which a user's operation is called. -/
def Op.token? : Op → Option String
  | .addInventory token .. | .updateInventory token .. | .deleteInventory token ..
  | .createRequest token .. | .cancelRequest token .. | .renewRequest token ..
  | .continueRequest token .. | .acceptOffer token .. | .declineOffer token ..
  | .setMeetingState token .. | .confirmCompletion token .. | .cancelMatch token ..
  | .moderate token .. | .blockViaMatch token .. | .sendMessage token .. => some token
  | _ => none

def Op.restocks : Op → Bool
  | .updateInventory .. | .deleteInventory .. | .deletionZeroInventory .. => true
  | _ => false

namespace Db

/-- Other modules never remove a category. -/
def replaceDirectory (db : Db) (dir : Directory) : Outcome Db := do
  ensure (∀ id ∈ db.categories.keys, id ∈ dir.categories) .uniqueViolation
  return { db with toDirectory := dir }

def silently (result : Outcome Db) : Outcome (List Effect × Db) := do
  let db ← result
  return ([], db)

def asUser (db : Db) (env : Env) (token : String)
    (body : AuthContext → Outcome (List Effect × Db)) : Outcome (List Effect × Db) := do
  let auth ← db.authenticate env.now token
  body auth

/-- Run an operation. -/
def exec (env : Env) (op : Op) (db : Db) (ar : Arithmetic := .exact) :
    Outcome (List Effect × Db) :=
  match op with
  | .directory dir => silently (db.replaceDirectory dir)
  | .addInventory token eventId input =>
      db.asUser env token fun auth => silently do
        let (_, db) ← db.addInventory env auth.userId eventId input
        return db
  | .updateInventory token itemId input =>
      db.asUser env token fun auth => silently (db.updateInventory env auth.userId itemId input)
  | .deleteInventory token itemId =>
      db.asUser env token fun auth => silently (db.deleteInventory env auth.userId itemId)
  | .createRequest token input =>
      db.asUser env token fun auth => db.createRequest env auth input
  | .cancelRequest token requestId =>
      db.asUser env token fun auth => db.cancelRequest env auth.userId requestId
  | .renewRequest token requestId expiresInMinutes =>
      db.asUser env token fun auth => db.renewRequest env auth.userId requestId expiresInMinutes
  | .continueRequest token requestId continueSearching =>
      db.asUser env token fun auth =>
        db.continueRequest env auth.userId requestId continueSearching
  | .runMatchPass requestId choices => db.runMatchPass env requestId choices
  | .acceptOffer token offerId draws =>
      db.asUser env token fun auth => do
        let (_, effects, db) ← db.acceptOffer env auth.userId offerId draws
        return (effects, db)
  | .declineOffer token offerId alsoStopReceiving =>
      db.asUser env token fun auth => db.declineOffer env auth.userId offerId alsoStopReceiving
  | .expireOffer offerId => db.expireOffer env offerId
  | .setMeetingState token matchId state =>
      db.asUser env token fun auth => silently (db.setMeetingState matchId auth.userId state)
  | .confirmCompletion token matchId qty =>
      db.asUser env token fun auth => db.confirmCompletion env matchId auth.userId qty ar
  | .autoFinalizeMatch matchId => db.autoFinalizeMatch env matchId ar
  | .cancelMatch token matchId reason note =>
      db.asUser env token fun auth => db.cancelMatch env matchId auth.userId reason note
  | .cancelMatchForModeration matchId reason => db.cancelMatchForModeration env matchId reason
  | .moderate token input => do
      let auth ← db.authenticateModerator env.now token
      db.moderate env auth input
  | .deletionCancelRequests userId => silently (db.deletionCancelRequests env userId)
  | .deletionZeroInventory userId => silently (db.deletionZeroInventory env userId)
  | .deletionStatement userId statement =>
      return ([], db.deletionStatement env userId statement)
  | .blockViaMatch token matchId =>
      db.asUser env token fun auth => db.blockViaMatch env auth.userId matchId
  | .sendMessage token conversationId input =>
      db.asUser env token fun auth => db.sendMessage env conversationId auth.userId input

def step (db : Db) (i : Env × Op) : Db :=
  match db.exec i.1 i.2 with
  | .ok (_, db') => db'
  | .error _ => db

/-- One step of the server as the code computes it: settlements add and subtract doubles.  The
other sums are of reserved quantities, which are whole in every category that is not fractional,
and no path of the source makes a category fractional. -/
def stepDouble (db : Db) (i : Env × Op) : Db :=
  match db.exec i.1 i.2 .double with
  | .ok (_, db') => db'
  | .error _ => db

abbrev Reached (db : Db) : Prop := Reachable step Db.empty db

theorem step_of_ok {db db' : Db} {i : Env × Op} {effects : List Effect}
    (h : db.exec i.1 i.2 = .ok (effects, db')) : db.step i = db' := by
  simp [step, h]

theorem step_cases (db : Db) (i : Env × Op) :
    (∃ effects, db.exec i.1 i.2 = .ok (effects, db.step i)) ∨ db.step i = db := by
  unfold step
  cases h : db.exec i.1 i.2 with
  | ok r => exact .inl ⟨r.1, rfl⟩
  | error e => exact .inr rfl

end Db

/-! ## A small event

One event with one category and a few members who are all available to help.
Runs on it serve as examples. -/

namespace SmallEvent

/-- The clock at `now`; new rows get the number `id`. -/
def clock (now : Time) (id : ℕ := 0) : Env :=
  { now := now
    platform := { stDistance := fun _ _ => 0, locationTtlMinutes := 60 }
    uuid := ⟨id, id, id, id, id, id, id⟩ }

def token (userId : UserId) : String := toString userId

def forMembers {κ ρ : Type} [DecidableEq κ] (members : List UserId) (key : UserId → κ)
    (row : UserId → ρ) : Table κ ρ :=
  members.foldr (fun userId t => t.put (key userId) (row userId)) ∅

/-- The members are signed in under their tokens; `staff` are administrators. -/
def directory (members staff : List UserId) : Directory :=
  { users := forMembers members id fun u =>
      { role := if u ∈ staff then .admin else .user }
    sessions := forMembers members id fun u =>
      { userId := u, tokenHash := token u, expiresAt := 100000000 }
    events := (∅ : Table EventId Event).put 1
      { status := .active, startsAt := 0, endsAt := 100000000 }
    categories := (∅ : Table CategoryId Category).put 1 { unit := .item }
    memberships := forMembers members (fun u => (u, 1)) fun _ => {}
    availability := forMembers members (fun u => (u, 1)) fun _ => { isOn := true } }

def one : ZQty := ⟨1, by norm_num⟩

def two : ZQty := ⟨2, by norm_num⟩

def three : ZQty := ⟨3, by norm_num⟩

def confirming (qty : ZQty) : ConfirmQty := ⟨qty.1, qty.2.1.le, qty.2.2⟩

def item (qty : ZQty) : AddInventoryInput := { categoryId := 1, qty := qty, unit := .item }

def request (qty : ZQty) (key : String) : CreateRequestInput :=
  { eventId := 1, categoryId := 1, qty := qty, unit := .item, idempotencyKey := key }

def choices : PassChoices := { rng := fun _ => 0 }

def draws : List (ℕ × ℕ) := [(0, 0), (1, 1), (2, 2), (3, 3)]

/-- User 1 asks for two items, user 2 offers two and accepts the request. -/
def oneMatch : List (Env × Op) :=
  [(clock 0, .directory (directory [1, 2] [])),
   (clock 1 10, .addInventory (token 2) 1 (item two)),
   (clock 2 20, .createRequest (token 1) (request two "a")),
   (clock 3 30, .runMatchPass 20 choices),
   (clock 4 40, .acceptOffer (token 2) 30 draws)]

/-- User 2 is offered three requests of user 1 before answering the first; user 3
is staff. -/
def threeOffers : List (Env × Op) :=
  [(clock 0, .directory (directory [1, 2, 3] [3])),
   (clock 1 10, .addInventory (token 2) 1 (item three)),
   (clock 2 21, .createRequest (token 1) (request one "a")),
   (clock 3 22, .createRequest (token 1) (request one "b")),
   (clock 4 23, .createRequest (token 1) (request one "c")),
   (clock 5 31, .runMatchPass 21 choices),
   (clock 6 32, .runMatchPass 22 choices),
   (clock 7 33, .runMatchPass 23 choices)]

def twoMatches : List (Env × Op) :=
  threeOffers ++
    [(clock 8 41, .acceptOffer (token 2) 31 draws),
     (clock 9 42, .acceptOffer (token 2) 32 draws)]

end SmallEvent
end Sahay
