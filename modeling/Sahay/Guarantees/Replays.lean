import Sahay.Guarantees.Idempotency
import Sahay.Server.ChatTraffic

/-!
# The same key with another payload

`createRequest`, `addInventory` and `sendMessage` look for a row under the user's key before they
look at anything else of the payload.  If there is one they answer it, whatever it says; and the
error for a repeated call is thrown by none of them.
-/

namespace Sahay

/-- A call under an idempotency key; of an item the key of the input is the one given. -/
inductive KeyedCall
  | createRequest (auth : AuthContext) (input : CreateRequestInput)
  | addInventory (userId : UserId) (eventId : EventId) (input : AddInventoryInput) (key : String)
  | sendMessage (call : SendCall)

/-- The table, the user and the key. -/
inductive IdempotencyKey
  | request (requesterId : UserId) (key : String)
  | item (userId : UserId) (key : String)
  | message (senderId : UserId) (clientMsgId : String)

inductive KeyedRow
  | request (row : RequestId × Request)
  | item (row : ItemId × InventoryItem)
  | message (row : MessageId × Message)

def Db.underKey (db : Db) : IdempotencyKey → Option KeyedRow
  | .request requesterId key => (db.findByIdempotencyKey requesterId key).map .request
  | .item userId key => (db.findItemByIdempotencyKey userId key).map .item
  | .message senderId clientMsgId => (db.findMessage senderId clientMsgId).map .message

namespace KeyedCall

def key : KeyedCall → IdempotencyKey
  | createRequest auth input => .request auth.userId input.idempotencyKey
  | addInventory userId _ _ key => .item userId key
  | sendMessage call => .message call.viewerUserId call.input.clientMsgId

/-- The row that the call answers. -/
def run (env : Env) (db : Db) : KeyedCall → Outcome (KeyedRow × Db)
  | createRequest auth input => do
      let (row, db) ← (Db.requestCreation env auth input).run db
      return (.request row, db)
  | addInventory userId eventId input key => do
      let (row, db) ← (Db.itemCreation env userId eventId input key).run db
      return (.item row, db)
  | sendMessage call => do
      let (row, db) ← call.answer env db
      return (.message row, db)

def Reaches (db : Db) : KeyedCall → Prop
  | sendMessage call =>
      (db.contextForViewer call.conversationId call.viewerUserId).toBool = true
  | _ => True

end KeyedCall

/-! ## What the calls throw -/

namespace Db

variable {env : Env} {db db' : Db}

theorem requestCreation_throws (env : Env) (auth : AuthContext) (input : CreateRequestInput)
    (db : Db) : Throws (fun e => ¬e.IsReplay) ((requestCreation env auth input).run db) := by
  refine KeyedInsert.run_throws (fun db e h => ?_) (fun _ db => ?_) (fun ticket db => ?_) db
  · exact (prepareRequest_refuses db env auth input e h).2
  · exact .ensure (by decide)
  · exact Throws.bind (.ensure (by decide)) fun _ => .pure _

theorem itemCreation_throws (env : Env) (userId : UserId) (eventId : EventId)
    (input : AddInventoryInput) (key : String) (db : Db) :
    Throws (fun e => ¬e.IsReplay) ((itemCreation env userId eventId input key).run db) := by
  refine KeyedInsert.run_throws (fun db e h => ?_) (fun _ db => ?_) (fun event db => ?_) db
  · exact (prepareItem_refuses db userId eventId input e h).2
  · exact .ensure not_isReplay_validation
  · exact .pure _

theorem contextForViewer_throws (db : Db) (cid : ConversationId) (viewerUserId : UserId) :
    Throws (fun e => ¬e.IsReplay) (db.contextForViewer cid viewerUserId) := by
  refine Throws.bind (.found (by decide)) fun conversation => ?_
  refine Throws.bind (.found (by decide)) fun m => ?_
  exact Throws.bind (.ensure (by decide)) fun _ => .pure _

end Db

theorem SendCall.answer_throws (call : SendCall) (env : Env) (db : Db) :
    Throws (fun e => ¬e.IsReplay) (call.answer env db) := by
  refine Throws.bind (Db.contextForViewer_throws db _ _) fun context => ?_
  cases call.existing db with
  | some replay => exact .pure _
  | none =>
      have hcheck : Throws (fun e => ¬e.IsReplay) (call.check env context.1) :=
        Throws.bind (.ensure (by decide)) fun _ => .ensure not_isReplay_validation
      exact hcheck.bind fun _ => .pure _

/-! ## What they answer -/

theorem SendCall.answer_of_existing {call : SendCall} {env : Env} {db : Db}
    {row : MessageId × Message} (h : call.existing db = some row)
    (hreaches : (db.contextForViewer call.conversationId call.viewerUserId).toBool = true) :
    call.answer env db = .ok (row, db) := by
  rw [answer]
  cases hcontext : db.contextForViewer call.conversationId call.viewerUserId with
  | error e =>
      rw [hcontext] at hreaches
      cases hreaches
  | ok context =>
      rw [bind_ok_left]
      dsimp only
      rw [h]
      rfl

theorem SendCall.existing_of_answer {call : SendCall} {env : Env} {db db' : Db}
    {row : MessageId × Message} (h : call.answer env db = .ok (row, db')) :
    call.existing db' = some row := by
  simp only [answer, bind_ok] at h
  obtain ⟨context, -, h⟩ := h
  cases hexisting : call.existing db with
  | some replay =>
      rw [hexisting] at h
      obtain ⟨rfl, rfl⟩ := Prod.mk.inj (pure_ok.1 h)
      exact hexisting
  | none =>
      rw [hexisting] at h
      simp only [bind_ok, pure_ok, Prod.mk.injEq] at h
      obtain ⟨_, -, rfl, rfl⟩ := h
      exact Db.first_put (by simp [message])

namespace KeyedCall

variable {call call' : KeyedCall} {env : Env} {db db' : Db} {row : KeyedRow}

theorem run_throws (call : KeyedCall) (env : Env) (db : Db) :
    Throws (fun e => ¬e.IsReplay) (call.run env db) := by
  cases call with
  | createRequest auth input =>
      exact (Db.requestCreation_throws env auth input db).bind fun _ => .pure _
  | addInventory userId eventId input key =>
      exact (Db.itemCreation_throws env userId eventId input key db).bind fun _ => .pure _
  | sendMessage call => exact (call.answer_throws env db).bind fun _ => .pure _

theorem run_of_underKey (hrow : db.underKey call.key = some row) (hreaches : call.Reaches db)
    (env : Env) : call.run env db = .ok (row, db) := by
  cases call with
  | createRequest auth input =>
      obtain ⟨stored, hstored, rfl⟩ := Option.map_eq_some_iff.1 hrow
      rw [run, KeyedInsert.run_of_find hstored]
      rfl
  | addInventory userId eventId input key =>
      obtain ⟨stored, hstored, rfl⟩ := Option.map_eq_some_iff.1 hrow
      rw [run, KeyedInsert.run_of_find hstored]
      rfl
  | sendMessage call =>
      obtain ⟨stored, hstored, rfl⟩ := Option.map_eq_some_iff.1 hrow
      rw [run, call.answer_of_existing hstored hreaches]
      rfl

theorem underKey_of_run (h : call.run env db = .ok (row, db')) :
    db'.underKey call.key = some row := by
  cases call with
  | createRequest auth input =>
      simp only [run, bind_ok, pure_ok, Prod.mk.injEq] at h
      obtain ⟨_, hrun, rfl, rfl⟩ := h
      rw [key, Db.underKey, (Db.requestCreation_shares env auth input).find_run hrun]
      rfl
  | addInventory userId eventId input key =>
      simp only [run, bind_ok, pure_ok, Prod.mk.injEq] at h
      obtain ⟨_, hrun, rfl, rfl⟩ := h
      rw [KeyedCall.key, Db.underKey,
        (Db.itemCreation_shares env userId eventId input key).find_run hrun]
      rfl
  | sendMessage call =>
      simp only [run, bind_ok, pure_ok, Prod.mk.injEq] at h
      obtain ⟨_, hanswer, rfl, rfl⟩ := h
      have hexisting := call.existing_of_answer hanswer
      rw [SendCall.existing] at hexisting
      rw [key, Db.underKey, hexisting]
      rfl

/-- Of two calls with one key the later is never refused for its payload, in no state that it may
find.  The row that the first has answered is under the key; as long as there is one, whatever has
become of it since, the later call answers it and writes nothing. -/
theorem replay_never_refused {db₁ : Db} (haccepted : call.run env db = .ok (row, db₁))
    (hkey : call'.key = call.key) :
    (∀ env' db', ¬∃ e, e.IsReplay ∧ call'.run env' db' = .error e) ∧
      db₁.underKey call.key = some row ∧
      ∀ env' db' row', db'.underKey call.key = some row' → call'.Reaches db' →
        call'.run env' db' = .ok (row', db') := by
  refine ⟨fun env' db' => ?_, underKey_of_run haccepted, fun env' db' row' hrow hreaches => ?_⟩
  · rintro ⟨e, hreplay, hthrown⟩
    exact call'.run_throws env' db' e hthrown hreplay
  · rw [← hkey] at hrow
    exact run_of_underKey hrow hreaches env'

def offersOne : KeyedCall := .addInventory 2 1 (SmallEvent.item SmallEvent.one) "b"

def offersTwo : KeyedCall := .addInventory 2 1 (SmallEvent.item SmallEvent.two) "b"

theorem replay_never_refused_offers : ∃ row db,
    offersOne.run (SmallEvent.clock 1 10) Db.gathered = .ok (row, db) ∧
      offersTwo.run (SmallEvent.clock 2 11) db = .ok (row, db) := by
  have haccepted : ((offersOne.run (SmallEvent.clock 1 10) Db.gathered).toOption.any
      fun _ => true) = true := by
    decide +kernel
  obtain ⟨⟨row, db⟩, hrun, -⟩ := exists_ok haccepted
  have hkey : offersTwo.key = offersOne.key := rfl
  obtain ⟨-, hrow, hanswers⟩ := replay_never_refused hrun hkey
  exact ⟨row, db, hrun, hanswers _ db row hrow trivial⟩

def asker : AuthContext := ⟨1, 1, .user, .active, true, true, false⟩

def asksOne : KeyedCall := .createRequest asker (SmallEvent.request SmallEvent.one "a")

def asksTwo : KeyedCall := .createRequest asker (SmallEvent.request SmallEvent.two "a")

def requestedQty : KeyedRow → Option Qty
  | .request row => some row.2.qty
  | _ => none

/-- Who asks for two is told of the request for one. -/
theorem replay_is_answered : ∃ row db,
    asksOne.run (SmallEvent.clock 1 20) Db.gathered = .ok (row, db) ∧
      requestedQty row = some 1 ∧ asksTwo.run (SmallEvent.clock 2 21) db = .ok (row, db) := by
  have haccepted : ((asksOne.run (SmallEvent.clock 1 20) Db.gathered).toOption.any
      fun result => requestedQty result.1 = some 1) = true := by
    decide +kernel
  obtain ⟨⟨row, db⟩, hrun, hqty⟩ := exists_ok haccepted
  rw [decide_eq_true_eq] at hqty
  have hkey : asksTwo.key = asksOne.key := rfl
  have hrow : db.underKey asksTwo.key = some row := by
    rw [hkey]
    exact underKey_of_run hrun
  have hreaches : asksTwo.Reaches db := trivial
  exact ⟨row, db, hrun, hqty, run_of_underKey hrow hreaches _⟩

end KeyedCall
end Sahay
