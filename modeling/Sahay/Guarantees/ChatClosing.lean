import Mathlib.Data.Fintype.Basic
import Sahay.Refinement.ChatMoves

/-!
# Closed conversations

A call of `sendMessage` reads the conversation's status in one statement and inserts the message
in another.  A transaction that closes the conversation may commit in between, and the message
is written all the same.  The messages of the system do not ask for the status; they are written
into the conversation of an active match, which only the end of the event's retention closes.
Where nothing is closed under a call or under an active match, a closed conversation is silent.
-/

namespace Sahay

def SendStage.FoundOpen (call : SendCall) (cid : ConversationId) : SendStage → Prop
  | .replaying conversation => call.conversationId = cid ∧ conversation.status = .open
  | .inserting => call.conversationId = cid
  | _ => False

instance (call : SendCall) (cid : ConversationId) :
    (stage : SendStage) → Decidable (stage.FoundOpen call cid)
  | .reading => inferInstanceAs (Decidable False)
  | .replaying _ => inferInstanceAs (Decidable (_ ∧ _))
  | .inserting => inferInstanceAs (Decidable (_ = _))
  | .rereading => inferInstanceAs (Decidable False)
  | .ended _ => inferInstanceAs (Decidable False)

def Db.OpenWhileActive (db : Db) : Prop :=
  ∀ cid c, db.conversations.lookup cid = some c →
    c.matchId ∈ db.matchRows ∧ (db.matchActive c.matchId = true → db.isOpen cid = true)


/-- A statement writes nothing, and a conversation that it finds open is open; or it inserts the
message of a call that had found its conversation open. -/
theorem SendCall.turn_moves (call : SendCall) (env : Env) (db : Db) (stage : SendStage) :
    ((call.turn env db stage).2 = db ∧
      ∀ cid, (call.turn env db stage).1.FoundOpen call cid →
        stage.FoundOpen call cid ∨ db.isOpen cid = true) ∨
    (stage.FoundOpen call call.conversationId ∧
      (∀ cid, ¬(call.turn env db stage).1.FoundOpen call cid) ∧
      (call.turn env db stage).2 =
        { db with
          messages := db.messages.put (db.messages.freshKey env.uuid.message)
            (call.message env) }) := by
  cases stage with
  | reading =>
      rw [turn]
      cases hcontext : db.contextForViewer call.conversationId call.viewerUserId with
      | error e => exact .inl ⟨rfl, fun cid h => h.elim⟩
      | ok context =>
          obtain ⟨conversation, m⟩ := context
          simp only [Db.contextForViewer, bind_ok, found_ok, pure_ok, Prod.mk.injEq] at hcontext
          obtain ⟨_, hc, _, -, -, -, rfl, -⟩ := hcontext
          refine .inl ⟨rfl, fun cid h => .inr ?_⟩
          obtain ⟨rfl, hopen⟩ := h
          exact Db.isOpen_iff.2 ⟨_, hc, hopen⟩
  | replaying conversation =>
      rw [turn]
      cases call.existing db with
      | some replay => exact .inl ⟨rfl, fun cid h => h.elim⟩
      | none =>
          dsimp only
          cases hcheck : call.check env conversation with
          | error e => exact .inl ⟨rfl, fun cid h => h.elim⟩
          | ok u =>
              simp only [check, bind_ok, ensure_ok] at hcheck
              obtain ⟨-, hopen, -⟩ := hcheck
              refine .inl ⟨rfl, fun cid h => .inl ⟨h, ?_⟩⟩
              rw [Conversation.effectiveStatus] at hopen
              split_ifs at hopen
              exact hopen
  | inserting =>
      rw [turn]
      split_ifs
      · exact .inl ⟨rfl, fun cid h => h.elim⟩
      · exact .inr ⟨rfl, fun cid h => h, rfl⟩
  | rereading => exact .inl ⟨rfl, fun cid h => h.elim⟩
  | ended result => exact .inl ⟨rfl, fun cid h => h.elim⟩

def ChatAct.sweeps {κ : Type} : ChatAct κ → Bool
  | .transaction t => t.sweeps
  | .send _ => false

namespace ChatTraffic

variable {κ : Type} {calls : κ → SendCall} {s : ChatTraffic κ}

/-- What holds between the steps: the conversations of active matches are open, and so are those
that a call under way has found open. -/
structure Settled (calls : κ → SendCall) (s : ChatTraffic κ) : Prop where
  openWhileActive : s.db.OpenWhileActive
  found : ∀ j cid, (s.sends j).FoundOpen (calls j) cid → s.db.isOpen cid = true

theorem settled_init : (init : ChatTraffic κ).Settled calls where
  openWhileActive cid c hc := by cases hc
  found j cid h := by cases h

/-- No conversation is opened again, and what is written is written into an open one. -/
structure StaysClosed (db db' : Db) : Prop where
  closed : ∀ cid ∈ db.conversations, db.isOpen cid = false →
    cid ∈ db'.conversations ∧ db'.isOpen cid = false
  posts : ∀ id msg, db'.messages.lookup id = some msg → db.messages.lookup id = some msg ∨
    msg.conversationId ∉ db.conversations ∨ db.isOpen msg.conversationId = true

theorem StaysClosed.refl (db : Db) : StaysClosed db db where
  closed _ hmem hclosed := ⟨hmem, hclosed⟩
  posts _ _ hmsg := .inl hmsg

theorem OpenWhileActive.of_moves {db db' : Db} {sweeps : Bool} (h : db.OpenWhileActive)
    (hmoves : Db.ChatMoves sweeps db db')
    (hover : sweeps = true → ∀ cid c, db.conversations.lookup cid = some c →
      db.isOpen cid = true → db'.isOpen cid = false → db.matchActive c.matchId = false) :
    db'.OpenWhileActive := by
  intro cid c' hc'
  by_cases hold : cid ∈ db.conversations
  · obtain ⟨c, hc⟩ := Table.mem_iff_exists.1 hold
    obtain ⟨c'', hc'', hmatch, -⟩ := hmoves.kept cid c hc
    obtain rfl := Option.some.inj (hc'.symm.trans hc'')
    obtain ⟨hlinked, hactive⟩ := h cid c hc
    rw [hmatch]
    refine ⟨hmoves.matchKept _ hlinked, fun hactive' => ?_⟩
    -- The match has been active before, and the conversation open.
    have hbefore := hmoves.revives _ hlinked hactive'
    have hopen := hactive hbefore
    by_contra hclosed
    rw [Bool.not_eq_true] at hclosed
    cases sweeps with
    | true => exact Bool.eq_false_iff.1 (hover rfl cid c hc hopen hclosed) hbefore
    | false => exact Bool.eq_false_iff.1 (hmoves.ends rfl cid c hc hopen hclosed) hactive'
  · obtain ⟨hlinked, hopen⟩ := hmoves.opened cid c' hc' hold
    exact ⟨hlinked, fun _ => hopen⟩

theorem StaysClosed.of_moves {db db' : Db} {sweeps : Bool} (h : db.OpenWhileActive)
    (hmoves : Db.ChatMoves sweeps db db') : StaysClosed db db' where
  closed cid hmem hclosed := by
    obtain ⟨c, hc⟩ := Table.mem_iff_exists.1 hmem
    obtain ⟨c', hc', -, hback⟩ := hmoves.kept cid c hc
    refine ⟨Table.mem_iff_exists.2 ⟨c', hc'⟩, Bool.eq_false_iff.2 fun hopen => ?_⟩
    exact Bool.eq_false_iff.1 hclosed (hback hopen)
  posts id msg hmsg := by
    refine (hmoves.posts id msg hmsg).imp_right fun hnew => hnew.imp_right ?_
    rintro ⟨c, hc, hactive⟩
    exact (h _ c hc).2 hactive

/-- The transaction itself. -/
theorem Settled.of_moves {db : Db} {sweeps : Bool} (h : s.Settled calls)
    (hmoves : Db.ChatMoves sweeps s.db db)
    (hidle : ∀ cid c, s.db.conversations.lookup cid = some c → s.db.isOpen cid = true →
      db.isOpen cid = false → (sweeps = true → s.db.matchActive c.matchId = false) ∧
        ∀ j, ¬(s.sends j).FoundOpen (calls j) cid) :
    ({ s with db := db } : ChatTraffic κ).Settled calls ∧ StaysClosed s.db db := by
  have hover (hsweeps : sweeps = true) (cid : ConversationId) (c : Conversation)
      (hc : s.db.conversations.lookup cid = some c) (hopen : s.db.isOpen cid = true)
      (hclosed : db.isOpen cid = false) : s.db.matchActive c.matchId = false :=
    (hidle cid c hc hopen hclosed).1 hsweeps
  refine ⟨⟨OpenWhileActive.of_moves h.openWhileActive hmoves hover, fun j cid hfound => ?_⟩,
    .of_moves h.openWhileActive hmoves⟩
  have hopen := h.found j cid hfound
  obtain ⟨c, hc, -⟩ := Db.isOpen_iff.1 hopen
  by_contra hclosed
  exact (hidle cid c hc hopen (Bool.eq_false_iff.2 hclosed)).2 j hfound

variable [DecidableEq κ]

/-- When the step closes a conversation, no call that has found it open is under way; and if the
retention closes it, its match is over. -/
def ClosesIdle (calls : κ → SendCall) (s : ChatTraffic κ) (i : Env × ChatAct κ) : Prop :=
  ∀ cid c, s.db.conversations.lookup cid = some c → s.db.isOpen cid = true →
    (s.step calls i).db.isOpen cid = false →
      (i.2.sweeps = true → s.db.matchActive c.matchId = false) ∧
        ∀ j, ¬(s.sends j).FoundOpen (calls j) cid

instance [Fintype κ] (s : ChatTraffic κ) (i : Env × ChatAct κ) :
    Decidable (s.ClosesIdle calls i) :=
  Table.decidableForall s.db.conversations fun cid c => s.db.isOpen cid = true →
    (s.step calls i).db.isOpen cid = false →
      (i.2.sweeps = true → s.db.matchActive c.matchId = false) ∧
        ∀ j, ¬(s.sends j).FoundOpen (calls j) cid

theorem Settled.transaction {t : ChatTransaction} {env : Env} (h : s.Settled calls)
    (hidle : s.ClosesIdle calls (env, .transaction t)) :
    (s.step calls (env, .transaction t)).Settled calls ∧
      StaysClosed s.db (s.step calls (env, .transaction t)).db := by
  rw [ClosesIdle] at hidle
  cases hexec : t.exec env s.db with
  | error e =>
      have hstep : s.step calls (env, .transaction t) = s := by
        rw [step]
        dsimp only
        rw [hexec]
      rw [hstep]
      exact ⟨h, .refl _⟩
  | ok db =>
      have hstep : s.step calls (env, .transaction t) = { s with db := db } := by
        rw [step]
        dsimp only
        rw [hexec]
      rw [hstep] at hidle ⊢
      exact h.of_moves (ChatTransaction.exec_moves hexec) hidle

theorem Settled.found_update (h : s.Settled calls) {j : κ} {stage : SendStage}
    (hstage : ∀ cid, stage.FoundOpen (calls j) cid → s.db.isOpen cid = true) :
    ∀ j' cid, (Function.update s.sends j stage j').FoundOpen (calls j') cid →
      s.db.isOpen cid = true :=
  (Function.forall_update_iff s.sends fun j stage => ∀ cid, stage.FoundOpen (calls j) cid →
    s.db.isOpen cid = true).2 ⟨hstage, fun j' _ => h.found j'⟩

theorem Settled.send {j : κ} {env : Env} (h : s.Settled calls) :
    (s.step calls (env, .send j)).Settled calls ∧
      StaysClosed s.db (s.step calls (env, .send j)).db := by
  have hstep : s.step calls (env, .send j) =
      { db := ((calls j).turn env s.db (s.sends j)).2
        sends := Function.update s.sends j ((calls j).turn env s.db (s.sends j)).1 } := rfl
  rw [hstep]
  have hmoves := (calls j).turn_moves env s.db (s.sends j)
  generalize (calls j).turn env s.db (s.sends j) = turned at hmoves ⊢
  obtain ⟨stage, db⟩ := turned
  dsimp only at hmoves ⊢
  rcases hmoves with ⟨rfl, hfound⟩ | ⟨hfound, hended, rfl⟩
  · have hstage (cid : ConversationId) (hstage : stage.FoundOpen (calls j) cid) :
        s.db.isOpen cid = true :=
      (hfound cid hstage).elim (h.found j cid) id
    exact ⟨⟨h.openWhileActive, h.found_update hstage⟩, .refl _⟩
  · refine ⟨⟨h.openWhileActive, h.found_update fun cid hstage => absurd hstage (hended cid)⟩,
      ⟨fun cid hmem hclosed => ⟨hmem, hclosed⟩, fun id msg hmsg => ?_⟩⟩
    rw [Table.lookup_put] at hmsg
    split_ifs at hmsg
    · obtain rfl := Option.some.inj hmsg
      exact .inr (.inr (h.found j _ hfound))
    · exact .inl hmsg

theorem Settled.step {i : Env × ChatAct κ} (h : s.Settled calls) (hidle : s.ClosesIdle calls i) :
    (s.step calls i).Settled calls ∧ StaysClosed s.db (s.step calls i).db := by
  obtain ⟨env, t | j⟩ := i
  · exact h.transaction hidle
  · exact h.send

/-- In a run that closes no conversation under a call that has found it open, nor under an active
match, the messages of a conversation that is closed are those that it had when it was closed. -/
theorem closed_is_silent {acts : List (Env × ChatAct κ)}
    (hrun : Along (step calls) (ClosesIdle calls) init acts) :
    ∀ before after, acts = before ++ after → ∀ cid c,
      (runFrom (step calls) init before).db.conversations.lookup cid = some c →
      c.status ≠ .open → ∀ id msg,
        (runFrom (step calls) init acts).db.messages.lookup id = some msg →
        msg.conversationId = cid →
          (runFrom (step calls) init before).db.messages.lookup id = some msg := by
  rintro before after rfl cid c hc hstatus
  have happend : runFrom (step calls) init (before ++ after) =
      runFrom (step calls) (runFrom (step calls) init before) after := List.foldl_append
  rw [happend]
  obtain ⟨hbefore, hafter⟩ := Along.append.1 hrun
  have hsettled : (runFrom (step calls) init before).Settled calls :=
    Along.invariant (fun _ _ h hidle => (h.step hidle).1) settled_init hbefore
  generalize runFrom (step calls) init before = s₀ at hc hsettled hafter ⊢
  -- The conversation stays closed, and so nothing is written into it.
  let Silent (s : ChatTraffic κ) : Prop :=
    cid ∈ s.db.conversations ∧ s.db.isOpen cid = false ∧
      ∀ id msg, s.db.messages.lookup id = some msg → msg.conversationId = cid →
        s₀.db.messages.lookup id = some msg
  have hsilent : Silent s₀ := by
    refine ⟨Table.mem_iff_exists.2 ⟨c, hc⟩, ?_, fun _ _ hmsg _ => hmsg⟩
    rw [Db.isOpen, hc, Option.any_some, decide_eq_false_iff_not]
    exact hstatus
  have hstep (s : ChatTraffic κ) (i : Env × ChatAct κ) (h : s.Settled calls ∧ Silent s)
      (hidle : s.ClosesIdle calls i) :
      (s.step calls i).Settled calls ∧ Silent (s.step calls i) := by
    obtain ⟨hmem, hclosed, hmessages⟩ := h.2
    obtain ⟨hnext, hstays⟩ := h.1.step hidle
    obtain ⟨hmem', hclosed'⟩ := hstays.closed cid hmem hclosed
    refine ⟨hnext, hmem', hclosed', fun id msg hmsg heq => ?_⟩
    rcases hstays.posts id msg hmsg with hold | hnone | hopen
    · exact hmessages id msg hold heq
    · exact absurd hmem (heq ▸ hnone)
    · rw [heq, hclosed] at hopen
      cases hopen
  exact (Along.invariant hstep ⟨hsettled, hsilent⟩ hafter).2.2.2

deriving instance DecidableEq for Conversation, Message

/-- Two calls of user 1, of whom user 2 has accepted the request. -/
def twoGreetings (second : Bool) : SendCall :=
  { conversationId := 40
    viewerUserId := 1
    input :=
      { quick := true
        body := "where_meet"
        clientMsgId := if second then "b" else "a" } }

def matched : List (Env × ChatAct Bool) :=
  let offered := runFrom Db.step Db.empty (SmallEvent.oneMatch.take 4)
  [(SmallEvent.clock 3, .transaction (.elsewhere fun _ => offered)),
   (SmallEvent.clock 4 40, .transaction (.acceptOffer 2 30 SmallEvent.draws))]

def leaves : Env × ChatAct Bool :=
  (SmallEvent.clock 6 60, .transaction (.cancelMatch 40 1 .isUnsafe none))

def greetsAndLeaves : List (Env × ChatAct Bool) :=
  matched ++ [(SmallEvent.clock 5 50, .send false), (SmallEvent.clock 5 50, .send false),
    (SmallEvent.clock 5 50, .send false), leaves]

/-- The second call begins after the cancellation. -/
theorem closed_is_silent_oneByOne :
    (runFrom (step twoGreetings) init greetsAndLeaves).db.messages.lookup 50 =
      some ((twoGreetings false).message (SmallEvent.clock 5 50)) := by
  have hrun : Along (step twoGreetings) (ClosesIdle twoGreetings) init
      (greetsAndLeaves ++
        [(SmallEvent.clock 7 70, .send true), (SmallEvent.clock 7 70, .send true)]) := by
    decide +kernel
  exact closed_is_silent hrun _ _ rfl 40
    { matchId := 40, status := .readonly, expiresAt := some 3600006, createdAt := 4 }
    (by decide +kernel) (by decide) 50 _ (by decide +kernel) rfl

/-- The call has found the conversation open, and writes after the cancellation. -/
theorem writes_after_close :
    ((runFrom (step twoGreetings) init
      (matched ++ [(SmallEvent.clock 5 50, .send false), (SmallEvent.clock 5 50, .send false),
        leaves])).db.conversations.lookup 40).map Conversation.status = some .readonly ∧
    ((runFrom (step twoGreetings) init
      (matched ++ [(SmallEvent.clock 5 50, .send false), (SmallEvent.clock 5 50, .send false),
        leaves])).db.messages.lookup 70).isNone ∧
    ((runFrom (step twoGreetings) init
      (matched ++ [(SmallEvent.clock 5 50, .send false), (SmallEvent.clock 5 50, .send false),
        leaves, (SmallEvent.clock 7 70, .send false)])).db.messages.lookup 70).map
          Message.conversationId = some 40 := by
  decide +kernel

end ChatTraffic
end Sahay
