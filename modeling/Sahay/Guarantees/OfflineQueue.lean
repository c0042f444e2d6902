import Sahay.Mobile.PendingOps
import Sahay.Refinement.System

/-!
# What the offline queue loses

An operation may leave the queue once the server has created an item for it or has rejected
it five times.  A write that is based on a list read before another operation came in loses
that operation, and the flush takes every 409 for "already created", which a 409 of
`addInventory` never means.  In a run without such writes and answers nothing is lost.
-/

namespace Sahay

/-! ## The server -/

namespace Db

variable {db db' : Db} {env : Env}

theorem itemByIdempotencyKey_isSome {userId : UserId} {itemId : ItemId} {item : InventoryItem}
    {key : String} (hi : db.inventoryItems.lookup itemId = some item)
    (howner : item.userId = userId) (hkey : item.idempotencyKey = some key) :
    (db.itemByIdempotencyKey userId (some key)).isSome = true := by
  cases hfirst : db.inventoryItems.first fun _ item =>
      item.userId = userId && item.idempotencyKey = some key with
  | none =>
      have hother := Table.first_none.mp hfirst itemId item hi
      simp [howner, hkey] at hother
  | some e => simp [itemByIdempotencyKey, hfirst]

/-- The item that `addInventory` returns is the user's under the given key. -/
theorem addInventory_keyed {userId : UserId} {eventId : EventId} {input : AddInventoryInput}
    {itemId : ItemId} {key : String} (hkey : input.idempotencyKey = some key)
    (h : db.addInventory env userId eventId input = .ok (itemId, db')) :
    (db'.itemByIdempotencyKey userId (some key)).isSome = true := by
  rcases addInventory_ok h with ⟨hexisting, rfl⟩ | ⟨item, hadds, rfl⟩
  · rw [← hkey, hexisting]
    rfl
  · exact itemByIdempotencyKey_isSome ((Table.lookup_put _ _ _ _).trans (if_pos rfl)) hadds.owner
      (hadds.keyed.trans hkey)

end Db

/-- The operations that a call of `enqueueInventoryOp` holds. -/
def EnqueueStage.ops : EnqueueStage → List PendingInventoryOp
  | .read op => [op]
  | .write op q => q ++ [op]

namespace Phone

variable {s s' : Phone}

/-! ## The condition -/

/-- The server has neither created an item for the operation nor rejected it five times. -/
def owes (s : Phone) (id : String) : Bool := id ∉ s.created && s.rejected.count id < 5

/-- Every operation that the stored queue still has to hold is in the list `q` that the writer
last read or wrote. -/
def upToDate (s : Phone) (q : List PendingInventoryOp) : Bool :=
  s.stored.all fun o => !s.owes o.id || q.any fun o' => o'.id = o.id

def conflicts (s : Phone) (op : PendingInventoryOp) (answer : Answer) (delivery : Delivery) :
    Bool :=
  match answer.deliver delivery with
  | .failed (some 409) _ => s.owes op.id
  | _ => false

/-- Every write is based on an up-to-date list, and no 409 arrives too early. -/
def safe (s : Phone) : PhoneAct → Bool
  | .enqueueStep call =>
      match s.enqueues.lookup call with
      | some (.write _ q) => s.upToDate q
      | _ => true
  | .flushStep =>
      match s.flush with
      | .removeWrite _ _ _ q | .retryWrite _ _ _ q _ => s.upToDate q
      | _ => true
  | .receive delivery =>
      match s.flush with
      | .reply _ op _ _ answer => !s.conflicts op answer delivery
      | _ => true
  | _ => true

/-- Every operation that has been enqueued is in the stored queue, unless the server has
created an item for it or has rejected it five times. -/
def NothingLost (s : Phone) : Prop :=
  ∀ id ∈ s.enqueued, s.owes id = true → ∃ o ∈ s.stored, o.id = id

instance (s : Phone) : Decidable s.NothingLost :=
  inferInstanceAs (Decidable (∀ id ∈ s.enqueued, s.owes id = true → ∃ o ∈ s.stored, o.id = id))

/-! ## What the server has done stays done -/

structure Grows (s s' : Phone) : Prop where
  created : ∀ id ∈ s.created, id ∈ s'.created
  rejected : ∀ id, s.rejected.count id ≤ s'.rejected.count id

theorem Grows.owes (h : Grows s s') {id : String} (howes : s'.owes id = true) :
    s.owes id = true := by
  simp only [Phone.owes, Bool.and_eq_true, decide_eq_true_eq] at howes ⊢
  exact ⟨fun hid => howes.1 (h.created id hid), (h.rejected id).trans_lt howes.2⟩

theorem Grows.not_owes (h : Grows s s') {id : String} (hdone : s.owes id = false) :
    s'.owes id = false := by
  rw [Bool.eq_false_iff] at hdone ⊢
  exact fun howes => hdone (h.owes howes)

def Honest (s : Phone) (o : PendingInventoryOp) : Prop :=
  o.id ∈ s.created ∨ o.attempts ≤ s.rejected.count o.id

def Behind (s : Phone) (o : PendingInventoryOp) : Prop :=
  o.id ∈ s.created ∨ o.attempts < s.rejected.count o.id

theorem Honest.grow {o : PendingInventoryOp} (h : s.Honest o) (hgrows : Grows s s') :
    s'.Honest o :=
  h.imp (hgrows.created _) fun hle => hle.trans (hgrows.rejected _)

theorem Behind.grow {o : PendingInventoryOp} (h : s.Behind o) (hgrows : Grows s s') :
    s'.Behind o :=
  h.imp (hgrows.created _) fun hlt => hlt.trans_le (hgrows.rejected _)

/-! ## What the calls under way know -/

/-- What an answer for `op` tells about the server. -/
def Answered (s : Phone) (op : PendingInventoryOp) (q : List PendingInventoryOp) :
    Answer → Prop
  | .created => op.id ∈ s.created
  | .refused _ => ∀ o ∈ op :: q, o.id = op.id → s.Behind o

def Knows (s : Phone) : FlushStage → Prop
  | .idle | .read _ => True
  | .send _ op rest q => ∀ o ∈ op :: (rest ++ q), s.Honest o
  | .reply _ op rest q answer => (∀ o ∈ rest ++ q, s.Honest o) ∧ s.Answered op q answer
  | .removeRead _ id rest => (∀ o ∈ rest, s.Honest o) ∧ s.owes id = false
  | .removeWrite _ id rest q => (∀ o ∈ rest ++ q, s.Honest o) ∧ s.owes id = false
  | .retryWrite _ id rest q _ =>
      (∀ o ∈ rest ++ q, s.Honest o) ∧ ∀ o ∈ q, o.id = id → s.Behind o

structure Sound (s : Phone) : Prop where
  stored : ∀ o ∈ s.stored, s.Honest o
  enqueues : ∀ call stage, s.enqueues.lookup call = some stage →
    ∀ o ∈ stage.ops, s.Honest o
  flush : s.Knows s.flush
  kept : s.NothingLost

theorem Answered.grow {op : PendingInventoryOp} {q : List PendingInventoryOp} {answer : Answer}
    (h : s.Answered op q answer) (hgrows : Grows s s') : s'.Answered op q answer := by
  cases answer with
  | created => exact hgrows.created _ h
  | refused status => exact fun o ho hid => (h o ho hid).grow hgrows

theorem Knows.grow {stage : FlushStage} (h : s.Knows stage) (hgrows : Grows s s') :
    s'.Knows stage := by
  cases stage with
  | idle | read => trivial
  | send token op rest q => exact fun o ho => (h o ho).grow hgrows
  | reply token op rest q answer =>
      exact ⟨fun o ho => (h.1 o ho).grow hgrows, h.2.grow hgrows⟩
  | removeRead token id rest =>
      exact ⟨fun o ho => (h.1 o ho).grow hgrows, hgrows.not_owes h.2⟩
  | removeWrite token id rest q =>
      exact ⟨fun o ho => (h.1 o ho).grow hgrows, hgrows.not_owes h.2⟩
  | retryWrite token id rest q message =>
      exact ⟨fun o ho => (h.1 o ho).grow hgrows, fun o ho hid => (h.2 o ho hid).grow hgrows⟩

theorem Sound.grow (h : s.Sound) (hgrows : Grows s s') (hstored : s'.stored = s.stored)
    (henqueues : s'.enqueues = s.enqueues) (henqueued : s'.enqueued = s.enqueued)
    (hflush : s'.Knows s'.flush) : s'.Sound where
  stored := by
    rw [hstored]
    exact fun o ho => (h.stored o ho).grow hgrows
  enqueues := by
    rw [henqueues]
    exact fun call stage hstage o ho => (h.enqueues call stage hstage o ho).grow hgrows
  flush := hflush
  kept := by
    rw [NothingLost, hstored, henqueued]
    exact fun id hid howes => h.kept id hid (hgrows.owes howes)

/-! ## The flush -/

theorem Answered.behind {op : PendingInventoryOp} {q : List PendingInventoryOp} {answer : Answer}
    (h : s.Answered op q answer) : ∀ o ∈ op :: q, o.id = op.id → s.Behind o := by
  cases answer with
  | created => exact fun o _ hid => .inl (hid ▸ h)
  | refused status => exact h

theorem not_owes_of_created {id : String} (h : id ∈ s.created) : s.owes id = false := by
  simp [owes, h]

theorem not_owes_of_rejected {id : String} (h : 5 ≤ s.rejected.count id) : s.owes id = false := by
  simp [owes, h]

theorem Behind.not_owes {o : PendingInventoryOp} (h : s.Behind o) (hattempts : 4 ≤ o.attempts) :
    s.owes o.id = false := by
  rcases h with hcreated | hrejected
  · exact not_owes_of_created hcreated
  · exact not_owes_of_rejected (hattempts.trans_lt hrejected)

theorem knows_next {token : String} {rest q : List PendingInventoryOp}
    (h : ∀ o ∈ rest ++ q, s.Honest o) : s.Knows (.next token rest q) := by
  cases rest with
  | nil => trivial
  | cons op rest => exact h

/-- The `try` and its `catch`, when no 409 arrives too early. -/
theorem knows_afterCall {token : String} {op : PendingInventoryOp}
    {rest q : List PendingInventoryOp} {answer : Answer} {delivery : Delivery}
    (hhonest : ∀ o ∈ rest ++ q, s.Honest o) (hanswered : s.Answered op q answer)
    (hconflict : s.conflicts op answer delivery = false) :
    s.Knows (.afterCall token op rest q (answer.deliver delivery)) := by
  have hrest : ∀ o ∈ rest, s.Honest o := fun o ho => hhonest o (List.mem_append_left q ho)
  have hbehind := hanswered.behind
  unfold conflicts at hconflict
  cases hresult : answer.deliver delivery with
  | ok =>
      have hcreated : answer = .created := by
        cases answer with
        | created => rfl
        | refused status => cases delivery <;> cases hresult
      subst hcreated
      exact ⟨hrest, not_owes_of_created hanswered⟩
  | offline => trivial
  | failed status message =>
      rw [hresult] at hconflict
      simp only [FlushStage.afterCall]
      split_ifs with hdrop
      · refine ⟨hrest, ?_⟩
        rcases hdrop with rfl | hattempts
        · exact hconflict
        · exact (hbehind op List.mem_cons_self rfl).not_owes hattempts
      · exact ⟨hhonest, fun o ho => hbehind o (List.mem_cons_of_mem op ho)⟩

/-- Whatever the queue still has to hold and the list `q` has, a write keeps. -/
theorem NothingLost.write (h : s.NothingLost) {q new : List PendingInventoryOp}
    (hup : s.upToDate q = true)
    (hkeep : ∀ o ∈ q, s.owes o.id = true → ∃ o' ∈ new, o'.id = o.id) :
    ∀ id ∈ s.enqueued, s.owes id = true → ∃ o ∈ new, o.id = id := by
  intro id hid howes
  obtain ⟨o, ho, rfl⟩ := h id hid howes
  have hknown := List.all_eq_true.mp hup o ho
  rw [howes, Bool.not_true, Bool.false_or, List.any_eq_true] at hknown
  obtain ⟨o', ho', hid'⟩ := hknown
  rw [decide_eq_true_eq] at hid'
  obtain ⟨kept, hkept, hkeptId⟩ := hkeep o' ho' (hid' ▸ howes)
  exact ⟨kept, hkept, hkeptId.trans hid'⟩

theorem retried_id (id message : String) (o : PendingInventoryOp) :
    (o.retried id message).id = o.id := by
  unfold PendingInventoryOp.retried
  split_ifs <;> rfl

theorem Honest.retried {id message : String} {o : PendingInventoryOp} (h : s.Honest o)
    (hbehind : o.id = id → s.Behind o) : s.Honest (o.retried id message) := by
  unfold PendingInventoryOp.retried
  split_ifs with hid
  · exact (hbehind hid).imp (fun h => h) Nat.succ_le_of_lt
  · exact h

/-! ## One step -/

theorem stepEnqueue_sound {call : ℕ} (h : s.Sound) (hsafe : s.safe (.enqueueStep call) = true) :
    (s.stepEnqueue call).Sound := by
  unfold stepEnqueue
  simp only [safe] at hsafe
  cases hstage : s.enqueues.lookup call with
  | none => exact h
  | some stage =>
      have hops := h.enqueues call stage hstage
      rw [hstage] at hsafe
      cases stage with
      | read op =>
          refine ⟨h.stored, Table.forall_replace h.enqueues ?_, h.flush, h.kept⟩
          intro o ho
          rcases List.mem_append.mp ho with ho | ho
          · exact h.stored o ho
          · exact hops o ho
      | write op q =>
          refine ⟨hops, fun call' stage' hstage' => ?_, h.flush, fun id hid howes => ?_⟩
          · rw [Table.lookup_drop] at hstage'
            split_ifs at hstage'
            exact h.enqueues call' stage' hstage'
          · rcases List.mem_cons.mp hid with rfl | hid
            · exact ⟨op, List.mem_append_right q (List.mem_singleton_self op), rfl⟩
            · exact h.kept.write hsafe (fun o ho _ => ⟨o, List.mem_append_left _ ho, rfl⟩) id hid
                howes

theorem stepFlush_sound (h : s.Sound) (hsafe : s.safe .flushStep = true) :
    s.stepFlush.Sound := by
  have hknows := h.flush
  unfold stepFlush
  simp only [safe] at hsafe
  cases hstage : s.flush with
  | read token =>
      refine ⟨h.stored, h.enqueues, knows_next fun o ho => ?_, h.kept⟩
      exact h.stored o ((List.mem_append.mp ho).elim id id)
  | removeRead token id rest =>
      rw [hstage] at hknows
      refine ⟨h.stored, h.enqueues, ⟨fun o ho => ?_, hknows.2⟩, h.kept⟩
      exact (List.mem_append.mp ho).elim (hknows.1 o) (h.stored o)
  | removeWrite token id rest q =>
      rw [hstage] at hknows hsafe
      obtain ⟨hhonest, hdone⟩ := hknows
      have hkept : ∀ o ∈ q.filter fun o => o.id ≠ id, s.Honest o := fun o ho =>
        hhonest o (List.mem_append_right rest (List.mem_of_mem_filter ho))
      refine ⟨hkept, h.enqueues, knows_next fun o ho => ?_, h.kept.write hsafe fun o ho howes => ?_⟩
      · exact (List.mem_append.mp ho).elim (fun ho => hhonest o (List.mem_append_left q ho))
          (hkept o)
      · have hother : o.id ≠ id := by
          rintro rfl
          rw [hdone] at howes
          cases howes
        exact ⟨o, List.mem_filter.mpr ⟨ho, decide_eq_true hother⟩, rfl⟩
  | retryWrite token id rest q message =>
      rw [hstage] at hknows hsafe
      obtain ⟨hhonest, hbehind⟩ := hknows
      have hupdated : ∀ o ∈ q.map (PendingInventoryOp.retried id message), s.Honest o := by
        intro o ho
        obtain ⟨old, hold, rfl⟩ := List.mem_map.mp ho
        exact (hhonest old (List.mem_append_right rest hold)).retried (hbehind old hold)
      refine ⟨hupdated, h.enqueues, knows_next fun o ho => ?_, h.kept.write hsafe fun o ho _ => ?_⟩
      · exact (List.mem_append.mp ho).elim (fun ho => hhonest o (List.mem_append_left _ ho))
          (hupdated o)
      · exact ⟨_, List.mem_map_of_mem ho, retried_id id message o⟩
  | idle | send | reply => exact h

theorem Honest.behind {op o : PendingInventoryOp} (h : s.Honest o) (hid : o.id = op.id)
    (hcreated : ∀ id ∈ s.created, id ∈ s'.created) (hrejected : s'.rejected = op.id :: s.rejected) :
    s'.Behind o := by
  refine h.imp (hcreated _) fun hle => ?_
  rw [hrejected, hid, List.count_cons_self]
  exact Nat.lt_succ_of_le (hid ▸ hle)

/-- The server has refused the call for `op`. -/
theorem Sound.refuse {token : String} {op : PendingInventoryOp} {rest q : List PendingInventoryOp}
    {status : ℕ} (h : s.Sound) (hsend : s.flush = .send token op rest q)
    (hcreated : ∀ id ∈ s.created, id ∈ s'.created) (hrejected : s'.rejected = op.id :: s.rejected)
    (hstored : s'.stored = s.stored) (henqueues : s'.enqueues = s.enqueues)
    (henqueued : s'.enqueued = s.enqueued)
    (hflush : s'.flush = .reply token op rest q (.refused status)) : s'.Sound := by
  have hgrows : Grows s s' := by
    refine ⟨hcreated, fun id => ?_⟩
    rw [hrejected]
    exact List.count_le_count_cons
  have hknows := h.flush
  rw [hsend] at hknows
  refine h.grow hgrows hstored henqueues henqueued ?_
  rw [hflush]
  refine ⟨fun o ho => (hknows o (List.mem_cons_of_mem op ho)).grow hgrows, fun o ho hid => ?_⟩
  refine Honest.behind (hknows o ?_) hid hcreated hrejected
  rcases List.mem_cons.mp ho with rfl | ho
  · exact List.mem_cons_self
  · exact List.mem_cons_of_mem _ (List.mem_append_right rest ho)

theorem holds_of_ok {db db' : Db} {env : Env} {token : String} {op : PendingInventoryOp}
    {effects : List Effect} (h : db.exec env (posts token op) = .ok (effects, db')) :
    holds db env token op = true := by
  obtain ⟨auth, hauth, hbody⟩ := bind_ok.mp (h : db.asUser env token _ = _)
  obtain ⟨⟨itemId, mid⟩, hadd, hpure⟩ := bind_ok.mp (Db.silently_ok hbody).1
  obtain rfl := pure_ok.mp hpure
  rw [holds, hauth, Db.step_of_ok h]
  exact Db.addInventory_keyed op.keyed hadd

theorem handle_sound {env : Env} {token : String} {op : PendingInventoryOp}
    {rest q : List PendingInventoryOp} (h : s.Sound) (hsend : s.flush = .send token op rest q) :
    (s.handle env token op rest q).Sound := by
  have hmade : ∀ id ∈ s.created,
      id ∈ if holds s.db env token op then op.id :: s.created else s.created := by
    intro id hid
    split_ifs
    · exact List.mem_cons_of_mem _ hid
    · exact hid
  unfold handle
  cases hexec : s.db.exec env (posts token op) with
  | error e => exact h.refuse hsend hmade rfl rfl rfl rfl rfl
  | ok r =>
      have hgrows (s' : Phone) (hcreated : s'.created =
          if holds s.db env token op then op.id :: s.created else s.created)
          (hrejected : s'.rejected = s.rejected) : Grows s s' :=
        ⟨hcreated ▸ hmade, fun id => by rw [hrejected]⟩
      have hknows := h.flush
      rw [hsend] at hknows
      refine h.grow (hgrows _ rfl rfl) rfl rfl rfl ⟨fun o ho => ?_, ?_⟩
      · exact (hknows o (List.mem_cons_of_mem op ho)).grow (hgrows _ rfl rfl)
      · simp only [Answered, holds_of_ok hexec, if_true]
        exact List.mem_cons_self

theorem step_sound (h : s.Sound) {act : PhoneAct} (hsafe : s.safe act = true) :
    (s.step act).Sound := by
  cases act with
  | enqueue call now eventId body key =>
      simp only [step]
      split_ifs
      · exact h
      · refine ⟨h.stored, Table.forall_put h.enqueues fun o ho => ?_, h.flush, h.kept⟩
        obtain rfl := List.mem_singleton.mp ho
        exact .inr (Nat.zero_le _)
  | enqueueStep call => exact stepEnqueue_sound h hsafe
  | flush token =>
      simp only [step]
      split
      · split_ifs
        · exact h
        · exact ⟨h.stored, h.enqueues, trivial, h.kept⟩
      · exact h
  | flushStep => exact stepFlush_sound h hsafe
  | serve env =>
      simp only [step]
      split
      · rename_i token op rest q hsend
        exact handle_sound h hsend
      · exact h
  | refuse status =>
      simp only [step]
      split
      · rename_i token op rest q hsend
        exact h.refuse hsend (fun _ hid => hid) rfl rfl rfl rfl rfl
      · exact h
  | receive delivery =>
      simp only [step]
      split
      · exact ⟨h.stored, h.enqueues, trivial, h.kept⟩
      · rename_i token op rest q answer hreply
        have hknows := h.flush
        rw [hreply] at hknows
        simp only [safe, hreply, Bool.not_eq_true'] at hsafe
        exact ⟨h.stored, h.enqueues, knows_afterCall hknows.1 hknows.2 hsafe, h.kept⟩
      · exact h
  | server i =>
      exact h.grow ⟨fun _ hid => hid, fun _ => le_rfl⟩ rfl rfl rfl
        (h.flush.grow ⟨fun _ hid => hid, fun _ => le_rfl⟩)

/-! ## Runs -/

/-- In a run in which every write is based on an up-to-date list and no 409 arrives too early,
nothing is ever lost. -/
theorem nothingLost_of_safe (db : Db) {acts : List PhoneAct}
    (h : Along step (fun s act => s.safe act = true) { db := db } acts) :
    Along step (fun s act => (s.step act).NothingLost) { db := db } acts := by
  refine Along.strengthen (P := Sound) (fun s act hs hsafe => step_sound hs hsafe)
    (fun s act hs hsafe => (step_sound hs hsafe).kept) ?_ h
  exact ⟨fun o ho => by simp at ho, fun call stage hstage => by simp at hstage, trivial,
    fun id hid => by simp at hid⟩

section Examples

open SmallEvent

/-- The directory, with the event in the given status, and the operation "a" in the queue. -/
def oneSaved (status : EventStatus) : List PhoneAct :=
  [.server (clock 0, .directory { directory [2] [] with
    events := (∅ : Table EventId Event).put 1
      { status := status, startsAt := 0, endsAt := 100000000 } }),
   .enqueue 1 1 1 (item one) "a", .enqueueStep 1, .enqueueStep 1]

def uploadedMeanwhile : List PhoneAct :=
  oneSaved .active ++
    [.flush (token 2), .flushStep, .enqueue 2 2 1 (item one) "b", .serve (clock 3 10),
     .enqueueStep 2, .receive (.arrives ""), .enqueueStep 2, .flushStep, .flushStep]

theorem uploadedMeanwhile_kept :
    Along step (fun s act => (s.step act).NothingLost) { db := Db.empty } uploadedMeanwhile :=
  nothingLost_of_safe Db.empty (by decide +kernel)

def overwritten : List PhoneAct :=
  oneSaved .active ++
    [.flush (token 2), .flushStep, .refuse 429, .receive (.arrives ""),
     .enqueue 2 2 1 (item one) "b", .enqueueStep 2, .enqueueStep 2, .flushStep]

/-- The event is over when the flush uploads "a". -/
def uploadedAfterTheEnd : List PhoneAct :=
  oneSaved .completed ++
    [.flush (token 2), .flushStep, .serve (clock 3 10), .receive (.arrives ""), .flushStep,
     .flushStep]

/-- Either way an operation is gone that the server has rejected at most once. -/
theorem offlineQueue_loses :
    ¬(runFrom step { db := Db.empty } overwritten).NothingLost ∧
      ¬(runFrom step { db := Db.empty } uploadedAfterTheEnd).NothingLost := by
  constructor <;> decide +kernel

end Examples

end Phone
end Sahay
