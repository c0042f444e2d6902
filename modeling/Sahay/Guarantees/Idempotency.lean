import Sahay.Guarantees.AuditTrail
import Sahay.Server.Idempotency

/-!
# One key, one row

Calls of `createRequest` with one user and one key, and calls of `addInventory` with one key, in
any interleaving of their statements.  At most one of them inserts, and what a call returns is
that row.  But the lookup after a refused insert runs in the transaction that the refusal has
failed: a call whose insert comes second ends with an error of the database.
-/

namespace Sahay

def TxError.IsApp (e : TxError) : Prop := ∃ a, e = .app a

def TxError.IsReplay : TxError → Prop
  | .app a => a.code = .idempotencyReplay
  | _ => False

instance : DecidablePred TxError.IsReplay
  | .app _ => inferInstanceAs (Decidable (_ = _))
  | .checkViolation _ | .uniqueViolation | .invalidText | .transactionAborted | .undrawn
  | .scryptMemory => inferInstanceAs (Decidable False)

theorem not_isReplay_validation {details : ErrorDetails} :
    ¬(errors.validation details).IsReplay := by
  intro h
  cases h

theorem refusal {a : AppError} (h : ¬(TxError.app a).IsReplay) :
    (TxError.app a).IsApp ∧ ¬(TxError.app a).IsReplay := ⟨⟨a, rfl⟩, h⟩

namespace Db

variable {db : Db} {env : Env} {auth : AuthContext} {input : CreateRequestInput}

/-! ## Alone -/

theorem findByIdempotencyKey_locationChanges (env : Env) (ticket : RequestTicket) (userId : UserId)
    (key : String) :
    (applyAll (locationChanges env ticket) db).findByIdempotencyKey userId key =
      db.findByIdempotencyKey userId key := by
  unfold locationChanges
  cases ticket.coords <;> rfl

theorem insertRequest_eq (db : Db) (env : Env) (ticket : RequestTicket) :
    (db.insertRequest env ticket).map Prod.snd = do
      let db := applyAll (locationChanges env ticket) db
      ensure ((db.findByIdempotencyKey ticket.row.requesterId
        ticket.row.idempotencyKey).isNone) .transactionAborted
      ensure ticket.row.check (.checkViolation .requests)
      let id := db.requests.freshKey env.uuid.request
      let row := { ticket.row with createdAt := env.now }
      return { db with requests := db.requests.put id row }.recordCreationTransition id .requester
        (some "created") env.now := by
  unfold insertRequest locationChanges
  cases ticket.coords with
  | none =>
    dsimp only [applyAll, List.foldl_nil]
    unfold ensure
    split_ifs <;> rfl
  | some coords =>
    dsimp only [applyAll, List.foldl_cons, List.foldl_nil]
    unfold ensure
    split_ifs <;> rfl

/-- Without interference the statements do what `createRequest` does in one step. -/
theorem requestCreation_run (env : Env) (auth : AuthContext) (input : CreateRequestInput)
    (db : Db) :
    ((requestCreation env auth input).run db).map Prod.snd =
      (db.createRequest env auth input).map Prod.snd := by
  have hfind (db : Db) : (requestCreation env auth input).find db =
      db.findByIdempotencyKey auth.userId input.idempotencyKey := rfl
  have hchecks : (requestCreation env auth input).checks db = db.prepareRequest env auth input :=
    rfl
  unfold createRequest KeyedInsert.run
  rw [hfind, hchecks]
  cases hreplay : db.findByIdempotencyKey auth.userId input.idempotencyKey with
  | some row => rfl
  | none =>
    dsimp only
    rw [if_neg (by simp)]
    cases hprepare : db.prepareRequest env auth input with
    | error e => rfl
    | ok ticket =>
      have hprepared := prepareRequest_prepared hprepare
      have hmine : (applyAll (locationChanges env ticket) db).findByIdempotencyKey
          ticket.row.requesterId ticket.row.idempotencyKey = none := by
        rw [findByIdempotencyKey_locationChanges, hprepared.requesterId, hprepared.idempotencyKey]
        exact hreplay
      by_cases hcount : db.countActiveRequests auth.userId < Limits.maxActiveRequestsPerUser
      · have hinsert := insertRequest_eq db env ticket
        dsimp only at hinsert
        rw [hmine] at hinsert
        simp only [bind_ok_left, ensure_pos hcount]
        refine Eq.trans ?_ hinsert.symm
        by_cases hcheck : ticket.row.check
        · simp only [requestCreation, ensure_pos hcount, ensure_pos hcheck, bind_ok_left]
          rfl
        · simp only [requestCreation, ensure_pos hcount, ensure_neg hcheck, bind_ok_left]
          rfl
      · simp [requestCreation, ensure_neg, hcount, Except.map]

theorem itemCreation_run (env : Env) (userId : UserId) (eventId : EventId)
    (input : AddInventoryInput) (key : String) (db : Db) :
    ((itemCreation env userId eventId input key).run db).map (fun r => (r.1.1, r.2)) =
      db.addInventory env userId eventId { input with idempotencyKey := some key } := by
  have hfind (db : Db) : (itemCreation env userId eventId input key).find db =
      db.findItemByIdempotencyKey userId key := rfl
  have hexisting : db.itemByIdempotencyKey userId (some key) =
      (db.findItemByIdempotencyKey userId key).map Prod.fst := by
    change (db.findItemByIdempotencyKey userId key).bind (fun r => some r.1) = _
    cases db.findItemByIdempotencyKey userId key <;> rfl
  unfold addInventory KeyedInsert.run
  rw [hfind, hexisting]
  cases hreplay : db.findItemByIdempotencyKey userId key with
  | some row => rfl
  | none =>
    unfold itemCreation prepareItem
    dsimp only [Option.map_none]
    cases found (db.resolveEvent eventId) errors.notFound with
    | error e => rfl
    | ok event =>
      by_cases hstatus : event.status = .active ∨ event.status = .scheduled
      · cases found (db.getMembership eventId userId) errors.forbidden with
        | error e => simp [ensure_pos, hstatus, Except.map]
        | ok membership =>
          cases found (db.effectiveCategory eventId input.categoryId) errors.prohibitedCategory with
          | error e => simp [ensure_pos, hstatus, Except.map]
          | ok effective =>
            simp only [ensure_pos hstatus, bind_ok_left]
            unfold ensure
            split_ifs <;> rfl
      · simp [ensure_neg, hstatus, Except.map]

/-! ## What the calls share -/

theorem first_put {ρ : Type} {t : Table ℕ ρ} {p : ℕ → ρ → Bool} {k : ℕ} {r : ρ}
    (hp : p k r = true) : (t.put k r).first p = some (k, r) := by
  rw [Table.first, Table.select, AList.entries_insert, List.filter_cons]
  simp [hp]

def AppOnly {α : Type} (x : Outcome α) : Prop := ∀ e, x = .error e → e.IsApp

/-- The checks before an insert throw errors of the application, and none of them says that the
call repeats another. -/
abbrev Refuses {α : Type} (x : Outcome α) : Prop := Throws (fun e => e.IsApp ∧ ¬e.IsReplay) x

theorem prepareRequest_refuses (db : Db) (env : Env) (auth : AuthContext)
    (input : CreateRequestInput) : Refuses (db.prepareRequest env auth input) := by
  unfold prepareRequest
  refine Throws.bind (.found (refusal (by decide))) fun event => ?_
  refine Throws.bind (.found (refusal (by decide))) fun membership => ?_
  refine Throws.bind (.ensure (refusal (by decide))) fun _ => ?_
  refine Throws.bind (.ensure (refusal (by decide))) fun _ => ?_
  refine Throws.bind (.ensure (refusal (by decide))) fun _ => ?_
  refine Throws.bind (.ensure (refusal (by decide))) fun _ => ?_
  refine Throws.bind (.ensure (refusal (by decide))) fun _ => ?_
  refine Throws.bind (.found (refusal (by decide))) fun effective => ?_
  refine Throws.bind (.ensure (refusal not_isReplay_validation)) fun _ => ?_
  refine Throws.bind (.ensure (refusal not_isReplay_validation)) fun _ => ?_
  exact Throws.bind (.ensure (refusal not_isReplay_validation)) fun _ => .pure _

theorem prepareRequest_appOnly (db : Db) (env : Env) (auth : AuthContext)
    (input : CreateRequestInput) : AppOnly (db.prepareRequest env auth input) :=
  fun e h => (prepareRequest_refuses db env auth input e h).1

theorem prepareItem_refuses (db : Db) (userId : UserId) (eventId : EventId)
    (input : AddInventoryInput) : Refuses (db.prepareItem userId eventId input) := by
  unfold prepareItem
  refine Throws.bind (.found (refusal (by decide))) fun event => ?_
  refine Throws.bind (.ensure (refusal (by decide))) fun _ => ?_
  refine Throws.bind (.found (refusal (by decide))) fun membership => ?_
  refine Throws.bind (.found (refusal (by decide))) fun effective => ?_
  refine Throws.bind (.ensure (refusal not_isReplay_validation)) fun _ => ?_
  exact Throws.bind (.ensure (refusal not_isReplay_validation)) fun _ => .pure _

theorem prepareItem_appOnly (db : Db) (userId : UserId) (eventId : EventId)
    (input : AddInventoryInput) : AppOnly (db.prepareItem userId eventId input) :=
  fun e h => (prepareItem_refuses db userId eventId input e h).1

theorem prepareRequest_check {ticket : RequestTicket}
    (h : db.prepareRequest env auth input = .ok ticket) : ticket.row.check := by
  simp only [prepareRequest, bind_ok, found_ok, ensure_ok, pure_ok] at h
  obtain ⟨event, -, membership, -, -, -, -, -, -, -, -, -, -, -, effective, -, -, -, -, -, -, -,
    rfl⟩ := h
  exact ⟨input.qty.2.1, le_refl 0, input.qty.2.1.le⟩

theorem requestCreation_shares (env : Env) (auth : AuthContext) (input : CreateRequestInput) :
    (requestCreation env auth input).Shares engine (.requestKey auth.userId input.idempotencyKey)
      (fun db => db.findByIdempotencyKey auth.userId input.idempotencyKey) TxError.IsApp where
  entry_eq := rfl
  find_eq := rfl
  contains _ := rfl
  checks db e h := prepareRequest_appOnly db env auth input e h
  admits ticket db e h := Throws.ensure ⟨_, rfl⟩ e h
  before ticket change hmem := by
    change change ∈ locationChanges env ticket at hmem
    unfold locationChanges at hmem
    split at hmem
    · obtain rfl := List.mem_singleton.mp hmem
      exact ⟨by simp, fun _ => rfl⟩
    · cases hmem
  row checked ticket db hticket hfind := by
    have hprepared := prepareRequest_prepared hticket
    have hcheck := prepareRequest_check hticket
    let row := { ticket.row with createdAt := env.now }
    refine ⟨(db.requests.freshKey env.uuid.request, row), fun other => { other with
      requests := other.requests.put (db.requests.freshKey env.uuid.request) row }, ?_, ?_⟩
    · simp only [requestCreation, ensure_pos hcheck, bind_ok_left]
      rfl
    · apply first_put
      rw [Bool.and_eq_true, decide_eq_true_eq, decide_eq_true_eq]
      exact ⟨hprepared.requesterId, hprepared.idempotencyKey⟩
  after created change hmem db := by
    obtain rfl := List.mem_singleton.mp hmem
    rfl
  uniqueViolation h := by
    obtain ⟨a, ha⟩ := h
    cases ha
  transactionAborted h := by
    obtain ⟨a, ha⟩ := h
    cases ha

theorem itemCreation_shares (env : Env) (userId : UserId) (eventId : EventId)
    (input : AddInventoryInput) (key : String) :
    (itemCreation env userId eventId input key).Shares engine (.inventoryKey userId key)
      (fun db => db.findItemByIdempotencyKey userId key) TxError.IsApp where
  entry_eq := rfl
  find_eq := rfl
  contains _ := rfl
  checks db e h := prepareItem_appOnly db userId eventId input e h
  admits event db e h := Throws.ensure ⟨_, rfl⟩ e h
  before event change hmem := by cases hmem
  row checked event db hevent hfind := by
    refine ⟨_, _, rfl, ?_⟩
    apply first_put
    simp
  after created change hmem db := by cases hmem
  uniqueViolation h := by
    obtain ⟨a, ha⟩ := h
    cases ha
  transactionAborted h := by
    obtain ⟨a, ha⟩ := h
    cases ha

/-! ## What the calls leave -/

def creations (db : Db) (rid : RequestId) : ℕ :=
  (trailOf db.requestTransitions rid).countP fun t => t.fromStatus = none

def requestKeyed (userId : UserId) (key : String) (_ : RequestId) (r : Request) : Bool :=
  r.requesterId = userId && r.idempotencyKey = key

def itemKeyed (userId : UserId) (key : String) (_ : ItemId) (item : InventoryItem) : Bool :=
  item.userId = userId && item.idempotencyKey = some key

theorem creations_eq_one {rid : RequestId} {status : RequestStatus}
    (h : IsPath (trailOf db.requestTransitions rid) status) : db.creations rid = 1 := by
  obtain ⟨t, ts, htrail, hfrom, -⟩ := h.first
  have hlinked := h.linked
  rw [htrail] at hlinked
  have hlater (ts : List RequestTransition) : ∀ t : RequestTransition,
      (t :: ts).IsChain (fun t t' => t'.fromStatus = some t.toStatus) →
      ts.countP (fun t => t.fromStatus = none) = 0 := by
    induction ts with
    | nil => exact fun _ _ => rfl
    | cons t' ts ih =>
      intro t hchain
      obtain ⟨hstep, hrest⟩ := List.isChain_cons_cons.mp hchain
      rw [List.countP_cons, ih t' hrest, hstep]
      rfl
  rw [creations, htrail, List.countP_cons, hlater ts t hlinked, hfrom]
  rfl

/-- What `createRequest` writes when there is no row under the key. -/
theorem createRequest_new {db' : Db} {effects : List Effect}
    (hnew : db.findByIdempotencyKey auth.userId input.idempotencyKey = none)
    (h : db.createRequest env auth input = .ok (effects, db')) :
    ∃ id r, id ∉ db.requests ∧ requestKeyed auth.userId input.idempotencyKey id r = true ∧
      db'.requests = db.requests.put id r ∧ db'.requestTransitions = db.requestTransitions ++
        [⟨id, none, .searching, .requester, some "created", env.now⟩] := by
  rcases createRequest_ok.mp h with ⟨hreplay, -, -⟩ | ⟨-, ticket, hticket, -, hinsert⟩
  · rw [hnew] at hreplay
    cases hreplay
  obtain ⟨-, hexchange, -⟩ := insertRequest_ok hinsert
  have hprepared := prepareRequest_prepared hticket
  refine ⟨_, _, Table.freshKey_notMem _ _, ?_, congrArg Exchange.requests hexchange,
    congrArg Exchange.requestTransitions hexchange⟩
  rw [requestKeyed, Bool.and_eq_true, decide_eq_true_eq, decide_eq_true_eq]
  exact ⟨hprepared.requesterId, hprepared.idempotencyKey⟩

/-- What `addInventory` writes when there is no row under the key. -/
theorem itemCreation_new {userId : UserId} {eventId : EventId} {input : AddInventoryInput}
    {key : String} {created : ItemId × InventoryItem} {db' : Db}
    (hnew : db.findItemByIdempotencyKey userId key = none)
    (h : (itemCreation env userId eventId input key).run db = .ok (created, db')) :
    created.1 ∉ db.inventoryItems ∧ itemKeyed userId key created.1 created.2 = true ∧
      db'.inventoryItems = db.inventoryItems.put created.1 created.2 := by
  have hfind : (itemCreation env userId eventId input key).find db = none := hnew
  rw [KeyedInsert.run, hfind] at h
  simp only [itemCreation, bind_ok, pure_ok, Prod.mk.injEq] at h
  obtain ⟨event, -, -, -, _, rfl, rfl, rfl⟩ := h
  exact ⟨Table.freshKey_notMem _ _, by simp [itemKeyed], rfl⟩

/-- Every call that has ended has returned a row or thrown an error of the application, and all rows
returned are one. -/
structure ReturnsOne {ι ρ : Type} (pool : Pool ι Db CreationLock TxError ρ) : Prop where
  returned : ∀ i result, pool.result? i = some result →
    (∃ row, result = .ok row) ∨ ∃ e, result = .error (.app e)
  same : ∀ i j row row', pool.result? i = some (.ok row) → pool.result? j = some (.ok row') →
    row = row'

/-- The calls of `createRequest` have one result, one row and one creation transition. -/
structure RequestOnce {ι : Type} (userId : UserId) (key : String)
    (pool : Pool ι Db CreationLock TxError (RequestId × Request)) : Prop
    extends ReturnsOne pool where
  once : ∀ i row, pool.result? i = some (.ok row) →
    pool.committed.requests.count (requestKeyed userId key) = 1 ∧
      pool.committed.creations row.1 = 1

/-- The calls of `addInventory` have one result and one row. -/
structure ItemOnce {ι : Type} (userId : UserId) (key : String)
    (pool : Pool ι Db CreationLock TxError (ItemId × InventoryItem)) : Prop
    extends ReturnsOne pool where
  once : ∀ i row, pool.result? i = some (.ok row) →
    pool.committed.inventoryItems.count (itemKeyed userId key) = 1

section Calls

variable {ι : Type} {calls : ι → Env × AuthContext} {userId : UserId} {schedule : List ι}

theorem ReturnsOne.of_results {ρ : Type} {pool : Pool ι Db CreationLock TxError ρ}
    (find : Db → Option ρ)
    (hresult : ∀ i result, pool.result? i = some result →
      (∃ row, result = .ok row) ∨ ∃ e, result = .error e ∧ e.IsApp)
    (hfound : ∀ i row, pool.result? i = some (.ok row) → find pool.committed = some row) :
    ReturnsOne pool where
  returned i result h := by
    rcases hresult i result h with hrow | ⟨e, rfl, a, rfl⟩
    · exact .inl hrow
    · exact .inr ⟨a, rfl⟩
  same i j row row' h h' := Option.some.inj ((hfound i row h).symm.trans (hfound j row' h'))

theorem ReturnsOne.isApp {ρ : Type} {pool : Pool ι Db CreationLock TxError ρ}
    (h : ReturnsOne pool) {i : ι} {e : TxError} (hresult : pool.result? i = some (.error e)) :
    e.IsApp := by
  rcases h.returned i _ hresult with ⟨row, hrow⟩ | ⟨a, ha⟩
  · cases hrow
  · cases ha
    exact ⟨a, rfl⟩

theorem createRequests_shares (input : CreateRequestInput)
    (huser : ∀ i, (calls i).2.userId = userId) (i : ι) :
    (requestCreation (calls i).1 (calls i).2 input).Shares engine
      (.requestKey userId input.idempotencyKey)
      (fun db => db.findByIdempotencyKey userId input.idempotencyKey) TxError.IsApp :=
  huser i ▸ requestCreation_shares (calls i).1 (calls i).2 input

variable [Fintype ι] [DecidableEq ι]

/-- The state that a schedule of concurrent calls of `createRequest` leaves. -/
def createRequests (db : Db) (calls : ι → Env × AuthContext) (input : CreateRequestInput) :
    Pool ι Db CreationLock TxError (RequestId × Request) :=
  .init db fun i => (requestCreation (calls i).1 (calls i).2 input).script

/-- Concurrent calls of `addInventory`. -/
def addItems (db : Db) (envs : ι → Env) (userId : UserId) (eventId : EventId)
    (input : AddInventoryInput) (key : String) :
    Pool ι Db CreationLock TxError (ItemId × InventoryItem) :=
  .init db fun i => (itemCreation (envs i) userId eventId input key).script

/-- Whenever a call inserts there is no committed row under the key yet. -/
def InsertsFirst {ρ : Type} (entry : CreationLock) (find : Db → Option ρ)
    (start : Pool ι Db CreationLock TxError ρ) (schedule : List ι) : Prop :=
  Along (Pool.step engine)
    (fun pool i => ¬KeyedInsert.Collides entry find pool.committed (pool.connections i))
    start schedule

instance {ρ : Type} (entry : CreationLock) (find : Db → Option ρ)
    (start : Pool ι Db CreationLock TxError ρ) (schedule : List ι) :
    Decidable (InsertsFirst entry find start schedule) :=
  inferInstanceAs (Decidable (Along _ _ _ _))

/-- The row that the calls return is the only one, and created once. -/
theorem createRequests_once (hdb : db.Reached)
    (hunique : db.requests.count (requestKeyed userId input.idempotencyKey) ≤ 1)
    (huser : ∀ i, (calls i).2.userId = userId) (schedule : List ι) {i : ι}
    {row : RequestId × Request} :
    let pool := runFrom (Pool.step engine) (createRequests db calls input) schedule
    pool.result? i = some (.ok row) →
      pool.committed.requests.count (requestKeyed userId input.idempotencyKey) = 1 ∧
        pool.committed.creations row.1 = 1 := by
  intro pool hresult
  have hcoordinated := KeyedInsert.run_coordinated (createRequests_shares input huser) db schedule
  have hfound : pool.committed.findByIdempotencyKey userId input.idempotencyKey = some row :=
    hcoordinated.result_ok hresult
  obtain ⟨hrow, hkeyed⟩ := Table.first_some hfound
  rcases hcoordinated.committed with hsame | ⟨hnone, j, created, -, hrun⟩
  · change pool.committed = db at hsame
    rw [hsame] at hrow ⊢
    have hpositive : 0 < db.requests.count (requestKeyed userId input.idempotencyKey) :=
      Table.count_pos_iff.mpr ⟨row.1, row.2, hrow, hkeyed⟩
    exact ⟨by omega, creations_eq_one (hdb.audited.path row.1 row.2 hrow)⟩
  · have hsequential := requestCreation_run (calls j).1 (calls j).2 input db
    rw [hrun] at hsequential
    cases hcreate : db.createRequest (calls j).1 (calls j).2 input with
    | error e =>
      rw [hcreate] at hsequential
      cases hsequential
    | ok result =>
      rw [hcreate] at hsequential
      obtain ⟨effects, db'⟩ := result
      have hcommitted : pool.committed = db' := Except.ok.inj hsequential
      have hnone' : db.findByIdempotencyKey (calls j).2.userId input.idempotencyKey = none :=
        (huser j).symm ▸ hnone
      obtain ⟨id, r, hfresh, hnew, hrequests, htransitions⟩ := createRequest_new hnone' hcreate
      rw [huser j] at hnew
      have hold : db.requests.count (requestKeyed userId input.idempotencyKey) = 0 :=
        Table.count_eq_zero_iff.mpr (Table.first_none.mp hnone)
      rw [hcommitted] at hrow ⊢
      rw [hrequests] at hrow ⊢
      constructor
      · rw [Table.count_put hfresh, hnew, hold]
        rfl
      · have hid : row.1 = id := by
          by_contra hne
          rw [Table.lookup_put, if_neg hne] at hrow
          have hother := Table.first_none.mp hnone row.1 row.2 hrow
          rw [hkeyed] at hother
          cases hother
        have htrail : trailOf db.requestTransitions id = [] :=
          (Reached.audited hdb).trail_eq_nil hfresh
        rw [hid, creations, htransitions, trailOf_snoc, if_pos rfl, htrail]
        rfl

theorem addItems_once {envs : ι → Env} {eventId : EventId} {input : AddInventoryInput}
    {key : String} (hunique : db.inventoryItems.count (itemKeyed userId key) ≤ 1)
    (schedule : List ι) {i : ι} {row : ItemId × InventoryItem} :
    let pool := runFrom (Pool.step engine) (addItems db envs userId eventId input key) schedule
    pool.result? i = some (.ok row) →
      pool.committed.inventoryItems.count (itemKeyed userId key) = 1 := by
  intro pool hresult
  have hcoordinated := KeyedInsert.run_coordinated
    (fun i => itemCreation_shares (envs i) userId eventId input key) db schedule
  have hfound : pool.committed.findItemByIdempotencyKey userId key = some row :=
    hcoordinated.result_ok hresult
  obtain ⟨hrow, hkeyed⟩ := Table.first_some hfound
  rcases hcoordinated.committed with hsame | ⟨hnone, j, created, -, hrun⟩
  · change pool.committed = db at hsame
    rw [hsame] at hrow ⊢
    have hpositive : 0 < db.inventoryItems.count (itemKeyed userId key) :=
      Table.count_pos_iff.mpr ⟨row.1, row.2, hrow, hkeyed⟩
    omega
  · obtain ⟨hfresh, hnew, hitems⟩ := itemCreation_new hnone hrun
    have hold : db.inventoryItems.count (itemKeyed userId key) = 0 :=
      Table.count_eq_zero_iff.mpr (Table.first_none.mp hnone)
    change pool.committed.inventoryItems = db.inventoryItems.put created.1 created.2 at hitems
    rw [hitems, Table.count_put hfresh, hnew, hold]
    rfl

end Calls

/-- After the calls of `createRequest` as after those of `addInventory`: if whenever a call inserts
there is no row under the key yet, they return one row.  If they have all ended, they do so
only then. -/
theorem creation_once_iff {ι : Type} [Fintype ι] [DecidableEq ι] {db : Db} (hdb : db.Reached)
    (userId : UserId) (schedule : List ι) :
    (∀ {calls : ι → Env × AuthContext} (input : CreateRequestInput),
      db.requests.count (requestKeyed userId input.idempotencyKey) ≤ 1 →
      (∀ i, (calls i).2.userId = userId) →
      let start := createRequests db calls input
      let pool := runFrom (Pool.step engine) start schedule
      let insertsFirst := InsertsFirst (.requestKey userId input.idempotencyKey)
        (fun db => db.findByIdempotencyKey userId input.idempotencyKey) start schedule
      (insertsFirst → RequestOnce userId input.idempotencyKey pool) ∧
        ((∀ i, (pool.result? i).isSome = true) →
          RequestOnce userId input.idempotencyKey pool → insertsFirst)) ∧
    (∀ (envs : ι → Env) (eventId : EventId) (input : AddInventoryInput) (key : String),
      db.inventoryItems.count (itemKeyed userId key) ≤ 1 →
      let start := addItems db envs userId eventId input key
      let pool := runFrom (Pool.step engine) start schedule
      let insertsFirst := InsertsFirst (.inventoryKey userId key)
        (fun db => db.findItemByIdempotencyKey userId key) start schedule
      (insertsFirst → ItemOnce userId key pool) ∧
        ((∀ i, (pool.result? i).isSome = true) → ItemOnce userId key pool → insertsFirst)) := by
  constructor
  · intro calls input hunique huser start pool insertsFirst
    have hshares := createRequests_shares input huser
    have hcoordinated := KeyedInsert.run_coordinated hshares db schedule
    constructor
    · intro hfree
      have hone : ReturnsOne pool := .of_results
        (fun db => db.findByIdempotencyKey userId input.idempotencyKey)
        (fun i result h => KeyedInsert.run_result hshares hfree h)
        fun i row h => hcoordinated.result_ok h
      exact ⟨hone, fun i row h => createRequests_once hdb hunique huser schedule h⟩
    · intro hended honce
      exact KeyedInsert.along_of_results hshares hended fun i e => honce.toReturnsOne.isApp
  · intro envs eventId input key hunique start pool insertsFirst
    have hshares (i : ι) := itemCreation_shares (envs i) userId eventId input key
    have hcoordinated := KeyedInsert.run_coordinated hshares db schedule
    constructor
    · intro hfree
      have hone : ReturnsOne pool := .of_results
        (fun db => db.findItemByIdempotencyKey userId key)
        (fun i result h => KeyedInsert.run_result hshares hfree h)
        fun i row h => hcoordinated.result_ok h
      exact ⟨hone, fun i row h => addItems_once hunique schedule h⟩
    · intro hended honce
      exact KeyedInsert.along_of_results hshares hended fun i e => honce.toReturnsOne.isApp

/-! ## Two calls -/

def gathered : Db :=
  runFrom Db.step Db.empty [(SmallEvent.clock 0, .directory (SmallEvent.directory [1, 2] []))]

def askers (i : Fin 2) : Env × AuthContext :=
  (SmallEvent.clock (1 + i.val) (20 + i.val), ⟨1, 1, .user, .active, true, true, false⟩)

def askTwice : Pool (Fin 2) Db CreationLock TxError (RequestId × Request) :=
  createRequests gathered askers (SmallEvent.request SmallEvent.two "a")

def offerTwice : Pool (Fin 2) Db CreationLock TxError (ItemId × InventoryItem) :=
  addItems gathered (fun i => SmallEvent.clock (1 + i.val) (10 + i.val)) 2 1
    (SmallEvent.item SmallEvent.two) "b"

def oneByOne : List (Fin 2) := List.replicate 7 0 ++ List.replicate 7 1

/-- Both calls have looked for the row and checked their input before one of them inserts. -/
def raced : List (Fin 2) := [0, 0, 1, 1] ++ List.replicate 5 0 ++ List.replicate 5 1

theorem creation_once_iff_oneByOne :
    RequestOnce 1 "a" (runFrom (Pool.step engine) askTwice oneByOne) ∧
      ItemOnce 2 "b" (runFrom (Pool.step engine) offerTwice oneByOne) := by
  have hreached : gathered.Reached := ⟨_, rfl⟩
  have huser (i : Fin 2) : (askers i).2.userId = 1 := rfl
  have hrequests : gathered.requests.count (requestKeyed 1 "a") ≤ 1 := by decide +kernel
  have hitems : gathered.inventoryItems.count (itemKeyed 2 "b") ≤ 1 := by decide +kernel
  constructor
  · have hfirst : InsertsFirst (.requestKey 1 "a") (fun db => db.findByIdempotencyKey 1 "a")
        askTwice oneByOne := by
      decide +kernel
    exact ((creation_once_iff hreached 1 oneByOne).1 (SmallEvent.request SmallEvent.two "a")
      hrequests huser).1 hfirst
  · have hfirst : InsertsFirst (.inventoryKey 2 "b") (fun db => db.findItemByIdempotencyKey 2 "b")
        offerTwice oneByOne := by
      decide +kernel
    exact ((creation_once_iff hreached 2 oneByOne).2 _ 1 (SmallEvent.item SmallEvent.two) "b"
      hitems).1 hfirst

def thrown {ρ : Type} (result : Option (Outcome ρ)) : Option TxError :=
  match result with
  | some (.error e) => some e
  | _ => none

theorem not_returnsOne {ι ρ : Type} {pool : Pool ι Db CreationLock TxError ρ} {i : ι}
    (h : thrown (pool.result? i) = some .transactionAborted) : ¬ReturnsOne pool := by
  intro hone
  cases hresult : pool.result? i with
  | none =>
    rw [hresult] at h
    cases h
  | some result =>
    rcases hone.returned i result hresult with ⟨row, rfl⟩ | ⟨a, rfl⟩
    · rw [hresult] at h
      cases h
    · rw [hresult] at h
      cases h

/-- The second call looks for the row of the first in the transaction that has failed. -/
theorem creation_once_fails :
    ¬RequestOnce 1 "a" (runFrom (Pool.step engine) askTwice raced) ∧
      ¬ItemOnce 2 "b" (runFrom (Pool.step engine) offerTwice raced) := by
  have hasked : thrown ((runFrom (Pool.step engine) askTwice raced).result? 1) =
      some .transactionAborted := by
    decide +kernel
  have hoffered : thrown ((runFrom (Pool.step engine) offerTwice raced).result? 1) =
      some .transactionAborted := by
    decide +kernel
  exact ⟨fun h => not_returnsOne hasked h.toReturnsOne,
    fun h => not_returnsOne hoffered h.toReturnsOne⟩

end Db
end Sahay
