import Mathlib.Tactic.Ring
import Sahay.Refinement.System

/-!
# Every match is settled at most once

A settlement takes its final quantity from one item and gives it to one request;
nothing else moves stock to requests.  A match that has closed never changes
again, so in any run it is settled at most once, and what a request has received
is the sum over its settled matches.  The source computes the new stock with
doubles: on whole quantities that is exact, on a stock of 1.1 it is not.
-/

namespace Sahay

/-! ## What a step moves -/

namespace Exchange

/-- `final` leaves the stock of one item and reaches one request; the stock of the
other items and what other requests have received stay as they are. -/
structure Moves (x x' : Exchange) (itemId : ItemId) (rid : RequestId) (final : Qty) :
    Prop where
  item : itemId ∈ x.inventoryItems
  request : rid ∈ x.requests
  stock : ∀ id, (x'.inventoryItems.lookup id).map InventoryItem.qtyOnHand =
    (x.inventoryItems.lookup id).map fun item =>
      item.qtyOnHand - if id = itemId then final else 0
  credit : ∀ id, (x'.requests.lookup id).map Request.qtyFulfilled =
    (x.requests.lookup id).map fun r => r.qtyFulfilled + if id = rid then final else 0

def isSettled (x : Exchange) (mid : MatchId) : Bool :=
  (x.matchRows.lookup mid).any fun m => m.status.isSettled

end Exchange

theorem Table.map_lookup_replace {ρ : Type} {t : Table ℕ ρ} {k : ℕ} {r r' : ρ} {g : ρ → Qty}
    {d : Qty} (h : t.lookup k = some r) (hg : g r' = g r + d) (k' : ℕ) :
    ((t.replace k r').lookup k').map g =
      (t.lookup k').map fun row => g row + if k' = k then d else 0 := by
  rw [lookup_replace h]
  by_cases hk : k' = k
  · rw [if_pos hk, hk, h, Option.map_some, Option.map_some, hg, if_pos rfl]
  · simp [hk]

/-- Replacing one item and one request by what the quantity leaves and makes of them. -/
theorem Exchange.Moves.of_replace {x x' : Exchange} {itemId : ItemId} {item item' : InventoryItem}
    {rid : RequestId} {r r' : Request} {final : Qty}
    (hi : x.inventoryItems.lookup itemId = some item) (hr : x.requests.lookup rid = some r)
    (hitems : x'.inventoryItems = x.inventoryItems.replace itemId item')
    (hrequests : x'.requests = x.requests.replace rid r')
    (hstock : item'.qtyOnHand = item.qtyOnHand - final)
    (hcredit : r'.qtyFulfilled = r.qtyFulfilled + final) : x.Moves x' itemId rid final where
  item := Table.mem_iff_exists.mpr ⟨item, hi⟩
  request := Table.mem_iff_exists.mpr ⟨r, hr⟩
  stock id := by
    rw [hitems, Table.map_lookup_replace hi (hstock.trans (sub_eq_add_neg _ _))]
    congr 1
    funext row
    split_ifs <;> ring
  credit id := by rw [hrequests, Table.map_lookup_replace hr hcredit]

variable {c : Ctx} {x x' : Exchange} {mid : MatchId} {m m' : Match}

/-! ## Closing a match -/

/-- An active match that closes is settled or cancelled: settled with its final
quantity moved, or cancelled with nothing moved. -/
theorem Lifecycle.closes (h : Lifecycle c x x') (hm : x.matchRows.lookup mid = some m)
    (hm' : x'.matchRows.lookup mid = some m') (hactive : m.status = .active)
    (hclosed : m'.status ≠ .active) :
    (m'.status.isSettled = true ∧ ∃ final, m'.finalQty = some final ∧
        x.Moves x' m.inventoryItemId m.requestId final) ∨
      (m'.status.isCancelled = true ∧ x.Moves x' m.inventoryItemId m.requestId 0) := by
  have hsame (heq : x'.matchRows.lookup mid = x.matchRows.lookup mid) : False := by
    rw [heq, hm] at hm'
    exact hclosed (Option.some.inj hm' ▸ hactive)
  cases h with
  | accept oid o r item mid₀ m₀ cid ho hoffered hcaller hr hoffering hi hmid =>
      have hne : mid ≠ mid₀ := by
        rintro rfl
        exact hmid (Table.mem_iff_exists.mpr ⟨m, hm⟩)
      exact (hsame (by rw [Exchange.moveRequest_matchRows, Table.lookup_put, if_neg hne])).elim
  | confirm mid₀ m₀ side qty hm₀ hactive₀ =>
      rw [Table.lookup_replace hm₀] at hm'
      split_ifs at hm' with hk
      · rw [← Option.some.inj hm', Match.setConfirmedQty_status] at hclosed
        exact absurd hactive₀ hclosed
      · exact absurd hactive (Option.some.inj (hm.symm.trans hm') ▸ hclosed)
  | meet mid₀ m₀ side state hm₀ hactive₀ =>
      rw [Table.lookup_replace hm₀] at hm'
      split_ifs at hm' with hk
      · rw [← Option.some.inj hm'] at hclosed
        exact absurd hactive₀ (by cases side <;> exact hclosed)
      · exact absurd hactive (Option.some.inj (hm.symm.trans hm') ▸ hclosed)
  | settle mid₀ m₀ m₁ r item cid conversation final disputed closeReason actor hm₀ hactive₀
      hconfirms hfinal hr hmatched hi =>
      rw [Exchange.moveRequest_matchRows, Table.lookup_replace hm₀] at hm'
      split_ifs at hm' with hk
      · subst hk
        obtain rfl : m₀ = m := Option.some.inj (hm₀.symm.trans hm)
        rw [← Option.some.inj hm']
        exact .inl ⟨settledMatchStatus_isSettled _ _, final, hfinal,
          .of_replace hi hr rfl rfl rfl rfl⟩
      · exact absurd hactive (Option.some.inj (hm.symm.trans hm') ▸ hclosed)
  | cancel mid₀ m₀ r item cid conversation conversation' canceller status closeReason reason hm₀
      hactive₀ hstatus hr hmatched hi =>
      rw [Exchange.moveRequest_matchRows, Table.lookup_replace hm₀] at hm'
      split_ifs at hm' with hk
      · subst hk
        obtain rfl : m₀ = m := Option.some.inj (hm₀.symm.trans hm)
        rw [← Option.some.inj hm']
        exact .inr ⟨hstatus, .of_replace hi hr rfl rfl (sub_zero _).symm (add_zero _).symm⟩
      · exact absurd hactive (Option.some.inj (hm.symm.trans hm') ▸ hclosed)
  | _ => exact (hsame rfl).elim

/-! ## Steps without a settlement -/

theorem Exchange.isSettled_eq (hm : x.matchRows.lookup mid = some m) :
    x.isSettled mid = m.status.isSettled := by
  rw [Exchange.isSettled, hm, Option.any_some]

/-- A step that settles nothing gives nothing to any request, and takes nothing
from stock unless it is an owner's edit. -/
theorem Lifecycle.steady (h : Lifecycle c x x')
    (hnone : ∀ mid, x'.isSettled mid = true → x.isSettled mid = true) :
    Table.Keeps Request.qtyFulfilled x.requests x'.requests ∧
      (c.op.restocks = false → Table.Keeps InventoryItem.qtyOnHand x.inventoryItems
        x'.inventoryItems) := by
  have hedits (hrestocks : c.op.restocks = true) {P : Prop} (hc : c.op.restocks = false) : P :=
    absurd (hrestocks.symm.trans hc) (by decide)
  cases h with
  | addItem id item hid => exact ⟨.refl _ _, fun _ => .put _ hid item⟩
  | editItems f hrestocks => exact ⟨.refl _ _, hedits hrestocks⟩
  | dropItem id hrestocks => exact ⟨.refl _ _, hedits hrestocks⟩
  | openRequest id r hid => exact ⟨.put _ hid r, fun _ => .refl _ _⟩
  | closeRequest id r target actor reason hr => exact ⟨.replace hr rfl, fun _ => .refl _ _⟩
  | createOffer oid o r item hoid hoffered hr => exact ⟨.replace hr rfl, fun _ => .refl _ _⟩
  | closeOffer oid o r status actor reason ho hoffered hstatus hr =>
      exact ⟨.replace hr rfl, fun _ => .refl _ _⟩
  | accept oid o r item mid m cid ho hoffered hcaller hr hoffering hi =>
      exact ⟨.replace hr rfl, fun _ => .replace hi rfl⟩
  | settle mid m m' r item cid conversation final disputed closeReason actor hm hactive =>
      have hbefore := hnone mid (by
        rw [Exchange.isSettled, Exchange.moveRequest_matchRows, Table.lookup_replace hm,
          if_pos rfl]
        exact settledMatchStatus_isSettled _ _)
      rw [Exchange.isSettled_eq hm, hactive] at hbefore
      cases hbefore
  | cancel mid m r item cid conversation conversation' canceller status closeReason reason hm
      hactive hstatus hr hmatched hi => exact ⟨.replace hr rfl, fun _ => .replace hi rfl⟩
  | reopen id r expiresAt reason hr => exact ⟨.replace hr rfl, fun _ => .refl _ _⟩
  | conclude id r target hr => exact ⟨.replace hr rfl, fun _ => .refl _ _⟩
  | widen id r radius hr => exact ⟨.replace hr rfl, fun _ => .refl _ _⟩
  | confirm | meet => exact ⟨.refl _ _, fun _ => .refl _ _⟩

/-! ## Runs -/

namespace Db

variable {db db' : Db}

/-- The step settles the match: it was not settled before and is afterwards. -/
def settles (step : Db → Env × Op → Db) (mid : MatchId) (db : Db) (i : Env × Op) : Bool :=
  !db.isSettled mid && (step db i).isSettled mid

theorem step_isSettled (hx : db.toExchange.Consistent) (i : Env × Op)
    (h : db.isSettled mid = true) : (db.step i).isSettled mid = true := by
  obtain ⟨m, hm, hsettled⟩ := (Option.any_eq_true _ _).mp h
  have hclosed : m.status ≠ .active := by
    intro hactive
    rw [hactive] at hsettled
    cases hsettled
  rw [Exchange.isSettled_eq (step_closed_stays hx i hm hclosed), hsettled]

theorem step_closes (hx : db.toExchange.Consistent) (i : Env × Op)
    (hm : db.matchRows.lookup mid = some m) (hm' : (db.step i).matchRows.lookup mid = some m')
    (hactive : m.status = .active) (hclosed : m'.status ≠ .active) :
    (m'.status.isSettled = true ∧ ∃ final, m'.finalQty = some final ∧
        db.Moves (db.step i).toExchange m.inventoryItemId m.requestId final) ∨
      (m'.status.isCancelled = true ∧
        db.Moves (db.step i).toExchange m.inventoryItemId m.requestId 0) := by
  have hsame (heq : (db.step i).matchRows.lookup mid = db.matchRows.lookup mid) : False := by
    rw [heq, hm] at hm'
    exact hclosed (Option.some.inj hm' ▸ hactive)
  rcases db.step_cases i with ⟨effects, h⟩ | h
  · rcases (exec_refines hx h).single with hquiet | hstep
    · exact (hsame (by rw [hquiet.matchRows])).elim
    · exact hstep.closes hm hm' hactive hclosed
  · exact (hsame (by rw [h])).elim

theorem step_steady (hx : db.Consistent) (i : Env × Op)
    (hnone : ∀ mid, settles step mid db i = false) :
    Table.Keeps Request.qtyFulfilled db.requests (db.step i).requests ∧
      (i.2.restocks = false → Table.Keeps InventoryItem.qtyOnHand db.inventoryItems
        (db.step i).inventoryItems) := by
  have hstays (mid : MatchId) (h : (db.step i).isSettled mid = true) :
      db.isSettled mid = true := by
    have hmid := hnone mid
    rw [settles, h, Bool.and_true, Bool.not_eq_false'] at hmid
    exact hmid
  rcases db.step_cases i with ⟨effects, h⟩ | h
  · rcases (exec_refines hx.exchange h).single with hquiet | hstep
    · refine ⟨fun rid r hr => ?_, fun _ => hquiet.inventoryItems ▸ .refl _ _⟩
      obtain ⟨r', hr', -⟩ := (exec_refines hx.exchange h).run.keeps.requests rid r hr
      refine ⟨r', hr', ?_⟩
      rw [((db.step_consistent i hx).exchange.fulfilled rid r' hr').total, hquiet.matchRows,
        (hx.exchange.fulfilled rid r hr).total]
    · exact hstep.steady hstays
  · rw [h]
    exact ⟨.refl _ _, fun _ => .refl _ _⟩

/-! ## Exactly once -/

section Exactly

variable (step : Db → Env × Op → Db) (C : Db → Env × Op → Prop)

/-- What every continuation from `db` whose steps meet the condition does with settlements. -/
structure SettlesOnce (db : Db) : Prop where
  /-- No run settles a match twice. -/
  once : ∀ mid is, Along step C db is → countSteps step (settles step mid) db is ≤ 1
  /-- A settlement moves the final quantity from the item to the request. -/
  settled : ∀ i, C db i → ∀ mid m m', db.matchRows.lookup mid = some m →
    (step db i).matchRows.lookup mid = some m' → m.status = .active →
    m'.status.isSettled = true → ∃ final, m'.finalQty = some final ∧
      db.Moves (step db i).toExchange m.inventoryItemId m.requestId final
  /-- A cancellation moves nothing. -/
  cancelled : ∀ i, C db i → ∀ mid m m', db.matchRows.lookup mid = some m →
    (step db i).matchRows.lookup mid = some m' → m.status = .active →
    m'.status.isCancelled = true →
      db.Moves (step db i).toExchange m.inventoryItemId m.requestId 0
  /-- A closed match stays as it is. -/
  closed : ∀ i, C db i → ∀ mid m, db.matchRows.lookup mid = some m → m.status ≠ .active →
    (step db i).matchRows.lookup mid = some m
  /-- A step without a settlement gives nothing to requests, and takes nothing
  from stock unless its owner edits it. -/
  steady : ∀ i, C db i → (∀ mid, settles step mid db i = false) →
    Table.Keeps Request.qtyFulfilled db.requests (step db i).requests ∧
      (i.2.restocks = false → Table.Keeps InventoryItem.qtyOnHand db.inventoryItems
        (step db i).inventoryItems)
  /-- A request has received what its settled matches gave, and no more than it asked for. -/
  received : ∀ rid r, db.requests.lookup rid = some r →
    r.qtyFulfilled = settledSum db.matchRows rid ∧ r.qtyFulfilled ≤ r.qty

end Exactly

theorem Reached.settlesOnce (h : db.Reached) : db.SettlesOnce step fun _ _ => True := by
  have hx := Reached.consistent h
  constructor
  · intro mid is _
    refine countSteps_le_one (P := Consistent) (Q := fun db => db.isSettled mid = true)
      step_consistent (fun db i hx hsettled => step_isSettled hx.exchange i hsettled) ?_ ?_ hx is
    · intro db i hsettled
      simp [settles, hsettled]
    · intro db i _ hfires
      exact (Bool.and_eq_true_iff.mp hfires).2
  · intro i _ mid m m' hm hm' hactive hsettled
    have hended : m'.status ≠ .active := by
      rintro ha
      rw [ha] at hsettled
      cases hsettled
    rcases step_closes hx.exchange i hm hm' hactive hended with ⟨-, hmoves⟩ | ⟨hcancelled, -⟩
    · exact hmoves
    · rw [MatchStatus.isCancelled.not_settled hcancelled] at hsettled
      cases hsettled
  · intro i _ mid m m' hm hm' hactive hcancelled
    rcases step_closes hx.exchange i hm hm' hactive (MatchStatus.isCancelled.ne_active hcancelled)
      with ⟨hsettled, -⟩ | ⟨-, hmoves⟩
    · rw [MatchStatus.isCancelled.not_settled hcancelled] at hsettled
      cases hsettled
    · exact hmoves
  · exact fun i _ mid m hm hclosed => step_closed_stays hx.exchange i hm hclosed
  · exact fun i _ hnone => step_steady hx i hnone
  · intro rid r hr
    have hf := hx.exchange.fulfilled rid r hr
    exact ⟨hf.total, hf.check.2.2⟩

theorem SettlesOnce.of_agree {step' : Db → Env × Op → Db} {C : Db → Env × Op → Prop}
    (hagree : ∀ db i, C db i → step' db i = step db i)
    (h : db.SettlesOnce step fun _ _ => True) : db.SettlesOnce step' C := by
  have hsettles (mid : MatchId) (db : Db) (i : Env × Op) (hC : C db i) :
      settles step' mid db i = settles step mid db i := by
    rw [settles, settles, hagree db i hC]
  constructor
  · intro mid is hC
    rw [Along.countSteps_eq hagree (hsettles mid) hC]
    exact h.once mid is (Along.trivial _ _)
  · intro i hC
    rw [hagree db i hC]
    exact h.settled i trivial
  · intro i hC
    rw [hagree db i hC]
    exact h.cancelled i trivial
  · intro i hC
    rw [hagree db i hC]
    exact h.closed i trivial
  · intro i hC hnone
    rw [hagree db i hC]
    exact h.steady i trivial fun mid => (hsettles mid db i hC).symm.trans (hnone mid)
  · exact h.received

/-! ## Whole quantities -/

end Db

def Qty.isWhole (q : Qty) : Bool := q.isInt && decide (|q| < 10 ^ 14)

def MatchLocks.isWhole (locks : MatchLocks) : Bool :=
  Qty.isWhole locks.item.qtyOnHand && Qty.isWhole locks.item.qtyReserved &&
    Qty.isWhole locks.request.qtyFulfilled && Qty.isWhole locks.matchRow.qtyReserved &&
    locks.matchRow.requesterConfirmedQty.all Qty.isWhole &&
    locks.matchRow.helperConfirmedQty.all Qty.isWhole

theorem Qty.isWhole_cast {q : Qty} (h : Qty.isWhole q = true) :
    ∃ n : ℤ, q = n ∧ |n| < 10 ^ 14 := by
  rw [Qty.isWhole, Bool.and_eq_true, decide_eq_true_eq] at h
  obtain ⟨hint, hsize⟩ := h
  have hq : q = q.num := (Rat.den_eq_one_iff q).mp (beq_iff_eq.mp hint) |>.symm
  refine ⟨q.num, hq, ?_⟩
  rw [hq] at hsize
  exact_mod_cast hsize

theorem Arithmetic.double_add {a b : Qty} (ha : Qty.isWhole a = true) (hb : Qty.isWhole b = true) :
    Arithmetic.double.add a b = Arithmetic.exact.add a b := by
  obtain ⟨m, rfl, hm⟩ := Qty.isWhole_cast ha
  obtain ⟨n, rfl, hn⟩ := Qty.isWhole_cast hb
  exact Double.add_intCast (by omega) (by omega) ((abs_add_le m n).trans (by omega))

theorem Arithmetic.double_sub {a b : Qty} (ha : Qty.isWhole a = true) (hb : Qty.isWhole b = true) :
    Arithmetic.double.sub a b = Arithmetic.exact.sub a b := by
  obtain ⟨m, rfl, hm⟩ := Qty.isWhole_cast ha
  obtain ⟨n, rfl, hn⟩ := Qty.isWhole_cast hb
  exact Double.sub_intCast (by omega) (by omega) ((abs_sub m n).trans (by omega))

theorem Qty.isWhole_min {a b : Qty} (ha : Qty.isWhole a = true) (hb : Qty.isWhole b = true) :
    Qty.isWhole (min a b) = true := by
  rcases min_choice a b with h | h <;> rw [h] <;> assumption

theorem MatchLocks.isWhole_confirmedQty {locks : MatchLocks} (side : Side)
    (h : locks.isWhole = true) {q : Qty} (hq : locks.matchRow.confirmedQty side = some q) :
    Qty.isWhole q = true := by
  simp only [MatchLocks.isWhole, Bool.and_eq_true] at h
  obtain ⟨⟨-, hrequester⟩, hhelper⟩ := h
  cases side with
  | requester =>
      rw [show locks.matchRow.requesterConfirmedQty = some q from hq] at hrequester
      exact hrequester
  | helper =>
      rw [show locks.matchRow.helperConfirmedQty = some q from hq] at hhelper
      exact hhelper

theorem MatchLocks.isWhole_setConfirmedQty {locks : MatchLocks} (h : locks.isWhole = true)
    (side : Side) {q : Qty} (hq : Qty.isWhole q = true) :
    MatchLocks.isWhole { locks with matchRow := locks.matchRow.setConfirmedQty side q } = true := by
  simp only [MatchLocks.isWhole, Bool.and_eq_true] at h ⊢
  obtain ⟨⟨⟨⟨⟨hhand, hitem⟩, hrequest⟩, hmatch⟩, hrequester⟩, hhelper⟩ := h
  cases side with
  | requester => exact ⟨⟨⟨⟨⟨hhand, hitem⟩, hrequest⟩, hmatch⟩, hq⟩, hhelper⟩
  | helper => exact ⟨⟨⟨⟨⟨hhand, hitem⟩, hrequest⟩, hmatch⟩, hrequester⟩, hq⟩

namespace Db

/-- If the step is a confirmation or a finalization, its quantities are whole. -/
def settlesWhole (db : Db) (i : Env × Op) : Bool :=
  match i.2 with
  | .confirmCompletion _ matchId qty =>
      Qty.isWhole qty.1 && (db.lockMatchRows matchId).all MatchLocks.isWhole
  | .autoFinalizeMatch matchId => (db.lockMatchRows matchId).all MatchLocks.isWhole
  | _ => true

section Step

variable {db : Db} {env : Env} {matchId : MatchId} {locks : MatchLocks}

theorem settleLocked_double {opts : SettleOptions} (hlocks : locks.isWhole = true)
    (hfinal : Qty.isWhole opts.finalQty = true) :
    db.settleLocked env matchId locks opts .double = db.settleLocked env matchId locks opts := by
  simp only [MatchLocks.isWhole, Bool.and_eq_true] at hlocks
  obtain ⟨⟨⟨⟨⟨hhand, hitem⟩, hrequest⟩, hmatch⟩, -⟩, -⟩ := hlocks
  simp only [settleLocked, Arithmetic.double_add hrequest hfinal,
    Arithmetic.double_sub hhand hfinal, Arithmetic.double_sub hitem hmatch]

theorem confirmCompletion_double {viewerUserId : UserId} {qty : ConfirmQty}
    (hlocks : (db.lockMatchRows matchId).all MatchLocks.isWhole = true)
    (hqty : Qty.isWhole qty.1 = true) :
    db.confirmCompletion env matchId viewerUserId qty .double =
      db.confirmCompletion env matchId viewerUserId qty := by
  unfold confirmCompletion
  cases hrows : db.lockMatchRows matchId with
  | none => rfl
  | some locks =>
      rw [hrows, Option.all_some] at hlocks
      simp only [found_some, bind_ok_left]
      cases hside : locks.matchRow.sideOf viewerUserId with
      | none => rfl
      | some side =>
          simp only [found_some, bind_ok_left]
          cases hother : locks.matchRow.confirmedQty side.other with
          | none => rfl
          | some other =>
              have hfinal : Qty.isWhole (min (if side = .requester then qty.1 else other)
                  (if side = .helper then qty.1 else other)) = true := by
                have hpeer := MatchLocks.isWhole_confirmedQty _ hlocks hother
                apply Qty.isWhole_min <;> split_ifs <;> assumption
              simp only [hfinal,
                settleLocked_double (MatchLocks.isWhole_setConfirmedQty hlocks side hqty)]

theorem autoFinalizeMatch_double
    (hlocks : (db.lockMatchRows matchId).all MatchLocks.isWhole = true) :
    db.autoFinalizeMatch env matchId .double = db.autoFinalizeMatch env matchId := by
  unfold autoFinalizeMatch
  cases hrows : db.lockMatchRows matchId with
  | none => rfl
  | some locks =>
      rw [hrows, Option.all_some] at hlocks
      cases hr : locks.matchRow.requesterConfirmedQty with
      | none =>
          cases hh : locks.matchRow.helperConfirmedQty with
          | none => simp only [hr, hh]
          | some q =>
              have hfinal := MatchLocks.isWhole_confirmedQty .helper hlocks hh
              simp only [hr, hh, hfinal, settleLocked_double hlocks]
      | some q =>
          cases hh : locks.matchRow.helperConfirmedQty with
          | none =>
              have hfinal := MatchLocks.isWhole_confirmedQty .requester hlocks hr
              simp only [hr, hh, hfinal, settleLocked_double hlocks]
          | some _ => simp only [hr, hh]

end Step

theorem stepDouble_eq (db : Db) (i : Env × Op) (h : db.settlesWhole i = true) :
    db.stepDouble i = db.step i := by
  obtain ⟨env, op⟩ := i
  cases op with
  | confirmCompletion token matchId qty =>
      rw [settlesWhole, Bool.and_eq_true] at h
      simp only [stepDouble, step, exec, confirmCompletion_double h.2 h.1]
  | autoFinalizeMatch matchId =>
      simp only [stepDouble, step, exec, autoFinalizeMatch_double h]
  | _ => rfl

/-- In a run of the server whose settlements are of whole quantities, each match is settled at
most once, with the same final quantity for the item and the request. -/
theorem settlement_exactly_once (is : List (Env × Op))
    (h : Along stepDouble (fun db i => db.settlesWhole i = true) empty is) :
    (runFrom stepDouble empty is).SettlesOnce stepDouble fun db i => db.settlesWhole i = true := by
  rw [Along.runFrom_eq stepDouble_eq h]
  exact SettlesOnce.of_agree stepDouble_eq (Reached.settlesOnce ⟨is, rfl⟩)

/-- User 1 reports both items received, user 2 one of them given. -/
theorem settlement_exactly_once_disputed :
    let db := runFrom stepDouble empty (SmallEvent.oneMatch ++
      [(SmallEvent.clock 5, .confirmCompletion (SmallEvent.token 1) 40
        (SmallEvent.confirming SmallEvent.two)),
       (SmallEvent.clock 6, .confirmCompletion (SmallEvent.token 2) 40
        (SmallEvent.confirming SmallEvent.one))])
    (db.requests.lookup 20).map Request.qtyFulfilled = some 1 ∧
      (db.inventoryItems.lookup 10).map InventoryItem.qtyOnHand = some 1 ∧
      db.SettlesOnce stepDouble fun db i => db.settlesWhole i = true :=
  ⟨by decide +kernel, by decide +kernel, settlement_exactly_once _ (by decide +kernel)⟩

end Db

namespace SmallEvent

/-- User 2 has 1.1 of an item and accepts a request for one, which user 1 reports received. -/
def oneOfMore : List (Env × Op) :=
  [(clock 0, .directory (directory [1, 2] [])),
   (clock 1 10, .addInventory (token 2) 1 (item ⟨11 / 10, by norm_num⟩)),
   (clock 2 20, .createRequest (token 1) (request one "a")),
   (clock 3 30, .runMatchPass 20 choices),
   (clock 4 40, .acceptOffer (token 2) 30 draws),
   (clock 5, .confirmCompletion (token 1) 40 (confirming one))]

def oneGiven : Env × Op := (clock 6, .confirmCompletion (token 2) 40 (confirming one))

end SmallEvent

namespace Db

/-- The settlement leaves 0.10000000000000009 of 1.1 in stock. -/
theorem settlement_exactly_once_fails :
    ¬∀ is, (runFrom stepDouble empty is).SettlesOnce stepDouble fun _ _ => True := by
  intro h
  have honce := h SmallEvent.oneOfMore
  revert honce
  generalize hdb : runFrom stepDouble empty SmallEvent.oneOfMore = db
  intro honce
  have hbefore : (db.matchRows.lookup 40).map (fun m => (m.status, m.inventoryItemId)) =
      some (.active, 10) := by
    rw [← hdb]
    decide +kernel
  have hafter : ((db.stepDouble SmallEvent.oneGiven).matchRows.lookup 40).map
      (fun m => (m.status.isSettled, m.finalQty)) = some (true, some 1) := by
    rw [← hdb]
    decide +kernel
  have hstock : ((db.stepDouble SmallEvent.oneGiven).inventoryItems.lookup 10).map
      InventoryItem.qtyOnHand ≠ (db.inventoryItems.lookup 10).map fun item =>
        item.qtyOnHand - 1 := by
    rw [← hdb]
    decide +kernel
  obtain ⟨m, hm, hrow⟩ := Option.map_eq_some_iff.mp hbefore
  obtain ⟨m', hm', hrow'⟩ := Option.map_eq_some_iff.mp hafter
  rw [Prod.mk.injEq] at hrow hrow'
  obtain ⟨final, hfinal, hmoves⟩ := honce.settled SmallEvent.oneGiven trivial 40 m m' hm hm'
    hrow.1 hrow'.1
  obtain rfl : 1 = final := Option.some.inj (hrow'.2.symm.trans hfinal)
  have hmoved := hmoves.stock 10
  simp only [hrow.2, if_true] at hmoved
  exact hstock hmoved

end Db
end Sahay
