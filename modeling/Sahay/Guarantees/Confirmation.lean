import Sahay.Refinement.Deliveries
import Sahay.Server.Untimed

/-!
# The order of two confirmations

The first confirmation of a match only records its quantity, the second one settles by
both.  What the settlement writes into the item, the request, the match and the
counters depends on the two quantities and not on who came last; and a side that has
confirmed can only repeat itself.
-/

namespace Sahay

namespace Match

def userOn (m : Match) : Side → UserId
  | .requester => m.requesterId
  | .helper => m.helperId

theorem sideOf_userOn {m : Match} (hpeer : m.helperId ≠ m.requesterId) (side : Side) :
    m.sideOf (m.userOn side) = some side := by
  cases side with
  | requester => exact if_pos rfl
  | helper => exact (if_neg hpeer.symm).trans (if_pos rfl)

variable {m m' : Match} {side : Side} {qty : Qty}

theorem userOn_eq (h : m'.identity = m.identity) (side : Side) :
    m'.userOn side = m.userOn side := by
  simp only [Match.identity, Prod.mk.injEq] at h
  cases side
  · exact h.2.2.2.1
  · exact h.2.2.2.2.1

theorem setConfirmedQty_keeps {side' : Side} (hfree : m.confirmedQty side' = none)
    (hq : m.confirmedQty side = some qty) (q : Qty) :
    (m.setConfirmedQty side' q).confirmedQty side = some qty := by
  have hne : side ≠ side' := by
    rintro rfl
    cases hfree.symm.trans hq
  rw [Match.confirmedQty_set, if_neg hne, hq]

/-- The quantities of the row settle it so, whoever confirmed last. -/
structure SettledBy (m : Match) (opts : SettleOptions) : Prop where
  finalQty : m.finalQty = some opts.finalQty
  disputed : opts.disputed = decide (m.requesterConfirmedQty ≠ m.helperConfirmedQty)
  closeReason : opts.closeReason = if opts.disputed then "disputed_quantities" else "confirmed"
  positive : opts.requesterConfirmedPositive = m.requesterConfirmedQty.any fun q => 0 < q

theorem SettledBy.of_second {other : Qty} (hother : m.confirmedQty side.other = some other)
    (qty : Qty) (actor : TransitionActor) (senderUserId : UserId) :
    (m.setConfirmedQty side qty).SettledBy
      { finalQty := min (if side = .requester then qty else other)
          (if side = .helper then qty else other)
        disputed := (if side = .requester then qty else other) ≠
          (if side = .helper then qty else other)
        closeReason :=
          if (decide ((if side = .requester then qty else other) ≠
              (if side = .helper then qty else other))) = true then "disputed_quantities"
          else "confirmed"
        actor := actor
        senderUserId := senderUserId
        requesterConfirmedPositive := 0 < if side = .requester then qty else other } := by
  refine ⟨Db.setConfirmedQty_finalQty hother, ?_, rfl, ?_⟩
  · cases side with
    | requester =>
        have hhelper : m.helperConfirmedQty = some other := hother
        simp [Match.setConfirmedQty, hhelper]
    | helper =>
        have hrequester : m.requesterConfirmedQty = some other := hother
        simp [Match.setConfirmedQty, hrequester]
  · cases side with
    | requester => rfl
    | helper =>
        have hrequester : m.requesterConfirmedQty = some other := hother
        simp [Match.setConfirmedQty, hrequester]

end Match

theorem Lifecycle.keeps_confirmed {c : Ctx} {x x' : Exchange} {matchId : MatchId} {m : Match}
    {side : Side} {qty : Qty} (h : Lifecycle c x x') (hm : x.matchRows.lookup matchId = some m)
    (hq : m.confirmedQty side = some qty) :
    ∃ row, x'.matchRows.lookup matchId = some row ∧ row.identity = m.identity ∧
      row.confirmedQty side = some qty := by
  have hreplaced {mid : MatchId} {m₀ m₁ : Match} (hm₀ : x.matchRows.lookup mid = some m₀)
      (hrows : x'.matchRows = x.matchRows.replace mid m₁) (hid : m₁.identity = m₀.identity)
      (hkept : m₀.confirmedQty side = some qty → m₁.confirmedQty side = some qty) :
      ∃ row, x'.matchRows.lookup matchId = some row ∧ row.identity = m.identity ∧
        row.confirmedQty side = some qty := by
    rw [hrows, Table.lookup_replace hm₀]
    by_cases hmid : matchId = mid
    · subst hmid
      obtain rfl := Option.some.inj (hm₀.symm.trans hm)
      exact ⟨m₁, if_pos rfl, hid, hkept hq⟩
    · exact ⟨m, (if_neg hmid).trans hm, rfl, hq⟩
  cases h with
  | accept oid o r item mid m₀ cid ho hoffered hcaller hr hoffering hi hmid =>
      refine ⟨m, ?_, rfl, hq⟩
      have hne : matchId ≠ mid := by
        rintro rfl
        exact hmid (Table.mem_iff_exists.mpr ⟨m, hm⟩)
      rw [Exchange.moveRequest_matchRows, Table.lookup_put, if_neg hne]
      exact hm
  | confirm mid m₀ side' q hm₀ hactive hmine =>
      exact hreplaced hm₀ rfl (m₀.setConfirmedQty_identity side' q) fun hq =>
        Match.setConfirmedQty_keeps hmine hq q
  | settle mid m₀ m₁ r item cid conversation final disputed closeReason actor hm₀ hactive
      hconfirms =>
      refine hreplaced hm₀ rfl hconfirms.identity fun hq => ?_
      rcases hconfirms with rfl | ⟨side', q, hfree, -, -, rfl⟩
      · cases side <;> exact hq
      · have hkept := Match.setConfirmedQty_keeps hfree hq q
        cases side <;> exact hkept
  | cancel mid m₀ r item cid conversation conversation' canceller status closeReason reason hm₀ =>
      exact hreplaced hm₀ rfl rfl fun hq => by cases side <;> exact hq
  | meet mid m₀ side' state hm₀ =>
      refine hreplaced hm₀ rfl (m₀.setMeetingState_identity side' state) fun hq => ?_
      cases side <;> cases side' <;> exact hq
  | _ => exact ⟨m, hm, rfl, hq⟩

namespace Db

/-- The guards of `confirmCompletion` on the quantity. -/
def admits (db : Db) (matchId : MatchId) (qty : ConfirmQty) : Bool :=
  (db.lockMatchRows matchId).any fun locks =>
    qty.1 ≤ locks.matchRow.qtyReserved ∧ (locks.fractional ∨ qty.1.isInt)

/-- The confirmation commits and leaves `db'`. -/
def Confirms (env : Env) (matchId : MatchId) (userId : UserId) (qty : ConfirmQty)
    (db db' : Db) : Prop :=
  ∃ effects, db.confirmCompletion env matchId userId qty = .ok (effects, db')

/-- The user has confirmed `qty`: the same quantity again is a replay that changes
nothing, any other one fails, and so the row stays as it is. -/
structure Replays (db : Db) (matchId : MatchId) (userId : UserId) (qty : ConfirmQty) : Prop where
  same : ∀ env, db.confirmCompletion env matchId userId qty = .ok ([], db)
  other : ∀ env again, again.1 ≠ qty.1 →
    db.confirmCompletion env matchId userId again = .error errors.conflict
  steady : ∀ env token auth again, db.authenticate env.now token = .ok auth →
    auth.userId = userId → db.step (env, .confirmCompletion token matchId again) = db

def StatsAgree (db db' : Db) : Prop :=
  ∀ id, (db.reliabilityStats.lookup id).map ReliabilityStats.untimed =
    (db'.reliabilityStats.lookup id).map ReliabilityStats.untimed

/-- The same items, requests, matches and counters, but for their timestamps. -/
structure SettledAlike (db db' : Db) : Prop where
  inventoryItems : ∀ id, (db.inventoryItems.lookup id).map InventoryItem.untimed =
    (db'.inventoryItems.lookup id).map InventoryItem.untimed
  requests : ∀ id, (db.requests.lookup id).map Request.untimed =
    (db'.requests.lookup id).map Request.untimed
  matchRows : ∀ id, (db.matchRows.lookup id).map Match.untimed =
    (db'.matchRows.lookup id).map Match.untimed
  reliabilityStats : StatsAgree db db'

variable {db db' : Db} {env : Env} {matchId : MatchId} {m : Match} {side : Side} {qty : Qty}

/-! ## Repeating -/

def Confirmed (db : Db) (matchId : MatchId) (m : Match) (side : Side) (qty : Qty) : Prop :=
  ∃ row, db.matchRows.lookup matchId = some row ∧ row.identity = m.identity ∧
    row.confirmedQty side = some qty

theorem step_confirmed (hx : db.toExchange.Consistent) (i : Env × Op)
    (h : db.Confirmed matchId m side qty) : (db.step i).Confirmed matchId m side qty := by
  obtain ⟨row, hrow, hid, hq⟩ := h
  rcases db.step_cases i with ⟨effects, hok⟩ | hsame
  · rcases (exec_refines hx hok).single with hquiet | hstep
    · exact ⟨row, by rw [hquiet.matchRows, hrow], hid, hq⟩
    · obtain ⟨row', hrow', hid', hq'⟩ := hstep.keeps_confirmed hrow hq
      exact ⟨row', hrow', hid'.trans hid, hq'⟩
  · rw [hsame]
    exact ⟨row, hrow, hid, hq⟩

theorem Confirmed.run (h : db.Confirmed matchId m side qty) (hx : db.Consistent)
    (hrun : Reachable step db db') : db'.Consistent ∧ db'.Confirmed matchId m side qty :=
  Reachable.invariant (P := fun db => db.Consistent ∧ db.Confirmed matchId m side qty)
    (fun db i hdb => ⟨step_consistent db i hdb.1, step_confirmed hdb.1.exchange i hdb.2⟩)
    ⟨hx, h⟩ hrun

theorem Confirmed.replays {qty : ConfirmQty} (h : db.Confirmed matchId m side qty.1)
    (hx : db.Consistent) : db.Replays matchId (m.userOn side) qty := by
  obtain ⟨row, hrow, hid, hq⟩ := h
  obtain ⟨locks, hlocks, rfl⟩ := lockMatchRows_isSome hx hrow
  have hpeer := hx.exchange.linked.peer hrow
  have hside : locks.matchRow.sideOf (m.userOn side) = some side := by
    rw [← Match.userOn_eq hid]
    exact Match.sideOf_userOn hpeer side
  have hsame (env : Env) :
      db.confirmCompletion env matchId (m.userOn side) qty = .ok ([], db) := by
    simp only [confirmCompletion, hlocks, hside, hq, found_some, bind_ok_left, Option.isSome_some,
      true_or, if_true]
    rfl
  have hother (env : Env) (again : ConfirmQty) (hne : again.1 ≠ qty.1) :
      db.confirmCompletion env matchId (m.userOn side) again = .error errors.conflict := by
    have hmine : ¬(some qty.1 = some again.1) := fun heq => hne (Option.some.inj heq).symm
    simp only [confirmCompletion, hlocks, hside, hq, found_some, bind_ok_left, Option.isSome_some,
      true_or, if_true]
    rw [ensure_neg hmine, bind_error_left]
  refine ⟨hsame, hother, fun env token auth again hauth huser => ?_⟩
  have hexec : db.exec env (.confirmCompletion token matchId again) =
      db.confirmCompletion env matchId (m.userOn side) again := by
    rw [← huser]
    exact congrArg (· >>= _) hauth
  by_cases heq : again.1 = qty.1
  · obtain rfl := Subtype.ext heq
    exact step_of_ok (hexec.trans (hsame env))
  · rw [step]
    simp only [hexec, hother env again heq]

/-! ## Counters -/

theorem StatsAgree.bump (h : StatsAgree db db') (userId : UserId)
    (increments : ReliabilityCounters) (now now' : Time) :
    StatsAgree (db.bump userId increments now) (db'.bump userId increments now') := by
  have hcounters (stats : Option ReliabilityStats) :
      rowToCounters stats = rowToCounters (stats.map ReliabilityStats.untimed) := by
    cases stats <;> rfl
  intro id
  rw [lookup_bump, lookup_bump]
  split_ifs
  · rw [hcounters (db.reliabilityStats.lookup id), hcounters (db'.reliabilityStats.lookup id), h id]
    rfl
  · exact h id

/-- The clock, the actor and the sender of a settlement are not in the counters. -/
theorem StatsAgree.settlement (h : StatsAgree db db') {m m' : Match} {opts opts' : SettleOptions}
    (now now' : Time) (hmatch : m.helperId = m'.helperId ∧ m.requesterId = m'.requesterId ∧
      m.reliabilityApplied = m'.reliabilityApplied)
    (hopts : opts.finalQty = opts'.finalQty ∧ opts.disputed = opts'.disputed ∧
      opts.requesterConfirmedPositive = opts'.requesterConfirmedPositive) :
    StatsAgree (db.applySettlement m opts now) (db'.applySettlement m' opts' now') := by
  obtain ⟨hhelper, hrequester, happlied⟩ := hmatch
  obtain ⟨hfinal, hdisputed, hpositive⟩ := hopts
  have hcompleted : StatsAgree
      (db.applyCompleted m.helperId opts.finalQty opts.requesterConfirmedPositive now)
      (db'.applyCompleted m'.helperId opts'.finalQty opts'.requesterConfirmedPositive now') := by
    rw [hhelper, hfinal, hpositive]
    exact h.bump _ _ _ _
  unfold applySettlement
  rw [happlied, hdisputed]
  by_cases hdone : m'.reliabilityApplied = true
  · rw [if_pos hdone, if_pos hdone]
    exact h
  · rw [if_neg hdone, if_neg hdone]
    by_cases hcontested : opts'.disputed = true
    · rw [if_pos hcontested, if_pos hcontested, hrequester, hhelper]
      rw [hhelper] at hcompleted
      exact (hcompleted.bump _ _ _ _).bump _ _ _ _
    · rw [if_neg hcontested, if_neg hcontested]
      exact hcompleted

/-! ## The two confirmations -/

section Confirming

variable {qty : ConfirmQty}

theorem admitted (hx : db.Consistent) (hm : db.matchRows.lookup matchId = some m)
    (hadmits : db.admits matchId qty = true) :
    ∃ locks, db.lockMatchRows matchId = some locks ∧ locks.matchRow = m ∧
      qty.1 ≤ m.qtyReserved ∧ (locks.fractional = true ∨ qty.1.isInt = true) := by
  obtain ⟨locks, hlocks, rfl⟩ := lockMatchRows_isSome hx hm
  rw [admits, hlocks, Option.any_some, decide_eq_true_eq] at hadmits
  exact ⟨locks, hlocks, rfl, hadmits.1, hadmits.2⟩

theorem Confirms.consistent {userId : UserId} (h : Confirms env matchId userId qty db db')
    (hx : db.Consistent) : db'.Consistent := by
  obtain ⟨effects, hok⟩ := h
  have hrefines : Refines (db.ctx env none (.confirmCompletion "" matchId qty)) db db' :=
    confirmCompletion_refines hx.exchange hok
  exact hrefines.consistent hx

/-- The first confirmation is recorded. -/
theorem confirmCompletion_first (env : Env) (hx : db.Consistent)
    (hm : db.matchRows.lookup matchId = some m) (hactive : m.status = .active)
    (hmine : m.confirmedQty side = none) (hother : m.confirmedQty side.other = none)
    (hadmits : db.admits matchId qty = true) :
    Confirms env matchId (m.userOn side) qty db
      { db with matchRows := db.matchRows.replace matchId (m.setConfirmedQty side qty.1) } := by
  obtain ⟨locks, hlocks, rfl, hmax, hwhole⟩ := admitted hx hm hadmits
  have hside := Match.sideOf_userOn (hx.exchange.linked.peer hm) side
  refine ⟨[.finalizeJob matchId finalizeAfterFirstConfirmationMs], ?_⟩
  simp only [confirmCompletion, hlocks, hside, hmine, hother, hactive, found_some, bind_ok_left,
    Option.isSome_none, Bool.false_eq_true, ne_eq, not_true, or_self, if_false]
  rw [ensure_pos hmax, bind_ok_left, ensure_pos hwhole, bind_ok_left, updateMatch_eq hm]
  rfl

/-- The second one settles by both quantities. -/
theorem confirmCompletion_second (env : Env) {other : Qty} (hx : db.Consistent)
    (hm : db.matchRows.lookup matchId = some m) (hactive : m.status = .active)
    (hmine : m.confirmedQty side = none) (hother : m.confirmedQty side.other = some other)
    (hadmits : db.admits matchId qty = true) :
    ∃ db' opts r item, Confirms env matchId (m.userOn side) qty db db' ∧
      (m.setConfirmedQty side qty.1).SettledBy opts ∧
      db.requests.lookup m.requestId = some r ∧
      db.inventoryItems.lookup m.inventoryItemId = some item ∧
      db.Settles matchId (m.setConfirmedQty side qty.1) opts env.now r item db' := by
  obtain ⟨locks, hlocks, rfl, hmax, hwhole⟩ := admitted hx hm hadmits
  have hl := lockMatchRows_some hlocks
  have hside := Match.sideOf_userOn (hx.exchange.linked.peer hm) side
  have hconfirms : locks.matchRow.Confirms (locks.matchRow.setConfirmedQty side qty.1) :=
    .inr ⟨side, qty.1, hmine, qty.2.1, hmax, rfl⟩
  have hsettled := Match.SettledBy.of_second hother qty.1 side.actor
    (locks.matchRow.userOn side)
  obtain ⟨effects, db', hsettle, hrows⟩ :=
    settleLocked_settles env hx.exchange hl hactive hconfirms hsettled.finalQty
  refine ⟨db', _, locks.request, locks.item, ⟨effects, ?_⟩, hsettled, hl.request, hl.item, hrows⟩
  simp only [confirmCompletion, hlocks, hside, hmine, hother, hactive, found_some, bind_ok_left,
    Option.isSome_none, Bool.false_eq_true, ne_eq, not_true, or_self, if_false]
  rw [ensure_pos hmax, bind_ok_left, ensure_pos hwhole, bind_ok_left, updateMatch_eq hm]
  exact hsettle

theorem admits_confirmed (hm : db.matchRows.lookup matchId = some m) (side : Side) (q : Qty) :
    { db with matchRows := db.matchRows.replace matchId (m.setConfirmedQty side q) }.admits
      matchId qty = db.admits matchId qty := by
  have hrow := (Table.lookup_replace hm (m.setConfirmedQty side q) matchId).trans (if_pos rfl)
  simp only [admits, lockMatchRows, hm, hrow, Option.bind_eq_bind, Option.bind_some,
    Option.pure_def, Option.any_bind, Function.comp_def, Option.any_some]
  cases side <;> rfl

theorem Settles.alike {m₁ m₂ m' m'' : Match} {opts opts' : SettleOptions} {now now' : Time}
    {r : Request} {item : InventoryItem} {db₁ db₂ : Db}
    (h : { db with matchRows := db.matchRows.replace matchId m₁ }.Settles matchId m' opts now r
      item db₁)
    (h' : { db with matchRows := db.matchRows.replace matchId m₂ }.Settles matchId m'' opts' now' r
      item db₂)
    (hm : db.matchRows.lookup matchId = some m)
    (hr : db.requests.lookup m'.requestId = some r)
    (hi : db.inventoryItems.lookup m'.inventoryItemId = some item)
    (hsame : m' = m'') (hopts : m'.SettledBy opts) (hopts' : m''.SettledBy opts') :
    SettledAlike db₁ db₂ := by
  subst hsame
  have hfinal : opts.finalQty = opts'.finalQty :=
    Option.some.inj (hopts.finalQty.symm.trans hopts'.finalQty)
  have hdisputed : opts.disputed = opts'.disputed := hopts.disputed.trans hopts'.disputed.symm
  have hreason : opts.closeReason = opts'.closeReason := by
    rw [hopts.closeReason, hopts'.closeReason, hdisputed]
  have hpositive := hopts.positive.trans hopts'.positive.symm
  constructor
  · intro id
    rw [h.inventoryItems, h'.inventoryItems, Table.lookup_replace hi, Table.lookup_replace hi,
      hfinal]
    split_ifs <;> rfl
  · intro id
    rw [h.requests, h'.requests, Table.lookup_replace hr, Table.lookup_replace hr, hfinal]
    split_ifs <;> rfl
  · intro id
    have hreplace (row row' : Match) :
        (db.matchRows.replace matchId row).replace matchId row' =
          db.matchRows.replace matchId row' := Table.modify_replace _ _ _ _
    rw [h.matchRows, h'.matchRows]
    simp only [hreplace, Table.lookup_replace hm, hfinal, hdisputed, hreason]
    split_ifs <;> rfl
  · rw [StatsAgree, h.reliabilityStats, h'.reliabilityStats]
    have hagree : StatsAgree { db with matchRows := db.matchRows.replace matchId m₁ }
      { db with matchRows := db.matchRows.replace matchId m₂ } := fun _ => rfl
    exact hagree.settlement now now' ⟨rfl, rfl, rfl⟩ ⟨hfinal, hdisputed, hpositive⟩

/-- The rows of both orders, from the first confirmation on. -/
theorem confirmCompletion_both (side : Side) (env env' : Env) {qty' : ConfirmQty}
    (hx : db.Consistent) (hm : db.matchRows.lookup matchId = some m) (hactive : m.status = .active)
    (hnone : ∀ side, m.confirmedQty side = none) (hadmits : db.admits matchId qty = true)
    (hadmits' : db.admits matchId qty' = true) :
    ∃ db₁ db₂ opts r item,
      Confirms env matchId (m.userOn side) qty db db₁ ∧
      Confirms env' matchId (m.userOn side.other) qty' db₁ db₂ ∧
      db₁ = { db with
        matchRows := db.matchRows.replace matchId (m.setConfirmedQty side qty.1) } ∧
      ((m.setConfirmedQty side qty.1).setConfirmedQty side.other qty'.1).SettledBy opts ∧
      db.requests.lookup m.requestId = some r ∧
      db.inventoryItems.lookup m.inventoryItemId = some item ∧
      db₁.Settles matchId ((m.setConfirmedQty side qty.1).setConfirmedQty side.other qty'.1) opts
        env'.now r item db₂ := by
  have hfirst := confirmCompletion_first env hx hm hactive (hnone side) (hnone side.other) hadmits
  have hx₁ := hfirst.consistent hx
  have hm₁ := (Table.lookup_replace hm (m.setConfirmedQty side qty.1) matchId).trans (if_pos rfl)
  have hne : side.other ≠ side := by cases side <;> decide
  have hmine₁ : (m.setConfirmedQty side qty.1).confirmedQty side.other = none := by
    rw [Match.confirmedQty_set, if_neg hne, hnone]
  have hother₁ : (m.setConfirmedQty side qty.1).confirmedQty side.other.other = some qty.1 := by
    cases side <;> rfl
  have huser : (m.setConfirmedQty side qty.1).userOn side.other = m.userOn side.other :=
    Match.userOn_eq (m.setConfirmedQty_identity side qty.1) side.other
  obtain ⟨db₂, opts, r, item, hsecond, hsettled, hr, hi, hrows⟩ :=
    confirmCompletion_second env' hx₁ hm₁ ((m.setConfirmedQty_status side qty.1).trans hactive)
      hmine₁ hother₁ ((admits_confirmed hm side qty.1).trans hadmits')
  rw [huser] at hsecond
  refine ⟨_, db₂, opts, r, item, hfirst, hsecond, rfl, hsettled, ?_, ?_, hrows⟩
  · cases side <;> exact hr
  · cases side <;> exact hi

/-- Once a side has confirmed it only replays, in every later state. -/
theorem replays_later {userId : UserId} (hx : db.Consistent)
    (hm : db.matchRows.lookup matchId = some m) (hq : m.confirmedQty side = some qty.1)
    (huser : m.userOn side = userId) (hrun : Reachable step db db') :
    db'.Replays matchId userId qty := by
  have hconfirmed : db.Confirmed matchId m side qty.1 := ⟨m, hm, rfl, hq⟩
  obtain ⟨hx', hconfirmed'⟩ := hconfirmed.run hx hrun
  exact huser ▸ hconfirmed'.replays hx'

/-- The first side replays after its own confirmation, both do after the second. -/
theorem replays_both {qty' : ConfirmQty} {db₁ db₂ : Db} {opts : SettleOptions} {r : Request}
    {item : InventoryItem} {now : Time} (hx₁ : db₁.Consistent) (hx₂ : db₂.Consistent)
    (hm₁ : db₁.matchRows.lookup matchId = some (m.setConfirmedQty side qty.1))
    (hrows : db₁.Settles matchId ((m.setConfirmedQty side qty.1).setConfirmedQty side.other qty'.1)
      opts now r item db₂) :
    (∀ db', Reachable step db₁ db' ∨ Reachable step db₂ db' →
      db'.Replays matchId (m.userOn side) qty) ∧
    ∀ db', Reachable step db₂ db' → db'.Replays matchId (m.userOn side.other) qty' := by
  have hm₂ : db₂.matchRows.lookup matchId =
      some (((m.setConfirmedQty side qty.1).setConfirmedQty side.other qty'.1).settledAs
        (settledMatchStatus opts.disputed (r.qty ≤ r.qtyFulfilled + opts.finalQty))
        opts.closeReason now) := by
    rw [hrows.matchRows, Table.lookup_replace hm₁, if_pos rfl]
  have hmine : (m.setConfirmedQty side qty.1).confirmedQty side = some qty.1 := by
    cases side <;> rfl
  have huser (side' : Side) : (m.setConfirmedQty side qty.1).userOn side' = m.userOn side' :=
    Match.userOn_eq (m.setConfirmedQty_identity side qty.1) side'
  have huser₂ (status : MatchStatus) (reason : String) (side' : Side) :
      (((m.setConfirmedQty side qty.1).setConfirmedQty side.other qty'.1).settledAs status reason
        now).userOn side' = m.userOn side' := by
    rw [← huser side']
    exact Match.userOn_eq (Match.setConfirmedQty_identity _ side.other qty'.1) side'
  refine ⟨fun db' hrun => ?_, fun db' hrun => ?_⟩
  · rcases hrun with hrun | hrun
    · exact replays_later hx₁ hm₁ hmine (huser side) hrun
    · refine replays_later hx₂ hm₂ ?_ (huser₂ _ _ side) hrun
      cases side <;> rfl
  · refine replays_later hx₂ hm₂ ?_ (huser₂ _ _ side.other) hrun
    cases side <;> rfl

end Confirming

/-- Either order of the two confirmations of an unconfirmed active match leaves the same
rows, and whoever has confirmed can only repeat themselves from then on. -/
theorem confirmCompletion_order {requesterQty helperQty : ConfirmQty} (hdb : db.Reached)
    (hm : db.matchRows.lookup matchId = some m) (hactive : m.status = .active)
    (hnone : ∀ side, m.confirmedQty side = none)
    (hrequester : db.admits matchId requesterQty = true)
    (hhelper : db.admits matchId helperQty = true) (env₁ env₂ env₃ env₄ : Env) :
    ∃ requesterFirst helperSecond helperFirst requesterSecond,
      Confirms env₁ matchId m.requesterId requesterQty db requesterFirst ∧
      Confirms env₂ matchId m.helperId helperQty requesterFirst helperSecond ∧
      Confirms env₃ matchId m.helperId helperQty db helperFirst ∧
      Confirms env₄ matchId m.requesterId requesterQty helperFirst requesterSecond ∧
      SettledAlike helperSecond requesterSecond ∧
      (∀ db', Reachable step requesterFirst db' ∨ Reachable step helperSecond db' ∨
        Reachable step requesterSecond db' →
          db'.Replays matchId m.requesterId requesterQty) ∧
      ∀ db', Reachable step helperFirst db' ∨ Reachable step requesterSecond db' ∨
        Reachable step helperSecond db' → db'.Replays matchId m.helperId helperQty := by
  have hx := hdb.consistent
  have hrow (side : Side) (q : Qty) := (Table.lookup_replace hm (m.setConfirmedQty side q)
    matchId).trans (if_pos rfl)
  obtain ⟨a, ab, opts, r, item, hfirst, hsecond, rfl, hopts, hr, hi, hrows⟩ :=
    confirmCompletion_both .requester env₁ env₂ hx hm hactive hnone hrequester hhelper
  obtain ⟨b, ba, opts', r', item', hfirst', hsecond', rfl, hopts', hr', hi', hrows'⟩ :=
    confirmCompletion_both .helper env₃ env₄ hx hm hactive hnone hhelper hrequester
  obtain rfl := Option.some.inj (hr.symm.trans hr')
  obtain rfl := Option.some.inj (hi.symm.trans hi')
  have hx₁ := hfirst.consistent hx
  have hx₁' := hfirst'.consistent hx
  obtain ⟨hrepeats, hrepeats₂⟩ :=
    replays_both hx₁ (hsecond.consistent hx₁) (hrow .requester _) hrows
  obtain ⟨hrepeats', hrepeats₂'⟩ :=
    replays_both hx₁' (hsecond'.consistent hx₁') (hrow .helper _) hrows'
  refine ⟨_, ab, _, ba, hfirst, hsecond, hfirst', hsecond', ?_, ?_, ?_⟩
  · exact hrows.alike hrows' hm hr hi rfl hopts hopts'
  · rintro db' (hrun | hrun | hrun)
    · exact hrepeats db' (.inl hrun)
    · exact hrepeats db' (.inr hrun)
    · exact hrepeats₂' db' hrun
  · rintro db' (hrun | hrun | hrun)
    · exact hrepeats' db' (.inl hrun)
    · exact hrepeats' db' (.inr hrun)
    · exact hrepeats₂ db' hrun

/-- User 1 reports one item received and user 2 two given, in either order. -/
theorem confirmCompletion_order_disputed :
    let db := runFrom step Db.empty SmallEvent.oneMatch
    ∃ m a ab b ba, db.matchRows.lookup 40 = some m ∧
      Confirms (SmallEvent.clock 5) 40 m.requesterId (SmallEvent.confirming SmallEvent.one) db a ∧
      Confirms (SmallEvent.clock 6) 40 m.helperId (SmallEvent.confirming SmallEvent.two) a ab ∧
      Confirms (SmallEvent.clock 7) 40 m.helperId (SmallEvent.confirming SmallEvent.two) db b ∧
      Confirms (SmallEvent.clock 8) 40 m.requesterId (SmallEvent.confirming SmallEvent.one) b ba ∧
      SettledAlike ab ba := by
  obtain ⟨m, hm, hfresh⟩ : ∃ m,
      (runFrom step Db.empty SmallEvent.oneMatch).matchRows.lookup 40 = some m ∧
        (decide (m.status = .active) && m.requesterConfirmedQty.isNone &&
          m.helperConfirmedQty.isNone) = true :=
    (Option.any_eq_true _ _).mp (by decide +kernel)
  simp only [Bool.and_eq_true, decide_eq_true_eq, Option.isNone_iff_eq_none] at hfresh
  obtain ⟨⟨hactive, hrequester⟩, hhelper⟩ := hfresh
  have hnone (side : Side) : m.confirmedQty side = none := by
    cases side
    · exact hrequester
    · exact hhelper
  obtain ⟨a, ab, b, ba, ha, hab, hb, hba, halike, -, -⟩ :=
    confirmCompletion_order ⟨_, rfl⟩ hm hactive hnone
      (show admits _ 40 (SmallEvent.confirming SmallEvent.one) = true by decide +kernel)
      (show admits _ 40 (SmallEvent.confirming SmallEvent.two) = true by decide +kernel)
      (SmallEvent.clock 5) (SmallEvent.clock 6) (SmallEvent.clock 7) (SmallEvent.clock 8)
  exact ⟨m, a, ab, b, ba, hm, ha, hab, hb, hba, halike⟩

end Db
end Sahay
