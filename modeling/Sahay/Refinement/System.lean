import Sahay.Refinement.Matching
import Sahay.Refinement.Moderation

/-!
# Every operation refines the lifecycle

So the invariants of the exchange hold in every reached state, and whatever a
single transaction does to a match is one lifecycle step.
-/

namespace Sahay

/-! ## Consistent databases -/

/-- The exchange is consistent, and the category of every request exists. -/
structure Db.Consistent (db : Db) : Prop where
  exchange : db.toExchange.Consistent
  category : ∀ rid r, db.requests.lookup rid = some r → r.categoryId ∈ db.categories

theorem Lifecycle.category {c : Ctx} {x x' : Exchange} (h : Lifecycle c x x')
    (hx : ∀ rid r, x.requests.lookup rid = some r → r.categoryId ∈ c.dir.categories) :
    ∀ rid r, x'.requests.lookup rid = some r → r.categoryId ∈ c.dir.categories := by
  rcases h.requests_before with hold | ⟨id, r, hput, hcategory⟩
  · intro rid r hr
    obtain ⟨r', hr', hid⟩ := hold rid r hr
    simp only [Request.identity, Prod.mk.injEq] at hid
    exact hid.2.2.1 ▸ hx rid r' hr'
  · rw [hput]
    exact Table.forall_put hx hcategory

namespace Db

variable {db db' : Db} {env : Env} {op : Op} {effects : List Effect}

def callerOf (db : Db) (env : Env) (op : Op) : Option UserId :=
  op.token?.bind fun token => (db.resolveAuth env.now token).map AuthContext.userId

def ctxOf (db : Db) (env : Env) (op : Op) : Ctx :=
  db.ctx env (db.callerOf env op) op

theorem authenticate_ok {token : String} {auth : AuthContext}
    (h : db.authenticate env.now token = .ok auth) :
    db.resolveAuth env.now token = some auth ∧ auth.status ≠ .suspended := by
  simp only [Directory.authenticate, bind_ok, found_ok, ensure_ok, pure_ok] at h
  obtain ⟨auth, hauth, -, hstatus, -, -, rfl⟩ := h
  exact ⟨hauth, hstatus⟩

theorem asUser_ok {token : String} {body : AuthContext → Outcome (List Effect × Db)}
    (h : db.asUser env token body = .ok (effects, db')) :
    ∃ auth, db.resolveAuth env.now token = some auth ∧ auth.status ≠ .suspended ∧
      body auth = .ok (effects, db') := by
  obtain ⟨auth, hauth, hbody⟩ := bind_ok.mp h
  exact ⟨auth, (authenticate_ok hauth).1, (authenticate_ok hauth).2, hbody⟩

theorem resolveAuth_some {now : Time} {token : String} {auth : AuthContext}
    (h : db.resolveAuth now token = some auth) : ∃ user,
      db.users.lookup auth.userId = some user ∧ user.deletedAt = none ∧
        auth.status = user.effectiveStatus now ∧ auth.canRequest = user.canRequest := by
  simp only [Directory.resolveAuth, Option.bind_eq_bind, Option.bind_eq_some_iff,
    Option.guard_eq_some', Option.pure_def, Option.some.injEq] at h
  obtain ⟨session, -, user, huser, -, hdeleted, rfl⟩ := h
  exact ⟨user, huser, by simpa using hdeleted, rfl, rfl⟩

theorem caller_not_suspended {userId : UserId} (h : db.exec env op = .ok (effects, db'))
    (hcaller : db.callerOf env op = some userId) :
    ∃ user, db.users.lookup userId = some user ∧ user.effectiveStatus env.now ≠ .suspended := by
  have hauthenticated {token : String} {auth : AuthContext} (htoken : op.token? = some token)
      (hauth : db.resolveAuth env.now token = some auth) (hstatus : auth.status ≠ .suspended) :
      ∃ user, db.users.lookup userId = some user ∧ user.effectiveStatus env.now ≠ .suspended := by
    rw [callerOf, htoken, Option.bind_some, hauth, Option.map_some] at hcaller
    obtain ⟨user, huser, -, heffective, -⟩ := resolveAuth_some hauth
    exact ⟨user, Option.some.inj hcaller ▸ huser, heffective ▸ hstatus⟩
  cases op <;> simp only [exec] at h
  case moderate token input =>
    obtain ⟨auth, hauth, -⟩ := bind_ok.mp h
    obtain ⟨auth', hauth', -⟩ := bind_ok.mp hauth
    obtain ⟨hresolved, hstatus⟩ := authenticate_ok hauth'
    exact hauthenticated rfl hresolved hstatus
  case directory | runMatchPass | expireOffer | autoFinalizeMatch | cancelMatchForModeration |
      deletionCancelRequests | deletionZeroInventory | deletionStatement =>
    simp [callerOf, Op.token?] at hcaller
  all_goals
    obtain ⟨auth, hauth, hstatus, -⟩ := asUser_ok h
    exact hauthenticated rfl hauth hstatus

theorem silently_ok {result : Outcome Db} (h : silently result = .ok (effects, db')) :
    result = .ok db' ∧ effects = [] := by
  simp only [silently, bind_ok, pure_ok, Prod.mk.injEq] at h
  obtain ⟨_, hresult, rfl, rfl⟩ := h
  exact ⟨hresult, rfl⟩

theorem Refines.of_caller {token : String} {auth : AuthContext} (htoken : op.token? = some token)
    (hauth : db.resolveAuth env.now token = some auth)
    (h : Refines (db.ctx env (some auth.userId) op) db db') :
    Refines (db.ctxOf env op) db db' := by
  rwa [ctxOf, callerOf, htoken, Option.bind_some, hauth]

theorem exec_refines (hx : db.toExchange.Consistent)
    (h : db.exec env op = .ok (effects, db')) : Refines (db.ctxOf env op) db db' := by
  cases op <;> simp only [exec] at h
  case directory dir =>
    have hreplace := (silently_ok h).1
    simp only [replaceDirectory, bind_ok, ensure_ok, pure_ok] at hreplace
    obtain ⟨-, hcategories, rfl⟩ := hreplace
    exact ⟨.refl, .inl (.of_requests rfl rfl rfl), fun id hid => hcategories id hid⟩
  case addInventory token eventId input =>
    obtain ⟨auth, -, -, h⟩ := asUser_ok h
    obtain ⟨⟨itemId, db₁⟩, hadd, hpure⟩ := bind_ok.mp (silently_ok h).1
    obtain rfl := pure_ok.mp hpure
    exact addInventory_refines hadd
  case updateInventory token itemId input =>
    obtain ⟨auth, -, -, h⟩ := asUser_ok h
    exact updateInventory_refines rfl (silently_ok h).1
  case deleteInventory token itemId =>
    obtain ⟨auth, -, -, h⟩ := asUser_ok h
    exact deleteInventory_refines rfl (silently_ok h).1
  case createRequest token input =>
    obtain ⟨auth, hauth, -, h⟩ := asUser_ok h
    exact .of_caller rfl hauth (createRequest_refines ⟨_, _, rfl⟩ h)
  case cancelRequest token requestId =>
    obtain ⟨auth, -, -, h⟩ := asUser_ok h
    exact cancelRequest_refines hx h
  case renewRequest token requestId expiresInMinutes =>
    obtain ⟨auth, hauth, -, h⟩ := asUser_ok h
    exact .of_caller rfl hauth (renewRequest_refines ⟨_, _, rfl⟩ h)
  case continueRequest token requestId continueSearching =>
    obtain ⟨auth, hauth, -, h⟩ := asUser_ok h
    exact .of_caller rfl hauth (continueRequest_refines ⟨_, rfl⟩ h)
  case runMatchPass requestId choices => exact runMatchPass_refines hx h
  case acceptOffer token offerId draws =>
    obtain ⟨auth, hauth, -, h⟩ := asUser_ok h
    simp only [bind_ok, pure_ok, Prod.mk.injEq] at h
    obtain ⟨r, haccept, rfl, rfl⟩ := h
    exact .of_caller rfl hauth (acceptOffer_refines ⟨_, _, rfl⟩ haccept)
  case declineOffer token offerId alsoStopReceiving =>
    obtain ⟨auth, -, -, h⟩ := asUser_ok h
    exact declineOffer_refines hx h
  case expireOffer offerId => exact expireOffer_refines hx h
  case setMeetingState token matchId state =>
    obtain ⟨auth, -, -, h⟩ := asUser_ok h
    exact setMeetingState_refines (silently_ok h).1
  case confirmCompletion token matchId qty =>
    obtain ⟨auth, -, -, h⟩ := asUser_ok h
    exact confirmCompletion_refines hx h
  case autoFinalizeMatch matchId => exact autoFinalizeMatch_refines hx h
  case cancelMatch token matchId reason note =>
    obtain ⟨auth, -, -, h⟩ := asUser_ok h
    exact cancelMatch_refines hx h
  case cancelMatchForModeration matchId reason => exact cancelMatchForModeration_refines hx h
  case moderate token input =>
    obtain ⟨auth, -, h⟩ := bind_ok.mp h
    exact moderate_refines rfl h
  case deletionCancelRequests userId =>
    exact deletionCancelRequests_refines rfl (silently_ok h).1
  case deletionZeroInventory userId => exact deletionZeroInventory_refines rfl (silently_ok h).1
  case deletionStatement userId statement =>
    obtain ⟨-, rfl⟩ := Prod.mk.inj (pure_ok.mp h)
    exact deletionStatement_refines
  case blockViaMatch token matchId =>
    obtain ⟨auth, -, -, h⟩ := asUser_ok h
    exact blockViaMatch_refines h
  case sendMessage token conversationId input =>
    obtain ⟨auth, -, -, h⟩ := asUser_ok h
    exact sendMessage_refines h

/-! ## Runs -/

theorem Refines.consistent {caller : Option UserId} (h : Refines (db.ctx env caller op) db db')
    (hx : db.Consistent) : db'.Consistent where
  exchange := h.run.consistent hx.exchange
  category rid r hr :=
    h.categories _ (h.run.invariant (fun _ _ hx hstep => hstep.category hx) hx.category rid r hr)

theorem step_consistent (db : Db) (i : Env × Op) (hx : db.Consistent) :
    (db.step i).Consistent := by
  rcases db.step_cases i with ⟨effects, h⟩ | h
  · exact (exec_refines hx.exchange h).consistent hx
  · rwa [h]

theorem empty_consistent : Db.empty.Consistent where
  exchange := Exchange.consistent_empty
  category rid r hr := by simp [Db.empty] at hr

theorem step_categories (hx : db.toExchange.Consistent) (i : Env × Op) (id : CategoryId)
    (hid : id ∈ db.categories) : id ∈ (db.step i).categories := by
  rcases db.step_cases i with ⟨effects, h⟩ | h
  · exact (exec_refines hx h).categories id hid
  · rwa [h]

theorem step_keeps (hx : db.toExchange.Consistent) (i : Env × Op) :
    db.toExchange.Keeps (db.step i).toExchange := by
  rcases db.step_cases i with ⟨effects, h⟩ | h
  · exact (exec_refines hx h).run.keeps
  · rw [h]
    exact LifecycleRun.keeps (c := db.ctxOf i.1 i.2) .refl

theorem Reached.consistent (h : db.Reached) : db.Consistent :=
  Reachable.invariant step_consistent empty_consistent h

/-! ## Where live rows come from -/

theorem step_active_before (hx : db.toExchange.Consistent) (i : Env × Op) :
    db.toExchange.KeepsActive (db.step i).toExchange ∨
      ∃ mid m oid o r, Accepted (db.ctxOf i.1 i.2) db.toExchange (db.step i).toExchange
        mid m oid o r := by
  rcases db.step_cases i with ⟨effects, h⟩ | h
  · rcases (exec_refines hx h).single with hquiet | hstep
    · refine .inl ?_
      rw [Exchange.KeepsActive, hquiet.matchRows]
      exact .refl _ _ _
    · exact hstep.active_before
  · rw [h]
    exact .inl (.refl _ _ _)

/-- A match that was not there before a step was made by the accept that it is. -/
theorem step_match_before (hx : db.toExchange.Consistent) (i : Env × Op) {mid : MatchId}
    {m' : Match} (hm' : (db.step i).matchRows.lookup mid = some m') :
    mid ∈ db.matchRows ∨ ∃ effects oid o r, db.exec i.1 i.2 = .ok (effects, db.step i) ∧
      Accepted (db.ctxOf i.1 i.2) db.toExchange (db.step i).toExchange mid m' oid o r := by
  rcases db.step_cases i with ⟨effects, h⟩ | h
  · rcases (exec_refines hx h).single with hquiet | hstep
    · rw [hquiet.matchRows] at hm'
      exact .inl (Table.mem_iff_exists.mpr ⟨m', hm'⟩)
    · rcases hstep.match_before hm' with hold | ⟨oid, o, r, haccepted⟩
      · exact .inl hold
      · exact .inr ⟨effects, oid, o, r, h, haccepted⟩
  · rw [h] at hm'
    exact .inl (Table.mem_iff_exists.mpr ⟨m', hm'⟩)

theorem step_closed_stays (hx : db.toExchange.Consistent) (i : Env × Op) {mid : MatchId}
    {m : Match} (hm : db.matchRows.lookup mid = some m) (hclosed : m.status ≠ .active) :
    (db.step i).matchRows.lookup mid = some m := by
  rcases db.step_cases i with ⟨effects, h⟩ | h
  · rcases (exec_refines hx h).single with hquiet | hstep
    · rw [hquiet.matchRows, hm]
    · exact hstep.closed_stays hm hclosed
  · rw [h, hm]

/-- A request in the pool after a step was there before it, or was put there by
its owner. -/
theorem step_pool_before (hx : db.toExchange.Consistent) (i : Env × Op) :
    db.toExchange.KeepsPool (db.step i).toExchange ∨
      ∃ effects rid r', db.exec i.1 i.2 = .ok (effects, db.step i) ∧
        Entered (db.ctxOf i.1 i.2) db.toExchange (db.step i).toExchange rid r' := by
  rcases db.step_cases i with ⟨effects, h⟩ | h
  · rcases (exec_refines hx h).single with hquiet | hstep
    · exact .inl hquiet.pool
    · rcases hstep.pool_before with hkeeps | ⟨rid, r', hentered⟩
      · exact .inl hkeeps
      · exact .inr ⟨effects, rid, r', h, hentered⟩
  · rw [h]
    exact .inl (.refl _ _ _)

end Db
end Sahay
