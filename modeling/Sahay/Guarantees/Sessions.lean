import Sahay.Guarantees.Enumeration
import Sahay.Refinement.Site

/-!
# Sessions that have ended

A session that one of the calls below has ended never lets anybody in again: not through the
calls that were under way, whose first statement had already read it as live, and not through
anything that happens afterwards.  Only a sign-in that draws the same token would.
-/

namespace Sahay

namespace Directory

def Spent (tokenHash : String) (dir : Directory) : Prop :=
  ∀ id s, dir.sessions.lookup id = some s → s.tokenHash = tokenHash → s.revokedAt.isSome

/-- The sessions under the token are sessions of the account, other than those set aside. -/
def HeldBy (userId : UserId) (aside : SessionId → Prop) (tokenHash : String)
    (dir : Directory) : Prop :=
  ∀ id s, dir.sessions.lookup id = some s → s.tokenHash = tokenHash →
    s.userId = userId ∧ ¬aside id

/-- Sessions under the token have only ended. -/
def Fewer (tokenHash : String) (dir dir' : Directory) : Prop :=
  ∀ id s', dir'.sessions.lookup id = some s' → s'.tokenHash = tokenHash →
    ∃ s, dir.sessions.lookup id = some s ∧ s.tokenHash = tokenHash ∧ s.userId = s'.userId ∧
      (s.revokedAt.isSome → s'.revokedAt.isSome)

variable {dir dir' dir'' : Directory} {tokenHash : String}

theorem Fewer.refl (tokenHash : String) (dir : Directory) : Fewer tokenHash dir dir :=
  fun _ s h htoken => ⟨s, h, htoken, rfl, id⟩

theorem Fewer.trans (h : Fewer tokenHash dir dir') (h' : Fewer tokenHash dir' dir'') :
    Fewer tokenHash dir dir'' := by
  intro id s'' hs'' htoken''
  obtain ⟨s', hs', htoken', huser', hrevoked'⟩ := h' id s'' hs'' htoken''
  obtain ⟨s, hs, htoken, huser, hrevoked⟩ := h id s' hs' htoken'
  exact ⟨s, hs, htoken, huser.trans huser', hrevoked' ∘ hrevoked⟩

theorem Fewer.of_sessions (h : dir'.sessions = dir.sessions) : Fewer tokenHash dir dir' := by
  intro id s' hs' htoken
  rw [h] at hs'
  exact Fewer.refl tokenHash dir id s' hs' htoken

theorem Spent.fewer (h : Spent tokenHash dir) (hfewer : Fewer tokenHash dir dir') :
    Spent tokenHash dir' := by
  intro id s' hs' htoken'
  obtain ⟨s, hs, htoken, -, hrevoked⟩ := hfewer id s' hs' htoken'
  exact hrevoked (h id s hs htoken)

theorem HeldBy.fewer {userId : UserId} {aside : SessionId → Prop}
    (h : HeldBy userId aside tokenHash dir) (hfewer : Fewer tokenHash dir dir') :
    HeldBy userId aside tokenHash dir' := by
  intro id s' hs' htoken'
  obtain ⟨s, hs, htoken, huser, -⟩ := hfewer id s' hs' htoken'
  exact huser ▸ h id s hs htoken

theorem resolveAuth_session {now : Time} {auth : AuthContext}
    (h : dir.resolveAuth now tokenHash = some auth) :
    ∃ s, dir.sessions.lookup auth.sessionId = some s ∧ s.tokenHash = tokenHash ∧
      s.revokedAt = none ∧ s.userId = auth.userId := by
  simp only [resolveAuth, Option.bind_eq_bind, Option.bind_eq_some_iff,
    Option.guard_eq_some', Option.pure_def, Option.some.injEq] at h
  obtain ⟨⟨sessionId, s⟩, hfirst, user, -, -, -, rfl⟩ := h
  obtain ⟨hs, hlive⟩ := Table.first_some hfirst
  simp only [Bool.and_eq_true, decide_eq_true_eq, Option.isNone_iff_eq_none] at hlive
  exact ⟨s, hs, hlive.1.1, hlive.1.2, rfl⟩

theorem authenticateAt_ok {route : String} {now : Time} {auth : AuthContext}
    (h : dir.authenticateAt route now tokenHash = .ok auth) :
    dir.resolveAuth now tokenHash = some auth := by
  simp only [authenticateAt, bind_ok, found_ok, pure_ok] at h
  obtain ⟨auth', hauth, -, -, -, -, rfl⟩ := h
  exact hauth

theorem Spent.resolveAuth (h : Spent tokenHash dir) (now : Time) :
    dir.resolveAuth now tokenHash = none := by
  by_contra hauth
  obtain ⟨auth, hauth⟩ := Option.ne_none_iff_exists'.mp hauth
  obtain ⟨s, hs, htoken, hlive, -⟩ := resolveAuth_session hauth
  have hrevoked := h _ s hs htoken
  rw [hlive] at hrevoked
  cases hrevoked

end Directory

open Directory

/-! ## What opens no session under the token -/

section Writes

variable {env : Env} {signs : String → Prop} {shares joins : UserId × EventId → Prop}
  {dir dir' : Directory} {tokenHash : String}

theorem DirectoryWrite.fewer (h : DirectoryWrite env signs shares dir dir')
    (htoken : ¬signs tokenHash) : Fewer tokenHash dir dir' := by
  cases h with
  | openSession id s hid hsigns =>
      intro id' s' hs' htoken'
      rw [Table.lookup_put] at hs'
      split_ifs at hs'
      · obtain rfl := Option.some.inj hs'
        exact absurd (htoken' ▸ hsigns) htoken
      · exact ⟨s', hs', htoken', rfl, fun h => h⟩
  | revoke p now =>
      intro id s' hs' htoken'
      rw [Table.lookup_updateWhere, Option.map_eq_some_iff] at hs'
      obtain ⟨s, hs, rfl⟩ := hs'
      refine ⟨s, hs, ?_⟩
      split_ifs at htoken' ⊢
      · exact ⟨htoken', rfl, fun _ => rfl⟩
      · exact ⟨htoken', rfl, fun h => h⟩
  | dropSessions p =>
      intro id s' hs' htoken'
      rw [Table.lookup_deleteWhere] at hs'
      exact ⟨s', (Option.filter_eq_some_iff.mp hs').1, htoken', rfl, fun h => h⟩
  | _ => exact .of_sessions rfl

theorem SiteWrite.fewer {lib : AuthLib} {env : AccountEnv} {picks : String → Prop}
    (h : SiteWrite lib env picks signs shares joins dir dir') (htoken : ¬signs tokenHash) :
    Fewer tokenHash dir dir' := by
  cases h with
  | write _ hwrite => exact hwrite.fewer htoken
  | _ => exact .of_sessions rfl

end Writes

namespace Site

variable {κ : Type} [DecidableEq κ] {cfg : AuthConfig} {lib : AuthLib} {s : Site κ}
  {tokenHash : String}

/-- The calls that are under way and the acts that follow draw no session under the token. -/
structure Quiet (tokenHash : String) (s : Site κ) (is : List (SiteAct κ)) : Prop where
  underWay : UnderWay (fun c => ¬c.2.opens c.1 tokenHash) s
  acts : ∀ act ∈ is,
    Meets (fun c => ¬c.2.opens c.1 tokenHash) (fun act => ¬act.opens tokenHash) act

theorem Quiet.step {act : SiteAct κ} {is : List (SiteAct κ)}
    (h : Quiet tokenHash s (act :: is)) : Quiet tokenHash (step cfg lib s act) is := by
  refine ⟨?_, fun act' hact' => h.acts act' (List.mem_cons_of_mem act hact')⟩
  have hserving : (Site.step cfg lib s act).Serving fun _ c p =>
      ∀ next write, p = .stmt next write → ¬c.2.opens c.1 tokenHash := by
    refine Service.Serving.step ?_ act (fun k c hact next write _ => ?_) fun k c p hp => ?_
    · exact fun k c p hslot next write hp => h.underWay k c next write (hp ▸ hslot)
    · have hmeets := h.acts act List.mem_cons_self
      rw [hact] at hmeets
      exact hmeets
    · cases p with
      | done r => exact hp
      | stmt next write => exact fun _ _ _ => hp next write rfl
  exact fun k c next write hslot => hserving k c _ hslot next write rfl

omit [DecidableEq κ] in
theorem Quiet.left {is js : List (SiteAct κ)} (h : Quiet tokenHash s (is ++ js)) :
    Quiet tokenHash s is :=
  ⟨h.underWay, fun act hact => h.acts act (List.mem_append_left js hact)⟩

theorem Quiet.run {is js : List (SiteAct κ)} (h : Quiet tokenHash s (is ++ js)) :
    Quiet tokenHash (runFrom (Site.step cfg lib) s is) js := by
  induction is generalizing s with
  | nil => exact h
  | cons act is ih => exact ih h.step

theorem Quiet.fewer {is : List (SiteAct κ)} (h : Quiet tokenHash s is)
    (hserved : Served lib s) :
    Fewer tokenHash (dir s) (dir (runFrom (Site.step cfg lib) s is)) := by
  refine run_invariant (P := Fewer tokenHash (dir s)) _ _ ?_ ?_ hserved h.underWay
    (Fewer.refl tokenHash (dir s)) h.acts
  · exact fun c hc dir' dir'' hfewer hwrite => hfewer.trans (hwrite.fewer hc)
  · exact fun env act hact shares dir' dir'' hfewer hwrite => hfewer.trans (hwrite.fewer hact)

theorem Quiet.refused {is : List (SiteAct κ)} (h : Quiet tokenHash s is)
    (hserved : Served lib s) (hspent : Spent tokenHash (dir s)) (now : Time) :
    (dir (runFrom (Site.step cfg lib) s is)).resolveAuth now tokenHash = none :=
  (hspent.fewer (h.fewer hserved)).resolveAuth now

theorem Quiet.along_heldBy {is : List (SiteAct κ)} (h : Quiet tokenHash s is)
    (hserved : Served lib s) {userId : UserId} {aside : SessionId → Prop}
    (hheld : HeldBy userId aside tokenHash (dir s)) :
    Along (Site.step cfg lib) (fun s _ => HeldBy userId aside tokenHash (dir s)) s is := by
  refine (Along.visited s is).mono ?_
  rintro t act ⟨js, ⟨rest, rfl⟩, rfl⟩
  exact hheld.fewer (h.left.left.fewer hserved)

theorem served_of_reachable {st : SiteState} (h : Reachable (Site.step cfg lib) (opened st) s) :
    Served lib s := by
  obtain ⟨is, rfl⟩ := h
  exact (served_opened st).run is

end Site

/-! ## Calls that end sessions -/

/-- What a statement revokes is spent. -/
theorem Directory.spent_revoke {dir : Directory} {tokenHash : String}
    {p : SessionId → Session → Bool} (now : Time)
    (h : ∀ id s, dir.sessions.lookup id = some s → s.tokenHash = tokenHash →
      s.revokedAt = none → p id s = true) :
    Spent tokenHash { dir with
      sessions := dir.sessions.updateWhere p fun s => { s with revokedAt := some now } } := by
  intro id s' hs' htoken'
  rw [Table.lookup_updateWhere, Option.map_eq_some_iff] at hs'
  obtain ⟨s, hs, rfl⟩ := hs'
  split_ifs at htoken' ⊢ with hp
  · rfl
  · cases hrevoked : s.revokedAt with
    | some t => rfl
    | none => exact absurd (h id s hs htoken' hrevoked) hp

namespace Auth

variable {lib : AuthLib} {env : AccountEnv} {cfg : AuthConfig} {tokenHash : String}

/-- Behind the pre-handler the caller is whoever its token was resolved to. -/
theorem asUser_leaves {α : Type} {P : AuthState → Prop} {Q : α → AuthState → Prop}
    {route : String} {handler : AuthContext → AuthProgram α}
    (hhandler : ∀ st auth, P st → st.backend.resolveAuth env.now tokenHash = some auth →
      (handler auth).Leaves P Q)
    (hstmt : ∀ auth a, handler auth ≠ .done (.ok a)) :
    (asUser env route tokenHash handler).Leaves P Q := by
  refine .read_bind_of_stmt (fun result a h => ?_) fun st hst => ?_
  · cases result with
    | error e => cases h
    | ok auth => exact hstmt auth a h
  · cases hauth : st.backend.authenticateAt route env.now tokenHash with
    | error e =>
        simp only [hauth]
        exact .throw e
    | ok auth =>
        simp only [hauth]
        exact hhandler st auth hst (authenticateAt_ok hauth)

/-- The call ends the session: as its own, or by its id. -/
inductive AccountCall.Ends (tokenHash : String) (sessionId : SessionId) : AccountCall → Prop
  | logout : AccountCall.Ends tokenHash sessionId (.logout tokenHash)
  | deleteSession (caller : String) :
      AccountCall.Ends tokenHash sessionId (.deleteSession caller sessionId)

theorem logout_leaves {userId : UserId} {sessionId : SessionId} :
    (serve lib env cfg (.logout tokenHash)).Leaves
      (fun st => HeldBy userId (· ≠ sessionId) tokenHash st.backend.toDirectory)
      fun _ st => Spent tokenHash st.backend.toDirectory := by
  refine asUser_leaves (fun st auth hst hauth => ?_) fun auth a h => by cases h
  obtain ⟨s, hs, htoken, -, huser⟩ := resolveAuth_session hauth
  obtain ⟨hsame, hid⟩ := hst auth.sessionId s hs htoken
  refine .map (.map (.update fun st' hst' => ?_))
  refine spent_revoke env.now fun id s' hs' htoken' hlive => ?_
  obtain ⟨hsame', hid'⟩ := hst' id s' hs' htoken'
  have hown : id = auth.sessionId := (not_not.mp hid').trans (not_not.mp hid).symm
  have hmine : s'.userId = auth.userId := hsame'.trans (hsame.symm.trans huser)
  simp [hown, hmine, hlive]

theorem deleteSession_leaves {userId : UserId} {sessionId : SessionId} (caller : String) :
    (serve lib env cfg (.deleteSession caller sessionId)).Leaves
      (fun st => HeldBy userId (· ≠ sessionId) tokenHash st.backend.toDirectory)
      fun _ st => Spent tokenHash st.backend.toDirectory := by
  refine asUser_leaves (fun _ auth _ _ => ?_) fun auth a h => by cases h
  refine .map (.bind (.update fun st hst b hb => ?_) fun revoked => ?_)
  · split_ifs at hb with hfound
    · refine spent_revoke env.now fun id s hs htoken hlive => ?_
      obtain ⟨⟨id', s'⟩, hfirst⟩ := Option.isSome_iff_exists.mp hfound
      obtain ⟨hs', htarget⟩ := Table.first_some hfirst
      simp only [Bool.and_eq_true, decide_eq_true_eq] at htarget
      have hid : id = id' := (not_not.mp (hst id s hs htoken).2).trans htarget.1.1.symm
      obtain rfl : s = s' := Option.some.inj (hs.symm.trans (hid ▸ hs'))
      simp [hid, htarget, hlive]
    · cases hb
  · split_ifs
    · exact .pure _
    · exact .throw _

end Auth

namespace Site

variable {κ : Type} [DecidableEq κ] {cfg : AuthConfig} {lib : AuthLib} {s : Site κ}

/-- What the last statement of a call about accounts leaves behind is there when it returns. -/
theorem account_returns {P Q : AuthState → Prop} {k : κ} {env : AccountEnv}
    {call : Auth.AccountCall} {mid : List (SiteAct κ)} {reply : SiteReply}
    (hleaves : (Auth.serve lib env cfg call).Leaves P fun _ => Q)
    (hidle : Service.isBusy (s.slots k) = false)
    (hrun : Along (step cfg lib) (fun s _ => P s.state.toAuthState) s
      (mid ++ [.turn k]))
    (hreturns : (runFrom (step cfg lib) s mid).Returns k (env, .account call) reply) :
    Q (runFrom (step cfg lib) s (mid ++ [.turn k])).state.toAuthState := by
  obtain ⟨hmid, hlast, -⟩ := Along.append.mp hrun
  have hmid : Along (Service.step (serve cfg lib) (alone lib)) (fun s _ => P s.state.toAuthState) s
      mid := hmid
  rw [runFrom, List.foldl_append]
  refine Service.run_returns (P := fun st => P st.toAuthState)
    (Q := fun c _ st => c = (env, .account call) → Q st.toAuthState) (fun c => ?_) ?_ hmid hlast
    hreturns rfl
  · by_cases hc : c = (env, .account call)
    · subst hc
      have hwithin : (account (Auth.serve lib env cfg call)).Leaves (fun st => P st.toAuthState)
          fun _ st => Q st.toAuthState := Program.Leaves.within (fun _ _ => rfl) hleaves
      exact .map (hwithin.mono fun _ _ h _ => h)
    · exact .of_forall (fun _ _ h => absurd h hc) _
  · intro c p hslot
    cases p with
    | done r => trivial
    | stmt next write =>
        rw [hslot] at hidle
        cases hidle

/-- A session that a call has ended lets nobody in again.  Until then the sessions under its token
are itself; the calls around it may have read it as live, and go on in any order. -/
theorem ended_session_refused {st : SiteState} {k : κ} {env : AccountEnv}
    {call : Auth.AccountCall} {tokenHash : String} {sessionId : SessionId}
    {mid post : List (SiteAct κ)} {reply : SiteReply}
    (hs : Reachable (step cfg lib) (opened st) s)
    (hunique : ∀ id row, (dir s).sessions.lookup id = some row → row.tokenHash = tokenHash →
      id = sessionId)
    (hends : call.Ends tokenHash sessionId)
    (hidle : Service.isBusy (s.slots k) = false)
    (hquiet : Quiet tokenHash s (.call k (env, .account call) :: mid ++ .turn k :: post))
    (hreturns : (runFrom (step cfg lib) s (.call k (env, .account call) :: mid)).Returns k
      (env, .account call) reply)
    (now : Time) :
    (dir (runFrom (step cfg lib) s
      (.call k (env, .account call) :: mid ++ .turn k :: post))).resolveAuth now tokenHash =
        none := by
  have hserved := served_of_reachable hs
  have hsplit : (.call k (env, .account call) :: mid ++ .turn k :: post : List (SiteAct κ)) =
      (.call k (env, .account call) :: mid ++ [.turn k]) ++ post := by simp
  rw [hsplit] at hquiet ⊢
  rw [runFrom, List.foldl_append]
  refine hquiet.run.refused (hserved.run _) ?_ now
  -- the account of the session, if there is one under the token
  have hheld : ∃ userId, HeldBy userId (· ≠ sessionId) tokenHash (dir s) := by
    cases hrow : (dir s).sessions.lookup sessionId with
    | none =>
        refine ⟨0, fun id row hid htoken => ?_⟩
        rw [hunique id row hid htoken, hrow] at hid
        cases hid
    | some owner =>
        refine ⟨owner.userId, fun id row hid htoken => ?_⟩
        obtain rfl := hunique id row hid htoken
        exact ⟨congrArg Session.userId (Option.some.inj (hid.symm.trans hrow)), not_not.mpr rfl⟩
  obtain ⟨userId, hheld⟩ := hheld
  refine account_returns
    (P := fun st => HeldBy userId (· ≠ sessionId) tokenHash st.backend.toDirectory)
    (Q := fun st => Spent tokenHash st.backend.toDirectory) ?_ hidle
    (hquiet.left.along_heldBy hserved hheld) hreturns
  cases hends with
  | logout => exact Auth.logout_leaves
  | deleteSession caller => exact Auth.deleteSession_leaves caller

/-- The laptop ends the session of the phone, which logs out at the same time. -/
theorem ended_session_refused_phone :
    (dir (runFrom (step {} Auth.plainLib) (opened SmallSite.signedIn)
      (.call true (SmallSite.env 5, .account (.deleteSession "laptop" 2)) ::
        [.call false (SmallSite.env 5, .account (.logout "phone")), .turn false, .turn true] ++
        .turn true :: [.turn false]))).resolveAuth 6 "phone" = none := by
  have hunique : ∀ id row, SmallSite.signedIn.db.sessions.lookup id = some row →
      row.tokenHash = "phone" → id = 2 := by
    intro id row hrow htoken
    simp only [SmallSite.signedIn, Table.lookup_put] at hrow
    split_ifs at hrow with hlaptop hphone
    · obtain rfl := Option.some.inj hrow
      exact absurd htoken (by decide)
    · exact hphone
    · cases hrow
  have hreturns : (runFrom (step {} Auth.plainLib) (opened SmallSite.signedIn)
      (.call true (SmallSite.env 5, .account (.deleteSession "laptop" 2)) ::
        [.call false (SmallSite.env 5, .account (.logout "phone")), .turn false,
          .turn true])).Returns true
      (SmallSite.env 5, .account (.deleteSession "laptop" 2)) (.account .ok) :=
    ⟨_, _, rfl, rfl⟩
  refine ended_session_refused (Reachable.refl _) hunique (.deleteSession "laptop") rfl ⟨?_, ?_⟩
    hreturns 6
  · intro k c next write hslot
    cases hslot
  · simp [Meets, SiteCall.opens, Auth.AccountCall.opens]

/-! ## A new password -/

/-- Whatever happens from here on, a token whose sessions are sessions of the account, other than
those set aside, lets nobody in. -/
def SignedOut (cfg : AuthConfig) (lib : AuthLib) (userId : UserId) (aside : SessionId → Prop)
    (s : Site κ) : Prop :=
  ∀ tokenHash post now, HeldBy userId aside tokenHash (dir s) → Quiet tokenHash s post →
    (dir (runFrom (step cfg lib) s post)).resolveAuth now tokenHash = none

end Site

/-- The account has the password, and its sessions have been revoked but for those set aside. -/
structure Directory.Replaced (lib : AuthLib) (password : String) (userId : UserId)
    (aside : SessionId → Prop) (dir : Directory) : Prop where
  password : ∀ user, dir.users.lookup userId = some user →
    user.passwordHash = some (lib.hashPassword password) ∧ user.mustChangePassword = false
  sessions : ∀ id s, dir.sessions.lookup id = some s → s.userId = userId → ¬aside id →
    s.revokedAt.isSome

theorem Directory.Replaced.signedOut {κ : Type} [DecidableEq κ] {cfg : AuthConfig}
    {lib : AuthLib} {password : String} {userId : UserId} {aside : SessionId → Prop} {s : Site κ}
    (h : (Site.dir s).Replaced lib password userId aside) (hserved : Site.Served lib s) :
    Site.SignedOut cfg lib userId aside s := by
  intro tokenHash post now hheld hquiet
  refine hquiet.refused hserved (fun id row hrow htoken => ?_) now
  obtain ⟨howner, haside⟩ := hheld id row hrow htoken
  exact h.sessions id row hrow howner haside

namespace Auth

variable {lib : AuthLib} {env : AccountEnv} {cfg : AuthConfig} {P : AuthState → Prop}

/-- A password is set, and the sessions that `p` picks are revoked. -/
theorem replaced_choosePassword {dir : Directory} {userId : UserId} {password : String}
    {aside : SessionId → Prop} {p : SessionId → Session → Bool}
    (hp : ∀ id s, s.userId = userId → s.revokedAt = none → ¬aside id → p id s = true) :
    Directory.Replaced lib password userId aside { dir with
      users := dir.users.modify userId (choosePassword lib env password)
      sessions := dir.sessions.updateWhere p fun s => { s with revokedAt := some env.now } } where
  password user huser := by
    rw [Table.lookup_modify, Option.map_eq_some_iff] at huser
    obtain ⟨row, -, rfl⟩ := huser
    rw [if_pos rfl]
    exact ⟨rfl, rfl⟩
  sessions id s' hs' howner haside := by
    rw [Table.lookup_updateWhere, Option.map_eq_some_iff] at hs'
    obtain ⟨s, hs, rfl⟩ := hs'
    split_ifs at howner ⊢ with hpicked
    · rfl
    · cases hrevoked : s.revokedAt with
      | some t => rfl
      | none => exact absurd (hp id s howner hrevoked haside) hpicked

theorem resetPasswordWithOtp_leaves {email code newPassword : String} :
    (serve lib env cfg (.signIn (.resetPasswordWithOtp email code newPassword))).Leaves P
      fun _ st => ∃ userId user seen, P seen ∧
        findByEmail (lib.emailBlindIndex email) seen.backend = some (userId, user) ∧
        user.deletedAt = none ∧ user.username.isSome ∧
        Replaced lib newPassword userId (fun _ => False) st.backend.toDirectory := by
  refine .map (.map (.bind_of_stmt (fun _ a h => by cases h) fun _ =>
    .read_bind_of_stmt (fun account a => ?_) fun seen hseen => ?_))
  · cases account with
    | none => exact fun h => by cases h
    | some account =>
        dsimp only
        split_ifs <;> exact fun h => by cases h
  cases haccount : findByEmail (lib.emailBlindIndex email) seen.backend with
  | none => exact .throw _
  | some account =>
      obtain ⟨userId, user⟩ := account
      dsimp only
      split_ifs with hgone hhashes
      · exact .throw _
      · exact .throw _
      · rw [not_or, Bool.not_eq_true, Option.isSome_eq_false_iff, Option.isNone_iff_eq_none,
          Bool.not_eq_true, Option.isNone_eq_false_iff] at hgone
        refine .update fun st _ => ⟨userId, user, seen, hseen, haccount, hgone.1, hgone.2,
          replaced_choosePassword ?_⟩
        intro id s howner hlive _
        simp [howner, hlive]

theorem changeOwnPassword_leaves {tokenHash currentPassword newPassword : String} :
    (serve lib env cfg (.changeOwnPassword tokenHash currentPassword newPassword)).Leaves P
      fun _ st => ∃ auth stored seen seen', P seen ∧ P seen' ∧
        seen.backend.resolveAuth env.now tokenHash = some auth ∧
        (seen'.backend.users.lookup auth.userId).bind User.passwordHash = some stored ∧
        lib.verifyPassword currentPassword stored = true ∧
        lib.verifyPassword newPassword stored = false ∧
        Replaced lib newPassword auth.userId (· = auth.sessionId) st.backend.toDirectory := by
  refine asUser_leaves (fun seen auth hseen hauth => .map ?_) fun auth a h => by cases h
  refine .read_bind_of_stmt (fun stored a => ?_) fun seen' hseen' => ?_
  · cases stored with
    | none => exact fun h => by cases h
    | some stored =>
        refine Program.bind_ne_ok (fun ok b => ?_) a
        split_ifs <;> exact fun h => by cases h
  cases hstored : (seen'.backend.users.lookup auth.userId).bind User.passwordHash with
  | none =>
      simp only [hstored]
      exact .throw _
  | some stored =>
      simp only [hstored]
      refine .bind_of_stmt (fun ok b => ?_) fun ok => ?_
      · split_ifs <;> exact fun h => by cases h
      · split_ifs with hok hcurrent hnew hhashes
        · exact .throw _
        · exact .throw _
        · exact .throw _
        · exact .throw _
        · refine .update fun st _ => ⟨auth, stored, seen, seen', hseen, hseen', hauth, hstored,
            by simpa using hcurrent, by simpa using hnew, replaced_choosePassword ?_⟩
          intro id s howner hlive haside
          simp [howner, hlive, haside]

end Auth

namespace SmallSite

def recovering : SiteState :=
  let otp : OtpCode :=
    { emailHmac := some "asha@example.com", codeHash := "asha@example.com1", expiresAt := 100 }
  signedIn.setDb { signedIn.db with otpCodes := (∅ : Table ℕ OtpCode).put 7 otp }

def recovery : List (SiteAct Unit) :=
  .call () (env 5, .account (.signIn (.resetPasswordWithOtp "asha@example.com" "1" "mine"))) ::
    List.replicate 4 (.turn ())

def change : List (SiteAct Unit) :=
  .call () (env 5, .account (.changeOwnPassword "laptop" "old" "mine")) ::
    List.replicate 4 (.turn ())

end SmallSite

namespace Site

variable {κ : Type} [DecidableEq κ] {cfg : AuthConfig} {lib : AuthLib} {s : Site κ}

/-- The state of the calls about accounts, at some point of the run from `s` over `is`. -/
def Seen (cfg : AuthConfig) (lib : AuthLib) (s : Site κ) (is : List (SiteAct κ))
    (st : AuthState) : Prop :=
  ∃ js, js <+: is ∧ (runFrom (step cfg lib) s js).state.toAuthState = st

theorem along_seen (s : Site κ) (is : List (SiteAct κ)) (k : κ) :
    Along (step cfg lib) (fun t _ => Seen cfg lib s is t.state.toAuthState) s
      (is ++ [.turn k]) := by
  refine Along.append.mpr ⟨(Along.visited s is).mono ?_, ⟨is, List.prefix_rfl, rfl⟩, trivial⟩
  rintro t act ⟨js, hjs, rfl⟩
  exact ⟨js, (List.prefix_append js [act]).trans hjs, rfl⟩

/-- A recovery that returns has found, at some point, an account that could be recovered at the
address; it leaves the new password, and every device that was signed in to the account is signed
out for good. -/
theorem recovery_signs_out {st : SiteState} {k : κ} {env : AccountEnv}
    {email code newPassword : String} {is : List (SiteAct κ)} {reply : SiteReply}
    (hs : Reachable (step cfg lib) (opened st) s)
    (hidle : Service.isBusy (s.slots k) = false)
    (hreturns : (runFrom (step cfg lib) s is).Returns k
      (env, .account (.signIn (.resetPasswordWithOtp email code newPassword))) reply) :
    ∃ userId user seen, Seen cfg lib s is seen ∧
      Auth.findByEmail (lib.emailBlindIndex email) seen.backend = some (userId, user) ∧
      user.deletedAt = none ∧ user.username.isSome ∧
      Replaced lib newPassword userId (fun _ => False)
        (dir (runFrom (step cfg lib) s (is ++ [.turn k]))) ∧
      SignedOut cfg lib userId (fun _ => False)
        (runFrom (step cfg lib) s (is ++ [.turn k])) := by
  obtain ⟨userId, user, seen, hseen, hfound, hlive, hname, hreplaced⟩ :=
    account_returns Auth.resetPasswordWithOtp_leaves hidle (along_seen s is k) hreturns
  refine ⟨userId, user, seen, hseen, hfound, hlive, hname, hreplaced, hreplaced.signedOut ?_⟩
  exact (served_of_reachable hs).run _

/-- The code of the recovery has been mailed before. -/
theorem recovery_signs_out_both : ∃ userId user seen,
    Seen {} Auth.plainLib (opened SmallSite.recovering) SmallSite.recovery seen ∧
      Auth.findByEmail "asha@example.com" seen.backend = some (userId, user) ∧
      user.deletedAt = none ∧ user.username.isSome ∧
      Replaced Auth.plainLib "mine" userId (fun _ => False)
        (dir (runFrom (step {} Auth.plainLib) (opened SmallSite.recovering)
          (SmallSite.recovery ++ [.turn ()]))) ∧
      SignedOut {} Auth.plainLib userId (fun _ => False)
        (runFrom (step {} Auth.plainLib) (opened SmallSite.recovering)
          (SmallSite.recovery ++ [.turn ()])) := by
  have hreturns : (runFrom (step {} Auth.plainLib) (opened SmallSite.recovering)
      SmallSite.recovery).Returns () (SmallSite.env 5, .account
        (.signIn (.resetPasswordWithOtp "asha@example.com" "1" "mine"))) (.account (.signIn .ok)) :=
    ⟨_, _, rfl, rfl⟩
  exact recovery_signs_out (Reachable.refl _) rfl hreturns

/-- A change of password that returns has seen the current one verified; it leaves the new one, and
every other device that was signed in to the account is signed out for good. -/
theorem password_change_signs_out {st : SiteState} {k : κ} {env : AccountEnv}
    {tokenHash currentPassword newPassword : String} {is : List (SiteAct κ)} {reply : SiteReply}
    (hs : Reachable (step cfg lib) (opened st) s)
    (hidle : Service.isBusy (s.slots k) = false)
    (hreturns : (runFrom (step cfg lib) s is).Returns k
      (env, .account (.changeOwnPassword tokenHash currentPassword newPassword)) reply) :
    ∃ auth stored seen seen', Seen cfg lib s is seen ∧ Seen cfg lib s is seen' ∧
      seen.backend.resolveAuth env.now tokenHash = some auth ∧
      (seen'.backend.users.lookup auth.userId).bind User.passwordHash = some stored ∧
      lib.verifyPassword currentPassword stored = true ∧
      lib.verifyPassword newPassword stored = false ∧
      Replaced lib newPassword auth.userId (· = auth.sessionId)
        (dir (runFrom (step cfg lib) s (is ++ [.turn k]))) ∧
      SignedOut cfg lib auth.userId (· = auth.sessionId)
        (runFrom (step cfg lib) s (is ++ [.turn k])) := by
  obtain ⟨auth, stored, seen, seen', hseen, hseen', hauth, hstored, hcurrent, hnew, hreplaced⟩ :=
    account_returns Auth.changeOwnPassword_leaves hidle (along_seen s is k) hreturns
  refine ⟨auth, stored, seen, seen', hseen, hseen', hauth, hstored, hcurrent, hnew, hreplaced,
    hreplaced.signedOut ?_⟩
  exact (served_of_reachable hs).run _

theorem password_change_signs_out_phone : ∃ auth stored seen seen',
    Seen {} Auth.plainLib (opened SmallSite.signedIn) SmallSite.change seen ∧
      Seen {} Auth.plainLib (opened SmallSite.signedIn) SmallSite.change seen' ∧
      seen.backend.resolveAuth (SmallSite.env 5).now "laptop" = some auth ∧
      (seen'.backend.users.lookup auth.userId).bind User.passwordHash = some stored ∧
      Auth.plainLib.verifyPassword "old" stored = true ∧
      Auth.plainLib.verifyPassword "mine" stored = false ∧
      Replaced Auth.plainLib "mine" auth.userId (· = auth.sessionId)
        (dir (runFrom (step {} Auth.plainLib) (opened SmallSite.signedIn)
          (SmallSite.change ++ [.turn ()]))) ∧
      SignedOut {} Auth.plainLib auth.userId (· = auth.sessionId)
        (runFrom (step {} Auth.plainLib) (opened SmallSite.signedIn)
          (SmallSite.change ++ [.turn ()])) := by
  have hreturns : (runFrom (step {} Auth.plainLib) (opened SmallSite.signedIn)
      SmallSite.change).Returns () (SmallSite.env 5, .account
        (.changeOwnPassword "laptop" "old" "mine")) (.account .ok) :=
    ⟨_, _, rfl, rfl⟩
  exact password_change_signs_out (Reachable.refl _) rfl hreturns

end Site
end Sahay
