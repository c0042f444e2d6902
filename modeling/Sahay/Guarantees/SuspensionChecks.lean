import Sahay.Guarantees.Enumeration
import Sahay.Refinement.Accounts

/-!
# Suspension at sign-in and at a request

The sign-in refuses an account with the status `suspended` or with an end of a suspension ahead;
a request refuses it only with both.  A timed suspension that has run out therefore still keeps
its user from signing in, until the sweep clears it.
-/

namespace Sahay

/-- Deleted, suspended with no end behind it, or not suspended with no end ahead. -/
def User.JudgedAlike (user : User) (now : Time) : Prop :=
  user.status = .deleted ∨ user.deletedAt.isSome ∨
    (user.status = .suspended ∧ user.suspendedUntil.all fun t => now < t) ∨
    (user.status ≠ .suspended ∧ user.suspendedUntil.all fun t => t ≤ now)

instance (user : User) (now : Time) : Decidable (user.JudgedAlike now) :=
  inferInstanceAs (Decidable (_ ∨ _ ∨ (_ ∧ _) ∨ (_ ∧ _)))

/-- After the sweep a suspension that has run out no longer parts the two checks, unless it ends
in that very instant. -/
theorem Db.swept_judgedAlike (db : Db) (env : Env) (userId : UserId) {user : User}
    (hstatus : user.status = .suspended) (hend : user.suspendedUntil ≠ some env.now) :
    (db.swept env .liftSuspensions userId user).JudgedAlike env.now := by
  simp only [Db.swept, User.suspensionLapsed, hstatus, decide_true, Bool.true_and]
  split_ifs with hlapsed
  · exact .inr (.inr (.inr ⟨UserStatus.noConfusion, rfl⟩))
  · refine .inr (.inr (.inl ⟨hstatus, ?_⟩))
    cases huntil : user.suspendedUntil with
    | none => rfl
    | some t =>
        simp only [huntil, Option.any_some, decide_eq_true_eq] at hlapsed
        simp only [huntil, ne_eq, Option.some.injEq] at hend
        exact decide_eq_true (lt_of_le_of_ne (not_lt.1 hlapsed) (Ne.symm hend))

theorem User.effectiveStatus_suspended_iff {user : User} {now : Time} :
    user.effectiveStatus now = .suspended ↔
      user.status = .suspended ∧ user.suspendedUntil.all fun t => now < t := by
  unfold User.effectiveStatus
  simp only
  split_ifs with hsuspended hstatus
  · exact iff_of_true rfl hsuspended
  · exact iff_of_false (by decide) hsuspended
  · simp only [hstatus, false_and]

namespace Auth

variable {lib : AuthLib} {env : AuthEnv} {st : AuthState} {username password ip tokenHash : String}
  {userId : UserId} {user : User}

def LimitsAllow (lib : AuthLib) (env : AuthEnv) (st : AuthState) (username ip : String) : Prop :=
  ∃ t u, (rateLimit env "login:user" (lib.normalize username) 5 900).exec st = (.ok true, t) ∧
    (rateLimit env "login:ip" ip 20 900).exec t = (.ok true, u)

def LoginRefuses (lib : AuthLib) (env : AuthEnv) (st : AuthState)
    (username password ip : String) : Prop :=
  ((loginWithPassword lib env username password ip).exec st).1 = .error errors.accountRestricted

def RequestRefuses (now : Time) (b : Backend) (tokenHash : String) : Prop :=
  ∃ auth, b.resolveAuth now tokenHash = some auth ∧ auth.status = .suspended

def HoldsSession (now : Time) (b : Backend) (tokenHash : String) (userId : UserId) : Prop :=
  ∃ sessionId session, b.sessions.first (fun _ s =>
    s.tokenHash = tokenHash && s.revokedAt.isNone && now < s.expiresAt) =
      some (sessionId, session) ∧ session.userId = userId

theorem loginRefuses_iff (hlimits : LimitsAllow lib env st username ip)
    (hfind : findByUsername (lib.normalize username) st.backend = some (userId, user))
    (hpassword : user.passwordHash.any (lib.verifyPassword password) = true) :
    LoginRefuses lib env st username password ip ↔
      ¬ (user.status = .deleted ∨ user.deletedAt.isSome) ∧
        (user.status = .suspended ∨ user.suspendedUntil.any (fun t => env.now < t)) := by
  obtain ⟨t, u, ht, hu⟩ := hlimits
  have hbackend : u.backend = st.backend := (rateLimit_backend hu).trans (rateLimit_backend ht)
  unfold LoginRefuses loginWithPassword
  rw [Program.exec_bind_ok ht, Program.exec_bind_ok hu]
  simp only [Bool.and_self, if_true]
  unfold checkPassword
  rw [select_bind, hbackend, hfind]
  have hstored : user.passwordHash.isNone = false := by
    cases hhash : user.passwordHash with
    | none =>
        rw [hhash] at hpassword
        cases hpassword
    | some stored => rfl
  simp only [hstored, hpassword, Bool.not_true, Bool.false_eq_true, if_false]
  split_ifs with hdeleted hsuspended
  · simp only [hdeleted, not_true, false_and, iff_false]
    exact fun h => absurd (Except.error.inj h) (by decide)
  · simp only [hdeleted, not_false_iff, hsuspended, true_and, iff_true]
    rfl
  · simp only [hsuspended, and_false, iff_false]
    intro h
    cases h

theorem requestRefuses_iff {now : Time} {b : Backend} (huser : b.users.lookup userId = some user)
    (hsession : HoldsSession now b tokenHash userId) :
    RequestRefuses now b tokenHash ↔ user.deletedAt.isNone ∧ user.status = .suspended ∧
      user.suspendedUntil.all fun t => now < t := by
  obtain ⟨sessionId, session, hfirst, rfl⟩ := hsession
  have hresolve : b.resolveAuth now tokenHash =
      if user.deletedAt.isNone then
        some {
          userId := session.userId
          sessionId := sessionId
          role := user.role
          status := user.effectiveStatus now
          canRequest := user.canRequest
          canHelp := user.canHelp
          mustChangePassword := user.mustChangePassword }
      else none := by
    simp only [Directory.resolveAuth, hfirst, huser, Option.bind_eq_bind, Option.bind_some]
    split_ifs with hlive
    · simp [guard, hlive]
    · simp [guard, hlive]
  unfold RequestRefuses
  rw [hresolve]
  by_cases hlive : user.deletedAt.isNone
  · simp only [hlive, if_true, Option.some.injEq, exists_eq_left', true_and,
      User.effectiveStatus_suspended_iff]
  · simp only [hlive, if_false, Bool.false_eq_true, false_and, reduceCtorEq, exists_false]

/-- With the right credentials and a valid session, the sign-in and a request judge the account's
suspension alike exactly under `JudgedAlike`. -/
theorem login_iff_request (hlimits : LimitsAllow lib env st username ip)
    (hfind : findByUsername (lib.normalize username) st.backend = some (userId, user))
    (hpassword : user.passwordHash.any (lib.verifyPassword password) = true)
    (hsession : HoldsSession env.now st.backend tokenHash userId) :
    (LoginRefuses lib env st username password ip ↔
        RequestRefuses env.now st.backend tokenHash) ↔ user.JudgedAlike env.now := by
  rw [loginRefuses_iff hlimits hfind hpassword,
    requestRefuses_iff (Table.first_some hfind).1 hsession]
  unfold User.JudgedAlike
  have hnone : user.deletedAt.isNone ↔ ¬ user.deletedAt.isSome := by
    cases user.deletedAt <;> simp
  have hpast : (user.suspendedUntil.all fun t => t ≤ env.now) ↔
      ¬ user.suspendedUntil.any fun t => env.now < t := by
    cases user.suspendedUntil <;> simp
  rw [hnone, hpast]
  by_cases hgone : user.deletedAt.isSome
  · simp [hgone]
  · by_cases hsuspended : user.status = .suspended
    · simp [hgone, hsuspended]
    · simp [hgone, hsuspended, imp_iff_not_or]

/-! ## Non-vacuity -/

/-- A user suspended until the instant 9, with a password and a session. -/
def suspendedAsha : AuthState where
  backend :=
    { users := (∅ : Table UserId User).put 1 { asha with suspendedUntil := some 9 }
      sessions := (∅ : Table SessionId Session).put 2
        { userId := 1, tokenHash := "t", expiresAt := 1000 } }

def signingIn (now : Time) : AuthEnv :=
  { SmallEvent.clock now with
    draws := { pseudonym := (0, 1), tokenHash := "u", token := "u", otpCode := "" } }

theorem login_iff_request_running :
    (LoginRefuses plainLib (signingIn 5) suspendedAsha "asha" "right" "ip" ↔
        RequestRefuses 5 suspendedAsha.backend "t") ↔
      { asha with suspendedUntil := some 9 : User }.JudgedAlike 5 :=
  login_iff_request ⟨_, _, rfl, rfl⟩
    (show findByUsername _ suspendedAsha.backend = some (1, { asha with suspendedUntil := some 9 })
      from rfl) (by decide) ⟨2, _, rfl, rfl⟩

/-- Once the suspension has run out a request passes and the sign-in is refused. -/
theorem login_iff_request_fails :
    LoginRefuses plainLib (signingIn 10) suspendedAsha "asha" "right" "ip" ∧
      ¬ RequestRefuses 10 suspendedAsha.backend "t" := by
  constructor
  · have hfind : findByUsername (plainLib.normalize "asha") suspendedAsha.backend =
        some (1, { asha with suspendedUntil := some 9 }) := rfl
    rw [loginRefuses_iff ⟨_, _, rfl, rfl⟩ hfind (by decide)]
    decide
  · have huser : suspendedAsha.backend.users.lookup 1 =
        some { asha with suspendedUntil := some 9 } := rfl
    rw [requestRefuses_iff huser ⟨2, _, rfl, rfl⟩]
    decide

end Auth
end Sahay
