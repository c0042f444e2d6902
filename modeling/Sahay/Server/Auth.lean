import Mathlib.Data.List.Sort
import Sahay.Lib.Program
import Sahay.Server.Accounts

/-!
# Sign-in

The public calls of `modules/auth/service.ts`, statement by statement: one-time codes, sign-in
with a code or a password, and recovery, with the fixed-window rate limits of `lib/redis.ts`.
What a statement has written stays when the call throws later.  Mail goes to an outbox.
-/

namespace Sahay

namespace Limits

def otpTtlMinutes : ℕ := 10
def otpMaxAttempts : ℕ := 5

end Limits

/-! ## State -/

/-- A key of Redis that counts calls. -/
structure Counter where
  n : ℕ
  expiresAt : Option Time := none

/-- What the mail provider has been given. -/
inductive Mail
  | otp (email code locale : String)
  | username (email username locale : String)
  deriving DecidableEq

structure AuthState where
  backend : Backend
  counters : Table String Counter := ∅
  outbox : List Mail := []

abbrev AuthProgram := Program AuthState TxError

/-! ## What a call takes from outside -/

structure AuthConfig where
  testFixedOtp : Option String := none
  reviewerEmail : Option String := none
  reviewerOtp : Option String := none

/-- The functions on strings, with the hashes of codes and passwords. -/
structure AuthLib extends TextLib where
  hashOtp : String → String → String
  hashPassword : String → String
  /-- The configured cost fits into the memory of a hash; else `hashPassword` throws. -/
  hashes : Bool := true

/-- How Redis serves a rate limit. -/
inductive RedisReply
  | served
  | incrFails
  | expireFails
  deriving DecidableEq

structure AuthDraws extends LoginDraws where
  token : String
  otpCode : String
  otpId : ℕ := 0

structure AuthEnv extends Env where
  draws : AuthDraws
  /-- Redis, for the rate limit of a scope. -/
  redis : String → RedisReply := fun _ => .served

/-! ## Statements on one-time codes -/

namespace Db

variable (env : Env) (db : Db)

/-- The newest code of the address that is neither consumed nor expired. -/
def liveOtp (emailHmac : String) : Option (ℕ × OtpCode) :=
  let isLive (_ : ℕ) (otp : OtpCode) : Bool :=
    otp.emailHmac = some emailHmac && otp.consumedAt.isNone && env.now < otp.expiresAt
  let rows := (env.selectIds db.otpCodes isLive).filterMap fun id =>
    (db.otpCodes.lookup id).map fun otp => (id, otp)
  let newer (a b : ℕ × OtpCode) : Prop := b.2.createdAt ≤ a.2.createdAt
  (rows.insertionSort newer).head?

/-- `UPDATE … SET attempts = attempts + 1 … RETURNING attempts`. -/
def bumpAttempts (id : ℕ) : Option ℕ × Db :=
  let bump (otp : OtpCode) : OtpCode := { otp with attempts := otp.attempts + 1 }
  ((db.otpCodes.lookup id).map fun otp => (bump otp).attempts,
    { db with otpCodes := db.otpCodes.modify id bump })

def consume (otp : OtpCode) : OtpCode := { otp with consumedAt := some env.now }

def markConsumed (id : ℕ) : Db := { db with otpCodes := db.otpCodes.modify id (consume env) }

/-- Consume every code of the address and insert a new one. -/
def issueOtp (emailHmac codeHash : String) (proposed : ℕ) : Db :=
  let isUnconsumed (_ : ℕ) (otp : OtpCode) : Bool :=
    otp.emailHmac = some emailHmac && otp.consumedAt.isNone
  let issued : OtpCode :=
    { emailHmac := some emailHmac
      codeHash := codeHash
      expiresAt := env.now + Limits.otpTtlMinutes * 60000
      createdAt := env.now }
  let codes := db.otpCodes.updateWhere isUnconsumed (consume env)
  { db with otpCodes := codes.put (codes.freshKey proposed) issued }

end Db

namespace Auth

/-- A `SELECT` on the database. -/
def select {α : Type} (f : Backend → α) : AuthProgram α := .read fun st => f st.backend

def statement {α : Type} (f : Db → α × Db) : AuthProgram α :=
  .update fun st =>
    let (a, db) := f st.backend.toDb
    (a, { st with backend := { st.backend with toDb := db } })

def exec (f : Db → Db) : AuthProgram Unit := statement fun db => ((), f db)

def send (mail : Mail) : AuthProgram Unit :=
  .write fun st => { st with outbox := st.outbox ++ [mail] }

variable (cfg : AuthConfig) (lib : AuthLib) (env : AuthEnv)

/-! ## Rate limits -/

def rateLimitKey (now : Time) (scope id : String) (windowSec : ℕ) : String :=
  "rl:" ++ scope ++ ":" ++ id ++ ":" ++ toString (now / (windowSec * 1000))

/-- `INCR`; an expired key counts from nothing. -/
def incr (now : Time) (key : String) (st : AuthState) : ℕ × AuthState :=
  let isLive (counter : Counter) : Bool := counter.expiresAt.all fun t => now < t
  let counter := ((st.counters.lookup key).filter isLive).getD { n := 0 }
  let counted := { counter with n := counter.n + 1 }
  (counted.n, { st with counters := st.counters.upsert key counted fun _ => counted })

/-- `EXPIRE`. -/
def expire (now : Time) (key : String) (windowSec : ℕ) (st : AuthState) : AuthState :=
  let until' (counter : Counter) : Counter :=
    { counter with expiresAt := some (now + windowSec * 1000) }
  { st with counters := st.counters.modify key until' }

/-- Whether the call is allowed; an error of Redis denies it. -/
def rateLimit (scope id : String) (max windowSec : ℕ) : AuthProgram Bool :=
  let key := rateLimitKey env.now scope id windowSec
  if env.redis scope = .incrFails then return false
  else do
    let n ← .update (incr env.now key)
    if n = 1 then
      if env.redis scope = .expireFails then return false
      else
        .write (expire env.now key windowSec)
        return decide (n ≤ max)
    else return decide (n ≤ max)

/-! ## One-time codes -/

structure OtpStarted where
  ok : Bool := true
  retryAfterSeconds : ℕ := 60
  deriving DecidableEq

/-- The code of the configuration for tests or for the reviewer, else a random one. -/
def otpCode (email : String) : String :=
  let reviewerOtp := if cfg.reviewerEmail = some email then cfg.reviewerOtp else none
  cfg.testFixedOtp.getD (reviewerOtp.getD env.draws.otpCode)

/-- The answer is the same whether or not a limit has tripped. -/
def startOtp (email locale ip : String) : AuthProgram OtpStarted := do
  let emailHmac := lib.emailBlindIndex email
  let emailOk ← rateLimit env "otp:email" emailHmac 3 600
  let ipOk ← rateLimit env "otp:ip" ip 10 3600
  if emailOk && ipOk then
    let code := otpCode cfg env email
    exec fun db => db.issueOtp env.toEnv emailHmac (lib.hashOtp code emailHmac) env.draws.otpId
    send (.otp email code locale)
    return {}
  else return {}

/-- Attempts are counted before the guess is judged. -/
def consumeOtp (emailHmac code : String) : AuthProgram Unit := do
  match ← select fun b => b.liveOtp env.toEnv emailHmac with
  | none => .throw errors.unauthorized
  | some (id, otp) =>
      let bumped ← statement fun db => db.bumpAttempts id
      let attempts := bumped.getD (otp.attempts + 1)
      if lib.hashOtp code emailHmac ≠ otp.codeHash then
        if Limits.otpMaxAttempts ≤ attempts then
          exec fun db => db.markConsumed env.toEnv id
          .throw errors.rateLimited
        else .throw errors.unauthorized
      else if Limits.otpMaxAttempts < attempts then .throw errors.rateLimited
      else exec fun db => db.markConsumed env.toEnv id

/-! ## Sign-in -/

structure Me where
  id : UserId
  pseudonym : String
  avatarSeed : String
  locale : String
  role : UserRole
  status : UserStatus
  emailVerified : Bool
  createdAt : Time
  mustChangePassword : Bool

def toMe (userId : UserId) (user : User) : Me where
  id := userId
  pseudonym := user.pseudonym
  avatarSeed := user.avatarSeed
  locale := if user.locale = "hi" then "hi" else "en"
  role := user.role
  status := user.status
  emailVerified := user.emailVerifiedAt.isSome
  createdAt := user.createdAt
  mustChangePassword := user.mustChangePassword

structure AuthSession where
  token : String
  expiresAt : Time
  user : Me
  isNewAccount : Bool

/-- Insert a session, and what the client is told of it. -/
def openSession (userId : UserId) (user : User) (isNewAccount : Bool) :
    AuthProgram AuthSession := do
  .write fun st => { st with
    backend := st.backend.insertSession env.toEnv userId env.draws.toLoginDraws }
  return {
    token := env.draws.token
    expiresAt := env.now + Limits.sessionTtlDays * 86400000
    user := toMe userId user
    isNewAccount := isNewAccount }

/-- The account of the address, as one transaction; with whether it is a new one. -/
def claimAccount (email : String) : AuthProgram (UserId × User × Bool) :=
  .transaction fun st => do
    let (userId, b) ← st.backend.accountForEmail env.toEnv lib.toTextLib email
      env.draws.toLoginDraws
    let user ← found (b.users.lookup userId) errors.notFound
    return ((userId, user, decide (userId ∉ st.backend.users)), { st with backend := b })

def verifyOtp (email code : String) : AuthProgram AuthSession := do
  consumeOtp lib env (lib.emailBlindIndex email) code
  let (userId, user, isNewAccount) ← claimAccount lib env email
  openSession env userId user isNewAccount

def findByUsername (username : String) (b : Backend) : Option (UserId × User) :=
  b.users.first fun _ user => user.username = some username

/-- The refusal where no hash is stored: `dummyHash` makes one to be checked instead. -/
def withoutHash : TxError := if lib.hashes then errors.unauthorized else .scryptMemory

def checkPassword (normalized password : String) : AuthProgram AuthSession := do
  match ← select (findByUsername normalized) with
  | none => .throw (withoutHash lib)
  | some (userId, user) =>
      if user.passwordHash.isNone then .throw (withoutHash lib)
      else if !(user.passwordHash.any (lib.verifyPassword password)) then
        .throw errors.unauthorized
      else if user.status = .deleted ∨ user.deletedAt.isSome then .throw errors.unauthorized
      else if user.status = .suspended ∨ user.suspendedUntil.any (fun t => env.now < t) then
        .throw errors.accountRestricted
      else openSession env userId user false

def loginWithPassword (username password ip : String) : AuthProgram AuthSession := do
  let normalized := lib.normalize username
  let userOk ← rateLimit env "login:user" normalized 5 900
  let ipOk ← rateLimit env "login:ip" ip 20 900
  if userOk && ipOk then checkPassword lib env normalized password
  else .throw errors.rateLimited

/-! ## Recovery -/

def findByEmail (emailHmac : String) (b : Backend) : Option (UserId × User) :=
  b.users.first fun _ user => user.emailHmac = some emailHmac

/-- To an address whose account is not deleted and has a username. -/
def mailUsername (email locale : String) : AuthProgram Unit := do
  match ← select (findByEmail (lib.emailBlindIndex email)) with
  | none => return ()
  | some (_, user) =>
      match user.username with
      | none => return ()
      | some username =>
          if user.deletedAt.isNone then send (.username email username locale) else return ()

/-- The answer is the same whether or not anything is mailed. -/
def sendUsernameReminder (email locale : String) : AuthProgram Unit := do
  let ok ← rateLimit env "forgot-username:email" (lib.emailBlindIndex email) 3 900
  if ok then mailUsername lib email locale else return ()

/-- A new password for the account; every session of it ends. -/
def replacePassword (userId : UserId) (newPassword : String) (db : Db) : Db :=
  let replace (user : User) : User :=
    { user with
      passwordHash := some (lib.hashPassword newPassword)
      passwordSetAt := some env.now
      mustChangePassword := false }
  let isLive (_ : SessionId) (s : Session) : Bool := s.userId = userId && s.revokedAt.isNone
  let revoke (s : Session) : Session := { s with revokedAt := some env.now }
  { db with
    users := db.users.modify userId replace
    sessions := db.sessions.updateWhere isLive revoke }

def resetPasswordWithOtp (email code newPassword : String) : AuthProgram Unit := do
  let emailHmac := lib.emailBlindIndex email
  consumeOtp lib env emailHmac code
  match ← select (findByEmail emailHmac) with
  | none => .throw errors.unauthorized
  | some (userId, user) =>
      if user.deletedAt.isSome ∨ user.username.isNone then .throw errors.unauthorized
      else if !lib.hashes then .throw .scryptMemory
      else exec (replacePassword lib env userId newPassword)

/-! ## Calls -/

inductive AuthCall
  | startOtp (email locale ip : String)
  | verifyOtp (email code : String)
  | loginWithPassword (username password ip : String)
  | sendUsernameReminder (email locale : String)
  | resetPasswordWithOtp (email code newPassword : String)

/-- What a call that does not throw returns. -/
inductive AuthReply
  | otpStarted (r : OtpStarted)
  | session (s : AuthSession)
  | ok

def call : AuthCall → AuthProgram AuthReply
  | .startOtp email locale ip => do return .otpStarted (← startOtp cfg lib env email locale ip)
  | .verifyOtp email code => do return .session (← verifyOtp lib env email code)
  | .loginWithPassword username password ip => do
      return .session (← loginWithPassword lib env username password ip)
  | .sendUsernameReminder email locale => do
      sendUsernameReminder lib env email locale
      return .ok
  | .resetPasswordWithOtp email code newPassword => do
      resetPasswordWithOtp lib env email code newPassword
      return .ok

def step (st : AuthState) (i : AuthEnv × AuthCall) : AuthState :=
  ((call cfg lib i.1 i.2).exec st).2

def responses : AuthState → List (AuthEnv × AuthCall) → List (Outcome AuthReply)
  | _, [] => []
  | st, i :: is => ((call cfg lib i.1 i.2).exec st).1 :: responses (step cfg lib st i) is

/-! ## The logins of the backend

On the database a sign-in is one of the transactions of `Backend`. -/

variable {cfg lib env} {st : AuthState}

theorem lookup_accountForEmail {b b' : Backend} {email : String} {draws : LoginDraws}
    {userId : UserId}
    (h : b.accountForEmail env.toEnv lib.toTextLib email draws = .ok (userId, b')) :
    ∃ user, b'.users.lookup userId = some user := by
  have created {b : Backend} (h : b.createAccount env.toEnv lib.toTextLib email draws =
      .ok (userId, b')) : ∃ user, b'.users.lookup userId = some user := by
    simp only [Backend.createAccount, bind_ok, ensure_ok, pure_ok, Prod.mk.injEq] at h
    obtain ⟨-, -, rfl, rfl⟩ := h
    exact ⟨_, AList.lookup_insert _⟩
  unfold Backend.accountForEmail at h
  split at h
  · rename_i id user hfirst
    split_ifs at h
    · obtain ⟨rfl, rfl⟩ := Prod.mk.inj (pure_ok.mp h)
      exact ⟨user, (Table.mem_select.mp (List.mem_of_mem_head? hfirst)).1⟩
    · exact created h
  · exact created h

theorem claimAccount_error {email : String} {e : TxError}
    (h : st.backend.accountForEmail env.toEnv lib.toTextLib email env.draws.toLoginDraws =
      .error e) :
    (claimAccount lib env email).exec st = (.error e, st) := by
  apply Program.exec_transaction_error
  rw [h]
  rfl

theorem claimAccount_ok {email : String} {userId : UserId} {b : Backend}
    (h : st.backend.accountForEmail env.toEnv lib.toTextLib email env.draws.toLoginDraws =
      .ok (userId, b)) :
    ∃ user, (claimAccount lib env email).exec st =
      (.ok (userId, user, decide (userId ∉ st.backend.users)), { st with backend := b }) := by
  obtain ⟨user, huser⟩ := lookup_accountForEmail h
  refine ⟨user, Program.exec_transaction_ok ?_⟩
  rw [h, bind_ok_left]
  dsimp only
  rw [huser]
  rfl

theorem verifyOtp_backend (email code : String) :
    ((verifyOtp lib env email code).exec st).2.backend =
      let consumed := (consumeOtp lib env (lib.emailBlindIndex email) code).exec st
      consumed.2.backend.commit (consumed.2.backend.verifyOtp env.toEnv lib.toTextLib email
        consumed.1 env.draws.toLoginDraws) := by
  rcases hconsume : (consumeOtp lib env (lib.emailBlindIndex email) code).exec st with ⟨r, t⟩
  dsimp only
  unfold verifyOtp Backend.verifyOtp
  cases r with
  | error e =>
    rw [Program.exec_bind_error hconsume]
    rfl
  | ok _ =>
    rw [Program.exec_bind_ok hconsume, bind_ok_left]
    cases haccount : t.backend.accountForEmail env.toEnv lib.toTextLib email
        env.draws.toLoginDraws with
    | error e =>
      rw [Program.exec_bind_error (claimAccount_error haccount)]
      rfl
    | ok account =>
      obtain ⟨userId, b⟩ := account
      obtain ⟨user, hclaim⟩ := claimAccount_ok haccount
      rw [Program.exec_bind_ok hclaim]
      rfl

theorem checkPassword_backend (username password : String) :
    ((checkPassword lib env (lib.normalize username) password).exec st).2.backend =
      st.backend.commit (st.backend.loginWithPassword env.toEnv lib.toTextLib username password
        env.draws.toLoginDraws) := by
  unfold checkPassword Backend.loginWithPassword
  change ((match findByUsername (lib.normalize username) st.backend with
    | none => _
    | some (userId, user) => _ : AuthProgram AuthSession).exec st).2.backend = _
  change _ = st.backend.commit (found (findByUsername (lib.normalize username) st.backend) _ >>= _)
  cases findByUsername (lib.normalize username) st.backend with
  | none => rfl
  | some account =>
    obtain ⟨userId, user⟩ := account
    dsimp only
    rw [found_some, bind_ok_left]
    dsimp only
    have hdeleted : (user.status ≠ .deleted ∧ user.deletedAt.isNone) ↔
        ¬(user.status = .deleted ∨ user.deletedAt.isSome) := by
      rw [not_or, Bool.not_eq_true, Option.isSome_eq_false_iff]
    have hsuspended : (user.status ≠ .suspended ∧ user.suspendedUntil.all fun t => t ≤ env.now) ↔
        ¬(user.status = .suspended ∨ user.suspendedUntil.any fun t => env.now < t) := by
      rw [not_or]
      cases user.suspendedUntil <;> simp
    by_cases hpassword : user.passwordHash.any (lib.verifyPassword password) = true
    · have hstored : user.passwordHash.isNone = false := by
        cases hhash : user.passwordHash with
        | none =>
          rw [hhash] at hpassword
          cases hpassword
        | some stored => rfl
      rw [ensure_pos hpassword, hpassword, bind_ok_left, hstored]
      by_cases hgone : user.status = .deleted ∨ user.deletedAt.isSome
      · rw [ensure_neg (mt hdeleted.mp (not_not_intro hgone))]
        simp only [hgone, if_true]
        rfl
      · rw [ensure_pos (hdeleted.mpr hgone), bind_ok_left]
        simp only [hgone, if_false]
        by_cases hout : user.status = .suspended ∨ user.suspendedUntil.any fun t => env.now < t
        · rw [ensure_neg (mt hsuspended.mp (not_not_intro hout))]
          simp only [hout, if_true]
          rfl
        · rw [ensure_pos (hsuspended.mpr hout), bind_ok_left]
          simp only [hout, if_false]
          rfl
    · rw [ensure_neg hpassword]
      simp only [hpassword, Bool.not_false, if_true]
      split_ifs <;> rfl

end Auth
end Sahay
