import Sahay.Lib.Service
import Sahay.Server.Auth

/-!
# Credentials and sessions

What a signed-in user does to its own credentials and sessions (`modules/auth/service.ts`), the
staff accounts that administrators issue (`modules/admin/service.ts`) and the first one
(`db/bootstrap-admin.ts`).  What the source runs as a transaction is one atomic turn, and every
other statement is one; but where a transaction reads without locks what it goes on, its
statements are turns.  A caller is known by the hash of its token.  Behind the pre-handler an
account whose password has been generated reaches three routes only.
-/

namespace Sahay

/-! ## The pre-handler -/

/-- `PASSWORD_CHANGE_EXEMPT`. -/
def passwordChangeExempt : List String :=
  ["/api/v1/auth/password", "/api/v1/auth/logout", "/api/v1/me"]

namespace Directory

variable (dir : Directory)

/-- `authenticate`, for the route of this URL. -/
def authenticateAt (route : String) (now : Time) (tokenHash : String) : Outcome AuthContext := do
  let auth ← found (dir.resolveAuth now tokenHash) errors.unauthorized
  ensure (auth.status ≠ .suspended) errors.accountRestricted
  ensure (auth.mustChangePassword → route ∈ passwordChangeExempt) errors.passwordChangeRequired
  return auth

theorem authenticateAt_eq {route : String} (hroute : route ∉ passwordChangeExempt) (now : Time)
    (tokenHash : String) : dir.authenticateAt route now tokenHash =
      dir.authenticate now tokenHash := by
  unfold authenticateAt authenticate
  refine congrArg _ (funext fun auth => ?_)
  cases auth.mustChangePassword <;> simp [hroute, ensure]

end Directory

/-! ## Rows under the unique indexes -/

namespace Db

def admitsUser (db : Db) (userId : UserId) (user : User) : Bool :=
  let clashes (id : UserId) (row : User) : Bool :=
    id ≠ userId && ((user.username.isSome && row.username = user.username) ||
      (user.emailHmac.isSome && row.emailHmac = user.emailHmac))
  (db.users.first clashes).isNone

/-- `INSERT INTO users`, and the row of its counters. -/
def insertUser (env : Env) (db : Db) (proposed : UserId) (user : User) : Outcome (UserId × Db) := do
  let userId := db.users.freshKey proposed
  ensure (db.admitsUser userId user) .uniqueViolation
  return (userId, { db with
    users := db.users.put userId user
    reliabilityStats := db.reliabilityStats.upsert userId { updatedAt := env.now } id })

/-- `UPDATE users SET … WHERE id = …`, where an indexed column is set. -/
def updateUser (db : Db) (userId : UserId) (set : User → User) : Outcome Db := do
  match db.users.lookup userId with
  | none => return db
  | some user =>
      ensure (db.admitsUser userId (set user)) .uniqueViolation
      return { db with users := db.users.modify userId set }

/-- Append an entry to the audit log. -/
def audit (env : Env) (db : Db) (actorId : Option UserId) (action target reason : String) : Db :=
  let entry : AuditEntry :=
    { actorId := actorId
      action := action
      target := some target
      reason := some reason
      createdAt := env.now }
  { db with auditLog := db.auditLog ++ [entry] }

end Db

/-! ## What a call takes from outside -/

structure AccountEnv extends AuthEnv where
  /-- `newAdminPassword`. -/
  generated : String := ""
  eventId : EventId := 0
  /-- `shortCode`, for the code of an event and for its invite code. -/
  eventCode : String := ""
  inviteCode : String := ""
  /-- `lower` of the collation. -/
  lower : String → String

inductive StaffRole
  | moderator | admin
  deriving DecidableEq

def StaffRole.role : StaffRole → UserRole
  | .moderator => .moderator
  | .admin => .admin

def StaffRole.token : StaffRole → String
  | .moderator => "moderator"
  | .admin => "admin"

namespace Auth

variable (lib : AuthLib) (env : AccountEnv)

def asUser {α : Type} (route tokenHash : String) (handler : AuthContext → AuthProgram α) :
    AuthProgram α := do
  match ← select fun b => b.authenticateAt route env.now tokenHash with
  | .ok auth => handler auth
  | .error e => .throw e

def asAdmin {α : Type} (route tokenHash : String) (handler : AuthContext → AuthProgram α) :
    AuthProgram α :=
  asUser env route tokenHash fun auth =>
    if auth.role = .admin then handler auth else .throw errors.forbidden

def transaction {α : Type} (f : Db → Outcome (α × Db)) : AuthProgram α :=
  .transaction fun st => do
    let (a, db) ← f st.backend.toDb
    return (a, { st with backend := { st.backend with toDb := db } })

/-! ## One's own credentials -/

def choosePassword (password : String) (user : User) : User :=
  { user with
    passwordHash := some (lib.hashPassword password)
    passwordSetAt := some env.now
    mustChangePassword := false }

/-- The new password; every other session of the account ends. -/
def replaceOwnPassword (userId : UserId) (sessionId : SessionId) (newPassword : String)
    (db : Db) : Db :=
  let isOther (id : SessionId) (s : Session) : Bool :=
    s.userId = userId && id ≠ sessionId && s.revokedAt.isNone
  let revoke (s : Session) : Session := { s with revokedAt := some env.now }
  { db with
    users := db.users.modify userId (choosePassword lib env newPassword)
    sessions := db.sessions.updateWhere isOther revoke }

def changeOwnPassword (userId : UserId) (sessionId : SessionId)
    (currentPassword newPassword : String) : AuthProgram Unit := do
  match ← select fun b => (b.users.lookup userId).bind User.passwordHash with
  | none => .throw errors.forbidden
  | some stored =>
      let ok ← rateLimit env.toAuthEnv "password:change" (toString userId) 10 900
      if !ok then .throw errors.rateLimited
      else if !lib.verifyPassword currentPassword stored then .throw errors.unauthorized
      else if lib.verifyPassword newPassword stored then
        .throw (errors.validation { field := some "newPassword" })
      else if !lib.hashes then .throw .scryptMemory
      else exec (replaceOwnPassword lib env userId sessionId newPassword)

/-- The transaction reads without locks and ends with its only write, so its statements stand for
themselves: two calls of one user may both find no username. -/
def setOwnCredentials (userId : UserId) (username password : String) : AuthProgram String := do
  let normalized := lib.normalize username
  match ← select fun b => b.users.lookup userId with
  | none => .throw errors.notFound
  | some user =>
      if user.username.isSome then .throw errors.conflict
      else
        let taken ← select (findByUsername normalized)
        if taken.isSome then .throw errors.conflict
        else if !lib.hashes then .throw .scryptMemory
        else
          transaction fun db => do
            let db ← db.updateUser userId fun user =>
              { choosePassword lib env password user with username := some normalized }
            return (normalized, db)

/-! ## Sessions -/

/-- Whether the session was there to be revoked. -/
def revokeSession (userId : UserId) (sessionId : SessionId) : AuthProgram Bool :=
  statement fun db =>
    let isTarget (id : SessionId) (s : Session) : Bool :=
      id = sessionId && s.userId = userId && s.revokedAt.isNone
    let revoke (s : Session) : Session := { s with revokedAt := some env.now }
    ((db.sessions.first isTarget).isSome,
      { db with sessions := db.sessions.updateWhere isTarget revoke })

structure SessionView where
  id : SessionId
  current : Bool
  platform : String
  deviceName : Option String
  createdAt : Time
  lastSeenAt : Time

def listSessions (userId : UserId) (currentSessionId : SessionId) :
    AuthProgram (List SessionView) :=
  select fun b =>
    let isLive (_ : SessionId) (s : Session) : Bool :=
      s.userId = userId && s.revokedAt.isNone && env.now < s.expiresAt
    let rows := (env.selectIds b.sessions isLive).filterMap fun id =>
      (b.sessions.lookup id).map fun s => (id, s)
    let seenLater (x y : SessionId × Session) : Prop := y.2.lastSeenAt ≤ x.2.lastSeenAt
    (rows.insertionSort seenLater).map fun row =>
      { id := row.1
        current := row.1 = currentSessionId
        platform := row.2.platform
        deviceName := row.2.deviceName
        createdAt := row.2.createdAt
        lastSeenAt := row.2.lastSeenAt }

def logout (auth : AuthContext) : AuthProgram Unit := do
  let _ ← revokeSession env auth.userId auth.sessionId
  return ()

def deleteSession (auth : AuthContext) (sessionId : SessionId) : AuthProgram Unit := do
  let revoked ← revokeSession env auth.userId sessionId
  if revoked then return () else .throw errors.notFound

/-! ## Staff accounts -/

/-- A staff account as it is inserted: with a generated password, which has to be replaced. -/
def staffAccount (email username password : String) (role : StaffRole) : User :=
  let pseudonym := pseudonymFromIndexes env.draws.pseudonym.1 env.draws.pseudonym.2
  { pseudonym := pseudonym
    avatarSeed := pseudonym
    role := role.role
    username := some username
    passwordHash := some (lib.hashPassword password)
    passwordSetAt := some env.now
    mustChangePassword := true
    emailEnc := some (lib.encryptPii email)
    emailHmac := some (lib.emailBlindIndex email)
    emailVerifiedAt := some env.now
    createdAt := env.now }

structure AdminCreated where
  id : UserId
  username : String
  pseudonym : String
  role : StaffRole
  password : String

def createAdminAccount (actorId : UserId) (username email : String) (role : StaffRole) :
    AuthProgram AdminCreated :=
  let normalized := lib.normalize username
  let emailHmac := lib.emailBlindIndex email
  transaction fun db => do
    let takenName := db.users.first fun _ row => row.username = some normalized
    ensure takenName.isNone errors.conflict
    let existingEmail := db.users.first fun _ row => row.emailHmac = some emailHmac
    ensure (existingEmail.all fun row => row.2.deletedAt.isSome) errors.conflict
    ensure lib.hashes .scryptMemory
    let created := staffAccount lib env email normalized env.generated role
    let (id, db) ← db.insertUser env.toEnv env.draws.userId created
    let db := db.audit env.toEnv (some actorId) "admin_account_create" ("user:" ++ toString id)
      ("created " ++ role.token ++ " @" ++ normalized)
    return ({
      id := id
      username := normalized
      pseudonym := created.pseudonym
      role := role
      password := env.generated }, db)

/-- Issue a fresh password for an account that signs in with one. -/
def reissuePassword (userId : UserId) (db : Db) : Bool × Db :=
  let isTarget (id : UserId) (user : User) : Bool := id = userId && user.username.isSome
  let reissue (user : User) : User :=
    { user with
      passwordHash := some (lib.hashPassword env.generated)
      passwordSetAt := some env.now
      mustChangePassword := true }
  ((db.users.first isTarget).isSome, { db with users := db.users.updateWhere isTarget reissue })

def resetAdminPassword (actorId userId : UserId) : AuthProgram String :=
  if !lib.hashes then .throw .scryptMemory
  else do
    let updated ← statement (reissuePassword lib env userId)
    if !updated then .throw errors.notFound
    else
      exec fun db => db.audit env.toEnv (some actorId) "admin_password_reset"
        ("user:" ++ toString userId) "password reissued"
      return env.generated

inductive Bootstrapped
  | created (username password pseudonym : String)
  | exists (username : String)
  /-- The script's own error, before anything is written. -/
  | emailTaken (holder : UserId)

/-- Without a supplied password a generated one is used; either has to be replaced. -/
def bootstrapAdmin (username email : String) (supplied : Option String) (role : StaffRole) :
    AuthProgram Bootstrapped :=
  let emailHmac := lib.emailBlindIndex email
  let password := supplied.getD env.generated
  transaction fun db => do
    if (db.users.first fun _ row => row.username = some username).isSome then
      return (.exists username, db)
    match db.users.first fun _ row => row.emailHmac = some emailHmac with
    | some (holder, _) => return (.emailTaken holder, db)
    | none =>
        ensure lib.hashes .scryptMemory
        let created := staffAccount lib env email username password role
        let (id, db) ← db.insertUser env.toEnv env.draws.userId created
        let db := db.audit env.toEnv none "admin_account_bootstrap" ("user:" ++ toString id)
          ("bootstrapped " ++ role.token ++ " @" ++ username)
        return (.created username password created.pseudonym, db)

/-! ## Calls -/

inductive AccountCall
  | signIn (c : AuthCall)
  | changeOwnPassword (tokenHash currentPassword newPassword : String)
  | setOwnCredentials (tokenHash username password : String)
  | logout (tokenHash : String)
  | deleteSession (tokenHash : String) (sessionId : SessionId)
  | listSessions (tokenHash : String)
  | createAdminAccount (tokenHash username email : String) (role : StaffRole)
  | resetAdminPassword (tokenHash : String) (userId : UserId)
  | bootstrapAdmin (username email : String) (supplied : Option String) (role : StaffRole)

inductive AccountReply
  | signIn (r : AuthReply)
  | ok
  | username (normalized : String)
  | sessions (views : List SessionView)
  | admin (created : AdminCreated)
  | password (generated : String)
  | bootstrapped (r : Bootstrapped)

variable (cfg : AuthConfig)

def serve : AccountCall → AuthProgram AccountReply
  | .signIn c => do return .signIn (← call cfg lib env.toAuthEnv c)
  | .changeOwnPassword tokenHash currentPassword newPassword =>
      asUser env "/api/v1/auth/password" tokenHash fun auth => do
        changeOwnPassword lib env auth.userId auth.sessionId currentPassword newPassword
        return .ok
  | .setOwnCredentials tokenHash username password =>
      asUser env "/api/v1/auth/credentials" tokenHash fun auth => do
        return .username (← setOwnCredentials lib env auth.userId username password)
  | .logout tokenHash =>
      asUser env "/api/v1/auth/logout" tokenHash fun auth => do
        logout env auth
        return .ok
  | .deleteSession tokenHash sessionId =>
      asUser env "/api/v1/auth/sessions/:id" tokenHash fun auth => do
        deleteSession env auth sessionId
        return .ok
  | .listSessions tokenHash =>
      asUser env "/api/v1/auth/sessions" tokenHash fun auth => do
        return .sessions (← listSessions env auth.userId auth.sessionId)
  | .createAdminAccount tokenHash username email role =>
      asAdmin env "/api/v1/admin/admins" tokenHash fun auth => do
        return .admin (← createAdminAccount lib env auth.userId username email role)
  | .resetAdminPassword tokenHash userId =>
      asAdmin env "/api/v1/admin/admins/:id/reset-password" tokenHash fun auth => do
        return .password (← resetAdminPassword lib env auth.userId userId)
  | .bootstrapAdmin username email supplied role => do
      return .bootstrapped (← bootstrapAdmin lib env username email supplied role)

end Auth
end Sahay
