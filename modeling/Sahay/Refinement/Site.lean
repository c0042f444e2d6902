import Sahay.Refinement.Directory
import Sahay.Server.Site

/-!
# What the calls write in the directory

Every statement of a call is a run of the writes below: those of the backend, and the writes on
credentials and memberships that only calls make.  A call is known by the passwords that it
chooses and the token of the session that it opens.
-/

namespace Sahay

/-- A staff account as it is inserted. -/
structure User.Hired (user : User) : Prop where
  username : user.username.isSome
  password : user.passwordHash.isSome
  mustChange : user.mustChangePassword = true
  live : user.deletedAt = none

/-- What a call does to the rows of users. -/
inductive CredentialWrite (lib : AuthLib) (env : AccountEnv) (picks : String → Prop)
    (users : Table UserId User) : Table UserId User → Prop
  | choose (userId : UserId) (password : String)
      (hpicks : picks password) :
      CredentialWrite lib env picks users
        (users.modify userId (Auth.choosePassword lib env password))
  | setUp (userId : UserId) (username password : String)
      (hfree : ∀ id row, users.lookup id = some row → id ≠ userId → row.username ≠ some username)
      (hpicks : picks password) :
      CredentialWrite lib env picks users (users.modify userId fun user =>
        { Auth.choosePassword lib env password user with username := some username })
  | reissue (userId : UserId) :
      CredentialWrite lib env picks users
        (users.updateWhere (fun id user => id = userId && user.username.isSome) fun user =>
          { user with
            passwordHash := some (lib.hashPassword env.generated)
            passwordSetAt := some env.now
            mustChangePassword := true })
  | hire (id : UserId) (user : User)
      (hid : id ∉ users)
      (huser : user.Hired)
      (hname : ∀ id row, users.lookup id = some row → row.username ≠ user.username)
      (haddress : ∀ id row, users.lookup id = some row → row.emailHmac ≠ user.emailHmac) :
      CredentialWrite lib env picks users (users.put id user)

/-- A statement of a call, on the directory. -/
inductive SiteWrite (lib : AuthLib) (env : AccountEnv) (picks signs : String → Prop)
    (shares joins : UserId × EventId → Prop) (dir : Directory) : Directory → Prop
  | write (dir' : Directory) (h : DirectoryWrite env.toEnv signs shares dir dir') :
      SiteWrite lib env picks signs shares joins dir dir'
  | credentials (t : Table UserId User) (h : CredentialWrite lib env picks dir.users t) :
      SiteWrite lib env picks signs shares joins dir { dir with users := t }
  | memberships (t : Table (UserId × EventId) Membership)
      (ht : ∀ key m, t.lookup key = some m → m.leftAt = none → joins key ∨
        ∃ old, dir.memberships.lookup key = some old ∧ old.leftAt = none) :
      SiteWrite lib env picks signs shares joins dir { dir with memberships := t }
  | found (id : EventId) (event : Event) (t : Table (EventId × CategoryId) EventCategory)
      (hid : id ∉ dir.events) :
      SiteWrite lib env picks signs shares joins dir
        { dir with events := dir.events.put id event, eventCategories := t }

abbrev SiteRun (lib : AuthLib) (env : AccountEnv) (picks signs : String → Prop)
    (shares joins : UserId × EventId → Prop) : Directory → Directory → Prop :=
  Relation.ReflTransGen (SiteWrite lib env picks signs shares joins)

variable {lib : AuthLib} {env : AccountEnv} {cfg : AuthConfig} {picks signs : String → Prop}
  {shares joins : UserId × EventId → Prop}

theorem SiteRun.invariant {P : Directory → Prop}
    (hstep : ∀ dir dir', P dir → SiteWrite lib env picks signs shares joins dir dir' → P dir')
    {dir dir' : Directory} (hdir : P dir) (h : SiteRun lib env picks signs shares joins dir dir') :
    P dir' := by
  induction h with
  | refl => exact hdir
  | tail _ hlast ih => exact hstep _ _ ih hlast

theorem SiteRun.of_eq {dir dir' : Directory} (h : dir' = dir) :
    SiteRun lib env picks signs shares joins dir dir' := h ▸ .refl

theorem SiteRun.of_directoryRun {dir dir' : Directory}
    (h : DirectoryRun env.toEnv signs shares dir dir') :
    SiteRun lib env picks signs shares joins dir dir' := by
  induction h with
  | refl => exact .refl
  | tail _ hlast ih => exact ih.tail (.write _ hlast)

/-! ## What a call may do -/

namespace Auth

/-- The password that a call chooses for an account. -/
def AccountCall.chooses (c : AccountCall) (password : String) : Prop :=
  match c with
  | .signIn (.resetPasswordWithOtp _ _ newPassword) => newPassword = password
  | .changeOwnPassword _ _ newPassword => newPassword = password
  | .setOwnCredentials _ _ chosen => chosen = password
  | _ => False

def AccountCall.opens (env : AccountEnv) (c : AccountCall) (tokenHash : String) : Prop :=
  match c with
  | .signIn (.verifyOtp ..) | .signIn (.loginWithPassword ..) => env.draws.tokenHash = tokenHash
  | _ => False

/-! ## Calls about accounts -/

def Writes (lib : AuthLib) (env : AccountEnv) (picks signs : String → Prop)
    (shares joins : UserId × EventId → Prop) (st st' : AuthState) : Prop :=
  SiteRun lib env picks signs shares joins st.backend.toDirectory st'.backend.toDirectory

abbrev Does {α : Type} (lib : AuthLib) (env : AccountEnv) (picks signs : String → Prop)
    (shares joins : UserId × EventId → Prop) (p : AuthProgram α) : Prop :=
  p.Does (fun _ => True) (Writes lib env picks signs shares joins)

theorem Writes.refl (st : AuthState) : Writes lib env picks signs shares joins st st :=
  Relation.ReflTransGen.refl

theorem Writes.of_eq {st st' : AuthState}
    (h : st'.backend.toDirectory = st.backend.toDirectory) :
    Writes lib env picks signs shares joins st st' :=
  SiteRun.of_eq h

section Programs

variable {α β : Type}

theorem select_does {f : Backend → α} : Does lib env picks signs shares joins (select f) :=
  Program.Does.read fun st _ => Writes.refl st

theorem statement_does {f : Db → α × Db}
    (h : ∀ db, SiteRun lib env picks signs shares joins db.toDirectory (f db).2.toDirectory) :
    Does lib env picks signs shares joins (statement f) :=
  Program.Does.update fun st _ => h st.backend.toDb

theorem exec_does {f : Db → Db}
    (h : ∀ db, SiteRun lib env picks signs shares joins db.toDirectory (f db).toDirectory) :
    Does lib env picks signs shares joins (exec f) :=
  statement_does h

theorem send_does (mail : Mail) : Does lib env picks signs shares joins (send mail) :=
  Program.Does.write fun _ _ => .of_eq rfl

theorem transaction_does {f : Db → Outcome (α × Db)}
    (h : ∀ db a db', f db = .ok (a, db') →
      SiteRun lib env picks signs shares joins db.toDirectory db'.toDirectory) :
    Does lib env picks signs shares joins (transaction f) := by
  refine Program.Does.transaction (fun st _ => Writes.refl st) fun st a st' _ hok => ?_
  obtain ⟨⟨a', db'⟩, hf, hpure⟩ := bind_ok.mp hok
  obtain ⟨rfl, rfl⟩ := Prod.mk.inj (pure_ok.mp hpure)
  exact h _ _ _ hf

/-- A `SELECT` with what is made of its rows. -/
theorem select_bind_does {f : Backend → α} {g : α → AuthProgram β}
    (hg : ∀ a, Does lib env picks signs shares joins (g a)) :
    Does lib env picks signs shares joins (select f >>= g) :=
  Program.Does.bind select_does hg

theorem rateLimit_does (auth : AuthEnv) (scope id : String) (max windowSec : ℕ) :
    Does lib env picks signs shares joins (rateLimit auth scope id max windowSec) := by
  unfold rateLimit
  dsimp only
  have hincr (key : String) : Does lib env picks signs shares joins (.update (incr auth.now key)) :=
    Program.Does.update fun st _ => Writes.of_eq rfl
  have hexpire (key : String) : Does lib env picks signs shares joins
      (.write (expire auth.now key windowSec)) :=
    Program.Does.write fun st _ => Writes.of_eq rfl
  split_ifs with hincrFails hexpireFails
  · exact .pure _
  · refine .bind (hincr _) fun n => ?_
    split_ifs <;> exact .pure _
  · refine .bind (hincr _) fun n => ?_
    split_ifs
    · exact .bind (hexpire _) fun _ => .pure _
    · exact .pure _

end Programs

theorem startOtp_does (auth : AuthEnv) (email locale ip : String) :
    Does lib env picks signs shares joins (startOtp cfg lib auth email locale ip) := by
  refine .bind (rateLimit_does _ _ _ _ _) fun emailOk => ?_
  refine .bind (rateLimit_does _ _ _ _ _) fun ipOk => ?_
  split_ifs
  · exact .bind (exec_does fun db => .refl) fun _ => .bind (send_does _) fun _ => .pure _
  · exact .pure _

theorem consumeOtp_does (auth : AuthEnv) (emailHmac code : String) :
    Does lib env picks signs shares joins (consumeOtp lib auth emailHmac code) := by
  refine select_bind_does fun live => ?_
  cases live with
  | none => exact .throw _
  | some row =>
      refine .bind (statement_does fun db => .refl) fun bumped => ?_
      dsimp only
      split_ifs
      · exact .bind (exec_does fun db => .refl) fun _ => .throw _
      · exact .throw _
      · exact .throw _
      · exact exec_does fun db => .refl

theorem openSession_does {userId : UserId} {user : User} {isNewAccount : Bool}
    (hsigns : signs env.draws.tokenHash) :
    Does lib env picks signs shares joins (openSession env.toAuthEnv userId user isNewAccount) := by
  refine .bind (.write fun st _ => ?_) fun _ => .pure _
  exact SiteRun.of_directoryRun (Backend.insertSession_run st.backend userId hsigns)

theorem claimAccount_does (email : String) :
    Does lib env picks signs shares joins (claimAccount lib env.toAuthEnv email) := by
  refine Program.Does.transaction (fun st _ => Writes.refl st) fun st a st' _ hok => ?_
  simp only [bind_ok, pure_ok, Prod.mk.injEq] at hok
  obtain ⟨⟨userId, b⟩, haccount, user, -, -, rfl⟩ := hok
  exact SiteRun.of_directoryRun (Backend.accountForEmail_run haccount)

theorem replacePassword_run (db : Db) (auth : AuthEnv) (userId : UserId) {password : String}
    (hauth : auth = env.toAuthEnv) (hpicks : picks password) :
    SiteRun lib env picks signs shares joins db.toDirectory
      (replacePassword lib auth userId password db).toDirectory := by
  subst hauth
  let isLive (_ : SessionId) (s : Session) : Bool := s.userId = userId && s.revokedAt.isNone
  refine (Relation.ReflTransGen.single (.credentials _ (.choose userId password hpicks))).tail ?_
  exact .write _ (.revoke isLive env.now)

theorem replaceOwnPassword_run (db : Db) (userId : UserId) (sessionId : SessionId)
    {password : String} (hpicks : picks password) :
    SiteRun lib env picks signs shares joins db.toDirectory
      (replaceOwnPassword lib env userId sessionId password db).toDirectory := by
  let isOther (id : SessionId) (s : Session) : Bool :=
    s.userId = userId && id ≠ sessionId && s.revokedAt.isNone
  refine (Relation.ReflTransGen.single (.credentials _ (.choose userId password hpicks))).tail ?_
  exact .write _ (.revoke isOther env.now)

theorem verifyOtp_does (email code : String) (hsigns : signs env.draws.tokenHash) :
    Does lib env picks signs shares joins (verifyOtp lib env.toAuthEnv email code) :=
  .bind (consumeOtp_does _ _ _) fun _ => .bind (claimAccount_does email) fun _ =>
    openSession_does hsigns

theorem loginWithPassword_does (username password ip : String)
    (hsigns : signs env.draws.tokenHash) :
    Does lib env picks signs shares joins
      (loginWithPassword lib env.toAuthEnv username password ip) := by
  refine .bind (rateLimit_does _ _ _ _ _) fun userOk => ?_
  refine .bind (rateLimit_does _ _ _ _ _) fun ipOk => ?_
  split_ifs
  · refine select_bind_does fun account => ?_
    cases account with
    | none => exact .throw _
    | some account =>
        dsimp only
        split_ifs
        · exact .throw _
        · exact .throw _
        · exact .throw _
        · exact .throw _
        · exact openSession_does hsigns
  · exact .throw _

theorem sendUsernameReminder_does (auth : AuthEnv) (email locale : String) :
    Does lib env picks signs shares joins (sendUsernameReminder lib auth email locale) := by
  refine .bind (rateLimit_does _ _ _ _ _) fun ok => ?_
  split_ifs
  · refine select_bind_does fun account => ?_
    cases account with
    | none => exact .pure _
    | some account =>
        dsimp only
        cases account.2.username with
        | none => exact .pure _
        | some username =>
            dsimp only
            split_ifs
            · exact send_does _
            · exact .pure _
  · exact .pure _

theorem resetPasswordWithOtp_does (email code newPassword : String) (hpicks : picks newPassword) :
    Does lib env picks signs shares joins
      (resetPasswordWithOtp lib env.toAuthEnv email code newPassword) := by
  refine .bind (consumeOtp_does _ _ _) fun _ => select_bind_does fun account => ?_
  cases account with
  | none => exact .throw _
  | some account =>
      dsimp only
      split_ifs
      · exact .throw _
      · exact .throw _
      · exact exec_does fun db => replacePassword_run db _ account.1 rfl hpicks

theorem asUser_does {α : Type} {route tokenHash : String} {handler : AuthContext → AuthProgram α}
    (h : ∀ auth, Does lib env picks signs shares joins (handler auth)) :
    Does lib env picks signs shares joins (asUser env route tokenHash handler) := by
  refine select_bind_does fun result => ?_
  cases result with
  | error e => exact .throw _
  | ok auth => exact h auth

theorem asAdmin_does {α : Type} {route tokenHash : String} {handler : AuthContext → AuthProgram α}
    (h : ∀ auth, Does lib env picks signs shares joins (handler auth)) :
    Does lib env picks signs shares joins (asAdmin env route tokenHash handler) := by
  refine asUser_does fun auth => ?_
  split_ifs
  · exact h auth
  · exact .throw _

theorem changeOwnPassword_does (userId : UserId) (sessionId : SessionId)
    (currentPassword newPassword : String) (hpicks : picks newPassword) :
    Does lib env picks signs shares joins
      (changeOwnPassword lib env userId sessionId currentPassword newPassword) := by
  refine select_bind_does fun stored => ?_
  cases stored with
  | none => exact .throw _
  | some stored =>
      refine .bind (rateLimit_does _ _ _ _ _) fun ok => ?_
      split_ifs
      · exact .throw _
      · exact .throw _
      · exact .throw _
      · exact .throw _
      · exact exec_does fun db => replaceOwnPassword_run db userId sessionId hpicks

theorem revokeSession_does (userId : UserId) (sessionId : SessionId) :
    Does lib env picks signs shares joins (revokeSession env userId sessionId) :=
  statement_does fun _ => .single (.write _ (.revoke _ env.now))

theorem admitsUser_iff {db : Db} {userId : UserId} {user : User} :
    db.admitsUser userId user = true ↔ ∀ id row, db.users.lookup id = some row → id ≠ userId →
      (user.username.isSome → row.username ≠ user.username) ∧
        (user.emailHmac.isSome → row.emailHmac ≠ user.emailHmac) := by
  simp only [Db.admitsUser, Option.isNone_iff_eq_none, Table.first_none, Bool.and_eq_false_iff,
    decide_eq_false_iff_not, Bool.or_eq_false_iff, not_not]
  refine forall₃_congr fun id row hrow => ?_
  constructor
  · rintro (rfl | ⟨hname, haddress⟩) hid
    · exact absurd rfl hid
    · exact ⟨fun h => by simpa [h] using hname, fun h => by simpa [h] using haddress⟩
  · intro h
    by_cases hid : id = userId
    · exact .inl hid
    · obtain ⟨hname, haddress⟩ := h hid
      refine .inr ⟨?_, ?_⟩
      · cases husername : user.username.isSome with
        | false => exact .inl rfl
        | true => exact .inr (hname husername)
      · cases hemail : user.emailHmac.isSome with
        | false => exact .inl rfl
        | true => exact .inr (haddress hemail)

theorem setOwnCredentials_does (userId : UserId) (username password : String)
    (hpicks : picks password) :
    Does lib env picks signs shares joins (setOwnCredentials lib env userId username password) := by
  refine select_bind_does fun user => ?_
  cases user with
  | none => exact .throw _
  | some user =>
      dsimp only
      split_ifs
      · exact .throw _
      · refine select_bind_does fun taken => ?_
        split_ifs <;> exact .throw _
      · refine select_bind_does fun taken => ?_
        split_ifs
        · exact .throw _
        · refine transaction_does fun db a db' hok => ?_
          obtain ⟨mid, hupdate, hpure⟩ := bind_ok.mp hok
          obtain ⟨-, rfl⟩ := Prod.mk.inj (pure_ok.mp hpure)
          unfold Db.updateUser at hupdate
          cases huser : db.users.lookup userId with
          | none =>
              rw [huser] at hupdate
              exact .of_eq (congrArg Db.toDirectory (pure_ok.mp hupdate).symm)
          | some user =>
              rw [huser] at hupdate
              simp only [bind_ok, ensure_ok, pure_ok] at hupdate
              obtain ⟨-, hadmits, rfl⟩ := hupdate
              refine .single (.credentials _ (.setUp userId _ password (fun id row hrow hid => ?_)
                hpicks))
              exact (admitsUser_iff.mp hadmits id row hrow hid).1 rfl

theorem insertUser_ok {db db' : Db} {proposed userId : UserId} {user : User}
    (h : db.insertUser env.toEnv proposed user = .ok (userId, db')) :
    userId ∉ db.users ∧ db.admitsUser userId user = true ∧
      db'.toDirectory = { db.toDirectory with users := db.users.put userId user } := by
  simp only [Db.insertUser, bind_ok, ensure_ok, pure_ok, Prod.mk.injEq] at h
  obtain ⟨-, hadmits, rfl, rfl⟩ := h
  exact ⟨Table.freshKey_notMem _ _, hadmits, rfl⟩

theorem hire_run {db db' : Db} {userId : UserId} {email username password : String}
    {role : StaffRole} (h : db.insertUser env.toEnv env.draws.userId
      (staffAccount lib env email username password role) = .ok (userId, db')) :
    SiteRun lib env picks signs shares joins db.toDirectory db'.toDirectory := by
  obtain ⟨hid, hadmits, hdir⟩ := insertUser_ok h
  have hunique := admitsUser_iff.mp hadmits
  have hother {id : UserId} {row : User} (hrow : db.users.lookup id = some row) : id ≠ userId := by
    rintro rfl
    exact hid (Table.mem_iff_exists.mpr ⟨row, hrow⟩)
  rw [hdir]
  refine .single (.credentials _ (.hire userId _ hid ⟨rfl, rfl, rfl, rfl⟩ ?_ ?_))
  · exact fun id row hrow => (hunique id row hrow (hother hrow)).1 rfl
  · exact fun id row hrow => (hunique id row hrow (hother hrow)).2 rfl

theorem createAdminAccount_does (actorId : UserId) (username email : String) (role : StaffRole) :
    Does lib env picks signs shares joins
      (createAdminAccount lib env actorId username email role) := by
  unfold createAdminAccount
  refine transaction_does fun db a db' hok => ?_
  simp only [bind_ok, pure_ok, Prod.mk.injEq] at hok
  obtain ⟨-, -, -, -, -, -, ⟨id, mid⟩, hinsert, -, rfl⟩ := hok
  have hhired : SiteRun lib env picks signs shares joins db.toDirectory mid.toDirectory :=
    hire_run hinsert
  exact hhired

theorem resetAdminPassword_does (actorId userId : UserId) :
    Does lib env picks signs shares joins (resetAdminPassword lib env actorId userId) := by
  have hreissue :
      Does lib env picks signs shares joins (statement (reissuePassword lib env userId)) :=
    statement_does fun db => .single (.credentials _ (.reissue userId))
  unfold resetAdminPassword
  split_ifs
  · exact .throw _
  · refine .bind hreissue fun ok => ?_
    split_ifs
    · exact .throw _
    · exact .bind (exec_does fun db => .refl) fun _ => .pure _

theorem bootstrapAdmin_does (username email : String) (supplied : Option String)
    (role : StaffRole) :
    Does lib env picks signs shares joins
      (bootstrapAdmin lib env username email supplied role) := by
  unfold bootstrapAdmin
  refine transaction_does fun db a db' hok => ?_
  split_ifs at hok
  · obtain ⟨-, rfl⟩ := Prod.mk.inj (pure_ok.mp hok)
    exact .refl
  · dsimp only at hok
    split at hok
    · obtain ⟨-, rfl⟩ := Prod.mk.inj (pure_ok.mp hok)
      exact .refl
    · simp only [bind_ok, pure_ok, Prod.mk.injEq] at hok
      obtain ⟨-, -, ⟨id, mid⟩, hinsert, -, rfl⟩ := hok
      have hhired : SiteRun lib env picks signs shares joins db.toDirectory mid.toDirectory :=
        hire_run hinsert
      exact hhired

theorem serve_does (c : AccountCall) (hpicks : ∀ p, c.chooses p → picks p)
    (hsigns : ∀ t, c.opens env t → signs t) :
    Does lib env picks signs shares joins (serve lib env cfg c) := by
  cases c with
  | signIn c =>
      refine .bind ?_ fun _ => .pure _
      cases c with
      | startOtp email locale ip => exact .bind (startOtp_does _ _ _ _) fun _ => .pure _
      | verifyOtp email code =>
          exact .bind (verifyOtp_does email code (hsigns _ rfl)) fun _ => .pure _
      | loginWithPassword username password ip =>
          exact .bind (loginWithPassword_does username password ip (hsigns _ rfl)) fun _ => .pure _
      | sendUsernameReminder email locale =>
          exact .bind (sendUsernameReminder_does _ _ _) fun _ => .pure _
      | resetPasswordWithOtp email code newPassword =>
          exact .bind (resetPasswordWithOtp_does email code newPassword (hpicks _ rfl)) fun _ =>
            .pure _
  | changeOwnPassword tokenHash currentPassword newPassword =>
      exact asUser_does fun auth => .bind (changeOwnPassword_does _ _ _ _ (hpicks _ rfl)) fun _ =>
        .pure _
  | setOwnCredentials tokenHash username password =>
      exact asUser_does fun auth => .bind (setOwnCredentials_does _ _ _ (hpicks _ rfl)) fun _ =>
        .pure _
  | logout tokenHash =>
      exact asUser_does fun auth => .bind (.bind (revokeSession_does _ _) fun _ => .pure _) fun _ =>
        .pure _
  | deleteSession tokenHash sessionId =>
      refine asUser_does fun auth => .bind (.bind (revokeSession_does _ _) fun revoked => ?_)
        fun _ => .pure _
      split_ifs
      · exact .pure _
      · exact .throw _
  | listSessions tokenHash => exact asUser_does fun auth => .bind select_does fun _ => .pure _
  | createAdminAccount tokenHash username email role =>
      exact asAdmin_does fun auth => .bind (createAdminAccount_does _ _ _ _) fun _ => .pure _
  | resetAdminPassword tokenHash userId =>
      exact asAdmin_does fun auth => .bind (resetAdminPassword_does _ _) fun _ => .pure _
  | bootstrapAdmin username email supplied role =>
      exact .bind (bootstrapAdmin_does _ _ _ _) fun _ => .pure _

end Auth

/-! ## Calls of members -/

namespace Site

def Writes (lib : AuthLib) (env : AccountEnv) (picks signs : String → Prop)
    (shares joins : UserId × EventId → Prop) (st st' : SiteState) : Prop :=
  SiteRun lib env picks signs shares joins st.db.toDirectory st'.db.toDirectory

/-- A location may be stored of those who, in some state that the call can meet, are helping or
asking. -/
def Admits (P : SiteState → Prop) (env : AccountEnv) (shares : UserId × EventId → Prop) : Prop :=
  ∀ st userId eventId, P st → (isHelping env.now userId eventId st.db ∨
    isAsking userId eventId st.db) → shares (userId, eventId)

/-- The event takes in who gives the code. -/
def TakesIn (st : SiteState) (eventId : EventId) (given : Option String) : Prop :=
  ∃ event, st.db.resolveEvent eventId = some event ∧
    (event.status = .active ∨ event.status = .scheduled) ∧
      admits event (st.inviteCodes.lookup eventId) given = true

/-- Those may join whom the event, in some state that the call can meet, takes in with their
code, and those who create an event that is not there yet. -/
structure Lets (P : SiteState → Prop) (userId : UserId) (c : MemberCall)
    (joins : UserId × EventId → Prop) : Prop where
  asked : ∀ eventId given st, c = .joinEvent eventId given → P st → TakesIn st eventId given →
    joins (userId, eventId)
  created : ∀ input eventId st, c = .createEvent input → P st → eventId ∉ st.db.events →
    joins (userId, eventId)

theorem Lets.anybody (P : SiteState → Prop) (userId : UserId) (c : MemberCall) :
    Lets P userId c fun _ => True :=
  ⟨fun _ _ _ _ _ _ => trivial, fun _ _ _ _ _ _ => trivial⟩

/-- Every statement of the program is such a one, from a state in `P`. -/
abbrev Does {α : Type} (P : SiteState → Prop) (lib : AuthLib) (env : AccountEnv)
    (picks signs : String → Prop) (shares joins : UserId × EventId → Prop)
    (p : SiteProgram α) : Prop :=
  p.Does P (Writes lib env picks signs shares joins)

variable {P : SiteState → Prop} {α β : Type}

theorem Writes.refl (st : SiteState) : Writes lib env picks signs shares joins st st :=
  Relation.ReflTransGen.refl

theorem select_bind_does {f : SiteState → α} {g : α → SiteProgram β}
    (hg : ∀ a, Does P lib env picks signs shares joins (g a)) :
    Does P lib env picks signs shares joins (select f >>= g) :=
  Program.Does.bind (Program.Does.read fun st _ => Writes.refl st) hg

theorem exec_does {f : Db → Db}
    (h : ∀ db, SiteRun lib env picks signs shares joins db.toDirectory (f db).toDirectory) :
    Does P lib env picks signs shares joins (exec f) :=
  Program.Does.write fun st _ => h st.db

/-- A membership begins with one that `joins` tells of, and its key is the only one it has. -/
theorem joins_run {db : Db} {t : Table (UserId × EventId) Membership} {key : UserId × EventId}
    (hkey : joins key)
    (ht : ∀ key' m, key' ≠ key → t.lookup key' = some m → db.memberships.lookup key' = some m) :
    SiteRun lib env picks signs shares joins db.toDirectory
      { db.toDirectory with memberships := t } := by
  refine .single (.memberships t fun key' m hm hcurrent => ?_)
  by_cases hsame : key' = key
  · exact .inl (hsame ▸ hkey)
  · exact .inr ⟨m, ht key' m hsame hm, hcurrent⟩

theorem joinEvent_does (userId : UserId) (eventId : EventId) (inviteCode : Option String)
    (hjoins : ∀ st, P st → TakesIn st eventId inviteCode → joins (userId, eventId)) :
    Does P lib env picks signs shares joins (joinEvent env userId eventId inviteCode) := by
  refine .read_bind (fun st _ => Writes.refl st) fun st hst => ?_
  dsimp only
  cases hevent : st.db.resolveEvent eventId with
  | none => exact .throw _
  | some event =>
      dsimp only
      split_ifs with hstatus hadmits
      · exact .throw _
      · exact .throw _
      · have hkey : joins (userId, eventId) := by
          refine hjoins st hst ⟨event, hevent, ?_, by simpa using hadmits⟩
          by_contra hclosed
          exact hstatus (not_or.mp hclosed)
        refine select_bind_does fun existing => ?_
        cases existing with
        | none =>
            refine exec_does fun db => joins_run hkey fun key' m hne hm => ?_
            rwa [Table.lookup_upsert, if_neg hne] at hm
        | some existing =>
            dsimp only
            split_ifs
            · exact .throw _
            · refine exec_does fun db => joins_run hkey fun key' m hne hm => ?_
              rwa [Table.lookup_modify_ne hne] at hm
            · exact .pure _

theorem insertEvent_does (userId : UserId) (input : CreateEventInput) (center : Coords)
    (hjoins : ∀ eventId st, P st → eventId ∉ st.db.events → joins (userId, eventId)) :
    Does P lib env picks signs shares joins (insertEvent env userId input center) := by
  refine Program.Does.transaction (fun st _ => Writes.refl st) fun st a st' hst hok => ?_
  simp only [bind_ok, pure_ok, Prod.mk.injEq] at hok
  obtain ⟨-, -, -, -, -, rfl⟩ := hok
  have hid : st.db.events.freshKey env.eventId ∉ st.db.events := Table.freshKey_notMem _ _
  refine (Relation.ReflTransGen.single (.found _ _ _ hid)).tail
    (.memberships _ fun key m hm hcurrent => ?_)
  rw [Table.lookup_put] at hm
  split_ifs at hm with hkey
  · exact .inl (hkey ▸ hjoins _ st hst hid)
  · exact .inr ⟨m, hm, hcurrent⟩

theorem createEvent_does (userId : UserId) (input : CreateEventInput)
    (hjoins : ∀ eventId st, P st → eventId ∉ st.db.events → joins (userId, eventId)) :
    Does P lib env picks signs shares joins (createEvent env userId input) := by
  unfold createEvent
  split_ifs
  · exact .throw _
  · refine .bind ?_ fun allowed => ?_
    · exact (Program.Does.within (fun _ _ => rfl) (Auth.rateLimit_does _ _ _ _ _)).mono
        (fun _ _ => trivial) fun _ _ _ h => h
    · split_ifs
      · exact .throw _
      · refine select_bind_does fun dupe => ?_
        cases dupe with
        | some event => exact .throw _
        | none => exact insertEvent_does _ _ _ hjoins

theorem leaveEvent_run (db : Db) (userId : UserId) (eventId : EventId) :
    SiteRun lib env picks signs shares joins db.toDirectory
      (db.leaveEvent env.toEnv userId eventId).toDirectory := by
  let left : Directory := { db.toDirectory with
    memberships := (db.leaveEvent env.toEnv userId eventId).memberships }
  let off : Directory := { left with
    availability := (db.leaveEvent env.toEnv userId eventId).availability }
  have hleft : SiteWrite lib env picks signs shares joins db.toDirectory left := by
    refine .memberships _ fun key m hm hcurrent => .inr ?_
    rw [Db.leaveEvent, Table.lookup_updateWhere] at hm
    obtain ⟨old, hold, rfl⟩ := Option.map_eq_some_iff.mp hm
    split_ifs at hcurrent
    exact ⟨old, hold, hcurrent⟩
  have hoff : SiteWrite lib env picks signs shares joins left off := .write _ (.availability _)
  refine ((Relation.ReflTransGen.single hleft).tail hoff).tail (.write _ ?_)
  refine .forget _ fun key l hl => ?_
  rw [Table.lookup_deleteWhere] at hl
  exact (Option.filter_eq_some_iff.mp hl).1

theorem leaveEvent_does (userId : UserId) (eventId : EventId) :
    Does P lib env picks signs shares joins (leaveEvent env userId eventId) :=
  exec_does fun db => leaveEvent_run db userId eventId

theorem muteEvent_does (userId : UserId) (eventId : EventId) (muted : Bool) :
    Does P lib env picks signs shares joins (muteEvent userId eventId muted) := by
  refine .bind (.update fun st _ => ?_) fun updated => ?_
  · unfold setMuted
    split_ifs <;> exact Writes.refl _
  · split_ifs
    · exact .pure _
    · exact .throw _

theorem answerAttendance_does (userId : UserId) (eventId : EventId) (attending : Bool) :
    Does P lib env picks signs shares joins (answerAttendance env userId eventId attending) := by
  refine select_bind_does fun event => ?_
  cases event with
  | none => exact .throw _
  | some event =>
      dsimp only
      split_ifs
      · exact .pure _
      · exact .bind (leaveEvent_does userId eventId) fun _ => .pure _

theorem setAvailability_does (auth : AuthContext) (eventId : EventId)
    (input : SetAvailabilityInput) :
    Does P lib env picks signs shares joins (setAvailability env auth eventId input) := by
  have hupsert (isOn : Bool) (until' : Option Time) : Does P lib env picks signs shares joins
      (exec (upsertAvailability env auth.userId eventId isOn until')) :=
    exec_does fun db => .single (.write _ (.availability _))
  unfold setAvailability
  by_cases hoff : (!input.on) = true
  · rw [if_pos hoff]
    exact .bind (hupsert _ _) fun _ => .pure _
  · rw [if_neg hoff]
    refine select_bind_does fun event => ?_
    cases event with
    | none => exact .throw _
    | some event =>
        refine select_bind_does fun membership => ?_
        split_ifs
        · exact .throw _
        · exact .throw _
        · exact .throw _
        · exact .throw _
        all_goals exact .bind (hupsert _ _) fun _ => .pure _

theorem putLocation_does (hshares : Admits P env shares) (userId : UserId) (eventId : EventId)
    (coords : Coords) :
    Does P lib env picks signs shares joins (putLocation env userId eventId coords) := by
  have hconsent : Does P lib env picks signs shares joins (recordConsent env userId) := by
    refine select_bind_does fun consented => ?_
    split_ifs
    · exact .pure _
    · exact exec_does fun db => .refl
  have hstored (h : shares (userId, eventId)) : Does P lib env picks signs shares joins do
      exec fun db => db.upsertMemberLocation env.toEnv userId eventId coords
      recordConsent env userId
      return env.now + env.platform.locationTtlMinutes * 60000 := by
    refine .bind (exec_does fun db => ?_) fun _ => .bind hconsent fun _ => .pure _
    exact SiteRun.of_directoryRun (Db.upsertMemberLocation_run db h coords)
  refine fun st hst => ⟨Writes.refl st, ?_⟩
  cases hhelping : isHelping env.now userId eventId st.db with
  | true =>
      simp only [hhelping]
      exact hstored (hshares st userId eventId hst (.inl hhelping))
  | false =>
      simp only [hhelping]
      refine fun st' hst' => ⟨Writes.refl st', ?_⟩
      cases hasking : isAsking userId eventId st'.db with
      | true =>
          simp only [hasking]
          exact hstored (hshares st' userId eventId hst' (.inr hasking))
      | false =>
          simp only [hasking]
          exact .throw _

theorem deleteLocation_does (userId : UserId) (eventId : EventId) :
    Does P lib env picks signs shares joins (deleteLocation userId eventId) := by
  refine exec_does fun db => .single (.write _ (.forget _ fun key l hl => ?_))
  rw [Table.lookup_drop] at hl
  split_ifs at hl
  exact hl

theorem updateMe_does (userId : UserId) (patch : UpdateMeInput) :
    Does P lib env picks signs shares joins (updateMe env userId patch) := by
  refine Program.Does.transaction (fun st _ => Writes.refl st) fun st me st' _ hok => ?_
  simp only [bind_ok, pure_ok, Prod.mk.injEq] at hok
  obtain ⟨user, -, -, -, -, rfl⟩ := hok
  refine .single (.write _ (Db.modifyUser_write _ userId fun user => ?_))
  cases patch.regeneratePseudonym <;> exact ⟨rfl, .inl ⟨rfl, rfl⟩⟩

theorem handle_does (hshares : Admits P env shares) (auth : AuthContext) (c : MemberCall)
    (hjoins : Lets P auth.userId c joins) :
    Does P lib env picks signs shares joins (handle env auth c) := by
  cases c with
  | createEvent input =>
      unfold handle
      split_ifs
      · refine .bind (createEvent_does _ _ fun eventId st hst hnew => ?_) fun _ => .pure _
        exact hjoins.created input eventId st rfl hst hnew
      · exact .throw _
  | joinEvent eventId inviteCode =>
      refine .bind (joinEvent_does _ _ _ fun st hst htakes => ?_) fun _ => .pure _
      exact hjoins.asked eventId inviteCode st rfl hst htakes
  | leaveEvent eventId => exact .bind (leaveEvent_does _ _) fun _ => .pure _
  | muteEvent eventId muted => exact .bind (muteEvent_does _ _ _) fun _ => .pure _
  | answerAttendance eventId attending =>
      exact .bind (answerAttendance_does _ _ _) fun _ => .pure _
  | getAvailability eventId =>
      exact .bind (Program.Does.read fun st _ => Writes.refl st) fun _ => .pure _
  | setAvailability eventId input => exact .bind (setAvailability_does _ _ _) fun _ => .pure _
  | putLocation eventId coords => exact .bind (putLocation_does hshares _ _ _) fun _ => .pure _
  | deleteLocation eventId => exact .bind (deleteLocation_does _ _) fun _ => .pure _
  | updateMe patch => exact .bind (updateMe_does _ _) fun _ => .pure _

/-! ## Every call -/

def SiteCall.chooses : SiteCall → String → Prop
  | .account c, password => c.chooses password
  | .member .., _ => False

def SiteCall.opens (env : AccountEnv) : SiteCall → String → Prop
  | .account c, tokenHash => c.opens env tokenHash
  | .member .., _ => False

/-- Every statement of a call is a run of writes. -/
theorem serve_does {c : AccountEnv × SiteCall} (hpicks : ∀ p, c.2.chooses p → picks p)
    (hsigns : ∀ t, c.2.opens c.1 t → signs t) (hshares : Admits P c.1 shares)
    (hjoins : ∀ tokenHash call st auth, c.2 = .member tokenHash call → P st →
      st.db.authenticateAt call.route c.1.now tokenHash = .ok auth →
        Lets P auth.userId call joins) :
    Does P lib c.1 picks signs shares joins (serve cfg lib c) := by
  obtain ⟨env, call⟩ := c
  cases call with
  | account c =>
      refine .bind ?_ fun _ => .pure _
      exact (Program.Does.within (fun _ _ => rfl) (Auth.serve_does c hpicks hsigns)).mono
        (fun _ _ => trivial) fun _ _ _ h => h
  | member tokenHash c =>
      refine .read_bind (fun st _ => Writes.refl st) fun st hst => ?_
      cases hauth : st.db.authenticateAt c.route env.now tokenHash with
      | error e => exact .throw _
      | ok auth =>
          have hlets := hjoins tokenHash c st auth rfl hst hauth
          exact .bind (handle_does hshares auth c hlets) fun _ => .pure _

/-! ## Runs -/

variable {κ : Type} [DecidableEq κ]

abbrev dir (s : Site κ) : Directory := s.state.db.toDirectory

def Served (lib : AuthLib) (s : Site κ) : Prop :=
  s.Serving fun _ c p =>
    Does (fun _ => True) lib c.1 c.2.chooses (c.2.opens c.1) (fun _ => True) (fun _ => True) p

omit [DecidableEq κ] in
theorem served_opened (st : SiteState) : Served (κ := κ) lib (opened st) := by
  intro k c p h
  cases h

theorem Served.step {s : Site κ} (h : Served lib s) (act : SiteAct κ) :
    Served lib (step cfg lib s act) := by
  refine Service.Serving.step h act (fun k c _ => ?_) fun k c p hp => ?_
  · exact serve_does (fun _ h => h) (fun _ h => h) (fun _ _ _ _ _ => trivial)
      fun _ _ _ _ _ _ _ => .anybody _ _ _
  · exact (hp.turn trivial (Writes.refl _)).2

theorem Served.run {s : Site κ} (h : Served lib s) (is : List (SiteAct κ)) :
    Served lib (runFrom (Site.step cfg lib) s is) :=
  Along.invariant (P := Served lib) (fun _ act hs _ => hs.step act) h (Along.trivial s is)

/-- A condition on the acts of a run, given by one on calls; the directory is never replaced. -/
def Meets (calls : AccountEnv × SiteCall → Prop) (acts : UpkeepAct → Prop) : SiteAct κ → Prop
  | .call _ c => calls c
  | .turn _ => True
  | .alone i => i.2.keepsDirectory ∧ acts i.2

def UnderWay (calls : AccountEnv × SiteCall → Prop) (s : Site κ) : Prop :=
  ∀ k c next write, s.slots k = some (c, .stmt next write) → calls c

/-- No act of the run is the replacement of the directory that stands for other modules. -/
abbrev KeepsDirectory (is : List (SiteAct κ)) : Prop :=
  ∀ act ∈ is, Meets (fun _ => True) (fun _ => True) act

omit [DecidableEq κ] in
theorem underWay_opened (calls : AccountEnv × SiteCall → Prop) (st : SiteState) :
    UnderWay (κ := κ) calls (opened st) := by
  intro k c next write hslot
  cases hslot

/-- What the writes of the calls and acts of a run keep holds at its end. -/
theorem run_invariant {P : Directory → Prop} (calls : AccountEnv × SiteCall → Prop)
    (acts : UpkeepAct → Prop)
    (hcall : ∀ c, calls c → ∀ dir dir', P dir →
      SiteWrite lib c.1 c.2.chooses (c.2.opens c.1) (fun _ => True) (fun _ => True) dir dir' →
        P dir')
    (hact : ∀ env act, acts act → ∀ shares dir dir', P dir →
      DirectoryWrite env act.opens shares dir dir' → P dir')
    {s : Site κ} (hserved : Served lib s) (hunder : UnderWay calls s) (hs : P (dir s))
    {is : List (SiteAct κ)} (his : ∀ act ∈ is, Meets calls acts act) :
    P (dir (runFrom (step cfg lib) s is)) := by
  have hkeeps {c : AccountEnv × SiteCall} {p : SiteProgram SiteReply} (hc : calls c)
      (hp : Does (fun _ => True) lib c.1 c.2.chooses (c.2.opens c.1) (fun _ => True)
        (fun _ => True) p) :
      p.Keeps fun st => P st.db.toDirectory :=
    hp.mono (fun _ _ => trivial) fun _ _ hst hrun => hrun.invariant (hcall c hc) hst
  have hholds : s.Holds fun st => P st.db.toDirectory := by
    refine ⟨hs, fun k c p hslot => ?_⟩
    cases p with
    | done r => trivial
    | stmt next write => exact hkeeps (hunder k c next write hslot) (hserved k c _ hslot)
  have hrun : Along (step cfg lib) (fun _ act => Meets calls acts act) s is :=
    Along.of_forall his s
  refine (Service.run_holds (fun _ k c hc => ?_) (fun t i ht hi => ?_) hholds hrun).state
  · exact hkeeps hc (serve_does (fun _ h => h) (fun _ h => h) (fun _ _ _ _ _ => trivial)
      fun _ _ _ _ _ _ _ => .anybody _ _ _)
  · exact (Backend.upkeepStep_run t.state.backend hi.1).invariant (hact i.1 i.2 hi.2 _) ht

end Site
end Sahay
