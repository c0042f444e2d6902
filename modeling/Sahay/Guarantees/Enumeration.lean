import Sahay.Lib.Run
import Sahay.Server.Auth

/-!
# No account enumeration

The public calls of the sign-in answer a client that presents no right code and no right
password from the one-time codes and the rate limits alone: from two states that agree on
these, however their accounts differ, every sequence of such calls is answered alike.
-/

namespace Sahay

/-- The states agree on the rate limits and on the one-time codes. -/
structure AuthState.Alike (st st' : AuthState) : Prop where
  counters : st.counters = st'.counters
  otpCodes : st.backend.otpCodes = st'.backend.otpCodes

namespace Auth

variable {cfg : AuthConfig} {lib : AuthLib} {env : AuthEnv} {st st' : AuthState}

/-! ## What a client must know -/

/-- The guess is right for the code that `consumeOtp` would look at. -/
def CodeMatches (lib : AuthLib) (env : AuthEnv) (st : AuthState) (email code : String) : Prop :=
  ∃ id otp, st.backend.liveOtp env.toEnv (lib.emailBlindIndex email) = some (id, otp) ∧
    lib.hashOtp code (lib.emailBlindIndex email) = otp.codeHash

def PasswordMatches (lib : AuthLib) (st : AuthState) (username password : String) : Prop :=
  ∃ userId user, findByUsername (lib.normalize username) st.backend = some (userId, user) ∧
    user.passwordHash.any (lib.verifyPassword password) = true

/-- The call presents a code or a password that is right in this state. -/
def PresentsSecret (lib : AuthLib) (st : AuthState) (i : AuthEnv × AuthCall) : Prop :=
  match i.2 with
  | .verifyOtp email code => CodeMatches lib i.1 st email code
  | .resetPasswordWithOtp email code _ => CodeMatches lib i.1 st email code
  | .loginWithPassword username password _ => PasswordMatches lib st username password
  | _ => False

instance (email code : String) : Decidable (CodeMatches lib env st email code) :=
  decidable_of_iff ((st.backend.liveOtp env.toEnv (lib.emailBlindIndex email)).any fun e =>
    lib.hashOtp code (lib.emailBlindIndex email) = e.2.codeHash) (by
      simp [CodeMatches, Option.any_eq_true])

instance (username password : String) : Decidable (PasswordMatches lib st username password) :=
  decidable_of_iff ((findByUsername (lib.normalize username) st.backend).any fun e =>
    e.2.passwordHash.any (lib.verifyPassword password)) (by
      simp [PasswordMatches, Option.any_eq_true])

instance (i : AuthEnv × AuthCall) : Decidable (PresentsSecret lib st i) :=
  match i with
  | (_, .verifyOtp _ _) => inferInstanceAs (Decidable (CodeMatches _ _ _ _ _))
  | (_, .resetPasswordWithOtp _ _ _) => inferInstanceAs (Decidable (CodeMatches _ _ _ _ _))
  | (_, .loginWithPassword _ _ _) => inferInstanceAs (Decidable (PasswordMatches _ _ _ _))
  | (_, .startOtp _ _ _) => inferInstanceAs (Decidable False)
  | (_, .sendUsernameReminder _ _) => inferInstanceAs (Decidable False)

/-! ## Rate limits -/

theorem incr_alike (h : st.Alike st') (now : Time) (key : String) :
    (incr now key st).1 = (incr now key st').1 ∧
      (incr now key st).2.Alike (incr now key st').2 := by
  unfold incr
  rw [h.counters]
  exact ⟨rfl, rfl, h.otpCodes⟩

theorem rateLimit_sameFrom (h : st.Alike st') (scope id : String) (max windowSec : ℕ) :
    Program.SameFrom AuthState.Alike st st' (rateLimit env scope id max windowSec)
      (rateLimit env scope id max windowSec) := by
  unfold rateLimit
  by_cases hincr : env.redis scope = .incrFails
  · simp only [hincr, if_true]
    exact .pure h _
  · simp only [hincr, if_false]
    apply Program.SameFrom.bind
    · have halike := incr_alike h env.now (rateLimitKey env.now scope id windowSec)
      exact .update halike.1 halike.2
    · intro n t t' _ _ ht
      split_ifs
      · exact .pure ht _
      · apply Program.SameFrom.bind
        · apply Program.SameFrom.write
          unfold expire
          rw [ht.counters]
          exact ⟨rfl, ht.otpCodes⟩
        · exact fun _ _ _ _ _ ht => .pure ht _
      · exact .pure ht _

theorem rateLimit_backend {scope id : String} {max windowSec : ℕ} {r : Outcome Bool}
    {t : AuthState} (h : (rateLimit env scope id max windowSec).exec st = (r, t)) :
    t.backend = st.backend := by
  obtain rfl : _ = t := congrArg Prod.snd h
  unfold rateLimit
  by_cases hincr : env.redis scope = .incrFails
  · simp only [hincr, if_true]
    rfl
  · simp only [hincr, if_false]
    rw [Program.exec_bind_ok (Program.exec_update _)]
    split_ifs <;> rfl

/-! ## One-time codes -/

theorem select_bind {α β : Type} (f : Backend → α) (k : α → AuthProgram β) :
    (select f >>= k).exec st = (k (f st.backend)).exec st := rfl

theorem liveOtp_alike (h : st.Alike st') (env : Env) (emailHmac : String) :
    st.backend.liveOtp env emailHmac = st'.backend.liveOtp env emailHmac := by
  unfold Db.liveOtp
  rw [h.otpCodes]

/-- A statement that reads and writes one-time codes only. -/
theorem statement_sameFrom {α : Type} {f : Db → α × Db} (h : st.Alike st')
    (hf : ∀ db db' : Db, db.otpCodes = db'.otpCodes →
      (f db).1 = (f db').1 ∧ (f db).2.otpCodes = (f db').2.otpCodes) :
    Program.SameFrom AuthState.Alike st st' (statement f) (statement f) := by
  have hsame := hf _ _ h.otpCodes
  exact .update hsame.1 ⟨h.counters, hsame.2⟩

theorem exec_sameFrom {f : Db → Db} (h : st.Alike st')
    (hf : ∀ db db' : Db, db.otpCodes = db'.otpCodes → (f db).otpCodes = (f db').otpCodes) :
    Program.SameFrom AuthState.Alike st st' (exec f) (exec f) :=
  statement_sameFrom h fun db db' hdb => ⟨rfl, hf db db' hdb⟩

theorem markConsumed_sameFrom (h : st.Alike st') (env : Env) (id : ℕ) :
    Program.SameFrom AuthState.Alike st st' (exec fun db => db.markConsumed env id)
      (exec fun db => db.markConsumed env id) := by
  apply exec_sameFrom h
  intro db db' hdb
  rw [Db.markConsumed, Db.markConsumed, hdb]

theorem consumeOtp_sameFrom (h : st.Alike st') (emailHmac code : String) :
    Program.SameFrom AuthState.Alike st st' (consumeOtp lib env emailHmac code)
      (consumeOtp lib env emailHmac code) := by
  unfold consumeOtp
  apply Program.SameFrom.bind
  · exact .read h (liveOtp_alike h _ _)
  · rintro (_ | ⟨id, otp⟩) t t' - - ht
    · exact .throw ht _
    · apply Program.SameFrom.bind
      · apply statement_sameFrom ht
        intro db db' hdb
        rw [Db.bumpAttempts, Db.bumpAttempts, hdb]
        exact ⟨rfl, rfl⟩
      · intro bumped u u' _ _ hu
        dsimp only
        split_ifs
        · apply Program.SameFrom.bind (markConsumed_sameFrom hu _ _)
          exact fun _ _ _ _ _ hv => .throw hv _
        · exact .throw hu _
        · exact .throw hu _
        · exact markConsumed_sameFrom hu _ _

/-- Only a right guess is consumed. -/
theorem consumeOtp_ok {emailHmac code : String} {t : AuthState}
    (h : (consumeOtp lib env emailHmac code).exec st = (.ok (), t)) :
    ∃ id otp, st.backend.liveOtp env.toEnv emailHmac = some (id, otp) ∧
      lib.hashOtp code emailHmac = otp.codeHash := by
  unfold consumeOtp at h
  rw [select_bind] at h
  cases hlive : st.backend.liveOtp env.toEnv emailHmac with
  | none =>
    rw [hlive] at h
    cases h
  | some found =>
    obtain ⟨id, otp⟩ := found
    rw [hlive] at h
    refine ⟨id, otp, rfl, ?_⟩
    by_contra hwrong
    obtain ⟨bumped, u, -, hu⟩ := Program.exec_bind_eq_ok h
    simp only [ne_eq, hwrong, not_false_eq_true, if_true] at hu
    split_ifs at hu
    · obtain ⟨_, _, -, hthrow⟩ := Program.exec_bind_eq_ok hu
      cases hthrow
    · cases hu

/-- A program that begins with a wrong guess is refused whatever it would do next. -/
theorem afterOtp_sameFrom {α : Type} {email code : String} {f : Unit → AuthProgram α}
    (h : st.Alike st') (hwrong : ¬CodeMatches lib env st email code) :
    Program.SameFrom AuthState.Alike st st'
      (consumeOtp lib env (lib.emailBlindIndex email) code >>= f)
      (consumeOtp lib env (lib.emailBlindIndex email) code >>= f) :=
  (consumeOtp_sameFrom h _ _).bind_of_error fun _ _ hok => hwrong (consumeOtp_ok hok)

/-! ## Passwords -/

theorem PasswordMatches.of_backend {t : AuthState} {username password : String}
    (h : PasswordMatches lib t username password) (ht : t.backend = st.backend) :
    PasswordMatches lib st username password := by
  unfold PasswordMatches
  rw [← ht]
  exact h

theorem checkPassword_wrong (hhashes : lib.hashes = true) {username password : String}
    (hwrong : ¬PasswordMatches lib st username password) :
    (checkPassword lib env (lib.normalize username) password).exec st =
      (.error errors.unauthorized, st) := by
  unfold checkPassword
  rw [select_bind]
  have hunstored : withoutHash lib = errors.unauthorized := if_pos hhashes
  cases hfind : findByUsername (lib.normalize username) st.backend with
  | none =>
    rw [hunstored]
    rfl
  | some found =>
    obtain ⟨userId, user⟩ := found
    have hno : user.passwordHash.any (lib.verifyPassword password) = false := by
      rw [Bool.eq_false_iff]
      exact fun hok => hwrong ⟨userId, user, hfind, hok⟩
    simp only [hno, hunstored, Bool.not_false, if_true]
    split_ifs <;> rfl

/-- An unknown username is refused in the words of `withoutHash`. -/
theorem checkPassword_unknown {normalized password : String}
    (hfind : findByUsername normalized st.backend = none) :
    (checkPassword lib env normalized password).exec st = (.error (withoutHash lib), st) := by
  unfold checkPassword
  rw [select_bind, hfind]
  rfl

theorem mailUsername_exec (lib : AuthLib) (st : AuthState) (email locale : String) :
    ∃ outbox, (mailUsername lib email locale).exec st = (.ok (), { st with outbox }) := by
  unfold mailUsername
  rw [select_bind]
  cases findByEmail (lib.emailBlindIndex email) st.backend with
  | none => exact ⟨_, rfl⟩
  | some found =>
    dsimp only
    cases found.2.username with
    | none => exact ⟨_, rfl⟩
    | some username =>
      dsimp only
      split_ifs
      · exact ⟨_, rfl⟩
      · exact ⟨_, rfl⟩

/-! ## Calls -/

theorem startOtp_sameFrom (h : st.Alike st') (email locale ip : String) :
    Program.SameFrom AuthState.Alike st st' (startOtp cfg lib env email locale ip)
      (startOtp cfg lib env email locale ip) := by
  apply Program.SameFrom.bind (rateLimit_sameFrom h _ _ _ _)
  intro emailOk t t' _ _ ht
  apply Program.SameFrom.bind (rateLimit_sameFrom ht _ _ _ _)
  intro ipOk u u' _ _ hu
  split_ifs
  · apply Program.SameFrom.bind
    · apply exec_sameFrom hu
      intro db db' hdb
      rw [Db.issueOtp, Db.issueOtp, hdb]
    · intro _ v v' _ _ hv
      apply Program.SameFrom.bind
      · exact .write ⟨hv.counters, hv.otpCodes⟩
      · exact fun _ _ _ _ _ hw => .pure hw _
  · exact .pure hu _

theorem loginWithPassword_sameFrom (hhashes : lib.hashes = true) (h : st.Alike st')
    {username password : String}
    (hwrong : ¬PasswordMatches lib st username password)
    (hwrong' : ¬PasswordMatches lib st' username password) (ip : String) :
    Program.SameFrom AuthState.Alike st st' (loginWithPassword lib env username password ip)
      (loginWithPassword lib env username password ip) := by
  apply Program.SameFrom.bind (rateLimit_sameFrom h _ _ _ _)
  intro userOk t t' hrun hrun' ht
  apply Program.SameFrom.bind (rateLimit_sameFrom ht _ _ _ _)
  intro ipOk u u' hrun₂ hrun₂' hu
  split_ifs
  · have hu_wrong : ¬PasswordMatches lib u username password := fun hmatches =>
      hwrong (hmatches.of_backend ((rateLimit_backend hrun₂).trans (rateLimit_backend hrun)))
    have hu_wrong' : ¬PasswordMatches lib u' username password := fun hmatches =>
      hwrong' (hmatches.of_backend ((rateLimit_backend hrun₂').trans (rateLimit_backend hrun')))
    rw [Program.SameFrom, checkPassword_wrong hhashes hu_wrong,
      checkPassword_wrong hhashes hu_wrong']
    exact ⟨rfl, hu⟩
  · exact .throw hu _

theorem sendUsernameReminder_sameFrom (h : st.Alike st') (email locale : String) :
    Program.SameFrom AuthState.Alike st st' (sendUsernameReminder lib env email locale)
      (sendUsernameReminder lib env email locale) := by
  apply Program.SameFrom.bind (rateLimit_sameFrom h _ _ _ _)
  intro ok t t' _ _ ht
  split_ifs
  · obtain ⟨_, hmail⟩ := mailUsername_exec lib t email locale
    obtain ⟨_, hmail'⟩ := mailUsername_exec lib t' email locale
    rw [Program.SameFrom, hmail, hmail']
    exact ⟨rfl, ht.counters, ht.otpCodes⟩
  · exact .pure ht _

theorem call_sameFrom (cfg : AuthConfig) (hhashes : lib.hashes = true) (h : st.Alike st')
    {i : AuthEnv × AuthCall}
    (hno : ¬PresentsSecret lib st i) (hno' : ¬PresentsSecret lib st' i) :
    Program.SameFrom AuthState.Alike st st' (call cfg lib i.1 i.2) (call cfg lib i.1 i.2) := by
  obtain ⟨env, c⟩ := i
  have replies {α : Type} {m : AuthProgram α} (reply : α → AuthReply)
      (hm : Program.SameFrom AuthState.Alike st st' m m) :
      Program.SameFrom AuthState.Alike st st' (do return reply (← m)) (do return reply (← m)) :=
    hm.bind fun _ _ _ _ _ ht => .pure ht _
  cases c with
  | startOtp email locale ip => exact replies _ (startOtp_sameFrom h email locale ip)
  | verifyOtp email code => exact replies _ (afterOtp_sameFrom h hno)
  | loginWithPassword username password ip =>
    exact replies _ (loginWithPassword_sameFrom hhashes h hno hno' ip)
  | sendUsernameReminder email locale =>
    exact replies _ (sendUsernameReminder_sameFrom h email locale)
  | resetPasswordWithOtp email code newPassword => exact replies _ (afterOtp_sameFrom h hno)

/-- A client without secrets is answered alike, whatever accounts there are. -/
theorem responses_eq_of_alike (hhashes : lib.hashes = true) (h : st.Alike st')
    {calls : List (AuthEnv × AuthCall)}
    (hno : Along (step cfg lib) (fun st i => ¬PresentsSecret lib st i) st calls)
    (hno' : Along (step cfg lib) (fun st i => ¬PresentsSecret lib st i) st' calls) :
    responses cfg lib st calls = responses cfg lib st' calls := by
  induction calls generalizing st st' with
  | nil => rfl
  | cons i is ih =>
    obtain ⟨hanswer, hnext⟩ := call_sameFrom cfg hhashes h hno.1 hno'.1
    rw [responses, responses, hanswer]
    exact congrArg _ (ih hnext hno.2 hno'.2)

/-! ## A cost that does not fit -/

/-- Whatever accounts there are, a client without secrets is answered alike. -/
def HidesAccounts (lib : AuthLib) : Prop :=
  ∀ (cfg : AuthConfig) (st st' : AuthState) (calls : List (AuthEnv × AuthCall)), st.Alike st' →
    Along (step cfg lib) (fun st i => ¬PresentsSecret lib st i) st calls →
      Along (step cfg lib) (fun st i => ¬PresentsSecret lib st i) st' calls →
        responses cfg lib st calls = responses cfg lib st' calls

/-- No key of Redis has counted more than `m` calls. -/
def CountedAtMost (m : ℕ) (st : AuthState) : Prop :=
  ∀ key counter, st.counters.lookup key = some counter → counter.n ≤ m

theorem incr_countedAtMost {m : ℕ} (h : CountedAtMost m st) (now : Time) (key : String) :
    (incr now key st).1 ≤ m + 1 ∧ CountedAtMost (m + 1) (incr now key st).2 := by
  unfold incr
  dsimp only
  have hcounter : (((st.counters.lookup key).filter fun counter =>
      counter.expiresAt.all fun t => now < t).getD { n := 0 }).n ≤ m := by
    cases hlive : (st.counters.lookup key).filter fun counter =>
        counter.expiresAt.all fun t => now < t with
    | none => exact Nat.zero_le m
    | some counter => exact h key counter (Option.filter_eq_some_iff.mp hlive).1
  refine ⟨Nat.add_le_add_right hcounter 1, fun key' counter hlookup => ?_⟩
  have hsame (old : Option Counter) (counted : Counter) :
      old.elim counted (fun _ => counted) = counted := by
    cases old <;> rfl
  rw [Table.lookup_upsert, hsame] at hlookup
  split_ifs at hlookup
  · rw [← Option.some.inj hlookup]
    exact Nat.add_le_add_right hcounter 1
  · exact (h key' counter hlookup).trans (Nat.le_succ m)

theorem rateLimit_allows {m : ℕ} {scope : String} (id : String) {max : ℕ} (windowSec : ℕ)
    (hserved : env.redis scope = .served) (h : CountedAtMost m st) (hmax : m + 1 ≤ max) :
    ∃ t, (rateLimit env scope id max windowSec).exec st = (.ok true, t) ∧
      CountedAtMost (m + 1) t := by
  obtain ⟨hcount, hcounted⟩ :=
    incr_countedAtMost h env.now (rateLimitKey env.now scope id windowSec)
  have hallowed := decide_eq_true (hcount.trans hmax)
  unfold rateLimit
  simp only [hserved, reduceCtorEq, if_false]
  rw [Program.exec_bind_ok (Program.exec_update _)]
  split_ifs
  · refine ⟨expire env.now _ windowSec _, congrArg (fun b => (Except.ok b, _)) hallowed, ?_⟩
    intro key counter hlookup
    rw [expire, Table.lookup_modify, Option.map_eq_some_iff] at hlookup
    obtain ⟨old, hold, rfl⟩ := hlookup
    have hle := hcounted key old hold
    split_ifs <;> exact hle
  · exact ⟨_, congrArg (fun b => (Except.ok b, _)) hallowed, hcounted⟩

theorem responses_login {username password ip : String}
    (hserved : ∀ scope, env.redis scope = .served) (h : CountedAtMost 0 st) {e : TxError}
    (hcheck : ∀ t : AuthState, t.backend = st.backend →
      (checkPassword lib env (lib.normalize username) password).exec t = (.error e, t)) :
    responses cfg lib st [(env, .loginWithPassword username password ip)] = [.error e] := by
  obtain ⟨t, ht, htcounted⟩ :=
    rateLimit_allows (lib.normalize username) 900 (hserved "login:user") h (by decide : 1 ≤ 5)
  obtain ⟨u, hu, -⟩ :=
    rateLimit_allows ip 900 (hserved "login:ip") htcounted (by decide : 0 + 1 + 1 ≤ 20)
  have hbackend : u.backend = st.backend := (rateLimit_backend hu).trans (rateLimit_backend ht)
  have hlogin : (loginWithPassword lib env username password ip).exec st = (.error e, u) := by
    unfold loginWithPassword
    rw [Program.exec_bind_ok ht, Program.exec_bind_ok hu]
    exact hcheck u hbackend
  rw [responses, responses]
  exact congrArg (fun r => [r]) (congrArg Prod.fst (Program.exec_bind_error hlogin))

theorem not_hidesAccounts (hhashes : lib.hashes = false) {password stored : String}
    (hwrong : lib.verifyPassword password stored = false) : ¬HidesAccounts lib := by
  let env : AuthEnv :=
    { SmallEvent.clock 0 with
      draws := { pseudonym := (0, 1), tokenHash := "t", token := "t", otpCode := "" } }
  let known : User := { username := some (lib.normalize "asha"), passwordHash := some stored }
  let st : AuthState := { backend := { users := (∅ : Table UserId User).put 1 known } }
  let st' : AuthState := { backend := {} }
  have hrow : st.backend.users.lookup 1 = some known := AList.lookup_insert _
  have hfind : findByUsername (lib.normalize "asha") st.backend = some (1, known) := by
    cases hfirst : findByUsername (lib.normalize "asha") st.backend with
    | none => exact absurd rfl (of_decide_eq_false (Table.first_none.mp hfirst 1 known hrow))
    | some account =>
      obtain ⟨id, user⟩ := account
      obtain ⟨hlookup, -⟩ := Table.first_some hfirst
      rw [Table.lookup_put] at hlookup
      split_ifs at hlookup with hid
      · rw [Option.some.inj hlookup, hid]
      · cases hlookup
  have hcounted : CountedAtMost 0 st := fun _ _ h => by cases h
  have hcounted' : CountedAtMost 0 st' := fun _ _ h => by cases h
  have hknown : responses {} lib st [(env, .loginWithPassword "asha" password "ip")] =
      [.error errors.unauthorized] := by
    refine responses_login (fun _ => rfl) hcounted fun t ht => ?_
    unfold checkPassword
    rw [select_bind, ht, hfind]
    simp only [known, Option.isNone_some, Option.any_some, hwrong, Bool.not_false, if_true,
      Bool.false_eq_true, if_false]
    rfl
  have hunknown : responses {} lib st' [(env, .loginWithPassword "asha" password "ip")] =
      [.error .scryptMemory] := by
    refine responses_login (fun _ => rfl) hcounted' fun t ht => ?_
    have hnone : findByUsername (lib.normalize "asha") t.backend = none := by
      rw [ht]
      rfl
    rw [checkPassword_unknown hnone, withoutHash, hhashes]
    rfl
  have hno : ¬PasswordMatches lib st "asha" password := by
    rintro ⟨userId, user, huser, hany⟩
    obtain ⟨rfl, rfl⟩ := Prod.mk.inj (Option.some.inj (hfind.symm.trans huser))
    rw [Option.any_some, hwrong] at hany
    cases hany
  have hno' : ¬PasswordMatches lib st' "asha" password := by
    rintro ⟨userId, user, huser, -⟩
    cases huser
  intro hhides
  have hsame := hhides {} st st' [(env, .loginWithPassword "asha" password "ip")] ⟨rfl, rfl⟩
    ⟨hno, trivial⟩ ⟨hno', trivial⟩
  rw [hknown, hunknown] at hsame
  cases hsame

/-! ## Non-vacuity -/

def plainLib : AuthLib where
  toTextLib := { SmallEvent.text with verifyPassword := fun password stored => password = stored }
  hashOtp code emailHmac := emailHmac ++ code
  hashPassword password := password

/-- One address and one username are tried with wrong codes and a wrong password. -/
def guesses : List (AuthEnv × AuthCall) :=
  let at' (now : Time) : AuthEnv :=
    { SmallEvent.clock now with
      draws := { pseudonym := (0, 1), tokenHash := "t", token := "t", otpCode := "123456" } }
  [(at' 0, .startOtp "asha@example.com" "en" "ip"),
   (at' 1, .verifyOtp "asha@example.com" "000000"),
   (at' 2, .loginWithPassword "asha" "guess" "ip"),
   (at' 3, .sendUsernameReminder "asha@example.com" "en"),
   (at' 4, .resetPasswordWithOtp "asha@example.com" "111111" "mine")]

def asha : User where
  emailHmac := some "asha@example.com"
  username := some "asha"
  passwordHash := some "right"
  status := .suspended

def withAsha : AuthState := { backend := { users := (∅ : Table UserId User).put 1 asha } }

def withoutAsha : AuthState := { backend := {} }


end Auth
end Sahay
