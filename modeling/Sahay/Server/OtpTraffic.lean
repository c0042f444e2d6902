import Mathlib.Data.Fintype.Basic
import Sahay.Lib.RowUpdate
import Sahay.Server.Auth

/-!
# One-time codes under way

Calls of `startOtp` and `consumeOtp` at once.  The transaction of a `startOtp` consumes the codes
of its address row by row and inserts a new one; what it has done is seen by the others once it
has committed, and the rows that it has consumed are locked until then.  The statements of a
`consumeOtp` commit one by one, and wait for a locked row.
-/

namespace Sahay

/-! ## A call of `consumeOtp` -/

structure Guess where
  env : AuthEnv
  emailHmac : String
  code : String

/-- How far a call of `consumeOtp` is. -/
inductive Attempt
  | reading
  | counting (id : ℕ) (otp : OtpCode)
  /-- The code is about to be marked consumed, and the call ends with `result`. -/
  | marking (id attempts : ℕ) (result : Outcome Unit)
  /-- With the code and the number under which the guess was counted, if it was. -/
  | ended (counted : Option (ℕ × ℕ)) (result : Outcome Unit)

namespace Attempt

variable (lib : AuthLib) (guess : Guess)

def Right (otp : OtpCode) : Prop := lib.hashOtp guess.code guess.emailHmac = otp.codeHash

instance (otp : OtpCode) : Decidable (Right lib guess otp) := inferInstanceAs (Decidable (_ = _))

/-- What is made of the guess once it has been counted. -/
def judge (id : ℕ) (otp : OtpCode) (attempts : ℕ) : Attempt :=
  if lib.hashOtp guess.code guess.emailHmac ≠ otp.codeHash then
    if Limits.otpMaxAttempts ≤ attempts then .marking id attempts (.error errors.rateLimited)
    else .ended (some (id, attempts)) (.error errors.unauthorized)
  else if Limits.otpMaxAttempts < attempts then
    .ended (some (id, attempts)) (.error errors.rateLimited)
  else .marking id attempts (.ok ())

/-- The next statement of the call. -/
def turn (db : Db) : Attempt → Attempt × Db
  | .reading =>
      match db.liveOtp guess.env.toEnv guess.emailHmac with
      | none => (.ended none (.error errors.unauthorized), db)
      | some (id, otp) => (.counting id otp, db)
  | .counting id otp =>
      let bumped := db.bumpAttempts id
      (judge lib guess id otp (bumped.1.getD (otp.attempts + 1)), bumped.2)
  | .marking id attempts result =>
      (.ended (some (id, attempts)) result, db.markConsumed guess.env.toEnv id)
  | .ended counted result => (.ended counted result, db)

def row? : Attempt → Option ℕ
  | .counting id _ | .marking id _ _ => some id
  | _ => none

def counted? : Attempt → Option (ℕ × ℕ)
  | .marking id attempts _ => some (id, attempts)
  | .ended counted _ => counted
  | _ => none

def result? : Attempt → Option (Outcome Unit)
  | .ended _ result => some result
  | _ => none

/-! Statement by statement this is `consumeOtp`. -/

/-- What of `consumeOtp` the call has yet to do. -/
def program : Attempt → AuthProgram Unit
  | .reading => Auth.consumeOtp lib guess.env guess.emailHmac guess.code
  | .counting id otp => do
      let bumped ← Auth.statement fun db => db.bumpAttempts id
      let attempts := bumped.getD (otp.attempts + 1)
      if lib.hashOtp guess.code guess.emailHmac ≠ otp.codeHash then
        if Limits.otpMaxAttempts ≤ attempts then
          Auth.exec fun db => db.markConsumed guess.env.toEnv id
          .throw errors.rateLimited
        else .throw errors.unauthorized
      else if Limits.otpMaxAttempts < attempts then .throw errors.rateLimited
      else Auth.exec fun db => db.markConsumed guess.env.toEnv id
  | .marking id _ result => do
      Auth.exec fun db => db.markConsumed guess.env.toEnv id
      .done result
  | .ended _ result => .done result

theorem program_judge (id : ℕ) (otp : OtpCode) (attempts : ℕ) :
    program lib guess (judge lib guess id otp attempts) =
      if lib.hashOtp guess.code guess.emailHmac ≠ otp.codeHash then
        if Limits.otpMaxAttempts ≤ attempts then do
          Auth.exec fun db => db.markConsumed guess.env.toEnv id
          .throw errors.rateLimited
        else .throw errors.unauthorized
      else if Limits.otpMaxAttempts < attempts then .throw errors.rateLimited
      else Auth.exec fun db => db.markConsumed guess.env.toEnv id := by
  unfold judge
  split_ifs <;> rfl

/-- A turn of the call is a statement of `consumeOtp`. -/
theorem turn_program (attempt : Attempt) (st : AuthState) :
    (attempt.program lib guess).turn st =
      ((attempt.turn lib guess st.backend.toDb).1.program lib guess,
        { st with backend :=
          { st.backend with toDb := (attempt.turn lib guess st.backend.toDb).2 } }) := by
  cases attempt with
  | reading =>
      have hread : (turn lib guess st.backend.toDb .reading).2 = st.backend.toDb := by
        rw [turn]
        split <;> rfl
      refine Prod.ext ?_ (by rw [hread]; rfl)
      change (match st.backend.liveOtp guess.env.toEnv guess.emailHmac with
        | none => _
        | some (id, otp) => _ : AuthProgram Unit) = _
      rw [turn]
      cases st.backend.liveOtp guess.env.toEnv guess.emailHmac <;> rfl
  | counting id otp =>
      refine Prod.ext ?_ rfl
      exact (program_judge lib guess id otp _).symm
  | marking id attempts result => rfl
  | ended counted result => rfl

end Attempt
/-! ## A call of `startOtp` -/

/-- What the transaction of a `startOtp` is given. -/
structure CodeRequest where
  env : Env
  emailHmac : String
  codeHash : String
  /-- The id that the database draws for the new code. -/
  otpId : ℕ

def CodeRequest.replaces (request : CodeRequest) (otp : OtpCode) : Bool :=
  otp.emailHmac = some request.emailHmac && otp.consumedAt.isNone

def CodeRequest.issued (request : CodeRequest) : OtpCode :=
  { emailHmac := some request.emailHmac
    codeHash := request.codeHash
    expiresAt := request.env.now + Limits.otpTtlMinutes * 60000
    createdAt := request.env.now }

/-- How far the transaction is. -/
inductive Issue
  | waiting
  | updating (update : RowUpdate ℕ)
  | inserted (update : RowUpdate ℕ)
  | committed
  | rolledBack

namespace Issue

/-- The `UPDATE` of the transaction, as long as that is open. -/
def update? : Issue → Option (RowUpdate ℕ)
  | .updating update | .inserted update => some update
  | _ => none

def held (issue : Issue) : List ℕ := issue.update?.elim [] RowUpdate.held

end Issue

/-! ## All of them -/

/-- The committed rows, and the calls. -/
structure OtpTraffic (ι κ : Type) where
  db : Db
  issues : ι → Issue
  attempts : κ → Attempt

inductive OtpAct (ι κ : Type)
  /-- The `UPDATE` of a `startOtp` begins. -/
  | begin (i : ι)
  /-- It takes its next row. -/
  | take (i : ι) (id : ℕ)
  | insert (i : ι)
  | commit (i : ι)
  | rollback (i : ι)
  /-- A `consumeOtp` issues its next statement. -/
  | turn (j : κ)

namespace OtpTraffic

variable {ι κ : Type}

def init (db : Db) : OtpTraffic ι κ :=
  { db := db, issues := fun _ => .waiting, attempts := fun _ => .reading }

section Issues

variable [DecidableEq ι]

/-- The transaction of `i` goes on. -/
def setIssue (s : OtpTraffic ι κ) (i : ι) (issue : Issue) : OtpTraffic ι κ :=
  { s with issues := Function.update s.issues i issue }

@[simp] theorem setIssue_issues_self (s : OtpTraffic ι κ) (i : ι) (issue : Issue) :
    (s.setIssue i issue).issues i = issue := Function.update_self ..

theorem setIssue_issues_of_ne (s : OtpTraffic ι κ) {i i' : ι} (h : i' ≠ i) (issue : Issue) :
    (s.setIssue i issue).issues i' = s.issues i' := Function.update_of_ne h ..

@[simp] theorem setIssue_setIssue (s : OtpTraffic ι κ) (i : ι) (issue issue' : Issue) :
    (s.setIssue i issue).setIssue i issue' = s.setIssue i issue' := by
  simp [setIssue]

end Issues

variable [Fintype ι] [DecidableEq ι]

/-- No transaction but that of `i` has locked the row. -/
def free (s : OtpTraffic ι κ) (i : ι) (id : ℕ) : Bool :=
  decide (∀ i', i' ≠ i → id ∉ (s.issues i').held)

def ready (s : OtpTraffic ι κ) (j : κ) : Bool :=
  (s.attempts j).row?.all fun id => decide (∀ i, id ∉ (s.issues i).held)

@[simp] theorem free_setIssue (s : OtpTraffic ι κ) (i : ι) (issue : Issue) (id : ℕ) :
    (s.setIssue i issue).free i id = s.free i id := by
  unfold free
  refine decide_eq_decide.2 (forall_congr' fun i' => imp_congr_right fun hi => ?_)
  rw [setIssue_issues_of_ne s hi]

variable [DecidableEq κ] (lib : AuthLib) (requests : ι → CodeRequest) (guesses : κ → Guess)

/-- The committed rows with what the transaction of `i` has done. -/
def commitDb (s : OtpTraffic ι κ) (i : ι) (update : RowUpdate ℕ) : Db :=
  let codes := update.finish s.db.otpCodes (Db.consume (requests i).env)
  { s.db with otpCodes := codes.put (codes.freshKey (requests i).otpId) (requests i).issued }

/-- A statement that has to wait, or that is not the next one of its call, does nothing. -/
def step (s : OtpTraffic ι κ) : OtpAct ι κ → OtpTraffic ι κ
  | .begin i =>
      match s.issues i with
      | .waiting =>
          s.setIssue i (.updating (RowUpdate.start s.db.otpCodes (requests i).replaces))
      | _ => s
  | .take i id =>
      match s.issues i with
      | .updating update =>
          if id ∈ update.todo ∧ s.free i id then
            s.setIssue i (.updating (update.take s.db.otpCodes (requests i).replaces id))
          else s
      | _ => s
  | .insert i =>
      match s.issues i with
      | .updating update => if update.todo = [] then s.setIssue i (.inserted update) else s
      | _ => s
  | .commit i =>
      match s.issues i with
      | .inserted update => { s.setIssue i .committed with db := s.commitDb requests i update }
      | _ => s
  | .rollback i =>
      match (s.issues i).update? with
      | some _ => s.setIssue i .rolledBack
      | none => s
  | .turn j =>
      if s.ready j then
        let moved := (s.attempts j).turn lib (guesses j) s.db
        { s with db := moved.2, attempts := Function.update s.attempts j moved.1 }
      else s

/-! ## A transaction alone -/

section Alone

variable {s : OtpTraffic ι κ} {i : ι}

theorem run_takes (hfree : ∀ id, s.free i id = true) (ks : List ℕ) (update : RowUpdate ℕ)
    (htodo : update.todo = ks) :
    runFrom (step lib requests guesses) (s.setIssue i (.updating update)) (ks.map (.take i)) =
      s.setIssue i (.updating
        (ks.foldl (fun u k => u.take s.db.otpCodes (requests i).replaces k) update)) := by
  induction ks generalizing update with
  | nil => rfl
  | cons k ks ih =>
      have htake : (s.setIssue i (.updating update)).step lib requests guesses (.take i k) =
          s.setIssue i (.updating (update.take s.db.otpCodes (requests i).replaces k)) := by
        have hk : k ∈ update.todo := by simp [htodo]
        simp only [step, setIssue_issues_self, hk, free_setIssue, hfree, and_self, if_true,
          setIssue_setIssue]
        rfl
      rw [List.map_cons, runFrom, List.foldl_cons, htake]
      exact ih _ (by simp [RowUpdate.take, htodo])

/-- The statements of a transaction, when nobody holds a row, do what `issueOtp` does. -/
theorem run_alone (hwaiting : s.issues i = .waiting) (hfree : ∀ id, s.free i id = true) :
    let found := (RowUpdate.start s.db.otpCodes (requests i).replaces).found
    (runFrom (step lib requests guesses) s
        (.begin i :: (found.map (.take i) ++ [.insert i, .commit i]))).db =
      s.db.issueOtp (requests i).env (requests i).emailHmac (requests i).codeHash
        (requests i).otpId := by
  intro found
  let update := RowUpdate.start s.db.otpCodes (requests i).replaces
  let taken := found.foldl (fun u k => u.take s.db.otpCodes (requests i).replaces k) update
  obtain ⟨htodo, hheld⟩ := RowUpdate.foldl_take (t := s.db.otpCodes)
    (p := (requests i).replaces) (s := update) found rfl
  have hbegin : s.step lib requests guesses (.begin i) = s.setIssue i (.updating update) := by
    rw [step, hwaiting]
  have hinsert : (s.setIssue i (.updating taken)).step lib requests guesses (.insert i) =
      s.setIssue i (.inserted taken) := by
    rw [step, setIssue_issues_self]
    simp only [taken, htodo, if_true, setIssue_setIssue]
  have hcommit : ((s.setIssue i (.inserted taken)).step lib requests guesses (.commit i)).db =
      s.commitDb requests i taken := by
    rw [step, setIssue_issues_self]
    rfl
  have htakes := run_takes lib requests guesses hfree found update rfl
  rw [runFrom] at htakes
  rw [runFrom, List.foldl_cons, hbegin, List.foldl_append, htakes, List.foldl_cons,
    List.foldl_cons, List.foldl_nil, hinsert, hcommit]
  have hcodes : taken.finish s.db.otpCodes (Db.consume (requests i).env) =
      s.db.otpCodes.updateWhere (fun _ otp => (requests i).replaces otp)
        (Db.consume (requests i).env) := by
    apply Table.updateWhere_congr
    intro id otp hotp
    rw [← Bool.coe_iff_coe, decide_eq_true_eq, hheld, RowUpdate.mem_start, hotp, Option.any_some]
    simp [update, RowUpdate.start]
  rw [commitDb, hcodes]
  rfl

end Alone

/-! ## What a step can do -/

/-- What a step that does something does. -/
inductive Moves (lib : AuthLib) (requests : ι → CodeRequest) (guesses : κ → Guess)
    (s : OtpTraffic ι κ) : OtpAct ι κ → OtpTraffic ι κ → Prop
  | stays (act : OtpAct ι κ) : Moves lib requests guesses s act s
  | begins (i : ι) (h : s.issues i = .waiting) :
      Moves lib requests guesses s (.begin i)
        (s.setIssue i (.updating (RowUpdate.start s.db.otpCodes (requests i).replaces)))
  | takes (i : ι) (id : ℕ) (update : RowUpdate ℕ) (h : s.issues i = .updating update)
      (hfree : s.free i id = true) :
      Moves lib requests guesses s (.take i id)
        (s.setIssue i (.updating (update.take s.db.otpCodes (requests i).replaces id)))
  | inserts (i : ι) (update : RowUpdate ℕ) (h : s.issues i = .updating update)
      (htodo : update.todo = []) :
      Moves lib requests guesses s (.insert i) (s.setIssue i (.inserted update))
  | commits (i : ι) (update : RowUpdate ℕ) (h : s.issues i = .inserted update) :
      Moves lib requests guesses s (.commit i)
        { s.setIssue i .committed with db := s.commitDb requests i update }
  | rollsBack (i : ι) : Moves lib requests guesses s (.rollback i) (s.setIssue i .rolledBack)
  | turns (j : κ) :
      Moves lib requests guesses s (.turn j)
        { s with
          db := ((s.attempts j).turn lib (guesses j) s.db).2
          attempts := Function.update s.attempts j
            ((s.attempts j).turn lib (guesses j) s.db).1 }

theorem step_moves (s : OtpTraffic ι κ) (act : OtpAct ι κ) :
    Moves lib requests guesses s act (s.step lib requests guesses act) := by
  cases act with
  | begin i =>
      rw [step]
      split
      · exact .begins i ‹_›
      · exact .stays _
  | take i id =>
      rw [step]
      split
      · split_ifs with h
        · exact .takes i id _ ‹_› h.2
        · exact .stays _
      · exact .stays _
  | insert i =>
      rw [step]
      split
      · split_ifs with h
        · exact .inserts i _ ‹_› h
        · exact .stays _
      · exact .stays _
  | commit i =>
      rw [step]
      split
      · exact .commits i _ ‹_›
      · exact .stays _
  | rollback i =>
      rw [step]
      split
      · exact .rollsBack i
      · exact .stays _
  | turn j =>
      rw [step]
      split_ifs
      · exact .turns j
      · exact .stays _

end OtpTraffic
end Sahay
