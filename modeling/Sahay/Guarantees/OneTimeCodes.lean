import Mathlib.Data.Set.Card
import Mathlib.Order.Interval.Finset.Nat
import Sahay.Guarantees.Enumeration
import Sahay.Server.OtpTraffic

/-!
# Attempts on a one-time code

`consumeOtp` counts an attempt with one statement that returns the new count, so no two guesses
at a code are counted under the same number, and a guess beyond the limit is refused right or
wrong.  But the statement that marks a code consumed does not look whether it is already: two
calls with the right code that both have found it before either has marked it both succeed.
-/

namespace Sahay

/-! ## What becomes of a code -/

/-- How a code may change: its attempts do not fall, and a consumed code stays consumed. -/
structure OtpCode.Ages (otp otp' : OtpCode) : Prop where
  attempts : otp.attempts ≤ otp'.attempts
  consumed : otp.consumedAt.isSome → otp'.consumedAt.isSome
  emailHmac : otp'.emailHmac = otp.emailHmac
  expiresAt : otp'.expiresAt = otp.expiresAt

namespace OtpCode

theorem Ages.refl (otp : OtpCode) : otp.Ages otp := ⟨le_rfl, fun h => h, rfl, rfl⟩

theorem Ages.notConsumed {otp otp' : OtpCode} (h : otp.Ages otp') (hnone : otp'.consumedAt = none) :
    otp.consumedAt = none := by
  by_contra hnot
  have hsome := h.consumed (Option.isSome_iff_ne_none.2 hnot)
  rw [hnone] at hsome
  cases hsome

theorem ages_consume (env : Env) (otp : OtpCode) : otp.Ages (Db.consume env otp) :=
  ⟨le_rfl, fun _ => rfl, rfl, rfl⟩

end OtpCode

def Db.AgesCodes (db db' : Db) : Prop :=
  ∀ id otp, db.otpCodes.lookup id = some otp →
    ∃ otp', db'.otpCodes.lookup id = some otp' ∧ otp.Ages otp'

namespace Db

variable {db : Db} {id : ℕ} {otp : OtpCode}

theorem AgesCodes.refl (db : Db) : db.AgesCodes db := fun _ otp h => ⟨otp, h, .refl otp⟩

theorem agesCodes_modify (db : Db) (id : ℕ) {f : OtpCode → OtpCode}
    (hf : ∀ otp : OtpCode, otp.Ages (f otp)) :
    db.AgesCodes { db with otpCodes := db.otpCodes.modify id f } := by
  intro id' otp h
  refine ⟨_, by rw [Table.lookup_modify, h, Option.map_some], ?_⟩
  split_ifs
  · exact hf otp
  · exact .refl otp

theorem agesCodes_bump (db : Db) (id : ℕ) : db.AgesCodes (db.bumpAttempts id).2 :=
  db.agesCodes_modify id fun _ => ⟨Nat.le_succ _, fun h => h, rfl, rfl⟩

theorem agesCodes_markConsumed (env : Env) (db : Db) (id : ℕ) :
    db.AgesCodes (db.markConsumed env id) :=
  db.agesCodes_modify id (OtpCode.ages_consume env)

theorem liveOtp_some {env : Env} {emailHmac : String}
    (h : db.liveOtp env emailHmac = some (id, otp)) :
    db.otpCodes.lookup id = some otp ∧ otp.emailHmac = some emailHmac ∧
      otp.consumedAt = none := by
  have hmem := (List.mem_insertionSort _).1 (List.mem_of_mem_head? h)
  obtain ⟨id', hid, hmap⟩ := List.mem_filterMap.1 hmem
  obtain ⟨row, hrow, hpair⟩ := Option.map_eq_some_iff.1 hmap
  obtain ⟨rfl, rfl⟩ := Prod.mk.inj hpair
  obtain ⟨row', hrow', hlive⟩ := Env.mem_selectIds.1 hid
  obtain rfl := Option.some.inj (hrow.symm.trans hrow')
  simp only [Bool.and_eq_true, decide_eq_true_eq, Option.isNone_iff_eq_none] at hlive
  exact ⟨hrow, hlive.1.1, hlive.1.2⟩

end Db

namespace Attempt

variable {lib : AuthLib} {guess : Guess} {db db' : Db} {id n : ℕ} {otp : OtpCode}

/-- A guess at the code has been counted under the number `n`. -/
def CountedAs (db : Db) (id n : ℕ) : Prop :=
  1 ≤ n ∧ ∃ otp, db.otpCodes.lookup id = some otp ∧ n ≤ otp.attempts

/-- What the call knows is borne out by the rows, and it is refused without a code and beyond the
limit. -/
def Sound (db : Db) : Attempt → Prop
  | .reading => True
  | .counting id _ => id ∈ db.otpCodes
  | .marking id n result =>
      CountedAs db id n ∧ (Limits.otpMaxAttempts < n → result = .error errors.rateLimited)
  | .ended none result => result = .error errors.unauthorized
  | .ended (some (id, n)) result =>
      CountedAs db id n ∧ (Limits.otpMaxAttempts < n → result = .error errors.rateLimited)

theorem CountedAs.mono (h : CountedAs db id n) (hages : db.AgesCodes db') :
    CountedAs db' id n := by
  obtain ⟨hpos, otp, hotp, hn⟩ := h
  obtain ⟨otp', hotp', hkept⟩ := hages id otp hotp
  exact ⟨hpos, otp', hotp', hn.trans hkept.attempts⟩

theorem Sound.mono {attempt : Attempt} (h : attempt.Sound db) (hages : db.AgesCodes db') :
    attempt.Sound db' := by
  cases attempt with
  | reading => trivial
  | counting id otp =>
      obtain ⟨row, hrow⟩ := Table.mem_iff_exists.1 h
      obtain ⟨row', hrow', -⟩ := hages id row hrow
      exact Table.mem_iff_exists.2 ⟨row', hrow'⟩
  | marking id n result => exact ⟨h.1.mono hages, h.2⟩
  | ended counted result =>
      cases counted with
      | none => exact h
      | some counted => exact ⟨h.1.mono hages, h.2⟩

/-- A guess that has been counted is refused, or the code is to be marked for it; beyond the limit
it is refused as one too many. -/
theorem judge_cases (lib : AuthLib) (guess : Guess) (id : ℕ) (otp : OtpCode) (n : ℕ) :
    (∃ e, (judge lib guess id otp n = .ended (some (id, n)) (.error e) ∨
        judge lib guess id otp n = .marking id n (.error e)) ∧
        (Limits.otpMaxAttempts < n → e = errors.rateLimited)) ∨
      judge lib guess id otp n = .marking id n (.ok ()) ∧ Right lib guess otp ∧
        n ≤ Limits.otpMaxAttempts := by
  unfold judge
  split_ifs with hwrong hlast hmany
  · exact .inl ⟨_, .inr rfl, fun _ => rfl⟩
  · exact .inl ⟨_, .inl rfl, fun h => absurd h.le hlast⟩
  · exact .inl ⟨_, .inl rfl, fun _ => rfl⟩
  · exact .inr ⟨rfl, not_not.1 hwrong, not_lt.1 hmany⟩

theorem judge_sound (h : CountedAs db id n) : (judge lib guess id otp n).Sound db := by
  rcases judge_cases lib guess id otp n with ⟨e, heq | heq, hmany⟩ | ⟨heq, -, hfew⟩
  · rw [heq]
    exact ⟨h, fun hlt => by rw [hmany hlt]⟩
  · rw [heq]
    exact ⟨h, fun hlt => by rw [hmany hlt]⟩
  · rw [heq]
    exact ⟨h, fun hlt => absurd hlt (not_lt.2 hfew)⟩

theorem turn_counting {row : OtpCode} (hrow : db.otpCodes.lookup id = some row) :
    turn lib guess db (.counting id otp) =
      (judge lib guess id otp (row.attempts + 1), (db.bumpAttempts id).2) := by
  rw [turn, Db.bumpAttempts, hrow]
  rfl

theorem bumped_lookup {row : OtpCode} (hrow : db.otpCodes.lookup id = some row) :
    ∃ row', (db.bumpAttempts id).2.otpCodes.lookup id = some row' ∧
      row'.attempts = row.attempts + 1 := by
  refine ⟨{ row with attempts := row.attempts + 1 }, ?_, rfl⟩
  rw [Db.bumpAttempts, Table.lookup_modify_self, hrow, Option.map_some]

theorem turn_ages (lib : AuthLib) (guess : Guess) (db : Db) (attempt : Attempt) :
    db.AgesCodes (attempt.turn lib guess db).2 := by
  cases attempt with
  | reading =>
      rw [turn]
      split
      · exact .refl db
      · exact .refl db
  | counting id otp => exact Db.agesCodes_bump db id
  | marking id n result => exact Db.agesCodes_markConsumed _ db id
  | ended counted result => exact .refl db

theorem Sound.turn {attempt : Attempt} (h : attempt.Sound db) :
    (attempt.turn lib guess db).1.Sound (attempt.turn lib guess db).2 := by
  cases attempt with
  | reading =>
      rw [Attempt.turn]
      split
      · rfl
      · rename_i id otp hlive
        exact Table.mem_iff_exists.2 ⟨otp, (Db.liveOtp_some hlive).1⟩
  | counting id otp =>
      obtain ⟨row, hrow⟩ := Table.mem_iff_exists.1 h
      obtain ⟨row', hrow', hattempts⟩ := bumped_lookup hrow
      rw [turn_counting hrow]
      exact judge_sound ⟨Nat.le_add_left 1 _, row', hrow', hattempts.ge⟩
  | marking id n result => exact Sound.mono h (Db.agesCodes_markConsumed _ db id)
  | ended counted result => exact h

theorem Sound.countedAs {attempt : Attempt} (h : attempt.Sound db)
    (hcounted : attempt.counted? = some (id, n)) : CountedAs db id n := by
  cases attempt with
  | reading => cases hcounted
  | counting id otp => cases hcounted
  | marking id n result =>
      obtain ⟨rfl, rfl⟩ := Prod.mk.inj (Option.some.inj hcounted)
      exact h.1
  | ended counted result =>
      obtain rfl : counted = some (id, n) := hcounted
      exact h.1

/-- A call beyond the limit is refused, now or after the statement that it still has to issue. -/
theorem Sound.refused (lib : AuthLib) (guess : Guess) {attempt : Attempt} (h : attempt.Sound db)
    (hcounted : attempt.counted? = some (id, n)) (hmany : Limits.otpMaxAttempts < n) :
    (∀ result, attempt.result? = some result → result = .error errors.rateLimited) ∧
      (attempt.turn lib guess db).1.result? = some (.error errors.rateLimited) := by
  cases attempt with
  | reading => cases hcounted
  | counting id otp => cases hcounted
  | marking id n result =>
      obtain ⟨rfl, rfl⟩ := Prod.mk.inj (Option.some.inj hcounted)
      refine ⟨fun r hr => ?_, congrArg some (h.2 hmany)⟩
      cases hr
  | ended counted result =>
      obtain rfl : counted = some (id, n) := hcounted
      refine ⟨fun r hr => ?_, congrArg some (h.2 hmany)⟩
      exact (Option.some.inj hr).symm.trans (h.2 hmany)

theorem Sound.uncounted {attempt : Attempt} (h : attempt.Sound db)
    (hcounted : attempt.counted? = none) :
    ∀ result, attempt.result? = some result → result = .error errors.unauthorized := by
  intro result hresult
  cases attempt with
  | ended counted result' =>
      obtain rfl : counted = none := hcounted
      exact (Option.some.inj hresult).symm.trans h
  | _ => cases hresult

theorem counted?_turn_eq_none {attempt : Attempt}
    (h : (attempt.turn lib guess db).1.counted? = none) : attempt.counted? = none := by
  cases attempt with
  | marking id n result => cases h
  | ended counted result => exact h
  | _ => rfl

@[simp] theorem counted?_judge : (judge lib guess id otp n).counted? = some (id, n) := by
  unfold judge
  split_ifs <;> rfl

theorem turn_code (lib : AuthLib) (guess : Guess) (code : String) (db : Db) {attempt : Attempt}
    (h : (attempt.turn lib guess db).1.counted? = none) :
    attempt.turn lib { guess with code := code } db = attempt.turn lib guess db := by
  cases attempt with
  | reading => rfl
  | counting id otp =>
      rw [turn, counted?_judge] at h
      cases h
  | marking id n result => cases h
  | ended counted result => rfl

theorem Sound.turn_counted? (lib : AuthLib) (guess : Guess) {attempt : Attempt}
    (h : attempt.Sound db) :
    (attempt.turn lib guess db).1.counted? = attempt.counted? ∨
      ∃ id otp row, attempt = .counting id otp ∧ db.otpCodes.lookup id = some row ∧
        (attempt.turn lib guess db).1.counted? = some (id, row.attempts + 1) := by
  cases attempt with
  | reading =>
      left
      rw [Attempt.turn]
      split <;> rfl
  | counting id otp =>
      obtain ⟨row, hrow⟩ := Table.mem_iff_exists.1 h
      exact .inr ⟨id, otp, row, rfl, hrow, by rw [turn_counting hrow, counted?_judge]⟩
  | marking id n result => exact .inl rfl
  | ended counted result => exact .inl rfl

/-! A call that is let through. -/

def Succeeded (id : ℕ) (attempt : Attempt) : Prop := ∃ n, attempt = .ended (some (id, n)) (.ok ())

theorem Sound.succeeded {attempt : Attempt} (h : attempt.Sound db)
    (hok : attempt.result? = some (.ok ())) : ∃ id, attempt.Succeeded id := by
  cases attempt with
  | ended counted result =>
      obtain rfl : result = .ok () := Option.some.inj hok
      cases counted with
      | none => cases h
      | some counted => exact ⟨counted.1, counted.2, rfl⟩
  | _ => cases hok

/-- The call has found the code, presents it rightly within the limit, and has yet to mark it. -/
def Passing (lib : AuthLib) (guess : Guess) (db : Db) (id : ℕ) : Attempt → Prop
  | .counting id' otp => id' = id ∧ Right lib guess otp ∧
      ∀ row, db.otpCodes.lookup id = some row → row.attempts < Limits.otpMaxAttempts
  | .marking id' _ (.ok ()) => id' = id
  | _ => False

theorem Passing.of_ages {attempt : Attempt} (h : attempt.Passing lib guess db' id)
    (hages : db.AgesCodes db') : attempt.Passing lib guess db id := by
  cases attempt with
  | counting id' otp =>
      refine ⟨h.1, h.2.1, fun row hrow => ?_⟩
      obtain ⟨row', hrow', hkept⟩ := hages id row hrow
      exact lt_of_le_of_lt hkept.attempts (h.2.2 row' hrow')
  | marking id' n result => cases result <;> exact h
  | _ => exact h

/-- Who is let through after a turn was before it, or has found the code just now. -/
theorem Sound.passing_of_turn {attempt : Attempt} (h : attempt.Sound db)
    (hpassing : (attempt.turn lib guess db).1.Passing lib guess
      (attempt.turn lib guess db).2 id) :
    attempt.Passing lib guess db id ∨
      ∃ otp, db.otpCodes.lookup id = some otp ∧ otp.consumedAt = none := by
  cases attempt with
  | reading =>
      rw [Attempt.turn] at hpassing
      split at hpassing
      · exact absurd hpassing not_false
      · rename_i id' otp hlive
        obtain ⟨hotp, -, hconsumed⟩ := Db.liveOtp_some hlive
        obtain rfl := hpassing.1
        exact .inr ⟨otp, hotp, hconsumed⟩
  | counting id' otp =>
      left
      obtain ⟨row, hrow⟩ := Table.mem_iff_exists.1 h
      rw [turn_counting hrow] at hpassing
      rcases judge_cases lib guess id' otp (row.attempts + 1) with
        ⟨e, heq | heq, -⟩ | ⟨heq, hright, hfew⟩
      · rw [heq] at hpassing
        exact absurd hpassing not_false
      · rw [heq] at hpassing
        exact absurd hpassing not_false
      · rw [heq] at hpassing
        obtain rfl : id' = id := hpassing
        refine ⟨rfl, hright, fun row' hrow' => ?_⟩
        obtain rfl := Option.some.inj (hrow.symm.trans hrow')
        exact hfew
  | marking id' n result => exact absurd hpassing not_false
  | ended counted result => exact absurd hpassing not_false

theorem succeeded_of_turn {attempt : Attempt}
    (h : (attempt.turn lib guess db).1.Succeeded id) :
    attempt.Succeeded id ∨ ∃ n, attempt = .marking id n (.ok ()) := by
  obtain ⟨n, hn⟩ := h
  cases attempt with
  | reading =>
      rw [Attempt.turn] at hn
      split at hn <;> cases hn
  | counting id' otp =>
      rw [Attempt.turn] at hn
      dsimp only at hn
      rcases judge_cases lib guess id' otp ((db.bumpAttempts id').1.getD (otp.attempts + 1)) with
        ⟨e, heq | heq, -⟩ | ⟨heq, -⟩
      · rw [heq] at hn
        cases hn
      · rw [heq] at hn
        cases hn
      · rw [heq] at hn
        cases hn
  | marking id' n' result =>
      cases hn
      exact .inr ⟨n, rfl⟩
  | ended counted result => exact .inl ⟨n, hn⟩

end Attempt

namespace OtpTraffic

variable {ι κ : Type}

theorem commitDb_ages (requests : ι → CodeRequest) (s : OtpTraffic ι κ) (i : ι)
    (update : RowUpdate ℕ) :
    s.db.AgesCodes (s.commitDb requests i update) := by
  intro id otp hotp
  set codes := update.finish s.db.otpCodes (Db.consume (requests i).env) with hcodes
  have hlookup : codes.lookup id =
      some (if id ∈ update.held then Db.consume (requests i).env otp else otp) := by
    rw [hcodes, RowUpdate.finish, Table.lookup_updateWhere, hotp, Option.map_some]
    simp only [decide_eq_true_eq]
  have hne : id ≠ codes.freshKey (requests i).otpId := by
    rintro rfl
    exact codes.freshKey_notMem _ (Table.mem_iff_exists.2 ⟨_, hlookup⟩)
  refine ⟨_, by rw [commitDb, Table.lookup_put, if_neg hne, hlookup], ?_⟩
  split_ifs
  · exact OtpCode.ages_consume _ otp
  · exact .refl otp

variable [Fintype ι] [DecidableEq ι] [DecidableEq κ] {lib : AuthLib} {requests : ι → CodeRequest}
  {guesses : κ → Guess} {s : OtpTraffic ι κ}

/-- A step of a `startOtp` leaves the calls of `consumeOtp` where they are; a turn of one of these
moves it alone. -/
theorem Moves.attempts {act : OtpAct ι κ} {s' : OtpTraffic ι κ}
    (h : Moves lib requests guesses s act s') :
    (s'.attempts = s.attempts ∧ s.db.AgesCodes s'.db) ∨
      ∃ j, act = .turn j ∧ s' =
        { s with
          db := ((s.attempts j).turn lib (guesses j) s.db).2
          attempts := Function.update s.attempts j
            ((s.attempts j).turn lib (guesses j) s.db).1 } := by
  cases h with
  | turns j => exact .inr ⟨j, rfl, rfl⟩
  | commits i update => exact .inl ⟨rfl, commitDb_ages _ _ i update⟩
  | _ => exact .inl ⟨rfl, .refl _⟩

/-- Rules like `Sound` hold of every call in every state. -/
def Sound (s : OtpTraffic ι κ) : Prop := ∀ j, (s.attempts j).Sound s.db

theorem Sound.step (h : s.Sound) (act : OtpAct ι κ) :
    (s.step lib requests guesses act).Sound := by
  rcases (step_moves lib requests guesses s act).attempts with ⟨hsame, hages⟩ | ⟨i, -, hstep⟩
  · rw [Sound, hsame]
    exact fun j => (h j).mono hages
  · rw [hstep]
    refine (Function.forall_update_iff s.attempts fun _ attempt => attempt.Sound _).2 ⟨?_, ?_⟩
    · exact (h i).turn
    · exact fun j _ => (h j).mono (Attempt.turn_ages _ _ _ _)

/-! ## Numbers -/

def Distinct (s : OtpTraffic ι κ) : Prop :=
  ∀ j j' c, (s.attempts j).counted? = some c → (s.attempts j').counted? = some c → j = j'

theorem Distinct.step (h : s.Distinct) (hsound : s.Sound) (act : OtpAct ι κ) :
    (s.step lib requests guesses act).Distinct := by
  rcases (step_moves lib requests guesses s act).attempts with ⟨hsame, -⟩ | ⟨i, -, hstep⟩
  · rw [Distinct, hsame]
    exact h
  rw [hstep]
  -- A number that is new is larger than all that have been given for the code.
  have hnew {j : κ} (hj : j ≠ i) {c : ℕ × ℕ} (hc : (s.attempts j).counted? = some c)
      (hi : ((s.attempts i).turn lib (guesses i) s.db).1.counted? = some c) : j = i := by
    have hcases := Attempt.Sound.turn_counted? lib (guesses i) (hsound i)
    rcases hcases with hold | ⟨id, otp, row, -, hrow, hcounted⟩
    · exact h j i c hc (hold.symm.trans hi)
    · obtain rfl := Option.some.inj (hcounted.symm.trans hi)
      obtain ⟨-, row', hrow', hle⟩ := Attempt.Sound.countedAs (hsound j) hc
      obtain rfl := Option.some.inj (hrow.symm.trans hrow')
      exact absurd hle (Nat.not_succ_le_self _)
  let owns (attempt : Attempt) (c : ℕ × ℕ) : Prop := attempt.counted? = some c
  exact exclusive_update owns h fun c hi j hj hc => hj (hnew hj hc hi)

/-! ## The lockout -/

theorem run_sound_distinct (lib : AuthLib) (requests : ι → CodeRequest) (guesses : κ → Guess)
    (db : Db) (acts : List (OtpAct ι κ)) :
    (runFrom (step lib requests guesses) (init db) acts).Sound ∧
      (runFrom (step lib requests guesses) (init db) acts).Distinct := by
  have hstep (s : OtpTraffic ι κ) (act : OtpAct ι κ) (h : s.Sound ∧ s.Distinct) :
      (s.step lib requests guesses act).Sound ∧ (s.step lib requests guesses act).Distinct :=
    ⟨h.1.step act, h.2.step h.1 act⟩
  have hsound : (init db : OtpTraffic ι κ).Sound := fun _ => trivial
  have hdistinct : (init db : OtpTraffic ι κ).Distinct := fun j j' c hc => by cases hc
  exact Reachable.invariant hstep ⟨hsound, hdistinct⟩ ⟨acts, rfl⟩

/-- As long as the guess of a call is not counted, the run is the same whatever its code is. -/
theorem run_uncounted (lib : AuthLib) (requests : ι → CodeRequest) (guesses : κ → Guess) (db : Db)
    (j : κ) (code : String) (acts : List (OtpAct ι κ))
    (h : ((runFrom (step lib requests guesses) (init db) acts).attempts j).counted? = none) :
    runFrom (step lib requests (Function.update guesses j { guesses j with code := code }))
        (init db) acts = runFrom (step lib requests guesses) (init db) acts := by
  induction acts using List.reverseRecOn with
  | nil => rfl
  | append_singleton acts act ih =>
      rw [runFrom_append] at h
      rw [runFrom_append, runFrom_append]
      set s := runFrom (step lib requests guesses) (init db) acts with hs
      change ((s.step lib requests guesses act).attempts j).counted? = none at h
      have hbefore : (s.attempts j).counted? = none := by
        rcases (step_moves lib requests guesses s act).attempts with ⟨hsame, -⟩ | ⟨i, -, hstep⟩
        · rw [← hsame]
          exact h
        · rw [hstep] at h
          dsimp only at h
          by_cases hji : j = i
          · subst hji
            rw [Function.update_self] at h
            exact Attempt.counted?_turn_eq_none h
          · rwa [Function.update_of_ne hji] at h
      rw [ih hbefore]
      change s.step lib requests (Function.update guesses j _) act = s.step lib requests guesses act
      cases act with
      | turn i =>
          rw [step, step]
          split_ifs with hready
          · by_cases hij : i = j
            · subst hij
              rw [step, if_pos hready] at h
              dsimp only at h
              rw [Function.update_self] at h
              rw [Function.update_self, Attempt.turn_code lib (guesses i) code s.db h]
            · rw [Function.update_of_ne hij]
          · rfl
      | _ => rfl

/-- However the statements interleave, a call whose guess is counted beyond the limit has not
ended otherwise than with the error for too many attempts, and ends so with its next turn; at most
as many guesses at a code as the limit says are counted within it; and a call whose guess is not
counted has at most ended with the error of a missing code, and nothing depends on what it has
guessed. -/
theorem lockout (lib : AuthLib) (requests : ι → CodeRequest) (guesses : κ → Guess) (db : Db)
    (acts : List (OtpAct ι κ)) :
    let s := runFrom (step lib requests guesses) (init db) acts
    (∀ j id n, (s.attempts j).counted? = some (id, n) → Limits.otpMaxAttempts < n →
      (∀ result, (s.attempts j).result? = some result → result = .error errors.rateLimited) ∧
        (s.ready j → ((s.step lib requests guesses (.turn j)).attempts j).result? =
          some (.error errors.rateLimited))) ∧
      (∀ id, Set.encard {j | ∃ n, (s.attempts j).counted? = some (id, n) ∧
        n ≤ Limits.otpMaxAttempts} ≤ Limits.otpMaxAttempts) ∧
      ∀ j, (s.attempts j).counted? = none →
        (∀ result, (s.attempts j).result? = some result → result = .error errors.unauthorized) ∧
          ∀ code, runFrom (step lib requests
            (Function.update guesses j { guesses j with code := code })) (init db) acts = s := by
  intro s
  obtain ⟨hsound, hdistinct⟩ := run_sound_distinct lib requests guesses db acts
  refine ⟨fun j id n hcounted hmany => ?_, fun id => ?_, fun j hnone => ?_⟩
  · obtain ⟨hresult, hends⟩ := Attempt.Sound.refused lib (guesses j) (hsound j) hcounted hmany
    refine ⟨hresult, fun hready => ?_⟩
    rw [step, if_pos hready]
    dsimp only
    rw [Function.update_self]
    exact hends
  · -- The calls are told apart by their numbers, which lie from one to the limit.
    let numberOf (j : κ) : ℕ := ((s.attempts j).counted?.map Prod.snd).getD 0
    have hnumber {j : κ} {n : ℕ} (h : (s.attempts j).counted? = some (id, n)) : numberOf j = n := by
      simp only [numberOf, h, Option.map_some, Option.getD_some]
    have hrange : Set.MapsTo numberOf
        {j | ∃ n, (s.attempts j).counted? = some (id, n) ∧ n ≤ Limits.otpMaxAttempts}
        (Finset.Icc 1 Limits.otpMaxAttempts) := by
      rintro j ⟨n, hcounted, hn⟩
      rw [hnumber hcounted, Finset.coe_Icc]
      exact ⟨(Attempt.Sound.countedAs (hsound j) hcounted).1, hn⟩
    have hapart : Set.InjOn numberOf
        {j | ∃ n, (s.attempts j).counted? = some (id, n) ∧ n ≤ Limits.otpMaxAttempts} := by
      rintro j ⟨n, hcounted, -⟩ j' ⟨n', hcounted', -⟩ heq
      rw [hnumber hcounted, hnumber hcounted'] at heq
      subst heq
      exact hdistinct j j' _ hcounted hcounted'
    refine (Set.encard_le_encard_of_injOn hrange hapart).trans ?_
    rw [Set.encard_coe_eq_coe_finsetCard, Nat.card_Icc, Nat.add_sub_cancel]
  · exact ⟨Attempt.Sound.uncounted (hsound j) hnone,
      fun code => run_uncounted lib requests guesses db j code acts hnone⟩

/-! ## Single use -/

/-- Whoever marks a code for a right guess is the only one about to. -/
def MarksAlone (lib : AuthLib) (guesses : κ → Guess) (s : OtpTraffic ι κ) (act : OtpAct ι κ) :
    Prop :=
  match act with
  | .turn j => ∀ id n, s.attempts j = .marking id n (.ok ()) →
      ∀ j', j' ≠ j → ¬(s.attempts j').Passing lib (guesses j') s.db id
  | _ => True

/-- A code with which a call has succeeded is consumed, and no other call has or will have. -/
def SingleUse (lib : AuthLib) (guesses : κ → Guess) (s : OtpTraffic ι κ) : Prop :=
  ∀ j id, (s.attempts j).Succeeded id →
    (∃ otp, s.db.otpCodes.lookup id = some otp ∧ otp.consumedAt.isSome) ∧
      ∀ j', j' ≠ j → ¬(s.attempts j').Succeeded id ∧
        ¬(s.attempts j').Passing lib (guesses j') s.db id

theorem SingleUse.step (h : s.SingleUse lib guesses) (hsound : s.Sound) {act : OtpAct ι κ}
    (halone : s.MarksAlone lib guesses act) :
    (s.step lib requests guesses act).SingleUse lib guesses := by
  rcases (step_moves lib requests guesses s act).attempts with ⟨hsame, hages⟩ | ⟨i, rfl, hstep⟩
  · intro j id hj
    rw [hsame] at hj ⊢
    obtain ⟨⟨otp, hotp, hconsumed⟩, hothers⟩ := h j id hj
    obtain ⟨otp', hotp', hkept⟩ := hages id otp hotp
    exact ⟨⟨otp', hotp', hkept.consumed hconsumed⟩,
      fun j' hj' => ⟨(hothers j' hj').1, fun hp => (hothers j' hj').2 (hp.of_ages hages)⟩⟩
  have hages := Attempt.turn_ages lib (guesses i) s.db (s.attempts i)
  rw [hstep]
  intro j id hj
  dsimp only at hj ⊢
  by_cases hji : j = i
  · subst hji
    rw [Function.update_self] at hj
    have hbefore : (∃ otp, ((s.attempts j).turn lib (guesses j) s.db).2.otpCodes.lookup id =
          some otp ∧ otp.consumedAt.isSome) ∧
        ∀ j', j' ≠ j → ¬(s.attempts j').Succeeded id ∧
          ¬(s.attempts j').Passing lib (guesses j') s.db id := by
      rcases Attempt.succeeded_of_turn hj with hold | ⟨n, hmarking⟩
      · obtain ⟨⟨otp, hotp, hconsumed⟩, hothers⟩ := h j id hold
        obtain ⟨otp', hotp', hkept⟩ := hages id otp hotp
        exact ⟨⟨otp', hotp', hkept.consumed hconsumed⟩, hothers⟩
      · have hpassing : (s.attempts j).Passing lib (guesses j) s.db id := by
          rw [hmarking]
          rfl
        have hrow := hsound j
        rw [hmarking] at hrow ⊢
        obtain ⟨⟨-, otp, hotp, -⟩, -⟩ := hrow
        refine ⟨⟨Db.consume (guesses j).env.toEnv otp, ?_, rfl⟩, fun j' hj' => ⟨?_, ?_⟩⟩
        · rw [Attempt.turn, Db.markConsumed, Table.lookup_modify_self, hotp, Option.map_some]
        · exact fun hsucceeded => ((h j' id hsucceeded).2 j (Ne.symm hj')).2 hpassing
        · exact halone id n hmarking j' hj'
    refine ⟨hbefore.1, fun j' hj' => ?_⟩
    rw [Function.update_of_ne hj']
    exact ⟨(hbefore.2 j' hj').1, fun hp => (hbefore.2 j' hj').2 (hp.of_ages hages)⟩
  · rw [Function.update_of_ne hji] at hj
    obtain ⟨⟨otp, hotp, hconsumed⟩, hothers⟩ := h j id hj
    obtain ⟨otp', hotp', hkept⟩ := hages id otp hotp
    refine ⟨⟨otp', hotp', hkept.consumed hconsumed⟩, fun j' hj' => ?_⟩
    by_cases hji' : j' = i
    · subst hji'
      rw [Function.update_self]
      refine ⟨fun hsucceeded => ?_, fun hpassing => ?_⟩
      · rcases Attempt.succeeded_of_turn hsucceeded with hold | ⟨n, hmarking⟩
        · exact (hothers j' hj').1 hold
        · exact (hothers j' hj').2 (by rw [hmarking]; rfl)
      · rcases Attempt.Sound.passing_of_turn (hsound j') hpassing with hold | ⟨row, hrow, hnone⟩
        · exact (hothers j' hj').2 hold
        · obtain rfl := Option.some.inj (hotp.symm.trans hrow)
          rw [hnone] at hconsumed
          cases hconsumed
    · rw [Function.update_of_ne hji']
      exact ⟨(hothers j' hj').1, fun hp => (hothers j' hj').2 (hp.of_ages hages)⟩

/-- In every run in which each call that marks a code for a right guess is the only one about to,
at most one call succeeds with a code; and no call ends well without one. -/
theorem succeeds_once (db : Db) {acts : List (OtpAct ι κ)}
    (hrun : Along (step lib requests guesses) (MarksAlone lib guesses) (init db) acts) :
    let s := runFrom (step lib requests guesses) (init db) acts
    (∀ j j' id, (s.attempts j).Succeeded id → (s.attempts j').Succeeded id → j = j') ∧
      ∀ j, (s.attempts j).result? = some (.ok ()) → ∃ id, (s.attempts j).Succeeded id := by
  have hsound : (init db : OtpTraffic ι κ).Sound := fun _ => trivial
  have hunused : (init db : OtpTraffic ι κ).SingleUse lib guesses := by
    rintro j id ⟨n, hn⟩
    cases hn
  have hstep (s : OtpTraffic ι κ) (act : OtpAct ι κ) (h : s.Sound ∧ s.SingleUse lib guesses)
      (halone : s.MarksAlone lib guesses act) :
      (s.step lib requests guesses act).Sound ∧
        (s.step lib requests guesses act).SingleUse lib guesses :=
    ⟨h.1.step act, h.2.step h.1 halone⟩
  obtain ⟨hsound, honce⟩ := Along.invariant hstep ⟨hsound, hunused⟩ hrun
  refine ⟨fun j j' id hj hj' => ?_, fun j hok => (hsound j).succeeded hok⟩
  by_contra hne
  exact ((honce j id hj).2 j' (Ne.symm hne)).1 hj'

/-! ## Non-vacuity -/

instance (id : ℕ) (attempt : Attempt) : Decidable (attempt.Succeeded id) :=
  match attempt with
  | .ended (some (id', n)) (.ok ()) =>
      decidable_of_iff (id' = id) (by simp [Attempt.Succeeded])
  | .ended (some _) (.error _) => .isFalse (by simp [Attempt.Succeeded])
  | .ended none _ => .isFalse (by simp [Attempt.Succeeded])
  | .reading => .isFalse (by simp [Attempt.Succeeded])
  | .counting _ _ => .isFalse (by simp [Attempt.Succeeded])
  | .marking _ _ _ => .isFalse (by simp [Attempt.Succeeded])

instance (guess : Guess) (db : Db) (id : ℕ) (attempt : Attempt) :
    Decidable (attempt.Passing lib guess db id) :=
  match attempt with
  | .counting id' otp =>
      decidable_of_iff (id' = id ∧ Attempt.Right lib guess otp ∧
        (db.otpCodes.lookup id).all fun row => row.attempts < Limits.otpMaxAttempts)
        (by simp [Attempt.Passing, Option.all_eq_true])
  | .marking id' _ (.ok ()) => inferInstanceAs (Decidable (id' = id))
  | .marking _ _ (.error _) => inferInstanceAs (Decidable False)
  | .reading => inferInstanceAs (Decidable False)
  | .ended _ _ => inferInstanceAs (Decidable False)

instance [Fintype κ] (s : OtpTraffic ι κ) (act : OtpAct ι κ) :
    Decidable (s.MarksAlone lib guesses act) :=
  match act with
  | .turn j =>
      match h : s.attempts j with
      | .marking id n (.ok ()) =>
          decidable_of_iff (∀ j', j' ≠ j → ¬(s.attempts j').Passing lib (guesses j') s.db id)
            (by simp [MarksAlone, h])
      | .marking _ _ (.error _) => .isTrue (by simp [MarksAlone, h])
      | .reading => .isTrue (by simp [MarksAlone, h])
      | .counting _ _ => .isTrue (by simp [MarksAlone, h])
      | .ended _ _ => .isTrue (by simp [MarksAlone, h])
  | .begin _ | .take _ _ | .insert _ | .commit _ | .rollback _ => .isTrue trivial

def oneCode : Db :=
  let otp : OtpCode := { emailHmac := some "a", codeHash := "a1", expiresAt := 100 }
  { Db.empty with otpCodes := (∅ : Table ℕ OtpCode).put 7 otp }

/-- The code that everybody has been told. -/
def rightGuess : Guess :=
  { env :=
      { SmallEvent.clock 5 with
        draws := { pseudonym := (0, 1), tokenHash := "t", token := "t", otpCode := "" } }
    emailHmac := "a"
    code := "1" }

def oneByOne : List (OtpAct Empty Bool) :=
  [.turn false, .turn false, .turn false, .turn true, .turn true]

theorem succeeds_once_oneByOne :
    ((runFrom (step Auth.plainLib Empty.elim fun _ => rightGuess) (init oneCode)
        oneByOne).attempts false).Succeeded 7 ∧
      ¬((runFrom (step Auth.plainLib Empty.elim fun _ => rightGuess) (init oneCode)
        oneByOne).attempts true).Succeeded 7 := by
  have hfirst : ((runFrom (step Auth.plainLib Empty.elim fun _ => rightGuess) (init oneCode)
      oneByOne).attempts false).Succeeded 7 := by
    decide +kernel
  refine ⟨hfirst, fun hsecond => ?_⟩
  have hrun : Along (step Auth.plainLib Empty.elim fun _ => rightGuess)
      (MarksAlone Auth.plainLib fun _ => rightGuess) (init oneCode) oneByOne := by
    decide +kernel
  exact absurd ((succeeds_once oneCode hrun).1 false true 7 hfirst hsecond) (by decide)

def inTurns : List (OtpAct Empty Bool) :=
  [.turn false, .turn true, .turn false, .turn true, .turn false, .turn true]

theorem succeeds_twice :
    ((runFrom (step Auth.plainLib Empty.elim fun _ => rightGuess) (init oneCode)
        inTurns).attempts false).Succeeded 7 ∧
      ((runFrom (step Auth.plainLib Empty.elim fun _ => rightGuess) (init oneCode)
        inTurns).attempts true).Succeeded 7 := by
  decide +kernel

end OtpTraffic
end Sahay
