import Sahay.Guarantees.OneTimeCodes

/-!
# Live codes of one address

The transaction of `startOtp` consumes the codes that its `UPDATE` finds.  A code that another
transaction inserts meanwhile is not among them: when both have committed, both codes are live.
-/

namespace Sahay

/-- The code is one of the address that is neither consumed nor expired at `t`. -/
def OtpCode.IsLive (emailHmac : String) (t : Time) (otp : OtpCode) : Prop :=
  otp.emailHmac = some emailHmac ∧ otp.consumedAt = none ∧ t < otp.expiresAt

namespace Db

variable {db db' : Db} {emailHmac : String} {t : Time}

def LiveCode (db : Db) (emailHmac : String) (t : Time) (id : ℕ) : Prop :=
  ∃ otp, db.otpCodes.lookup id = some otp ∧ otp.IsLive emailHmac t

def AtMostOneLive (db : Db) (emailHmac : String) (t : Time) : Prop :=
  ∀ id id', db.LiveCode emailHmac t id → db.LiveCode emailHmac t id' → id = id'

theorem LiveCode.of_ages {id : ℕ} (h : db'.LiveCode emailHmac t id) (hages : db.AgesCodes db')
    (hid : id ∈ db.otpCodes) : db.LiveCode emailHmac t id := by
  obtain ⟨otp', hotp', hemail, hconsumed, hexpires⟩ := h
  obtain ⟨otp, hotp⟩ := Table.mem_iff_exists.1 hid
  obtain ⟨otp'', hotp'', hkept⟩ := hages id otp hotp
  obtain rfl := Option.some.inj (hotp'.symm.trans hotp'')
  exact ⟨otp, hotp, hkept.emailHmac.symm.trans hemail, hkept.notConsumed hconsumed,
    hkept.expiresAt ▸ hexpires⟩

theorem AtMostOneLive.of_ages (h : db.AtMostOneLive emailHmac t) (hages : db.AgesCodes db')
    (hkeys : ∀ id, db'.LiveCode emailHmac t id → id ∈ db.otpCodes) :
    db'.AtMostOneLive emailHmac t :=
  fun id id' hid hid' =>
    h id id' (hid.of_ages hages (hkeys id hid)) (hid'.of_ages hages (hkeys id' hid'))

end Db

/-- A `consumeOtp` inserts no code. -/
theorem Attempt.mem_of_turn {lib : AuthLib} {guess : Guess} {db : Db} {attempt : Attempt} {id : ℕ}
    (h : id ∈ (attempt.turn lib guess db).2.otpCodes) : id ∈ db.otpCodes := by
  cases attempt with
  | reading =>
      rw [turn] at h
      split at h <;> exact h
  | counting id' otp => exact Table.mem_modify.1 h
  | marking id' n result => exact Table.mem_modify.1 h
  | ended counted result => exact h

namespace OtpTraffic

variable {ι κ : Type} {lib : AuthLib}
  {requests : ι → CodeRequest} {guesses : κ → Guess} {s : OtpTraffic ι κ} {emailHmac : String}
  {t : Time}

/-- When a `startOtp` of the address commits, each live code has been there when its `UPDATE`
began. -/
def SeesAll (requests : ι → CodeRequest) (emailHmac : String) (t : Time) (s : OtpTraffic ι κ)
    (act : OtpAct ι κ) : Prop :=
  match act with
  | .commit i => ∀ update, s.issues i = .inserted update → (requests i).emailHmac = emailHmac →
      ∀ id, s.db.LiveCode emailHmac t id → id ∈ update.found
  | _ => True

/-- Each open transaction accounts for the codes that its `UPDATE` has found, and has gone through
all of them before its insert. -/
structure Accounts (requests : ι → CodeRequest) (s : OtpTraffic ι κ) : Prop where
  covers : ∀ i update, (s.issues i).update? = some update →
    update.Covers s.db.otpCodes (requests i).replaces
  all : ∀ i update, s.issues i = .inserted update → update.todo = []

/-- Once a `startOtp` of the address has committed. -/
def Invalidated (requests : ι → CodeRequest) (emailHmac : String) (t : Time)
    (s : OtpTraffic ι κ) : Prop :=
  (∃ i, (requests i).emailHmac = emailHmac ∧ s.issues i = .committed) →
    s.db.AtMostOneLive emailHmac t

/-! ## One step -/

theorem covers_of_ages {db db' : Db} {request : CodeRequest} {update : RowUpdate ℕ}
    (h : update.Covers db.otpCodes request.replaces) (hages : db.AgesCodes db') :
    update.Covers db'.otpCodes request.replaces := by
  apply h.mono
  intro id hid
  obtain ⟨otp, hotp⟩ := Table.mem_iff_exists.1 hid
  obtain ⟨otp', hotp', hkept⟩ := hages id otp hotp
  refine ⟨Table.mem_iff_exists.2 ⟨otp', hotp'⟩, fun hreplaces => ?_⟩
  rw [hotp', Option.any_some] at hreplaces
  rw [hotp, Option.any_some]
  simp only [CodeRequest.replaces, Bool.and_eq_true, decide_eq_true_eq,
    Option.isNone_iff_eq_none] at hreplaces ⊢
  exact ⟨hkept.emailHmac.symm.trans hreplaces.1, hkept.notConsumed hreplaces.2⟩

theorem Accounts.of_ages (h : s.Accounts requests) {db : Db} (hages : s.db.AgesCodes db)
    (attempts : κ → Attempt) : ({ s with db, attempts } : OtpTraffic ι κ).Accounts requests where
  covers i update hupdate := covers_of_ages (h.covers i update hupdate) hages
  all := h.all

/-- The codes after a commit are those from before and the new one. -/
theorem mem_or_issued {i : ι} {update : RowUpdate ℕ} {id : ℕ} {otp : OtpCode}
    (h : (s.commitDb requests i update).otpCodes.lookup id = some otp) :
    (id = (update.finish s.db.otpCodes (Db.consume (requests i).env)).freshKey (requests i).otpId ∧
        otp = (requests i).issued) ∨
      id ∈ s.db.otpCodes ∧
        (update.finish s.db.otpCodes (Db.consume (requests i).env)).lookup id = some otp := by
  rw [commitDb, Table.lookup_put] at h
  split_ifs at h with hid
  · exact .inl ⟨hid, (Option.some.inj h).symm⟩
  · exact .inr ⟨Table.mem_updateWhere.1 (Table.mem_iff_exists.2 ⟨otp, h⟩), h⟩

section Issues

variable [DecidableEq ι]

theorem Accounts.setIssue (h : s.Accounts requests) (i : ι) {issue : Issue}
    (hcovers : ∀ update, issue.update? = some update →
      update.Covers s.db.otpCodes (requests i).replaces)
    (hall : ∀ update, issue = .inserted update → update.todo = []) :
    (s.setIssue i issue).Accounts requests where
  covers := (Function.forall_update_iff s.issues fun i issue => ∀ update,
      issue.update? = some update → update.Covers s.db.otpCodes (requests i).replaces).2
    ⟨hcovers, fun i' _ => h.covers i'⟩
  all := (Function.forall_update_iff s.issues fun _ issue => ∀ update,
      issue = .inserted update → update.todo = []).2
    ⟨hall, fun i' _ => h.all i'⟩

theorem Invalidated.setIssue (h : s.Invalidated requests emailHmac t) (i : ι) {issue : Issue}
    (hissue : issue ≠ .committed) : (s.setIssue i issue).Invalidated requests emailHmac t := by
  rintro ⟨i', haddress, hcommitted⟩
  refine h ⟨i', haddress, ?_⟩
  by_cases hi : i' = i
  · subst hi
    rw [setIssue_issues_self] at hcommitted
    exact absurd hcommitted hissue
  · rwa [setIssue_issues_of_ne s hi] at hcommitted

theorem Invalidated.commit (h : s.Invalidated requests emailHmac t)
    (haccounts : s.Accounts requests) {i : ι} {update : RowUpdate ℕ}
    (hinserted : s.issues i = .inserted update)
    (hsees : (requests i).emailHmac = emailHmac →
      ∀ id, s.db.LiveCode emailHmac t id → id ∈ update.found) :
    ({ s.setIssue i .committed with db := s.commitDb requests i update } :
      OtpTraffic ι κ).Invalidated requests emailHmac t := by
  have hages := commitDb_ages requests s i update
  rintro ⟨i', haddress', hcommitted⟩
  by_cases haddress : (requests i).emailHmac = emailHmac
  · -- The codes that were live have all been found, and so been consumed.
    have hnew {id : ℕ} (hlive : (s.commitDb requests i update).LiveCode emailHmac t id) :
        id = (update.finish s.db.otpCodes (Db.consume (requests i).env)).freshKey
          (requests i).otpId := by
      obtain ⟨otp, hotp, hisLive⟩ := hlive
      rcases mem_or_issued hotp with ⟨hid, -⟩ | ⟨hmem, hlookup⟩
      · exact hid
      · have hfound := hsees haddress id (Db.LiveCode.of_ages ⟨otp, hotp, hisLive⟩ hages hmem)
        have hcovers := haccounts.covers i update (by rw [hinserted]; rfl)
        have hnot := hcovers.finish (haccounts.all i update hinserted)
          (f := Db.consume (requests i).env) (fun r => by simp [CodeRequest.replaces, Db.consume])
          hfound
        rw [hlookup, Option.any_some] at hnot
        simp [CodeRequest.replaces, haddress, hisLive.1, hisLive.2.1] at hnot
    exact fun id id' hid hid' => (hnew hid).trans (hnew hid').symm
  · -- The new code is one of another address.
    have hi : i' ≠ i := by
      rintro rfl
      exact haddress haddress'
    have hbefore : s.issues i' = .committed := by
      rwa [← setIssue_issues_of_ne s hi]
    refine (h ⟨i', haddress', hbefore⟩).of_ages hages fun id hlive => ?_
    obtain ⟨otp, hotp, hisLive⟩ := hlive
    rcases mem_or_issued hotp with ⟨-, rfl⟩ | ⟨hmem, -⟩
    · exact absurd (Option.some.inj hisLive.1) haddress
    · exact hmem

end Issues

variable [Fintype ι] [DecidableEq ι] [DecidableEq κ]

theorem Accounts.step (h : s.Accounts requests) (act : OtpAct ι κ) :
    (s.step lib requests guesses act).Accounts requests := by
  have hmoves := step_moves lib requests guesses s act
  generalize s.step lib requests guesses act = s' at hmoves
  cases hmoves with
  | stays => exact h
  | begins i hwaiting =>
      refine h.setIssue i (fun update hupdate => ?_) (fun update hinserted => ?_)
      · obtain rfl := Option.some.inj hupdate
        exact RowUpdate.covers_start
      · cases hinserted
  | takes i id update hupdating hfree =>
      refine h.setIssue i (fun update' hupdate => ?_) (fun update' hinserted => ?_)
      · obtain rfl := Option.some.inj hupdate
        exact (h.covers i update (by rw [hupdating]; rfl)).take id
      · cases hinserted
  | inserts i update hupdating htodo =>
      refine h.setIssue i (fun update' hupdate => ?_) (fun update' hinserted => ?_)
      · obtain rfl := Option.some.inj hupdate
        exact h.covers i update (by rw [hupdating]; rfl)
      · cases hinserted
        exact htodo
  | commits i update hinserted =>
      refine (h.setIssue i ?_ ?_).of_ages (commitDb_ages _ _ i update) s.attempts
      · exact fun _ hnone => by cases hnone
      · exact fun _ hnone => by cases hnone
  | rollsBack i =>
      refine h.setIssue i ?_ ?_
      · exact fun _ hnone => by cases hnone
      · exact fun _ hnone => by cases hnone
  | turns j => exact h.of_ages (Attempt.turn_ages _ _ _ _) _

theorem Invalidated.step (h : s.Invalidated requests emailHmac t) (haccounts : s.Accounts requests)
    {act : OtpAct ι κ} (hsees : s.SeesAll requests emailHmac t act) :
    (s.step lib requests guesses act).Invalidated requests emailHmac t := by
  have hmoves := step_moves lib requests guesses s act
  generalize s.step lib requests guesses act = s' at hmoves
  cases hmoves with
  | stays => exact h
  | begins i => exact h.setIssue i (by simp)
  | takes i id => exact h.setIssue i (by simp)
  | inserts i => exact h.setIssue i (by simp)
  | rollsBack i => exact h.setIssue i (by simp)
  | turns j =>
      intro hcommitted
      refine (h hcommitted).of_ages (Attempt.turn_ages _ _ _ _) fun id hlive => ?_
      obtain ⟨otp, hotp, -⟩ := hlive
      exact Attempt.mem_of_turn (Table.mem_iff_exists.2 ⟨otp, hotp⟩)
  | commits i update hinserted =>
      exact h.commit haccounts hinserted (hsees update hinserted)

/-- In every run in which each live code has been there when the `UPDATE` of a `startOtp` that
commits began, at most one code of the address is live once such a call has committed. -/
theorem one_live_code (db : Db) {acts : List (OtpAct ι κ)}
    (hrun : Along (step lib requests guesses) (SeesAll requests emailHmac t) (init db) acts)
    (hcommitted : ∃ i, (requests i).emailHmac = emailHmac ∧
      (runFrom (step lib requests guesses) (init db) acts).issues i = .committed) :
    (runFrom (step lib requests guesses) (init db) acts).db.AtMostOneLive emailHmac t := by
  have haccounts : (init db : OtpTraffic ι κ).Accounts requests :=
    { covers := fun i update hopen => by cases hopen
      all := fun i update hopen => by cases hopen }
  have hnone : (init db : OtpTraffic ι κ).Invalidated requests emailHmac t := by
    rintro ⟨i, -, hcommitted⟩
    cases hcommitted
  have hstep (s : OtpTraffic ι κ) (act : OtpAct ι κ)
      (h : s.Accounts requests ∧ s.Invalidated requests emailHmac t)
      (hsees : s.SeesAll requests emailHmac t act) :
      (s.step lib requests guesses act).Accounts requests ∧
        (s.step lib requests guesses act).Invalidated requests emailHmac t :=
    ⟨h.1.step act, h.2.step h.1 hsees⟩
  exact (Along.invariant hstep ⟨haccounts, hnone⟩ hrun).2 hcommitted

/-! ## Non-vacuity -/

instance (db : Db) (emailHmac : String) (t : Time) (id : ℕ) :
    Decidable (db.LiveCode emailHmac t id) :=
  decidable_of_iff ((db.otpCodes.lookup id).any fun otp =>
    otp.emailHmac = some emailHmac ∧ otp.consumedAt = none ∧ t < otp.expiresAt)
    (by simp [Db.LiveCode, OtpCode.IsLive, Option.any_eq_true])

instance (s : OtpTraffic ι κ) (act : OtpAct ι κ) :
    Decidable (s.SeesAll requests emailHmac t act) :=
  match act with
  | .commit i =>
      match h : s.issues i with
      | .inserted update =>
          have := s.db.otpCodes.decidableForall fun id _ =>
            s.db.LiveCode emailHmac t id → id ∈ update.found
          decidable_of_iff ((requests i).emailHmac = emailHmac →
            ∀ id otp, s.db.otpCodes.lookup id = some otp → s.db.LiveCode emailHmac t id →
              id ∈ update.found) (by
              simp only [SeesAll, h, Issue.inserted.injEq, forall_eq']
              refine imp_congr_right fun _ => forall_congr' fun id => ?_
              constructor
              · rintro hall ⟨otp, hotp, hlive⟩
                exact hall otp hotp ⟨otp, hotp, hlive⟩
              · exact fun hall _ _ => hall)
      | .updating _ => .isTrue (by simp [SeesAll, h])
      | .waiting => .isTrue (by simp [SeesAll, h])
      | .committed => .isTrue (by simp [SeesAll, h])
      | .rolledBack => .isTrue (by simp [SeesAll, h])
  | .begin _ | .take _ _ | .insert _ | .turn _ | .rollback _ => .isTrue trivial

def twoRequests (second : Bool) : CodeRequest :=
  { env := SmallEvent.clock 5
    emailHmac := "a"
    codeHash := "a1"
    otpId := if second then 2 else 1 }

def oneAfterTheOther : List (OtpAct Bool Unit) :=
  [.begin false, .insert false, .commit false, .begin true, .turn (), .take true 1, .insert true,
   .commit true, .turn ()]

theorem one_live_code_oneAfterTheOther :
    (runFrom (step Auth.plainLib twoRequests fun _ => rightGuess) (init Db.empty)
      oneAfterTheOther).db.AtMostOneLive "a" 6 :=
  one_live_code Db.empty (by decide +kernel) ⟨true, rfl, rfl⟩

def bothAtOnce : List (OtpAct Bool Unit) :=
  [.begin false, .begin true, .insert false, .insert true, .commit false, .commit true]

theorem two_live_codes :
    let s := runFrom (step Auth.plainLib twoRequests fun _ => rightGuess) (init Db.empty) bothAtOnce
    s.issues false = .committed ∧ s.issues true = .committed ∧ ¬s.db.AtMostOneLive "a" 6 := by
  refine ⟨rfl, rfl, fun hone => ?_⟩
  exact absurd (hone 1 2 (by decide +kernel) (by decide +kernel)) (by decide)

end OtpTraffic
end Sahay
