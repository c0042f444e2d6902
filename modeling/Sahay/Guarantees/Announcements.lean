import Sahay.Guarantees.Expiry
import Sahay.Server.Notify

/-!
# The notice of a failed search

The pass that closes an expired request enqueues one job, under a key that names the request but
not the occasion.  As long as the notice of an earlier failure is stored, that of the next one is
taken for its repetition.
-/

namespace Sahay

namespace Db

variable {db db' : Db} {env : Env} {rid : RequestId} {r : Request} {effects : List Effect}
  {choices : PassChoices} {job : NotifyJob}

/-! ## The pass -/

theorem statusOf_moved {source target : RequestStatus} {r' : Request} {actor : TransitionActor}
    {reason : Option String} {now : Time} (hr : db.requests.lookup rid = some r) :
    statusOf (db.moved rid source r' target actor reason now).requests rid = some r'.status := by
  have hlookup : (db.moved rid source r' target actor reason now).requests.lookup rid = some r' :=
    (Table.lookup_replace hr _ _).trans (if_pos rfl)
  rw [statusOf, hlookup]
  rfl

theorem search_status {request : Request} {event : Event}
    (h : db.search env rid request event choices = .ok (effects, db'))
    (hr : db.requests.lookup rid = some r) :
    statusOf db'.requests rid = some .offering ∨ statusOf db'.requests rid = some r.status := by
  rw [search] at h
  cases hwinner : db.winner env rid request event choices with
  | some w =>
    rw [hwinner] at h
    obtain ⟨-, r', hr', -, -, rfl⟩ := createOffer_ok.1 h
    obtain rfl := Option.some.inj (hr.symm.trans hr')
    exact .inl (statusOf_moved hr)
  | none =>
    rw [hwinner] at h
    rcases widenOrRetry_ok.1 h with ⟨-, r', hr', -, -, rfl⟩ | ⟨-, -, rfl⟩
    · obtain rfl := Option.some.inj (hr.symm.trans hr')
      right
      have hlookup : (db.requests.replace rid (widenedRow request event r)).lookup rid =
          some (widenedRow request event r) :=
        (Table.lookup_replace hr _ _).trans (if_pos rfl)
      rw [statusOf, hlookup]
      rfl
    · right
      rw [statusOf, hr]
      rfl

/-- The search has failed: the step has closed the open request as expired or unmatched. -/
def Fails (db db' : Db) (rid : RequestId) (r : Request) : Prop :=
  db.requests.lookup rid = some r ∧
    ∃ target, (target = .expired ∨ target = .noMatch) ∧ r.status ≠ target ∧
      statusOf db'.requests rid = some target

/-- Only the end of a search closes the request, and it enqueues one notice. -/
theorem runMatchPass_fails (h : db.runMatchPass env rid choices = .ok (effects, db'))
    (hfails : db.Fails db' rid r) : effects =
      [.notify r.requesterId "no_helper_found" "notifications.no_helper_found" "request.noMatch"
        (some ("nomatch:" ++ toString rid))] := by
  obtain ⟨hr, target, htarget, hmoved, hstatus⟩ := hfails
  have hsame (hdb : db'.requests = db.requests) : False := by
    rw [hdb, statusOf, hr] at hstatus
    exact hmoved (Option.some.inj hstatus)
  have hsearched {db₁ : Db} {r₁ request : Request} {event : Event}
      (hsearch : db₁.search env rid request event choices = .ok (effects, db'))
      (hr₁ : db₁.requests.lookup rid = some r₁) (hopen : r₁.status.isOpen = true) : False := by
    have hlive : target.isOpen = true := by
      rcases search_status hsearch hr₁ with hoffering | hkept
      · obtain rfl := Option.some.inj (hstatus.symm.trans hoffering)
        rfl
      · obtain rfl := Option.some.inj (hstatus.symm.trans hkept)
        exact hopen
    rcases htarget with rfl | rfl <;> cases hlive
  cases runMatchPass_cases h with
  | idle _ => exact (hsame rfl).elim
  | expires hr' hopen hexpired hexpire =>
    obtain rfl := Option.some.inj (hr.symm.trans hr')
    simp only [expireRequest, bind_ok, pure_ok, Prod.mk.injEq] at hexpire
    obtain ⟨_, -, rfl, -⟩ := hexpire
    rfl
  | defers _ _ _ _ => exact (hsame rfl).elim
  | resumes hr' hopen _ _ _ _ hresume =>
    obtain rfl := Option.some.inj (hr.symm.trans hr')
    cases resumeSearch_cases hresume with
    | waits _ _ => exact (hsame rfl).elim
    | sweeps _ _ hsweep hsearch =>
      rw [sweepOverdueOffer] at hsweep
      obtain ⟨-, r₁, hr₁, -, rfl⟩ := transitionRequest_ok.1 hsweep
      have hswept := (Table.lookup_replace hr₁ { r₁ with status := .searching } rid).trans
        (if_pos rfl)
      exact (hsearched hsearch hswept rfl).elim
    | searches _ hsearch => exact (hsearched hsearch hr hopen).elim

/-! ## The delivery -/

theorem deliverNotification_muted {uuid : ℕ} (h : db.muted job = true) :
    db.deliverNotification env job uuid = (none, db) := by
  rw [deliverNotification, if_pos h]

theorem deliverNotification_repeats {uuid : ℕ}
    (h : (db.findNotification job.userId job.dedupeKey).isSome = true) :
    db.deliverNotification env job uuid = (none, db) := by
  rw [deliverNotification, if_pos h, ite_self]

theorem deliverNotification_row {uuid : ℕ} (hmuted : db.muted job = false)
    (hnew : (db.findNotification job.userId job.dedupeKey).isSome = false) :
    (db.deliverNotification env job uuid).1 = some (job.toNotification env.now) := by
  rw [deliverNotification, if_neg (Bool.eq_false_iff.1 hmuted), if_neg (Bool.eq_false_iff.1 hnew)]

end Db

/-! ## The queue -/

/-- The job has not run yet, or it has run and has inserted its notification once. -/
def QueuedJob.InsertedOnce (q : QueuedJob) : Prop :=
  q.runs = 0 ∧ q.rows = [] ∨ 0 < q.runs ∧ ∃ now, q.rows = [q.job.toNotification now]

namespace NotifyQueue

variable {lib : TextLib} {s : NotifyQueue} {env : Env} {n uuid : ℕ} {q : QueuedJob}

/-- A job of an expired search that runs for a user to be notified finds a notification of the
user under its key if and only if it has run before. -/
def FindsItsOwn (s : NotifyQueue) (i : Env × NotifyAct) : Prop :=
  match i.2 with
  | .deliver n _ => ∀ q ∈ s.jobs[n]?, s.backend.toDb.muted q.job = false →
      ((s.backend.toDb.findNotification q.job.userId q.job.dedupeKey).isSome = true ↔ 0 < q.runs)
  | _ => True

instance (s : NotifyQueue) : (i : Env × NotifyAct) → Decidable (s.FindsItsOwn i)
  | (_, .deliver n _) => inferInstanceAs (Decidable (∀ q ∈ s.jobs[n]?, _ → (_ ↔ _)))
  | (_, .upkeep _) | (_, .deliverOther _ _) | (_, .markNotificationRead _ _) =>
      inferInstanceAs (Decidable True)

def ran (s : NotifyQueue) (env : Env) (q : QueuedJob) (uuid : ℕ) : QueuedJob :=
  { q with
    runs := if s.backend.toDb.muted q.job then q.runs else q.runs + 1
    rows := q.rows ++ (s.backend.toDb.deliverNotification env q.job uuid).1.toList }

theorem run_jobs : (s.run env n q uuid).jobs = s.jobs.set n (s.ran env q uuid) := rfl

theorem ran_insertedOnce (hq : q.InsertedOnce)
    (hfinds : s.backend.toDb.muted q.job = false →
      ((s.backend.toDb.findNotification q.job.userId q.job.dedupeKey).isSome = true ↔
        0 < q.runs)) :
    (s.ran env q uuid).InsertedOnce := by
  cases hmuted : s.backend.toDb.muted q.job with
  | true =>
    rw [ran, hmuted, Db.deliverNotification_muted hmuted]
    simpa [QueuedJob.InsertedOnce] using hq
  | false =>
    rcases hq with ⟨hruns, hrows⟩ | ⟨hruns, now, hrows⟩
    · have hnew :
          (s.backend.toDb.findNotification q.job.userId q.job.dedupeKey).isSome = false := by
        rw [Bool.eq_false_iff]
        intro hfound
        exact absurd ((hfinds hmuted).1 hfound) (by omega)
      refine .inr ⟨?_, env.now, ?_⟩
      · rw [ran, hmuted]
        exact Nat.succ_pos _
      · rw [ran, Db.deliverNotification_row hmuted hnew, hrows]
        rfl
    · have hfound := (hfinds hmuted).2 hruns
      refine .inr ⟨?_, now, ?_⟩
      · rw [ran, hmuted]
        exact Nat.succ_pos _
      · rw [ran, Db.deliverNotification_repeats hfound, hrows]
        rfl

theorem step_job (i : Env × NotifyAct) (hq : s.jobs[n]? = some q) :
    ∃ q', (s.step lib i).jobs[n]? = some q' ∧ q'.job = q.job := by
  obtain ⟨env, act⟩ := i
  cases act with
  | upkeep act =>
    refine ⟨q, ?_, rfl⟩
    exact List.getElem?_append_left (List.getElem?_eq_some_iff.1 hq).1 ▸ hq
  | deliver m uuid =>
    rw [step]
    dsimp only
    cases hm : s.jobs[m]? with
    | none => exact ⟨q, hq, rfl⟩
    | some other =>
      dsimp only
      rw [run_jobs, List.getElem?_set]
      by_cases heq : m = n
      · subst heq
        obtain rfl := Option.some.inj (hm.symm.trans hq)
        rw [if_pos rfl, if_pos (List.getElem?_eq_some_iff.1 hm).1]
        exact ⟨_, rfl, rfl⟩
      · rw [if_neg heq]
        exact ⟨q, hq, rfl⟩
  | deliverOther job uuid => exact ⟨q, hq, rfl⟩
  | markNotificationRead userId id =>
    refine ⟨q, ?_, rfl⟩
    rw [step]
    dsimp only
    split <;> exact hq

theorem enqueued_insertedOnce {b : Backend} {act : UpkeepAct} (hq : q ∈ enqueued b env act) :
    q.InsertedOnce := by
  unfold enqueued at hq
  split at hq
  · split at hq
    · obtain ⟨job, -, rfl⟩ := List.mem_map.1 hq
      exact .inl ⟨rfl, rfl⟩
    · cases hq
  · cases hq

/-- Every job of the queue has inserted its notification at most once, and once it has run. -/
theorem step_insertedOnce {i : Env × NotifyAct} (h : ∀ q ∈ s.jobs, q.InsertedOnce)
    (hfinds : s.FindsItsOwn i) : ∀ q ∈ (s.step lib i).jobs, q.InsertedOnce := by
  obtain ⟨env, act⟩ := i
  cases act with
  | upkeep act =>
    intro q hq
    rcases List.mem_append.1 hq with hold | hnew
    · exact h q hold
    · exact enqueued_insertedOnce hnew
  | deliver m uuid =>
    rw [step]
    dsimp only
    cases hm : s.jobs[m]? with
    | none => exact h
    | some other =>
      intro q hq
      dsimp only at hq
      rw [run_jobs] at hq
      rcases List.mem_or_eq_of_mem_set hq with hold | rfl
      · exact h q hold
      · exact ran_insertedOnce (h other (List.mem_of_getElem? hm)) (hfinds other hm)
  | deliverOther job uuid => exact h
  | markNotificationRead userId id =>
    rw [step]
    dsimp only
    split <;> exact h

theorem run_job (is : List (Env × NotifyAct)) (hq : s.jobs[n]? = some q) :
    ∃ q', (runFrom (step lib) s is).jobs[n]? = some q' ∧ q'.job = q.job := by
  induction is generalizing s q with
  | nil => exact ⟨q, hq, rfl⟩
  | cons i is ih =>
    obtain ⟨q', hq', hjob⟩ := step_job i hq
    obtain ⟨q'', hq'', hjob'⟩ := ih hq'
    exact ⟨q'', hq'', hjob'.trans hjob⟩

theorem run_insertedOnce {is : List (Env × NotifyAct)} (h : ∀ q ∈ s.jobs, q.InsertedOnce)
    (hrun : Along (step lib) FindsItsOwn s is) :
    ∀ q ∈ (runFrom (step lib) s is).jobs, q.InsertedOnce := by
  induction is generalizing s with
  | nil => exact h
  | cons i is ih => exact ih (step_insertedOnce h hrun.1) hrun.2

/-- The step of a pass in which a search fails puts one job for the requester into the queue. -/
theorem step_fails {rid : RequestId} {r : Request} {choices : PassChoices}
    (hfails : s.backend.toDb.Fails (s.step lib (env, pass rid choices)).backend.toDb rid r) :
    (s.step lib (env, pass rid choices)).jobs = s.jobs ++
      [{ job :=
          { userId := r.requesterId
            type := "no_helper_found"
            titleKey := "notifications.no_helper_found"
            bodyKey := "request.noMatch"
            dedupeKey := some ("nomatch:" ++ toString rid) } }] := by
  let db := s.backend.toDb
  have hstep : (s.step lib (env, pass rid choices)).backend.toDb =
      db.step (env, .runMatchPass rid choices) := rfl
  rw [hstep] at hfails
  cases hexec : db.exec env (.runMatchPass rid choices) with
  | error e =>
    obtain ⟨hr, target, -, hmoved, hstatus⟩ := hfails
    have hsame : db.step (env, .runMatchPass rid choices) = db := by
      rw [Db.step, hexec]
    rw [hsame, statusOf, hr] at hstatus
    exact absurd (Option.some.inj hstatus) hmoved
  | ok result =>
    obtain ⟨effects, db'⟩ := result
    rw [Db.step_of_ok hexec] at hfails
    have heffects := Db.runMatchPass_fails hexec hfails
    rw [pass, step]
    dsimp only
    rw [enqueued, hexec, heffects]
    rfl

/-- In a run in which no job finds the notification of another under its key, nor misses its own,
every failure of a search is announced: its job inserts one notification for the requester when
it runs, and no more when it runs again. -/
theorem failure_announced_once {before after : List (Env × NotifyAct)} {rid : RequestId}
    {r : Request} {choices : PassChoices} {b : Backend}
    (hrun : Along (step lib) FindsItsOwn { backend := b }
      (before ++ (env, pass rid choices) :: after))
    (hfails : (queueRun lib b before).backend.toDb.Fails
      (queueRun lib b (before ++ [(env, pass rid choices)])).backend.toDb rid r) :
    ∃ q, (queueRun lib b (before ++ (env, pass rid choices) :: after)).jobs[
        (queueRun lib b before).jobs.length]? = some q ∧
      q.job.userId = r.requesterId ∧ q.job.type = "no_helper_found" ∧ q.InsertedOnce := by
  have hpassed : queueRun lib b (before ++ [(env, pass rid choices)]) =
      (queueRun lib b before).step lib (env, pass rid choices) := List.foldl_append
  have hended : queueRun lib b (before ++ (env, pass rid choices) :: after) =
      runFrom (step lib) ((queueRun lib b before).step lib (env, pass rid choices)) after :=
    List.foldl_append
  obtain ⟨q, hq, huser, htype⟩ : ∃ q,
      (queueRun lib b (before ++ [(env, pass rid choices)])).jobs[
        (queueRun lib b before).jobs.length]? = some q ∧
      q.job.userId = r.requesterId ∧ q.job.type = "no_helper_found" := by
    rw [hpassed] at hfails ⊢
    rw [step_fails hfails, List.getElem?_concat_length]
    exact ⟨_, rfl, rfl, rfl⟩
  rw [hpassed] at hq
  obtain ⟨q', hq', hjob⟩ := run_job after hq
  have honce := run_insertedOnce (fun _ hmem => absurd hmem List.not_mem_nil) hrun
  rw [← hended] at hq'
  exact ⟨q', hq', hjob ▸ huser, hjob ▸ htype, honce q' (List.mem_of_getElem? hq')⟩

/-! ## A search that fails twice -/

def searched : List (Env × NotifyAct) :=
  [(SmallEvent.clock 0, .upkeep (.act (.op (.directory (SmallEvent.directory [1] []))))),
   (SmallEvent.clock 1 20, .upkeep (.act (.op (.createRequest (SmallEvent.token 1)
     (SmallEvent.request SmallEvent.two "a")))))]

def failsOnce : List (Env × NotifyAct) :=
  searched ++ [(SmallEvent.clock 2000000, pass 20 SmallEvent.choices),
    (SmallEvent.clock 2000001, .deliver 0 50)]

def failsTwice : List (Env × NotifyAct) :=
  failsOnce ++ [(SmallEvent.clock 2000002, .upkeep (.act (.op (.renewRequest (SmallEvent.token 1)
      20 15)))),
    (SmallEvent.clock 4000000, pass 20 SmallEvent.choices),
    (SmallEvent.clock 4000001, .deliver 1 51)]

/-- The job of the first failure, run twice. -/
theorem failure_announced_once_repeated : ∃ q,
    (queueRun SmallEvent.text {} (failsOnce ++ [(SmallEvent.clock 2000003, .deliver 0 50)])).jobs[
      0]? = some q ∧ q.job.userId = 1 ∧ q.InsertedOnce := by
  have hrun : Along (step SmallEvent.text) FindsItsOwn { backend := {} }
      (searched ++ (SmallEvent.clock 2000000, pass 20 SmallEvent.choices) ::
        [(SmallEvent.clock 2000001, .deliver 0 50),
         (SmallEvent.clock 2000003, .deliver 0 50)]) := by
    decide +kernel
  obtain ⟨r, hr, hsearching⟩ : ∃ r,
      (queueRun SmallEvent.text {} searched).backend.requests.lookup 20 = some r ∧
        decide (r.status = .searching ∧ r.requesterId = 1) = true :=
    (Option.any_eq_true _ _).1 (by decide +kernel)
  obtain ⟨hstatus, hrequester⟩ := of_decide_eq_true hsearching
  have hclosed : statusOf (queueRun SmallEvent.text {} (searched ++
      [(SmallEvent.clock 2000000, pass 20 SmallEvent.choices)])).backend.requests 20 =
        some .noMatch := by
    decide +kernel
  obtain ⟨q, hq, huser, -, honce⟩ := failure_announced_once hrun
    ⟨hr, .noMatch, .inr rfl, by rw [hstatus]; decide, hclosed⟩
  exact ⟨q, hq, huser.trans hrequester, honce⟩

/-- The notice of the second failure is taken for that of the first. -/
theorem failure_unannounced :
    statusOf (queueRun SmallEvent.text {} (failsTwice.take 5)).backend.requests 20 =
      some .searching ∧
    statusOf (queueRun SmallEvent.text {} (failsTwice.take 6)).backend.requests 20 =
      some .noMatch ∧
    ((queueRun SmallEvent.text {} failsTwice).jobs[1]?.any fun q =>
      q.job.userId = 1 && q.runs = 1 && q.rows.isEmpty) = true := by
  decide +kernel

end NotifyQueue
end Sahay
