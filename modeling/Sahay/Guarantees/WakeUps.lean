import Sahay.Refinement.Deliveries

/-!
# No lost wake-up

In every state of the server with its queues, a row in a state that only a message
ends has that message pending: what an operation sets waiting it enqueues, and a
delivery that leaves its row waiting enqueues again.
-/

namespace Sahay

namespace Db

variable {db db' : Db} {env : Env} {op : Op} {effects : List Effect}

theorem Ripe.keep {p : Pending} (h : db.Ripe p)
    (hkeeps : Table.Keeps MatchOffer.respondBy db.matchOffers db'.matchOffers) : db'.Ripe p := by
  obtain ⟨job, due⟩ := p
  cases job with
  | offerTimeout offerId =>
      obtain ⟨o, ho, hdue⟩ := h
      obtain ⟨o', ho', hsame⟩ := hkeeps offerId o ho
      exact ⟨o', ho', hsame.trans_le hdue⟩
  | matching requestId | finalize matchId => trivial

theorem exec_keeps_ripe {p : Pending} (hx : db.toExchange.Consistent)
    (h : db.exec env op = .ok (effects, db')) (hripe : db.Ripe p) : db'.Ripe p :=
  hripe.keep (exec_refines hx h).run.keeps_respondBy

end Db

namespace Queued

variable {s : Queued}

/-- Whatever waits for a message has a ripe one pending. -/
structure Attended (s : Queued) : Prop where
  consistent : s.db.Consistent
  served : ∀ j, s.db.Waits j → s.db.Served s.pending j

theorem run_attended (env : Env) (op : Op) (h : s.Attended) : (s.run env op).Attended := by
  have hx := h.consistent
  unfold run
  cases hexec : s.db.exec env op with
  | error e => exact h
  | ok r =>
      obtain ⟨effects, db'⟩ := r
      have hconsistent := (Db.exec_refines hx.exchange hexec).consistent hx
      refine ⟨hconsistent, fun j hj => ?_⟩
      rcases Db.exec_woken hx.exchange hexec j hj with hbefore | hserved
      · obtain ⟨p, hp, hjob, hripe⟩ := h.served j hbefore
        exact Db.Served.append_left ⟨p, hp, hjob, Db.exec_keeps_ripe hx.exchange hexec hripe⟩
      · exact hserved.append_right

theorem mem_eraseIdx_of_ne {pending : List Pending} {n : ℕ} {p q : Pending}
    (hp : pending[n]? = some p) (hq : q ∈ pending) (hne : q ≠ p) : q ∈ pending.eraseIdx n := by
  obtain ⟨i, hi⟩ := List.mem_iff_getElem?.mp hq
  refine List.mem_eraseIdx_iff_getElem?.mpr ⟨i, ?_, hi⟩
  rintro rfl
  exact hne (Option.some.inj (hi.symm.trans hp))

/-- A delivery takes one message away, and its own row either waits no more or has
been enqueued again. -/
theorem deliver_attended (env : Env) {n : ℕ} {p : Pending} (choices : PassChoices)
    (hp : s.pending[n]? = some p) (hdue : p.notBefore ≤ env.now) (h : s.Attended) :
    ({ s with pending := s.pending.eraseIdx n }.run env (p.job.op choices)).Attended := by
  have hx := h.consistent
  obtain ⟨effects, db', hexec⟩ := Db.job_commits env p.job choices hx.exchange
  simp only [run, hexec]
  refine ⟨(Db.exec_refines hx.exchange hexec).consistent hx, fun j hj => ?_⟩
  rcases Db.exec_woken hx.exchange hexec j hj with hbefore | hserved
  · obtain ⟨q, hq, rfl, hripe⟩ := h.served j hbefore
    by_cases hqp : q = p
    · subst hqp
      exact (Db.delivery_serves hx hripe hdue hexec hj).append_right
    · exact Db.Served.append_left ⟨q, mem_eraseIdx_of_ne hp hq hqp, rfl,
        Db.exec_keeps_ripe hx.exchange hexec hripe⟩
  · exact hserved.append_right

theorem step_attended (s : Queued) (i : Env × QueueAct) (h : s.Attended) :
    (s.step i).Attended := by
  obtain ⟨env, op | ⟨n, choices⟩⟩ := i
  · simp only [step]
    split_ifs
    · exact h
    · exact run_attended env op h
  · cases hp : s.pending[n]? with
    | none => simpa only [step, hp] using h
    | some p =>
        simp only [step, hp]
        split_ifs with hdue
        · exact deliver_attended env choices hp hdue h
        · exact h

theorem run_from_empty_attended (is : List (Env × QueueAct)) :
    (runFrom step {} is).Attended := by
  refine Reachable.invariant step_attended ⟨Db.empty_consistent, fun j hj => ?_⟩ ⟨is, rfl⟩
  cases j <;>
    · obtain ⟨row, hrow, -⟩ := hj
      simp [Db.empty] at hrow

/-- Whatever happened so far, in whatever order and at whatever time: a request in
searching has a match job pending, a request in offering the timeout of its open
offer or a match job, and an active match with exactly one confirmation its
finalize job. -/
theorem no_lost_wakeup (is : List (Env × QueueAct)) :
    let s := runFrom step {} is
    (∀ rid r, s.db.requests.lookup rid = some r → r.status = .searching →
      ∃ p ∈ s.pending, p.job = .matching rid) ∧
    (∀ rid r, s.db.requests.lookup rid = some r → r.status = .offering →
      (∃ oid o, s.db.matchOffers.lookup oid = some o ∧ o.requestId = rid ∧ o.status = .offered ∧
        ∃ p ∈ s.pending, p.job = .offerTimeout oid) ∨ ∃ p ∈ s.pending, p.job = .matching rid) ∧
    (∀ mid m, s.db.matchRows.lookup mid = some m → m.AwaitsPeer →
      ∃ p ∈ s.pending, p.job = .finalize mid) := by
  have h := run_from_empty_attended is
  have hserved (j : Job) (hj : (runFrom step {} is).db.Waits j) :
      ∃ p ∈ (runFrom step {} is).pending, p.job = j := by
    obtain ⟨p, hp, hjob, -⟩ := h.served j hj
    exact ⟨p, hp, hjob⟩
  refine ⟨fun rid r hr hsearching => ?_, fun rid r hr hoffering => .inl ?_,
    fun mid m hm hawaits => ?_⟩
  · exact hserved (.matching rid) ⟨r, hr, hsearching⟩
  · obtain ⟨oid, o, ho, hrid, hoffered⟩ :=
      h.consistent.exchange.coupled.exists_open hr hoffering
    exact ⟨oid, o, ho, hrid, hoffered, hserved (.offerTimeout oid) ⟨o, ho, hoffered⟩⟩
  · exact hserved (.finalize mid) ⟨m, hm, hawaits⟩

end Queued
end Sahay
