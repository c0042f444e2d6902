import Sahay.Lifecycle.Audit
import Sahay.Refinement.System

/-!
# The audit trail of a request

Status is written from a dozen places in five modules.  In every reached state the
audit rows of a request lead from its creation, along the edges of
`REQUEST_TRANSITIONS`, to the status it has.
-/

namespace Sahay

namespace Db

variable {db : Db}

theorem step_audited (i : Env × Op) (hx : db.toExchange.Consistent)
    (ha : db.toExchange.Audited) : (db.step i).toExchange.Audited := by
  rcases db.step_cases i with ⟨effects, h⟩ | h
  · exact (exec_refines hx h).run.invariant (fun _ _ ha hstep => hstep.audited ha) ha
  · rwa [h]

theorem Reached.audited (h : db.Reached) : db.toExchange.Audited :=
  (Reachable.invariant (P := fun db : Db => db.Consistent ∧ db.toExchange.Audited)
    (fun db i hdb => ⟨step_consistent db i hdb.1, step_audited i hdb.1.exchange hdb.2⟩)
    ⟨empty_consistent, Exchange.audited_empty⟩ h).2

/-- The audit rows of a request are a path of the published machine to its status. -/
theorem audit_isPath (h : db.Reached) (rid : RequestId) (r : Request)
    (hr : db.requests.lookup rid = some r) : IsPath (trailOf db.requestTransitions rid) r.status :=
  (Reached.audited h).path rid r hr

/-- A request that was offered, and whose offer was accepted. -/
theorem audit_isPath_oneMatch :
    let db := runFrom Db.step Db.empty SmallEvent.oneMatch
    ∃ r, db.requests.lookup 20 = some r ∧ r.status = .matched ∧
      IsPath (trailOf db.requestTransitions 20) r.status := by
  have hr : ∃ r, (runFrom Db.step Db.empty SmallEvent.oneMatch).requests.lookup 20 = some r ∧
      r.status = .matched := by
    have hstatus : statusOf (runFrom Db.step Db.empty SmallEvent.oneMatch).requests 20 =
        some .matched := by decide +kernel
    exact Option.map_eq_some_iff.mp hstatus
  obtain ⟨r, hr, hmatched⟩ := hr
  exact ⟨r, hr, hmatched, audit_isPath ⟨_, rfl⟩ 20 r hr⟩

end Db
end Sahay
