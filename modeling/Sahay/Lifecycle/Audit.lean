import Mathlib.Data.List.Chain
import Sahay.Lifecycle.Step

/-!
# The audit trail

The rows of `request_transitions` that name one request, in insertion order.  They
are a path of the state machine that ends in the request's status: every step that
writes a status appends the row that leads there.
-/

namespace Sahay

def trailOf (rows : List RequestTransition) (rid : RequestId) : List RequestTransition :=
  rows.filter fun t => t.requestId = rid

/-- The rows lead from nothing through permitted transitions to `status`. -/
structure IsPath (trail : List RequestTransition) (status : RequestStatus) : Prop where
  first : ∃ t ts, trail = t :: ts ∧ t.fromStatus = none ∧ t.toStatus = .searching
  linked : trail.IsChain fun t t' => t'.fromStatus = some t.toStatus
  permitted : ∀ t ∈ trail, canTransition t.fromStatus t.toStatus = true
  last : trail.getLast?.map RequestTransition.toStatus = some status

variable {rows : List RequestTransition} {rid : RequestId}

theorem trailOf_snoc (t : RequestTransition) :
    trailOf (rows ++ [t]) rid =
      if t.requestId = rid then trailOf rows rid ++ [t] else trailOf rows rid := by
  rw [trailOf, List.filter_append]
  by_cases h : t.requestId = rid <;> simp [h, trailOf]

theorem IsPath.created (t : RequestTransition) (hfrom : t.fromStatus = none)
    (hto : t.toStatus = .searching) : IsPath [t] .searching where
  first := ⟨t, [], rfl, hfrom, hto⟩
  linked := List.isChain_singleton t
  permitted t' ht' := by
    obtain rfl := List.mem_singleton.mp ht'
    rw [hfrom, hto]
    rfl
  last := congrArg some hto

theorem IsPath.snoc {trail : List RequestTransition} {status : RequestStatus}
    (h : IsPath trail status) (t : RequestTransition) (hfrom : t.fromStatus = some status)
    (hpermitted : canTransition t.fromStatus t.toStatus = true) :
    IsPath (trail ++ [t]) t.toStatus where
  first := by
    obtain ⟨t₀, ts, rfl, hnone, hsearching⟩ := h.first
    exact ⟨t₀, ts ++ [t], rfl, hnone, hsearching⟩
  linked := by
    refine h.linked.append (List.isChain_singleton t) fun last hlast t' ht' => ?_
    obtain rfl : t = t' := by simpa using ht'
    have hstatus := h.last
    rw [hlast] at hstatus
    rw [hfrom, ← Option.some.inj hstatus]
  permitted t' ht' := by
    rcases List.mem_append.mp ht' with hold | hnew
    · exact h.permitted t' hold
    · obtain rfl := List.mem_singleton.mp hnew
      exact hpermitted
  last := by simp

/-! ## The invariant -/

/-- The trail of every request is a path to its status, and no row names a request
that does not exist. -/
structure Exchange.Audited (x : Exchange) : Prop where
  path : ∀ rid r, x.requests.lookup rid = some r →
    IsPath (trailOf x.requestTransitions rid) r.status
  known : ∀ t ∈ x.requestTransitions, t.requestId ∈ x.requests

variable {x : Exchange} {id : RequestId} {r r' : Request}

theorem Exchange.Audited.trail_eq_nil (h : x.Audited) (hid : id ∉ x.requests) :
    trailOf x.requestTransitions id = [] := by
  rw [trailOf, List.filter_eq_nil_iff]
  intro t ht heq
  exact hid (of_decide_eq_true heq ▸ h.known t ht)

/-- A permitted transition, written with its audit row. -/
theorem Exchange.Audited.move (h : x.Audited) (hr : x.requests.lookup id = some r)
    {x' : Exchange} {actor : TransitionActor} {reason : Option String} {now : Time}
    (hrequests : x'.requests = x.requests.replace id r')
    (htrail : x'.requestTransitions =
      x.requestTransitions ++ [⟨id, some r.status, r'.status, actor, reason, now⟩])
    (hpermitted : canTransition (some r.status) r'.status = true) : x'.Audited where
  path rid row hrow := by
    rw [hrequests, Table.lookup_replace hr] at hrow
    rw [htrail, trailOf_snoc]
    by_cases hk : rid = id
    · subst hk
      rw [if_pos rfl] at hrow ⊢
      obtain rfl := Option.some.inj hrow
      exact (h.path rid r hr).snoc _ rfl hpermitted
    · rw [if_neg hk] at hrow
      rw [if_neg (Ne.symm hk)]
      exact h.path rid row hrow
  known t ht := by
    rw [hrequests, Table.mem_modify]
    rw [htrail] at ht
    rcases List.mem_append.mp ht with hold | hnew
    · exact h.known t hold
    · obtain rfl := List.mem_singleton.mp hnew
      exact Table.mem_iff_exists.mpr ⟨r, hr⟩

theorem Exchange.Audited.rewrite (h : x.Audited) (hr : x.requests.lookup id = some r)
    (hstatus : r'.status = r.status) :
    ({ x with requests := x.requests.replace id r' } : Exchange).Audited where
  path := Table.forall_replace h.path (hstatus ▸ h.path id r hr)
  known t ht := Table.mem_modify.mpr (h.known t ht)

theorem settledRequestStatus_permitted (r : Request) (q : Qty) :
    canTransition (some .matched) (settledRequestStatus r q) = true := by
  unfold settledRequestStatus
  split_ifs <;> rfl

theorem CancelActor.route_permitted (actor : CancelActor) :
    canTransition (some .matched) actor.route.1 = true := by
  cases actor <;> rfl

theorem Ctx.Reopens.permitted {c : Ctx} (h : c.Reopens id r) :
    canTransition (some r.status) .searching = true := by
  obtain ⟨-, ⟨hrenewable, -⟩ | ⟨hpart, -⟩⟩ := h
  · revert hrenewable
    cases r.status <;> decide
  · rw [hpart]
    rfl

theorem Lifecycle.audited {c : Ctx} {x' : Exchange} (h : Lifecycle c x x') (hx : x.Audited) :
    x'.Audited := by
  cases h with
  | addItem | editItems | dropItem | confirm | meet => exact ⟨hx.path, hx.known⟩
  | openRequest id r hid hcaller hcategory hstatus =>
      constructor
      · intro rid row hrow
        rw [trailOf_snoc]
        rw [Table.lookup_put] at hrow
        by_cases hk : rid = id
        · subst hk
          rw [if_pos rfl] at hrow ⊢
          obtain rfl := Option.some.inj hrow
          rw [hx.trail_eq_nil hid, hstatus]
          exact .created _ rfl rfl
        · rw [if_neg hk] at hrow
          rw [if_neg (Ne.symm hk)]
          exact hx.path rid row hrow
      · intro t ht
        rcases List.mem_append.mp ht with hold | hnew
        · exact (AList.mem_insert _).mpr (.inr (hx.known t hold))
        · obtain rfl := List.mem_singleton.mp hnew
          exact (AList.mem_insert _).mpr (.inl rfl)
  | closeRequest id r target actor reason hr hopen htarget hpermitted =>
      exact hx.move hr rfl rfl hpermitted
  | createOffer oid o r item hoid hoffered hr hsearching =>
      refine hx.move hr rfl rfl ?_
      rw [hsearching]
      rfl
  | closeOffer oid o r status actor reason ho hoffered hstatus hr hoffering =>
      refine hx.move hr rfl rfl ?_
      rw [hoffering]
      rfl
  | accept oid o r item mid m cid ho hoffered hcaller hr hoffering =>
      refine hx.move hr rfl rfl ?_
      rw [hoffering]
      rfl
  | settle mid m m' r item cid conversation final disputed closeReason actor hm hactive
      hconfirms hfinal hr hmatched =>
      refine hx.move hr rfl rfl ?_
      rw [hmatched]
      exact settledRequestStatus_permitted r _
  | cancel mid m r item cid conversation conversation' canceller status closeReason reason hm
      hactive hstatus hr hmatched =>
      refine hx.move hr rfl rfl ?_
      rw [hmatched]
      exact canceller.route_permitted
  | reopen id r expiresAt reason hr hcaller => exact hx.move hr rfl rfl hcaller.permitted
  | conclude id r target hr hstatus htarget =>
      refine hx.move hr rfl rfl ?_
      rw [hstatus]
      rcases htarget with rfl | rfl <;> rfl
  | widen id r radius hr hsearching => exact hx.rewrite hr rfl

theorem Exchange.audited_empty : ({} : Exchange).Audited :=
  ⟨fun _ _ h => by simp at h, fun _ h => by cases h⟩

end Sahay
