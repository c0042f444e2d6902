import Mathlib.Data.List.Sort
import Sahay.Server.Schema

/-!
# Who may take part

The reads that stand before every operation of a user: the session behind a
bearer token (`plugins/auth.ts`), and the event, membership and effective
categories of `modules/events/service.ts`.
-/

namespace Sahay

/-! ## Sessions -/

structure AuthContext where
  userId : UserId
  sessionId : SessionId
  role : UserRole
  status : UserStatus
  canRequest : Bool
  canHelp : Bool
  mustChangePassword : Bool

/-- The status `resolveAuth` reports: a timed suspension that has run out counts
as active. -/
def User.effectiveStatus (user : User) (now : Time) : UserStatus :=
  let suspended := user.status = .suspended ∧ user.suspendedUntil.all fun t => now < t
  if suspended then .suspended
  else if user.status = .suspended then .active
  else user.status

namespace Directory

variable (dir : Directory)

/-- The account behind a token, given by its hash. -/
def resolveAuth (now : Time) (tokenHash : String) : Option AuthContext := do
  let (sessionId, session) ← dir.sessions.first fun _ s =>
    s.tokenHash = tokenHash && s.revokedAt.isNone && now < s.expiresAt
  let user ← dir.users.lookup session.userId
  guard user.deletedAt.isNone
  return {
    userId := session.userId
    sessionId := sessionId
    role := user.role
    status := user.effectiveStatus now
    canRequest := user.canRequest
    canHelp := user.canHelp
    mustChangePassword := user.mustChangePassword }

/-- The `preHandler` of every route modelled here; none of them is exempt from
the password change. -/
def authenticate (now : Time) (tokenHash : String) : Outcome AuthContext := do
  let auth ← found (dir.resolveAuth now tokenHash) errors.unauthorized
  ensure (auth.status ≠ .suspended) errors.accountRestricted
  ensure (auth.mustChangePassword = false) errors.passwordChangeRequired
  return auth

/-- The `preHandler` of the moderation routes. -/
def authenticateModerator (now : Time) (tokenHash : String) : Outcome AuthContext := do
  let auth ← dir.authenticate now tokenHash
  ensure (auth.role = .moderator ∨ auth.role = .admin) errors.forbidden
  return auth

/-! ## Events -/

/-- `resolveEvent` of an event id. -/
def resolveEvent (eventId : EventId) : Option Event := dir.events.lookup eventId

def getMembership (eventId : EventId) (userId : UserId) : Option Membership :=
  (dir.memberships.lookup (userId, eventId)).filter fun m => m.leftAt.isNone

structure EffectiveCategory where
  categoryId : CategoryId
  category : Category
  maxRequestQty : Qty
  maxOfferQty : Qty

/-- Overrides of the event when it has any, else all active global categories. -/
def effectiveEventCategories (eventId : EventId) : List EffectiveCategory :=
  let bySortOrder (a b : EffectiveCategory) : Prop := a.category.sortOrder ≤ b.category.sortOrder
  let overridden := (dir.eventCategories.select fun k _ => k.1 = eventId).filterMap fun e =>
    (dir.categories.lookup e.1.2).map fun category => (e.1.2, category, e.2)
  if overridden = [] then
    ((dir.categories.select fun _ c => c.active).map fun e =>
      ⟨e.1, e.2, e.2.maxRequestQty, e.2.maxOfferQty⟩).insertionSort bySortOrder
  else
    ((overridden.filter fun e => e.2.2.enabled && e.2.1.active).map fun e =>
      ⟨e.1, e.2.1, e.2.2.maxRequestQty.getD e.2.1.maxRequestQty,
        e.2.2.maxOfferQty.getD e.2.1.maxOfferQty⟩).insertionSort bySortOrder

/-- `cats.find((c) => c.category.id === categoryId)`. -/
def effectiveCategory (eventId : EventId) (categoryId : CategoryId) :
    Option EffectiveCategory :=
  (dir.effectiveEventCategories eventId).find? fun c => c.categoryId = categoryId

theorem mem_categories_of_effective {eventId : EventId} {c : EffectiveCategory}
    (h : c ∈ dir.effectiveEventCategories eventId) :
    dir.categories.lookup c.categoryId = some c.category := by
  unfold effectiveEventCategories at h
  simp only at h
  split_ifs at h with hnone
  · obtain ⟨e, hmem, rfl⟩ := List.mem_map.mp ((List.perm_insertionSort _ _).mem_iff.mp h)
    exact (Table.mem_select.mp hmem).1
  · obtain ⟨e, hmem, rfl⟩ := List.mem_map.mp ((List.perm_insertionSort _ _).mem_iff.mp h)
    obtain ⟨ov, -, hov⟩ := List.mem_filterMap.mp (List.mem_filter.mp hmem).1
    obtain ⟨category, hcat, rfl⟩ := Option.map_eq_some_iff.mp hov
    exact hcat

theorem effectiveCategory_some {eventId : EventId} {categoryId : CategoryId}
    {c : EffectiveCategory} (h : dir.effectiveCategory eventId categoryId = some c) :
    c.categoryId = categoryId ∧ dir.categories.lookup categoryId = some c.category := by
  have hid : c.categoryId = categoryId := by simpa using List.find?_some h
  refine ⟨hid, ?_⟩
  rw [← hid]
  exact dir.mem_categories_of_effective (List.mem_of_find?_eq_some h)

end Directory
end Sahay
