import Sahay.Refinement.Deletion

/-!
# What a deletion leaves

The job cancels the shared matches, closes the user's requests, empties the inventory and
deletes what belongs to the user alone.  Two things it does not come to: the columns of
`0005_admin_passwords.sql`, which an administrator's account logs in with, and offers that
still wait for an answer of the user as helper.
-/

namespace Sahay

namespace Db

/-- Nothing but history is left of the account. -/
structure LeavesNothing (userId : UserId) (db : Db) : Prop where
  sessions : ∀ id s, db.sessions.lookup id = some s → s.userId ≠ userId
  pushTokens : ∀ id t, db.pushTokens.lookup id = some t → t.userId ≠ userId
  availability : ∀ eid, db.availability.lookup (userId, eid) = none
  memberLocations : ∀ eid, db.memberLocations.lookup (userId, eid) = none
  notifications : ∀ id n, db.notifications.lookup id = some n → n.userId ≠ userId
  notificationPrefs : db.notificationPrefs.lookup userId = none
  blocks : ∀ blocked, db.blocks.lookup (userId, blocked) = none
  matchRows : ∀ mid m, db.matchRows.lookup mid = some m → m.status = .active →
    m.requesterId ≠ userId ∧ m.helperId ≠ userId
  requests : ∀ rid r, db.requests.lookup rid = some r → r.requesterId = userId →
    r.status ≠ .searching ∧ r.status ≠ .offering ∧ r.status ≠ .matched
  matchOffers : ∀ oid o, db.matchOffers.lookup oid = some o → o.helperId = userId →
    o.status ≠ .offered
  inventoryItems : ∀ id item, db.inventoryItems.lookup id = some item → item.userId = userId →
    item.active = false ∧ item.qtyOnHand = 0 ∧ item.qtyReserved = 0
  users : ∀ user, db.users.lookup userId = some user →
    user.phoneEnc = none ∧ user.phoneHmac = none ∧ user.emailEnc = none ∧
      user.emailHmac = none ∧ user.username = none ∧ user.passwordHash = none

def NoCredentials (userId : UserId) (db : Db) : Prop :=
  ∀ user, db.users.lookup userId = some user → user.username = none ∧ user.passwordHash = none

def NothingToAnswer (userId : UserId) (db : Db) : Prop :=
  ∀ oid o, db.matchOffers.lookup oid = some o → o.helperId = userId → o.status ≠ .offered

/-! ## Table by table -/

namespace Erased

variable {db db' : Db} {userId : UserId}

theorem no_active (h : Erased db userId db') {mid : MatchId} {m : Match}
    (hm : db'.matchRows.lookup mid = some m) (hactive : m.status = .active) :
    m.requesterId ≠ userId ∧ m.helperId ≠ userId := by
  obtain ⟨m₀, d, hm₀, rfl⟩ := h.matchRows.before hm
  rw [sweptMatch] at hactive ⊢
  split_ifs at hactive ⊢ with hany
  · cases hactive
  · by_contra hparty
    have hshared : m₀.isActiveOf userId = true := by
      simp only [Match.isActiveOf, hactive, decide_true, Bool.true_and, Bool.or_eq_true,
        decide_eq_true_eq]
      tauto
    exact hany (List.any_eq_true.mpr
      ⟨(mid, m₀), mem_sharedMatches.mpr ⟨hm₀, hshared⟩, decide_eq_true rfl⟩)

theorem no_request (h : Erased db userId db') (hx : db.toExchange.Consistent) {rid : RequestId}
    {r : Request} (hr : db'.requests.lookup rid = some r) (howner : r.requesterId = userId) :
    r.status ≠ .searching ∧ r.status ≠ .offering ∧ r.status ≠ .matched := by
  obtain ⟨r₀, d, hr₀, rfl⟩ := h.requests.before hr
  rw [erasedRequest, closedRequest] at howner ⊢
  split_ifs at howner ⊢ with hclosed
  · exact ⟨by simp, by simp, by simp⟩
  · rw [sweptRequest] at howner ⊢
    split_ifs at howner ⊢ with hshared
    · exact ⟨by simp, by simp, by simp⟩
    · -- Neither open, nor with an active match.
      have hnotOpen : ¬r₀.status.isOpen = true := fun hopen =>
        hclosed (List.any_eq_true.mpr
          ⟨(rid, r₀), mem_ownOpen.mpr ⟨hr₀, howner, hopen⟩, decide_eq_true rfl⟩)
      refine ⟨fun hs => hnotOpen (hs ▸ rfl), fun hs => hnotOpen (hs ▸ rfl), fun hmatched => ?_⟩
      obtain ⟨mid, m, hm, hrid, hactive⟩ := hx.coupled.exists_active hr₀ hmatched
      obtain ⟨r₁, hr₁, hrequester, -⟩ := (hx.linked.matchRows mid m hm).request
      rw [hrid, hr₀] at hr₁
      obtain rfl := Option.some.inj hr₁
      refine hshared (List.any_eq_true.mpr
        ⟨(mid, m), mem_sharedMatches.mpr ⟨hm, ?_⟩, decide_eq_true hrid⟩)
      simp [Match.isActiveOf, hactive, ← hrequester, howner]

theorem emptied (h : Erased db userId db') {id : ItemId} {item : InventoryItem}
    (hi : db'.inventoryItems.lookup id = some item) (howner : item.userId = userId) :
    item.active = false ∧ item.qtyOnHand = 0 ∧ item.qtyReserved = 0 := by
  obtain ⟨item₀, d, hi₀, rfl⟩ := h.inventoryItems.before hi
  rw [erasedItem] at howner ⊢
  split_ifs at howner ⊢ with hown
  · exact ⟨rfl, rfl, rfl⟩
  · refine absurd ?_ hown
    rw [sweptItem] at howner
    split_ifs at howner <;> exact howner

theorem offer_kept (h : Erased db userId db') (hx : db.toExchange.Consistent) {oid : OfferId}
    {o : MatchOffer} (ho : db.matchOffers.lookup oid = some o) (hhelper : o.helperId = userId) :
    db'.matchOffers.lookup oid = some o := by
  refine h.matchOffers.fixed ho fun d => ?_
  rw [closedOffer, if_neg]
  intro hclosed
  obtain ⟨e, he, hrid⟩ := List.any_eq_true.mp (Bool.and_eq_true_iff.mp hclosed).2
  obtain ⟨hr, howner, -⟩ := mem_ownOpen.mp he
  obtain ⟨r, hr', hpeer⟩ := (hx.linked.offers oid o ho).request
  rw [of_decide_eq_true hrid, hr'] at hr
  obtain rfl := Option.some.inj hr
  exact hpeer (hhelper.trans howner.symm)

theorem nothingToAnswer_iff (h : Erased db userId db') (hx : db.toExchange.Consistent) :
    NothingToAnswer userId db' ↔ NothingToAnswer userId db := by
  constructor
  · intro hnone oid o ho hhelper
    exact hnone oid o (h.offer_kept hx ho hhelper) hhelper
  · intro hnone oid o' ho' hhelper
    obtain ⟨o, d, ho, heq⟩ := h.matchOffers.before ho'
    have hsame : o.helperId = userId := by
      rw [← hhelper, heq, closedOffer]
      split_ifs <;> rfl
    rw [Option.some.inj (ho'.symm.trans (h.offer_kept hx ho hsame))]
    exact hnone oid o ho hsame

/-- What belongs to the user alone is deleted. -/
theorem wipes (h : Erased db userId db') :
    (db'.sessions = db.sessions.deleteWhere fun _ s => s.userId = userId) ∧
    (db'.pushTokens = db.pushTokens.deleteWhere fun _ t => t.userId = userId) ∧
    (db'.availability = db.availability.deleteWhere fun key _ => key.1 = userId) ∧
    (db'.memberLocations = db.memberLocations.deleteWhere fun key _ => key.1 = userId) ∧
    (db'.notifications = db.notifications.deleteWhere fun _ n => n.userId = userId) ∧
    db'.notificationPrefs = db.notificationPrefs.drop userId ∧
    (db'.blocks = db.blocks.deleteWhere fun key _ => key.1 = userId) := by
  obtain ⟨avatarSeed, zeroedAt, deletedAt, hframe⟩ := h.frame
  rw [hframe]
  exact ⟨rfl, rfl, rfl, rfl, rfl, rfl, rfl⟩

theorem users_lookup (h : Erased db userId db') : ∃ avatarSeed deletedAt,
    db'.users.lookup userId = (db.users.lookup userId).map fun user =>
      { user with
        pseudonym := "Deleted User"
        avatarSeed := avatarSeed
        phoneEnc := none
        phoneHmac := none
        phoneVerifiedAt := none
        emailEnc := none
        emailHmac := none
        emailVerifiedAt := none
        status := .deleted
        deletedAt := some deletedAt } := by
  obtain ⟨avatarSeed, zeroedAt, deletedAt, hframe⟩ := h.frame
  rw [hframe]
  exact ⟨avatarSeed, deletedAt, Table.lookup_modify_self _ _ _⟩

theorem noCredentials_iff (h : Erased db userId db') :
    NoCredentials userId db' ↔ NoCredentials userId db := by
  obtain ⟨avatarSeed, deletedAt, husers⟩ := h.users_lookup
  constructor
  · intro hnone user huser
    rw [huser] at husers
    have hscrubbed := hnone _ husers
    exact hscrubbed
  · intro hnone user' huser'
    obtain ⟨user, huser, rfl⟩ := Option.map_eq_some_iff.mp (husers.symm.trans huser')
    exact hnone user huser

end Erased

/-! ## The whole account -/

variable {db db' : Db} {envs : ℕ → Env} {userId : UserId} {avatarSeed : String}

theorem performAccountDeletion_erases (hx : db.Consistent)
    (h : db.performAccountDeletion envs userId avatarSeed = .ok db') : Erased db userId db' := by
  obtain ⟨db'', hcommit, herased⟩ :=
    deletion_erases hx (deletionScript_ops db envs userId avatarSeed)
  rwa [Except.ok.inj (h.symm.trans hcommit)]

/-- A deletion leaves nothing of an account exactly when it had no credentials and no offer
to answer. -/
theorem leavesNothing_iff (hdb : db.Reached)
    (h : db.performAccountDeletion envs userId avatarSeed = .ok db') :
    LeavesNothing userId db' ↔ NoCredentials userId db ∧ NothingToAnswer userId db := by
  have hx := hdb.consistent
  have herased := performAccountDeletion_erases hx h
  rw [← herased.noCredentials_iff, ← herased.nothingToAnswer_iff hx.exchange]
  constructor
  · intro hleaves
    refine ⟨fun user huser => ?_, hleaves.matchOffers⟩
    obtain ⟨-, -, -, -, hcredentials⟩ := hleaves.users user huser
    exact hcredentials
  · rintro ⟨hcredentials, hanswer⟩
    obtain ⟨hsessions, htokens, havailability, hlocations, hnotifications, hprefs, hblocks⟩ :=
      herased.wipes
    obtain ⟨seed, deletedAt, husers⟩ := herased.users_lookup
    exact
      { sessions := by
          intro id s hs
          obtain ⟨-, hother⟩ := Table.lookup_deleteWhere_some.mp (hsessions ▸ hs)
          exact of_decide_eq_false hother
        pushTokens := by
          intro id t ht
          obtain ⟨-, hother⟩ := Table.lookup_deleteWhere_some.mp (htokens ▸ ht)
          exact of_decide_eq_false hother
        availability := fun eid => havailability ▸
          Table.lookup_deleteWhere_none fun _ => decide_eq_true rfl
        memberLocations := fun eid => hlocations ▸
          Table.lookup_deleteWhere_none fun _ => decide_eq_true rfl
        notifications := by
          intro id n hn
          obtain ⟨-, hother⟩ := Table.lookup_deleteWhere_some.mp (hnotifications ▸ hn)
          exact of_decide_eq_false hother
        notificationPrefs := by rw [hprefs, Table.lookup_drop, if_pos rfl]
        blocks := fun blocked => hblocks ▸
          Table.lookup_deleteWhere_none fun _ => decide_eq_true rfl
        matchRows := fun mid m hm hactive => herased.no_active hm hactive
        requests := fun rid r hr howner => herased.no_request hx.exchange hr howner
        matchOffers := hanswer
        inventoryItems := fun id item hi howner => herased.emptied hi howner
        users := by
          intro user' huser'
          obtain ⟨huname, hpassword⟩ := hcredentials user' huser'
          obtain ⟨user, huser, rfl⟩ := Option.map_eq_some_iff.mp (husers.symm.trans huser')
          exact ⟨rfl, rfl, rfl, rfl, huname, hpassword⟩ }

instance : Decidable (NoCredentials userId db) :=
  decidable_of_iff ((db.users.lookup userId).all fun user =>
      decide (user.username = none ∧ user.passwordHash = none)) (by
    cases hu : db.users.lookup userId <;> simp [NoCredentials, hu])

instance : Decidable (NothingToAnswer userId db) :=
  Table.decidableForall _ fun _ (o : MatchOffer) => o.helperId = userId → o.status ≠ .offered

def later (n : ℕ) : Env := SmallEvent.clock (50 + n) (200 + n)

/-- The requester of two active matches and an open request. -/
theorem leavesNothing_iff_requester :
    ∃ db', (runFrom step Db.empty SmallEvent.twoMatches).performAccountDeletion later 1 "seed" =
      .ok db' ∧ LeavesNothing 1 db' := by
  obtain ⟨db', hjob, -⟩ := exists_ok (p := fun _ : Db => true)
    (show ((runFrom step Db.empty SmallEvent.twoMatches).performAccountDeletion later 1
      "seed").toOption.any _ = true by decide +kernel)
  exact ⟨db', hjob, (leavesNothing_iff ⟨_, rfl⟩ hjob).mpr (by decide +kernel)⟩

def withPassword : Directory :=
  let dir := SmallEvent.directory [1, 2, 3] [3]
  let credentials (user : User) : User :=
    { user with username := some "admin", passwordHash := some "hash" }
  { dir with users := dir.users.modify 3 credentials }

/-- User 2 has been asked and has not answered; user 3 has a password. -/
theorem leavesNothing_fails :
    (∃ db', (runFrom step Db.empty SmallEvent.twoMatches).performAccountDeletion later 2 "seed" =
      .ok db' ∧ ¬LeavesNothing 2 db') ∧
    ∃ db', (runFrom step Db.empty
        [(SmallEvent.clock 0, .directory withPassword)]).performAccountDeletion later 3 "seed" =
      .ok db' ∧ ¬LeavesNothing 3 db' := by
  constructor
  · obtain ⟨db', hjob, hasked⟩ := exists_ok
      (p := fun db' : Db => !decide (NothingToAnswer 2 db'))
      (show ((runFrom step Db.empty SmallEvent.twoMatches).performAccountDeletion later 2
        "seed").toOption.any _ = true by decide +kernel)
    rw [Bool.not_eq_true', decide_eq_false_iff_not] at hasked
    exact ⟨db', hjob, fun hleaves => hasked hleaves.matchOffers⟩
  · obtain ⟨db', hjob, hcredentials⟩ := exists_ok
      (p := fun db' : Db => !decide (NoCredentials 3 db'))
      (show ((runFrom step Db.empty
        [(SmallEvent.clock 0, .directory withPassword)]).performAccountDeletion later 3
          "seed").toOption.any _ = true by decide +kernel)
    rw [Bool.not_eq_true', decide_eq_false_iff_not] at hcredentials
    refine ⟨db', hjob, fun hleaves => hcredentials fun user huser => ?_⟩
    obtain ⟨-, -, -, -, hnone⟩ := hleaves.users user huser
    exact hnone

end Db
end Sahay
