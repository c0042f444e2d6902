import Sahay.Guarantees.Erasure

/-!
# A deletion that is run again

The job dies between two of its transactions and starts over from its first query.  What
the first attempt has cancelled is not listed again, and what it has wiped is wiped again
to no effect, so the transactions that count are those of one uninterrupted run.
-/

namespace Sahay

namespace Db

/-- The same database, but for the avatar seed, the times at which a job has written its
rows, the order of the log and the ids of messages. -/
structure Agrees (db db' : Db) : Prop where
  users : ∀ id, (db.users.lookup id).map User.untimed = (db'.users.lookup id).map User.untimed
  inventoryItems : ∀ id, (db.inventoryItems.lookup id).map InventoryItem.untimed =
    (db'.inventoryItems.lookup id).map InventoryItem.untimed
  requests : ∀ id, (db.requests.lookup id).map Request.untimed =
    (db'.requests.lookup id).map Request.untimed
  matchOffers : ∀ id, (db.matchOffers.lookup id).map MatchOffer.untimed =
    (db'.matchOffers.lookup id).map MatchOffer.untimed
  matchRows : ∀ id, (db.matchRows.lookup id).map Match.untimed =
    (db'.matchRows.lookup id).map Match.untimed
  conversations : ∀ id, (db.conversations.lookup id).map Conversation.untimed =
    (db'.conversations.lookup id).map Conversation.untimed
  requestTransitions : (db.requestTransitions.map RequestTransition.untimed).Perm
    (db'.requestTransitions.map RequestTransition.untimed)
  messages : (db.messages.rows.map Message.untimed).Perm (db'.messages.rows.map Message.untimed)
  rest :
    { db with
      users := ∅, inventoryItems := ∅, requests := ∅, matchOffers := ∅, matchRows := ∅
      conversations := ∅, requestTransitions := [], messages := ∅ } =
    { db' with
      users := ∅, inventoryItems := ∅, requests := ∅, matchOffers := ∅, matchRows := ∅
      conversations := ∅, requestTransitions := [], messages := ∅ }

/-- The rows of other accounts have changed through the cancellation of active matches
with the user and of the user's own open requests only. -/
structure OthersKept (userId : UserId) (db db' : Db) : Prop where
  users : ∀ id, id ≠ userId → db'.users.lookup id = db.users.lookup id
  sessions : ∀ id s, s.userId ≠ userId →
    (db'.sessions.lookup id = some s ↔ db.sessions.lookup id = some s)
  pushTokens : ∀ id t, t.userId ≠ userId →
    (db'.pushTokens.lookup id = some t ↔ db.pushTokens.lookup id = some t)
  notifications : ∀ id n, n.userId ≠ userId →
    (db'.notifications.lookup id = some n ↔ db.notifications.lookup id = some n)
  availability : ∀ id eid, id ≠ userId →
    db'.availability.lookup (id, eid) = db.availability.lookup (id, eid)
  memberLocations : ∀ id eid, id ≠ userId →
    db'.memberLocations.lookup (id, eid) = db.memberLocations.lookup (id, eid)
  notificationPrefs : ∀ id, id ≠ userId →
    db'.notificationPrefs.lookup id = db.notificationPrefs.lookup id
  blocks : ∀ id blocked, id ≠ userId →
    db'.blocks.lookup (id, blocked) = db.blocks.lookup (id, blocked)
  matchRows : Table.RewritesOnly (fun _ => True) (fun _ m => m.isActiveOf userId = true)
    (fun now _ m => m.cancelledAs .cancelledModeration "account_deleted" now)
    db.matchRows db'.matchRows
  requests : Table.RewritesOnly (fun r => r.requesterId ≠ userId)
    (fun id _ => ∃ e ∈ db.sharedMatches userId, e.2.requestId = id)
    (fun now _ r => { r with status := .moderated, closedAt := some now })
    db.requests db'.requests
  inventoryItems : Table.RewritesOnly (fun item => item.userId ≠ userId)
    (fun id _ => ∃ e ∈ db.sharedMatches userId, e.2.inventoryItemId = id)
    (fun now id item =>
      { item with
        qtyReserved := item.qtyReserved - releasedOn (db.sharedMatches userId) id
        updatedAt := now })
    db.inventoryItems db'.inventoryItems
  matchOffers : Table.RewritesOnly (fun _ => True)
    (fun _ o => o.status = .offered ∧ ∃ e ∈ db.ownOpen userId, e.1 = o.requestId)
    (fun now _ o => { o with status := .superseded, respondedAt := some now })
    db.matchOffers db'.matchOffers
  conversations : Table.RewritesOnly (fun _ => True)
    (fun _ c => ∃ e ∈ db.sharedMatches userId, e.1 = c.matchId)
    (fun now _ c =>
      { c with status := .readonly, expiresAt := some (now + conversationGraceMs) })
    db.conversations db'.conversations
  kept : ∀ id message, db.messages.lookup id = some message →
    db'.messages.lookup id = some message
  sent : ∀ id message, db'.messages.lookup id = some message →
    db.messages.lookup id = some message ∨
      ∃ e ∈ db.sharedMatches userId, message.untimed = db.notice e
  requestTransitions : ∃ log, db'.requestTransitions = db.requestTransitions ++ log ∧
    (log.map RequestTransition.untimed).Perm
      ((db.sharedMatches userId).map cancelEntry ++ (db.ownOpen userId).map closeEntry)
  rest : db'.events = db.events ∧ db'.categories = db.categories ∧
    db'.eventCategories = db.eventCategories ∧ db'.memberships = db.memberships ∧
    db'.reliabilityStats = db.reliabilityStats ∧
    db'.moderationActions = db.moderationActions ∧ db'.reports = db.reports ∧
    db'.auditLog = db.auditLog

/-! ## What one run leaves -/

section Erased

variable {db db' db'' : Db} {userId : UserId}

namespace Erased

theorem agrees (h : Erased db userId db') (h' : Erased db userId db'') : Agrees db' db'' := by
  obtain ⟨seed₁, zeroed₁, deleted₁, hframe₁⟩ := h.frame
  obtain ⟨seed₂, zeroed₂, deleted₂, hframe₂⟩ := h'.frame
  obtain ⟨log₁, hlog₁, hentries₁⟩ := h.requestTransitions
  obtain ⟨log₂, hlog₂, hentries₂⟩ := h'.requestTransitions
  constructor
  · intro id
    rw [hframe₁, hframe₂]
    change ((db.users.modify userId _).lookup id).map _ =
      ((db.users.modify userId _).lookup id).map _
    rw [Table.lookup_modify, Table.lookup_modify, Option.map_map, Option.map_map]
    congr 1
    funext user
    by_cases hid : id = userId <;> simp [hid, User.untimed]
  · refine h.inventoryItems.agree h'.inventoryItems fun id item d d' _ => ?_
    rw [erasedItem, erasedItem, sweptItem, sweptItem]
    split_ifs <;> rfl
  · refine h.requests.agree h'.requests fun id r d d' _ => ?_
    simp only [erasedRequest, closedRequest, sweptRequest]
    split_ifs <;> rfl
  · refine h.matchOffers.agree h'.matchOffers fun id o d d' _ => ?_
    rw [closedOffer, closedOffer]
    split_ifs <;> rfl
  · refine h.matchRows.agree h'.matchRows fun id m d d' _ => ?_
    rw [sweptMatch, sweptMatch]
    split_ifs <;> rfl
  · refine h.conversations.agree h'.conversations fun id c d d' _ => ?_
    rw [sweptConversation, sweptConversation]
    split_ifs <;> rfl
  · rw [hlog₁, hlog₂, List.map_append, List.map_append]
    exact (hentries₁.trans hentries₂.symm).append_left _
  · exact h.messages.trans h'.messages.symm
  · rw [hframe₁, hframe₂]
    rfl

theorem not_closed {rid : RequestId} {r : Request} (hr : db.requests.lookup rid = some r)
    (hother : r.requesterId ≠ userId) :
    ((db.ownOpen userId).any fun e => e.1 = rid) = false := by
  by_contra hany
  rw [Bool.not_eq_false] at hany
  obtain ⟨e, he, hrid⟩ := List.any_eq_true.mp hany
  obtain ⟨hr', howner, -⟩ := mem_ownOpen.mp he
  rw [of_decide_eq_true hrid, hr] at hr'
  exact hother (Option.some.inj hr' ▸ howner)

theorem othersKept (h : Erased db userId db') : OthersKept userId db db' := by
  obtain ⟨hsessions, htokens, havailability, hlocations, hnotifications, hprefs, hblocks⟩ :=
    h.wipes
  constructor
  · intro id hid
    obtain ⟨seed, zeroedAt, deletedAt, hframe⟩ := h.frame
    rw [hframe]
    exact Table.lookup_modify_ne hid
  · intro id s hs
    rw [hsessions, Table.lookup_deleteWhere_some]
    simp [hs]
  · intro id t ht
    rw [htokens, Table.lookup_deleteWhere_some]
    simp [ht]
  · intro id n hn
    rw [hnotifications, Table.lookup_deleteWhere_some]
    simp [hn]
  · intro id eid hid
    rw [havailability]
    exact Table.lookup_deleteWhere_of_not fun _ => decide_eq_false hid
  · intro id eid hid
    rw [hlocations]
    exact Table.lookup_deleteWhere_of_not fun _ => decide_eq_false hid
  · intro id hid
    rw [hprefs, Table.lookup_drop, if_neg hid]
  · intro id blocked hid
    rw [hblocks]
    exact Table.lookup_deleteWhere_of_not fun _ => decide_eq_false hid
  · refine h.matchRows.rewritesOnly fun mid m d hm _ => ?_
    rw [sweptMatch]
    split_ifs with hany
    · obtain ⟨e, he, hmid⟩ := List.any_eq_true.mp hany
      obtain ⟨hm', hshared⟩ := mem_sharedMatches.mp he
      rw [of_decide_eq_true hmid, hm] at hm'
      exact .inr ⟨Option.some.inj hm' ▸ hshared, rfl⟩
    · exact .inl rfl
  · refine h.requests.rewritesOnly fun rid r d hr hother => ?_
    rw [erasedRequest, closedRequest, not_closed hr hother, if_neg Bool.false_ne_true,
      sweptRequest]
    split_ifs with hany
    · obtain ⟨e, he, hrid⟩ := List.any_eq_true.mp hany
      exact .inr ⟨⟨e, he, of_decide_eq_true hrid⟩, rfl⟩
    · exact .inl rfl
  · refine h.inventoryItems.rewritesOnly fun id item d hi hother => ?_
    rw [erasedItem, if_neg hother, sweptItem]
    split_ifs with hany
    · obtain ⟨e, he, hid⟩ := List.any_eq_true.mp hany
      exact .inr ⟨⟨e, he, of_decide_eq_true hid⟩, rfl⟩
    · exact .inl rfl
  · refine h.matchOffers.rewritesOnly fun oid o d ho _ => ?_
    rw [closedOffer]
    split_ifs with hclosed
    · obtain ⟨hoffered, hany⟩ := Bool.and_eq_true_iff.mp hclosed
      obtain ⟨e, he, hrid⟩ := List.any_eq_true.mp hany
      exact .inr ⟨⟨of_decide_eq_true hoffered, e, he, of_decide_eq_true hrid⟩, rfl⟩
    · exact .inl rfl
  · refine h.conversations.rewritesOnly fun cid c d hc _ => ?_
    rw [sweptConversation]
    split_ifs with hany
    · obtain ⟨e, he, hmid⟩ := List.any_eq_true.mp hany
      exact .inr ⟨⟨e, he, of_decide_eq_true hmid⟩, rfl⟩
    · exact .inl rfl
  · exact h.kept
  · exact h.sent
  · exact h.requestTransitions
  · obtain ⟨seed, zeroedAt, deletedAt, hframe⟩ := h.frame
    rw [hframe]
    exact ⟨rfl, rfl, rfl, rfl, rfl, rfl, rfl, rfl⟩

theorem sharedMatches_nil (h : Erased db userId db') : db'.sharedMatches userId = [] := by
  refine List.eq_nil_iff_forall_not_mem.mpr fun e he => ?_
  obtain ⟨hm, hshared⟩ := mem_sharedMatches.mp he
  obtain ⟨hactive, hparty⟩ := Bool.and_eq_true_iff.mp hshared
  obtain ⟨hrequester, hhelper⟩ := h.no_active hm (of_decide_eq_true hactive)
  simp [hrequester, hhelper] at hparty

theorem ownOpen_nil (h : Erased db userId db') (hx : db.toExchange.Consistent) :
    db'.ownOpen userId = [] := by
  refine List.eq_nil_iff_forall_not_mem.mpr fun e he => ?_
  obtain ⟨hr, howner, hopen⟩ := mem_ownOpen.mp he
  obtain ⟨hsearching, hoffering, -⟩ := h.no_request hx hr howner
  cases hs : e.2.status <;> simp_all [RequestStatus.isOpen]

end Erased
end Erased

/-! ## What the first attempt has done already -/

variable {db db' mid : Db} {env : Env} {effects : List Effect} {userId : UserId}
  {avatarSeed seed' : String} {zeroedAt deletedAt : Time}

theorem zeroed_zeroed (now now' : Time) :
    (db.zeroed userId now).zeroed userId now' = db.zeroed userId now' := by
  simp only [zeroed]
  rw [Table.updateWhere_updateWhere]
  · exact fun _ _ howner => howner
  · exact fun _ => rfl

theorem anonymized_wiped :
    (db.deletionStatement env userId (.anonymize avatarSeed)).wiped userId seed' zeroedAt
      deletedAt = db.wiped userId seed' zeroedAt deletedAt := by
  simp only [wiped, deletionStatement, zeroed]
  rw [Table.modify_modify]
  exact fun _ => rfl

theorem wiped_of_exec {op : Op} (hop : op ∈ deletionWipes userId avatarSeed)
    (h : db.exec env op = .ok (effects, db')) :
    db'.wiped userId seed' zeroedAt deletedAt = db.wiped userId seed' zeroedAt deletedAt := by
  simp only [deletionWipes, List.mem_cons, List.not_mem_nil, or_false] at hop
  rcases hop with rfl | rfl | rfl | rfl | rfl | rfl | rfl | rfl | rfl
  case inr.inr.inr.inr.inl =>
    simp only [exec, silently, deletionZeroInventory, bind_ok, pure_ok, Prod.mk.injEq] at h
    obtain ⟨db₁, hzero, -, rfl⟩ := h
    split_ifs at hzero
    obtain rfl := pure_ok.mp hzero
    change (db.zeroed userId env.now).wiped userId seed' zeroedAt deletedAt = _
    rw [wiped, zeroed_zeroed]
    rfl
  case inr.inr.inr.inr.inr.inr.inr.inr =>
    simp only [exec, pure_ok, Prod.mk.injEq] at h
    obtain ⟨-, rfl⟩ := h
    exact anonymized_wiped
  all_goals
    simp only [exec, pure_ok, Prod.mk.injEq] at h
    obtain ⟨-, rfl⟩ := h
    simp only [deletionStatement, wiped, zeroed, Table.deleteWhere_deleteWhere, Table.drop_drop]

theorem wiped_of_commitAll (seed' : String) (zeroedAt deletedAt : Time) {is : List (Env × Op)}
    (hops : ∀ i ∈ is, i.2 ∈ deletionWipes userId avatarSeed) (h : commitAll is db = .ok mid) :
    mid.wiped userId seed' zeroedAt deletedAt = db.wiped userId seed' zeroedAt deletedAt := by
  induction is generalizing db with
  | nil => rw [pure_ok.mp h]
  | cons i is ih =>
      obtain ⟨effects, next, hexec, hrest⟩ := commitAll_cons.mp h
      rw [ih (fun i' hi' => hops i' (List.mem_cons_of_mem i hi')) hrest]
      exact wiped_of_exec (hops i List.mem_cons_self) hexec

theorem exists_scan {l l' : List ℕ} (h : l'.Perm l) : ∃ scan : ScanOrder ℕ, scan.order l = l' := by
  refine ⟨⟨fun ids => if ids = l then l' else ids, fun ids => ?_⟩, if_pos rfl⟩
  split_ifs with hids
  · exact hids ▸ h
  · exact .refl ids

theorem activeMatchesOf_perm (env : Env) :
    (db.activeMatchesOf env userId).Perm ((db.sharedMatches userId).map Prod.fst) :=
  env.scan.perm _

/-- The second attempt lists what the first has not come to. -/
theorem resumed_ops (hx : db.Consistent) {is js : List (Env × Op)} {env' : Env} {k : ℕ}
    (his : is.map Prod.snd = deletionCancels ((db.activeMatchesOf env userId).take k))
    (hfirst : commitAll is db = .ok mid)
    (hjs : js.map Prod.snd = mid.deletionOps env' userId seed') :
    ∃ env'', (is ++ js).map Prod.snd = db.deletionOps env'' userId seed' := by
  obtain ⟨L, hL, hids⟩ := Table.exists_perm_select
    (show (db.activeMatchesOf env userId).Perm _ from env.scan.perm _)
  have hactive : ∀ e ∈ L.take k, db.matchRows.lookup e.1 = some e.2 ∧ e.2.status = .active := by
    intro e he
    obtain ⟨hm, hp⟩ := Table.mem_select.mp (hL.subset (List.mem_of_mem_take he))
    exact ⟨hm, of_decide_eq_true (Bool.and_eq_true_iff.mp hp).1⟩
  have hnodup : ((L.take k).map Prod.fst).Nodup :=
    ((List.take_sublist k L).map Prod.fst).nodup
      ((hL.map Prod.fst).nodup_iff.mpr (Table.nodup_select _ _))
  rw [← hids, ← List.map_take] at his
  obtain ⟨swept, hswept, hrows, -⟩ := (Swept.nil db).commits hx hx hactive hnodup his
  obtain rfl : swept = mid := Except.ok.inj (hswept.symm.trans hfirst)
  have hrest : (swept.sharedMatches userId).Perm (L.drop k) :=
    hrows.sharedMatches_perm ((List.take_append_drop k L).symm ▸ hL)
  have hlisted : ((L.take k).map Prod.fst ++ swept.activeMatchesOf env' userId).Perm
      ((db.sharedMatches userId).map Prod.fst) := by
    have hsplit : (L.take k).map Prod.fst ++ (L.drop k).map Prod.fst = L.map Prod.fst := by
      rw [← List.map_append, List.take_append_drop]
    refine (((activeMatchesOf_perm env').trans (hrest.map _)).append_left _).trans ?_
    exact hsplit ▸ hL.map _
  obtain ⟨scan, hscan⟩ := exists_scan hlisted
  refine ⟨{ env' with scan := scan }, ?_⟩
  have hquery : db.activeMatchesOf { env' with scan := scan } userId =
      (L.take k).map Prod.fst ++ swept.activeMatchesOf env' userId := hscan
  rw [List.map_append, his, hjs, deletionOps, deletionOps, hquery, deletionCancels,
    deletionCancels, deletionCancels, List.map_append, List.append_assoc]

theorem deletionCancelRequests_nil (env : Env) (hnone : mid.ownOpen userId = []) :
    mid.deletionCancelRequests env userId = .ok mid := by
  have hopened : (env.selectIds mid.requests fun _ r =>
      r.requesterId = userId && r.status.isOpen) = [] := by
    refine List.Perm.eq_nil ((env.scan.perm _).trans (.of_eq ?_))
    exact List.map_eq_nil_iff.mpr hnone
  rw [deletionCancelRequests, hopened]
  rfl

/-- An attempt that comes after all cancellations ends where its wipe takes the first. -/
theorem resumed_wipe {closed full : Db} {is js : List (Env × Op)} {env' : Env}
    (hx : closed.Consistent) (hops : ∀ i ∈ is, i.2 ∈ deletionWipes userId avatarSeed)
    (hfirst : commitAll is closed = .ok mid)
    (hfull : full = closed.wiped userId avatarSeed zeroedAt deletedAt)
    (hmatches : full.sharedMatches userId = []) (hrequests : full.ownOpen userId = [])
    (hjs : js.map Prod.snd = mid.deletionOps env' userId seed')
    (hsecond : commitAll js mid = .ok db') :
    ∃ ws, ws.map Prod.snd = deletionWipes userId seed' ∧ commitAll ws closed = .ok db' := by
  have hmid := commitAll_consistent hx hfirst
  -- What the wipe does not touch is as the whole job leaves it.
  have hsame := wiped_of_commitAll avatarSeed zeroedAt deletedAt hops hfirst
  rw [← hsame] at hfull
  have hopen : mid.ownOpen userId = [] := by
    rw [hfull] at hrequests
    exact hrequests
  have hlisted : mid.activeMatchesOf env' userId = [] := by
    refine List.Perm.eq_nil ((activeMatchesOf_perm env').trans (.of_eq ?_))
    rw [hfull] at hmatches
    exact List.map_eq_nil_iff.mpr hmatches
  rw [deletionOps, hlisted] at hjs
  obtain ⟨⟨e, op⟩, ws, rfl, rfl, hws⟩ := List.map_eq_cons_iff.mp hjs
  refine ⟨ws, hws, ?_⟩
  obtain ⟨effects, next, hexec, hrest⟩ := commitAll_cons.mp hsecond
  have hnone : mid.exec e (.deletionCancelRequests userId) = .ok ([], mid) := by
    rw [exec, deletionCancelRequests_nil e hopen]
    rfl
  obtain ⟨-, rfl⟩ := Prod.mk.inj (Except.ok.inj (hnone.symm.trans hexec))
  obtain ⟨zeroedAt', deletedAt', hwipe⟩ := deletionWipes_commit hws
  rw [hwipe mid hmid.exchange] at hrest
  rw [hwipe closed hx.exchange, ← wiped_of_commitAll _ _ _ hops hfirst, hrest]

/-- The transactions of both attempts that count are those of one uninterrupted run. -/
theorem deletion_resumes (hx : db.Consistent) {is js : List (Env × Op)} {env' : Env} {k : ℕ}
    (his : is.map Prod.snd = db.deletionOps env userId avatarSeed)
    (hfirst : commitAll (is.take k) db = .ok mid)
    (hjs : js.map Prod.snd = mid.deletionOps env' userId seed')
    (hsecond : commitAll js mid = .ok db') :
    ∃ env'' ls, ls.map Prod.snd = db.deletionOps env'' userId seed' ∧
      commitAll ls db = .ok db' := by
  obtain ⟨full, hcommit, herased⟩ := deletion_erases hx his
  obtain ⟨is₁, is₂, rfl, h₁, h₂⟩ := List.map_eq_append_iff.mp his
  obtain ⟨⟨e, op⟩, is₃, rfl, rfl, h₃⟩ := List.map_eq_cons_iff.mp h₂
  rcases le_or_gt k is₁.length with hk | hk
  · -- It has died in the first step.
    rw [List.take_append_of_le_length hk] at hfirst
    have htaken : (is₁.take k).map Prod.snd =
        deletionCancels ((db.activeMatchesOf env userId).take k) := by
      rw [List.map_take, h₁, deletionCancels, deletionCancels, List.map_take]
    obtain ⟨env'', hops⟩ := resumed_ops hx htaken hfirst hjs
    exact ⟨env'', _, hops, commitAll_append.mpr ⟨mid, hfirst, hsecond⟩⟩
  · -- It has died later.
    obtain ⟨j, hj⟩ : ∃ j, k - is₁.length = j + 1 := ⟨k - is₁.length - 1, by omega⟩
    rw [List.take_append, List.take_of_length_le hk.le, hj, List.take_succ_cons] at hfirst
    obtain ⟨swept, hcommit₁, hlater⟩ := commitAll_append.mp hfirst
    obtain ⟨effects, closed, hexec, hwipe⟩ := commitAll_cons.mp hlater
    obtain ⟨swept', hcommit₁', hlater'⟩ := commitAll_append.mp hcommit
    obtain ⟨effects', closed', hexec', hwipe'⟩ := commitAll_cons.mp hlater'
    obtain rfl : swept' = swept := Except.ok.inj (hcommit₁'.symm.trans hcommit₁)
    obtain ⟨rfl, rfl⟩ := Prod.mk.inj (Except.ok.inj (hexec'.symm.trans hexec))
    have hx' := exec_consistent (commitAll_consistent hx hcommit₁) hexec
    obtain ⟨zeroedAt, deletedAt, hwiped⟩ := deletionWipes_commit h₃
    have hfull := Except.ok.inj (hwipe'.symm.trans (hwiped closed' hx'.exchange))
    have hops : ∀ i ∈ is₃.take j, i.2 ∈ deletionWipes userId avatarSeed := fun i hi =>
      h₃ ▸ List.mem_map_of_mem (List.mem_of_mem_take hi)
    obtain ⟨ws, hws, hend⟩ := resumed_wipe hx' hops hwipe hfull herased.sharedMatches_nil
      (herased.ownOpen_nil hx.exchange) hjs hsecond
    refine ⟨env, is₁ ++ (e, .deletionCancelRequests userId) :: ws, ?_, ?_⟩
    · rw [List.map_append, h₁, List.map_cons, hws]
      rfl
    · exact commitAll_append.mpr
        ⟨swept', hcommit₁, commitAll_cons.mpr ⟨effects', closed', hexec, hend⟩⟩

/-! ## Both attempts -/

/-- However far the first attempt has got, the second goes through and ends in a state of
an uninterrupted run.  All such states agree, and none has touched more of other accounts
than the shared matches and the user's open requests. -/
theorem performAccountDeletion_resumes (hdb : db.Reached) (envs envs' : ℕ → Env)
    (userId : UserId) (avatarSeed seed' : String) (k : ℕ) :
    ∃ mid db', commitAll ((db.deletionScript envs userId avatarSeed).take k) db = .ok mid ∧
      mid.performAccountDeletion envs' userId seed' = .ok db' ∧
      (∃ envs'', db.performAccountDeletion envs'' userId seed' = .ok db') ∧
      OthersKept userId db db' ∧
      ∀ envs'' seed'' db'', db.performAccountDeletion envs'' userId seed'' = .ok db'' →
        Agrees db' db'' ∧ OthersKept userId db db'' := by
  have hx := hdb.consistent
  have hops := deletionScript_ops db envs userId avatarSeed
  obtain ⟨full, hcommit, -⟩ := deletion_erases hx hops
  rw [← List.take_append_drop k (db.deletionScript envs userId avatarSeed)] at hcommit
  obtain ⟨mid, hfirst, -⟩ := commitAll_append.mp hcommit
  obtain ⟨db', hsecond, -⟩ :=
    deletion_erases (commitAll_consistent hx hfirst) (deletionScript_ops mid envs' userId seed')
  obtain ⟨env'', ls, hls, hend⟩ := deletion_resumes hx hops hfirst
    (deletionScript_ops mid envs' userId seed') hsecond
  obtain ⟨envs'', rfl⟩ := exists_deletionScript hls
  have herased := performAccountDeletion_erases hx hend
  refine ⟨mid, db', hfirst, hsecond, ⟨envs'', hend⟩, herased.othersKept, ?_⟩
  intro envs₃ seed₃ db'' hrun
  have herased' := performAccountDeletion_erases hx hrun
  exact ⟨herased.agrees herased', herased'.othersKept⟩

/-- The helper of two matches is deleted; the job dies between the two cancellations. -/
theorem performAccountDeletion_resumes_helper :
    ∃ mid db', commitAll
        (((runFrom step Db.empty SmallEvent.twoMatches).deletionScript later 2 "a").take 1)
        (runFrom step Db.empty SmallEvent.twoMatches) = .ok mid ∧
      mid.performAccountDeletion later 2 "b" = .ok db' ∧
      ∃ envs'', (runFrom step Db.empty SmallEvent.twoMatches).performAccountDeletion envs'' 2 "b" =
        .ok db' := by
  obtain ⟨mid, db', hfirst, hsecond, hrun, -⟩ :=
    performAccountDeletion_resumes ⟨_, rfl⟩ later later 2 "a" "b" 1
  exact ⟨mid, db', hfirst, hsecond, hrun⟩

end Db
end Sahay
