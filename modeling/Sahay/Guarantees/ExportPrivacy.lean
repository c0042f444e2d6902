import Sahay.Lib.Aggregate
import Sahay.Server.Export
import Sahay.Server.Figures
import Sahay.Server.System

/-!
# Privacy of the data export

What a user downloads is a function of their own rows, of events and categories, and of what
a match shows to either side.  Two databases that agree there, with the other users renamed
and everything else of theirs different, yield the same bundle.
-/

namespace Sahay

/-! ## Results of a query -/

section Queries

variable {γ : Type} {env : Env} {keys keys' : List ℕ} {view view' : ℕ → Option γ}

theorem Env.collect_congr (hnd : keys.Nodup) (hnd' : keys'.Nodup) (hview : ∀ k, view' k = view k)
    (hcover : ∀ k, (view k).isSome → k ∈ keys) (hcover' : ∀ k, (view k).isSome → k ∈ keys') :
    env.collect keys' view' = env.collect keys view := by
  obtain rfl : view' = view := funext hview
  have hsame : (keys'.filter fun k => (view' k).isSome).Perm
      (keys.filter fun k => (view' k).isSome) := by
    apply (List.perm_ext_iff_of_nodup (hnd'.filter _) (hnd.filter _)).mpr
    intro k
    rw [List.mem_filter, List.mem_filter]
    exact ⟨fun h => ⟨hcover k h.2, h.2⟩, fun h => ⟨hcover' k h.2, h.2⟩⟩
  have hsorted : (keys'.filter fun k => (view' k).isSome).insertionSort (· ≤ ·) =
      (keys.filter fun k => (view' k).isSome).insertionSort (· ≤ ·) := by
    apply List.Perm.eq_of_pairwise' (List.pairwise_insertionSort _ _)
      (List.pairwise_insertionSort _ _)
    exact (List.perm_insertionSort _ _).trans (hsame.trans (List.perm_insertionSort _ _).symm)
  rw [collect, collect, hsorted]

theorem Env.rows_congr {ρ : Type} {t t' : Table ℕ ρ} {view view' : ρ → Option γ}
    (hview : ∀ k, (t'.lookup k).bind view' = (t.lookup k).bind view) :
    env.rows t' view' = env.rows t view := by
  have covers {t : Table ℕ ρ} {view : ρ → Option γ} {k : ℕ}
      (hk : ((t.lookup k).bind view).isSome) : k ∈ t.keys := by
    obtain ⟨r, hr, -⟩ := Option.bind_eq_some_iff.mp (Option.some_get hk).symm
    exact AList.mem_keys.mp (AList.lookup_isSome.mp (Option.isSome_of_eq_some hr))
  apply collect_congr t.keys_nodup t'.keys_nodup hview
  · intro k hk
    exact covers hk
  · intro k hk
    exact covers (hview k ▸ hk)

/-- Tables with corresponding rows have the same results in a view of these rows. -/
theorem Env.rows_corresponds {ρ : Type} {t t' : Table ℕ ρ} {own : ρ → Prop} {sim : ρ → ρ → Prop}
    (h : t.Corresponds own sim t') {view view' : ρ → Option γ}
    (hown : ∀ r, ¬own r → view r = none) (hown' : ∀ r, ¬own r → view' r = none)
    (hsim : ∀ r r', own r → own r' → sim r r' → view' r' = view r) :
    env.rows t' view' = env.rows t view :=
  rows_congr (h.bind_eq hown hown' hsim)

theorem Env.collect_perm : (env.collect keys view).Perm (keys.filterMap view) := by
  have hfound : (keys.filter fun k => (view k).isSome).filterMap view = keys.filterMap view := by
    rw [List.filterMap_filter]
    congr 1
    funext k
    cases view k <;> rfl
  rw [← hfound]
  exact ((env.scan.perm _).trans (List.perm_insertionSort _ _)).filterMap view

theorem newestFirst_eq_of_perm {time : γ → Time} (htime : Function.Injective time)
    {rows rows' : List γ} (h : rows.Perm rows') :
    newestFirst time rows = newestFirst time rows' := by
  let newer (a b : γ) : Prop := time b ≤ time a
  have : Std.Total newer := ⟨fun a b => le_total (time b) (time a)⟩
  have : IsTrans γ newer := ⟨fun _ _ _ hab hbc => le_trans hbc hab⟩
  have : Std.Antisymm newer := ⟨fun _ _ hab hba => htime (le_antisymm hba hab)⟩
  apply List.Perm.eq_of_pairwise' (r := newer) (List.pairwise_insertionSort _ _)
    (List.pairwise_insertionSort _ _)
  exact (List.perm_insertionSort _ _).trans (h.trans (List.perm_insertionSort _ _).symm)

end Queries

/-! ## Agreement -/

def Event.rename (π : UserId → UserId) (event : Event) : Event :=
  { event with createdBy := event.createdBy.map π }

def Report.rename (π : UserId → UserId) (r : Report) : Report :=
  { r with
    reporterId := r.reporterId.map π
    subjectUserId := r.subjectUserId.map π
    resolvedBy := r.resolvedBy.map π }

/-- The matches agree in the sides that `u` takes, in what both sides see, and in what `u` has
confirmed. -/
structure Match.AgreesFor (u : UserId) (m m' : Match) : Prop where
  requester : m'.requesterId = u ↔ m.requesterId = u
  helper : m'.helperId = u ↔ m.helperId = u
  requesterAlias : m'.requesterAlias = m.requesterAlias
  helperAlias : m'.helperAlias = m.helperAlias
  qtyReserved : m'.qtyReserved = m.qtyReserved
  status : m'.status = m.status
  createdAt : m'.createdAt = m.createdAt
  closedAt : m'.closedAt = m.closedAt
  requesterConfirmed : m.requesterId = u → m'.requesterConfirmedQty = m.requesterConfirmedQty
  helperConfirmed : m.helperId = u → m'.helperConfirmedQty = m.helperConfirmedQty

namespace Db

/-- The databases agree on `u`'s own rows, on events and categories, and on `u`'s matches; `π`
renames the other users, and nothing else about them is compared. -/
structure ExportAgrees (u : UserId) (π : UserId → UserId) (db db' : Db) : Prop where
  injective : Function.Injective π
  fixed : π u = u
  user : db'.users.lookup u = db.users.lookup u
  events : ∀ e, db'.events.lookup e = (db.events.lookup e).map (Event.rename π)
  categories : ∀ c, db'.categories.lookup c = db.categories.lookup c
  memberships : ∀ e, db'.memberships.lookup (u, e) = db.memberships.lookup (u, e)
  sessions : db.sessions.Corresponds (fun s => s.userId = u) Eq db'.sessions
  inventoryItems : db.inventoryItems.Corresponds (fun item => item.userId = u) Eq db'.inventoryItems
  requests : db.requests.Corresponds (fun r => r.requesterId = u) Eq db'.requests
  matchRows : db.matchRows.Corresponds (fun m => m.requesterId = u ∨ m.helperId = u)
    (fun m m' => m.AgreesFor u m' ∧ db'.matchCategory m' = db.matchCategory m) db'.matchRows
  messages : db.messages.Corresponds (fun m => m.senderId = u) Eq db'.messages
  reports : db.reports.Corresponds (fun r => r.reporterId = some u)
    (fun r r' => r' = r.rename π) db'.reports
  consentRecords : db.consentRecords.Corresponds (fun c => c.userId = u) Eq db'.consentRecords
  notifications : db.notifications.Corresponds (fun n => n.userId = u) Eq db'.notifications
  blocks : ∀ v, db'.blocks.lookup (u, π v) = db.blocks.lookup (u, v)
  blocked : ∀ w, (u, w) ∈ db'.blocks → ∃ v, π v = w

variable {u : UserId} {π : UserId → UserId} {db db' : Db} {env : Env}

/-! ## Sections of the bundle -/

theorem mem_keysOf {ρ : Type} {t : Table (UserId × ℕ) ρ} {k : ℕ} :
    k ∈ keysOf u t ↔ (u, k) ∈ t := by
  simp only [keysOf, List.mem_map, List.mem_filter, decide_eq_true_eq, Prod.exists,
    ← AList.mem_keys]
  constructor
  · rintro ⟨_, _, ⟨hmem, rfl⟩, rfl⟩
    exact hmem
  · exact fun h => ⟨u, k, ⟨h, rfl⟩, rfl⟩

theorem nodup_keysOf {ρ : Type} (t : Table (UserId × ℕ) ρ) : (keysOf u t).Nodup := by
  apply (t.keys_nodup.filter _).map_on
  intro a ha b hb hab
  simp only [List.mem_filter, decide_eq_true_eq] at ha hb
  exact Prod.ext (ha.2.trans hb.2.symm) hab

theorem ExportAgrees.sessions_eq (h : ExportAgrees u π db db') :
    env.rows db'.sessions (exportSession u) = env.rows db.sessions (exportSession u) := by
  have hown (s : Session) (hs : ¬s.userId = u) : exportSession u s = none := by
    simp [exportSession, hs]
  exact Env.rows_corresponds h.sessions hown hown fun _ _ _ _ heq => by rw [heq]

theorem ExportAgrees.messages_eq (h : ExportAgrees u π db db') :
    env.rows db'.messages (exportMessage u) = env.rows db.messages (exportMessage u) := by
  have hown (m : Message) (hm : ¬m.senderId = u) : exportMessage u m = none := by
    simp [exportMessage, hm]
  exact Env.rows_corresponds h.messages hown hown fun _ _ _ _ heq => by rw [heq]

theorem ExportAgrees.consents_eq (h : ExportAgrees u π db db') :
    env.rows db'.consentRecords (exportConsent u) =
      env.rows db.consentRecords (exportConsent u) := by
  have hown (c : ConsentRecord) (hc : ¬c.userId = u) : exportConsent u c = none := by
    simp [exportConsent, hc]
  exact Env.rows_corresponds h.consentRecords hown hown fun _ _ _ _ heq => by rw [heq]

theorem ExportAgrees.notifications_eq (h : ExportAgrees u π db db') :
    env.rows db'.notifications (exportNotification u) =
      env.rows db.notifications (exportNotification u) := by
  have hown (n : Notification) (hn : ¬n.userId = u) : exportNotification u n = none := by
    simp [exportNotification, hn]
  exact Env.rows_corresponds h.notifications hown hown fun _ _ _ _ heq => by rw [heq]

theorem ExportAgrees.reports_eq (h : ExportAgrees u π db db') :
    env.rows db'.reports (exportReport u) = env.rows db.reports (exportReport u) := by
  have hown (r : Report) (hr : ¬r.reporterId = some u) : exportReport u r = none := by
    simp [exportReport, hr]
  apply Env.rows_corresponds h.reports hown hown
  rintro r _ hr hr' rfl
  rw [exportReport, exportReport, hr, hr']
  rfl

theorem ExportAgrees.memberships_eq (h : ExportAgrees u π db db') :
    env.collect (keysOf u db'.memberships) (db'.exportMembership u) =
      env.collect (keysOf u db.memberships) (db.exportMembership u) := by
  have covers {db : Db} {e : EventId} (he : (db.exportMembership u e).isSome) :
      e ∈ keysOf u db.memberships := by
    obtain ⟨m, hm, -⟩ := Option.bind_eq_some_iff.mp (Option.some_get he).symm
    exact mem_keysOf.mpr (AList.lookup_isSome.mp (Option.isSome_of_eq_some hm))
  have hview (e : EventId) : db'.exportMembership u e = db.exportMembership u e := by
    simp only [exportMembership, h.memberships, h.events]
    cases db.events.lookup e <;> rfl
  apply Env.collect_congr (nodup_keysOf _) (nodup_keysOf _) hview
  · intro e he
    exact covers he
  · intro e he
    exact covers (hview e ▸ he)

theorem ExportAgrees.items_eq (h : ExportAgrees u π db db') :
    env.rows db'.inventoryItems (db'.exportItem u) =
      env.rows db.inventoryItems (db.exportItem u) := by
  have hown {db : Db} (item : InventoryItem) (hitem : ¬item.userId = u) :
      db.exportItem u item = none := by
    simp [exportItem, hitem]
  apply Env.rows_corresponds h.inventoryItems hown hown
  rintro item _ hitem - rfl
  simp only [exportItem, h.categories, h.events]
  cases db.events.lookup item.eventId <;> rfl

theorem ExportAgrees.requests_eq (h : ExportAgrees u π db db') :
    env.rows db'.requests (db'.exportRequest u) = env.rows db.requests (db.exportRequest u) := by
  have hown {db : Db} (r : Request) (hr : ¬r.requesterId = u) : db.exportRequest u r = none := by
    simp [exportRequest, hr]
  apply Env.rows_corresponds h.requests hown hown
  rintro r _ hr - rfl
  simp only [exportRequest, h.categories, h.events]
  cases db.events.lookup r.eventId <;> rfl

theorem ExportAgrees.matches_eq (h : ExportAgrees u π db db') :
    env.rows db'.matchRows (db'.exportMatch u) = env.rows db.matchRows (db.exportMatch u) := by
  have hown {db : Db} (m : Match) (hm : ¬(m.requesterId = u ∨ m.helperId = u)) :
      db.exportMatch u m = none := by
    simp [exportMatch, hm]
  apply Env.rows_corresponds h.matchRows hown hown
  rintro m m' hm hm' ⟨hsim, hcategory⟩
  have hconfirmed : (if m.requesterId = u then m'.requesterConfirmedQty
        else m'.helperConfirmedQty) =
      if m.requesterId = u then m.requesterConfirmedQty else m.helperConfirmedQty := by
    split_ifs with hside
    · exact hsim.requesterConfirmed hside
    · exact hsim.helperConfirmed (hm.resolve_left hside)
  simp only [exportMatch, hsim.requester, hconfirmed, hsim.helper, hsim.requesterAlias,
    hsim.helperAlias, hsim.qtyReserved, hsim.status, hsim.createdAt, hsim.closedAt, h.categories]
  unfold matchCategory at hcategory
  cases hr : db.requests.lookup m.requestId with
  | none =>
    rw [hr, Option.map_none, Option.map_eq_none_iff] at hcategory
    rw [hcategory]
  | some r =>
    rw [hr, Option.map_some] at hcategory
    obtain ⟨r', hr', hid⟩ := Option.map_eq_some_iff.mp hcategory
    simp only [hr', Option.bind_eq_bind, Option.bind_some]
    rw [hid]

/-- A block shows when it was made, not whom it is against. -/
theorem ExportAgrees.blocks_eq (h : ExportAgrees u π db db') :
    newestFirst ExportedBlock.createdAt (env.collect (keysOf u db'.blocks) (db'.exportBlock u)) =
      newestFirst ExportedBlock.createdAt
        (env.collect (keysOf u db.blocks) (db.exportBlock u)) := by
  have hkeys : (keysOf u db'.blocks).Perm ((keysOf u db.blocks).map π) := by
    apply (List.perm_ext_iff_of_nodup (nodup_keysOf _) ((nodup_keysOf _).map h.injective)).mpr
    intro w
    rw [mem_keysOf, List.mem_map]
    constructor
    · intro hw
      obtain ⟨v, rfl⟩ := h.blocked w hw
      rw [← AList.lookup_isSome, h.blocks, AList.lookup_isSome] at hw
      exact ⟨v, mem_keysOf.mpr hw, rfl⟩
    · rintro ⟨v, hv, rfl⟩
      rw [← AList.lookup_isSome, h.blocks, AList.lookup_isSome]
      exact mem_keysOf.mp hv
  have hview : db'.exportBlock u ∘ π = db.exportBlock u := by
    funext v
    simp only [Function.comp_apply, exportBlock, h.blocks]
  apply newestFirst_eq_of_perm
  · rintro ⟨s⟩ ⟨t⟩ rfl
    rfl
  · have hsame : ((keysOf u db'.blocks).filterMap (db'.exportBlock u)).Perm
        ((keysOf u db.blocks).filterMap (db.exportBlock u)) := by
      rw [← hview, ← List.filterMap_map]
      exact hkeys.filterMap _
    exact Env.collect_perm.trans (hsame.trans Env.collect_perm.symm)

/-- The export shows nothing of the other users. -/
theorem buildExportBundle_private (h : ExportAgrees u π db db') (env : Env) (now : Time) :
    db'.buildExportBundle u { env with now } =
      (db.buildExportBundle u env).map fun bundle => { bundle with generatedAt := now } := by
  have hsame : db'.buildExportBundle u env = db.buildExportBundle u env := by
    rw [buildExportBundle, buildExportBundle, h.user, h.sessions_eq, h.memberships_eq, h.items_eq,
      h.requests_eq, h.matches_eq, h.messages_eq, h.reports_eq, h.blocks_eq, h.consents_eq,
      h.notifications_eq]
  rw [← hsame]
  unfold buildExportBundle
  cases db'.users.lookup u <;> rfl

/-- The same for user 1, with user 5 in the place of user 2: suspended, without a location,
with more stock, and with a quantity confirmed. -/
def retold (db : Db) : Db :=
  { db with
    users := (db.users.drop 2).put 5 { status := .suspended }
    events := db.events.mapVal fun _ => Event.rename (Equiv.swap 2 5)
    memberLocations := ∅
    blocks := (∅ : Table (UserId × UserId) Block).put (1, 5) { createdAt := 5 }
    inventoryItems := db.inventoryItems.mapVal fun _ item =>
      if item.userId = 1 then item else { item with userId := 5, qtyOnHand := item.qtyOnHand + 7 }
    matchRows := db.matchRows.mapVal fun _ m =>
      if m.helperId = 1 then m else { m with helperId := 5, helperConfirmedQty := some 1 }
    reports := db.reports.mapVal fun _ => Report.rename (Equiv.swap 2 5) }

theorem retold_agrees
    (hblocks : db.blocks = (∅ : Table (UserId × UserId) Block).put (1, 2) { createdAt := 5 }) :
    ExportAgrees 1 (Equiv.swap 2 5) db (retold db) where
  injective := Equiv.injective _
  fixed := rfl
  user := by
    rw [retold, AList.lookup_insert_ne (by decide), AList.lookup_erase_ne (by decide)]
  events := Table.lookup_mapVal _ _
  categories _ := rfl
  memberships _ := rfl
  sessions := .refl (fun _ _ => rfl) _
  inventoryItems := by
    dsimp only [retold]
    apply Table.Corresponds.mapVal
    · intro _ item
      split_ifs with hown
      · rfl
      · simp [hown]
    · intro _ item hown
      rw [if_pos hown]
  requests := .refl (fun _ _ => rfl) _
  matchRows := by
    dsimp only [retold]
    apply Table.Corresponds.mapVal
    · intro _ m
      split_ifs with hown
      · rfl
      · simp [hown]
    · intro _ m _
      split_ifs with hown
      · exact ⟨⟨.rfl, .rfl, rfl, rfl, rfl, rfl, rfl, rfl, fun _ => rfl, fun _ => rfl⟩, rfl⟩
      · exact ⟨⟨.rfl, by simp [hown], rfl, rfl, rfl, rfl, rfl, rfl, fun _ => rfl,
          fun hhelper => absurd hhelper hown⟩, rfl⟩
  messages := .refl (fun _ _ => rfl) _
  reports := by
    dsimp only [retold]
    apply Table.Corresponds.mapVal
    · intro _ r
      have hfixed : (Equiv.swap 2 5 : UserId ≃ UserId) 1 = 1 := rfl
      rw [Report.rename, Option.map_eq_some_iff]
      constructor
      · rintro ⟨v, hv, heq⟩
        rw [hv, (Equiv.swap 2 5).injective (heq.trans hfixed.symm)]
      · exact fun hr => ⟨1, hr, hfixed⟩
    · exact fun _ _ _ => rfl
  consentRecords := .refl (fun _ _ => rfl) _
  notifications := .refl (fun _ _ => rfl) _
  blocks v := by
    rw [hblocks, retold]
    by_cases hv : v = 2
    · rw [hv, Equiv.swap_apply_left, AList.lookup_insert, AList.lookup_insert]
    · have hv' : (Equiv.swap 2 5 : UserId ≃ UserId) v ≠ 5 := by
        intro heq
        exact hv ((Equiv.swap 2 5).injective (heq.trans (Equiv.swap_apply_left 2 5).symm))
      rw [AList.lookup_insert_ne (by simpa using hv'), AList.lookup_insert_ne (by simpa using hv)]
      rfl
  blocked w _ := (Equiv.swap 2 5).surjective w

def downloaded : Db :=
  { runFrom step Db.empty SmallEvent.oneMatch with
    blocks := (∅ : Table (UserId × UserId) Block).put (1, 2) { createdAt := 5 } }

/-- The bundle of user 1 has a match and a block, and does not tell user 5 from user 2. -/
theorem buildExportBundle_private_retold :
    ((downloaded.buildExportBundle 1 (SmallEvent.clock 9)).any fun bundle =>
        bundle.matchRows.length = 1 && bundle.blocks.length = 1) = true ∧
      (retold downloaded).buildExportBundle 1 { SmallEvent.clock 9 with now := 10 } =
        (downloaded.buildExportBundle 1 (SmallEvent.clock 9)).map fun bundle =>
          { bundle with generatedAt := 10 } :=
  ⟨by decide +kernel, buildExportBundle_private (retold_agrees rfl) _ _⟩

end Db
end Sahay
