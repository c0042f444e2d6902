import Mathlib.Data.List.Perm.Subperm
import Sahay.Server.Wants

/-!
# The public list of wants

The list of an event merges two sources, the organiser's wants by category and the requests
by slug.  Slugs are unique, so the organiser's rows are the last-wins map of what was set
last, the requests add the other slugs, and no slug stands twice.
-/

namespace Sahay
namespace Db

variable {db db' : Db} {e : EventId} {wants : List AdminWantInput} {slug : String}

/-- `UNIQUE (slug)` of the categories. -/
def SlugsUnique (db : Db) : Prop :=
  ∀ c c' cat cat', db.categories.lookup c = some cat → db.categories.lookup c' = some cat' →
    cat.slug = cat'.slug → c = c'

/-! ## The two sources -/

def adminRows (db : Db) (e : EventId) : List (Category × Option ℕ) :=
  ((db.eventAdminWants.select fun k _ => k.1 = e).filterMap fun entry =>
    (db.categories.lookup entry.1.2).map fun c => (c, entry.2.qty)).insertionSort
      fun a b => a.1.sortOrder ≤ b.1.sortOrder

def slugOf (db : Db) (r : Request) : Option String :=
  (db.categories.lookup r.categoryId).map Category.slug

def asksFor (db : Db) (e : EventId) (slug : String) (r : Request) : Bool :=
  (r.eventId = e && (r.status = .searching || r.status = .offering)) && db.slugOf r = some slug

def outstanding (db : Db) (e : EventId) (slug : String) : Qty :=
  db.requests.sumWhere (fun _ r => db.asksFor e slug r) fun r => r.qty - r.qtyFulfilled

def demand (db : Db) (e : EventId) (slug : String) : Agg :=
  Agg.of db.requests (fun _ r => db.asksFor e slug r) (fun r => r.qty - r.qtyFulfilled)
    Request.requesterId

def demandRows (db : Db) (e : EventId) : List (String × Agg) :=
  let wanted (_ : RequestId) (r : Request) : Bool :=
    r.eventId = e && (r.status = .searching || r.status = .offering)
  let slugs := ((db.requests.select wanted).filterMap fun entry => db.slugOf entry.2).dedup
  (slugs.map fun slug => (slug, db.demand e slug)).insertionSort fun a b => b.2.qty ≤ a.2.qty

theorem computePublicWants_eq (db : Db) (e : EventId) :
    db.computePublicWants e =
      ((db.adminRows e).map fun row => ⟨row.1.slug, .admin, row.2.map fun n => (n : Qty), none⟩) ++
      ((db.demandRows e).filter fun row => row.1 ∉ (db.adminRows e).map fun a => a.1.slug).map
        fun row => ⟨row.1, .user, some row.2.qty, some row.2.users⟩ := rfl

theorem mem_adminRows {row : Category × Option ℕ} :
    row ∈ db.adminRows e ↔ ∃ c a, db.eventAdminWants.lookup (e, c) = some a ∧
      db.categories.lookup c = some row.1 ∧ a.qty = row.2 := by
  unfold adminRows
  rw [(List.perm_insertionSort _ _).mem_iff]
  simp only [List.mem_filterMap, Table.mem_select, Option.map_eq_some_iff, decide_eq_true_eq]
  constructor
  · rintro ⟨⟨⟨_, c⟩, a⟩, ⟨ha, rfl⟩, cat, hcat, rfl⟩
    exact ⟨c, a, ha, hcat, rfl⟩
  · rintro ⟨c, a, ha, hcat, hqty⟩
    exact ⟨((e, c), a), ⟨ha, rfl⟩, row.1, hcat, by rw [hqty]⟩

theorem nodup_adminRows (hslugs : db.SlugsUnique) :
    ((db.adminRows e).map fun row => row.1.slug).Nodup := by
  unfold adminRows
  rw [((List.perm_insertionSort _ _).map _).nodup_iff, List.Nodup, List.pairwise_map,
    List.pairwise_filterMap]
  have hkeys := List.pairwise_map.mp (db.eventAdminWants.nodup_select fun k _ => k.1 = e)
  refine hkeys.imp_of_mem fun {x y} hx hy hne row hrow row' hrow' hslug => hne ?_
  obtain ⟨cat, hcat, rfl⟩ := Option.map_eq_some_iff.mp hrow
  obtain ⟨cat', hcat', rfl⟩ := Option.map_eq_some_iff.mp hrow'
  have hex : x.1.1 = e := of_decide_eq_true (Table.mem_select.mp hx).2
  have hey : y.1.1 = e := of_decide_eq_true (Table.mem_select.mp hy).2
  exact Prod.ext (hex.trans hey.symm) (hslugs _ _ _ _ hcat hcat' hslug)

theorem exists_admin_iff {qty : Option Qty} :
    (∃ w ∈ db.computePublicWants e, w.source = .admin ∧ w.categorySlug = slug ∧
      w.requestedQty = qty) ↔
    ∃ row ∈ db.adminRows e, row.1.slug = slug ∧ qty = row.2.map fun n => (n : Qty) := by
  rw [computePublicWants_eq]
  constructor
  · rintro ⟨w, hw, hsource, hslug, hqty⟩
    rcases List.mem_append.mp hw with hw | hw
    · obtain ⟨row, hrow, rfl⟩ := List.mem_map.mp hw
      exact ⟨row, hrow, hslug, hqty.symm⟩
    · obtain ⟨row, -, rfl⟩ := List.mem_map.mp hw
      cases hsource
  · rintro ⟨row, hrow, hslug, hqty⟩
    exact ⟨_, List.mem_append_left _ (List.mem_map_of_mem hrow), rfl, hslug, hqty.symm⟩

theorem mem_demandRows {row : String × Agg} :
    row ∈ db.demandRows e ↔
      (∃ rid r, db.requests.lookup rid = some r ∧ db.asksFor e row.1 r = true) ∧
        row.2 = db.demand e row.1 := by
  unfold demandRows
  rw [(List.perm_insertionSort _ _).mem_iff, List.mem_map]
  simp only [List.mem_dedup, List.mem_filterMap, Table.mem_select, Prod.exists]
  constructor
  · rintro ⟨slug, ⟨rid, r, ⟨hr, hopen⟩, hslug⟩, rfl⟩
    exact ⟨⟨rid, r, hr, by simp [asksFor, hopen, hslug]⟩, rfl⟩
  · rintro ⟨⟨rid, r, hr, hasks⟩, hagg⟩
    obtain ⟨hopen, hslug⟩ := Bool.and_eq_true_iff.mp hasks
    exact ⟨row.1, ⟨rid, r, ⟨hr, hopen⟩, of_decide_eq_true hslug⟩, Prod.ext rfl hagg.symm⟩

/-- A users' entry comes from a requested slug that the organiser does not want. -/
theorem exists_user_iff {qty : Option Qty} :
    (∃ w ∈ db.computePublicWants e, w.source = .user ∧ w.categorySlug = slug ∧
      w.requestedQty = qty) ↔
    (slug ∉ (db.adminRows e).map fun a => a.1.slug) ∧
      (∃ rid r, db.requests.lookup rid = some r ∧ db.asksFor e slug r = true) ∧
      qty = some (db.outstanding e slug) := by
  rw [computePublicWants_eq]
  constructor
  · rintro ⟨w, hw, hsource, rfl, rfl⟩
    rcases List.mem_append.mp hw with hw | hw
    · obtain ⟨row, -, rfl⟩ := List.mem_map.mp hw
      cases hsource
    · obtain ⟨row, hrow, rfl⟩ := List.mem_map.mp hw
      obtain ⟨hrow, hother⟩ := List.mem_filter.mp hrow
      obtain ⟨hasked, hagg⟩ := mem_demandRows.mp hrow
      exact ⟨of_decide_eq_true hother, hasked, congrArg (fun agg => some agg.qty) hagg⟩
  · rintro ⟨hother, hasked, hqty⟩
    have hrow : (slug, db.demand e slug) ∈ db.demandRows e := mem_demandRows.mpr ⟨hasked, rfl⟩
    have huser : (slug, db.demand e slug) ∈ (db.demandRows e).filter fun row =>
        row.1 ∉ (db.adminRows e).map fun a => a.1.slug :=
      List.mem_filter.mpr ⟨hrow, decide_eq_true hother⟩
    exact ⟨_, List.mem_append_right _ (List.mem_map_of_mem huser), rfl, rfl, hqty.symm⟩

theorem nodup_demandRows : ((db.demandRows e).map Prod.fst).Nodup := by
  unfold demandRows
  rw [((List.perm_insertionSort _ _).map _).nodup_iff, List.map_map]
  simpa [Function.comp_def] using List.nodup_dedup _

theorem nodup_computePublicWants (hslugs : db.SlugsUnique) :
    ((db.computePublicWants e).map PublicWant.categorySlug).Nodup := by
  rw [computePublicWants_eq, List.map_append, List.map_map, List.map_map, List.nodup_append]
  refine ⟨nodup_adminRows hslugs, ?_, ?_⟩
  · exact (List.filter_sublist.map Prod.fst).nodup nodup_demandRows
  · rintro _ hadmin _ huser rfl
    obtain ⟨row, hrow, heq⟩ := List.mem_map.mp huser
    have hother := of_decide_eq_true (List.mem_filter.mp hrow).2
    change row.1 = _ at heq
    exact hother (heq ▸ hadmin)

/-! ## What is set -/

def lastQty (wants : List AdminWantInput) (slug : String) : Option (Option ℤ) :=
  (wants.reverse.find? fun w => w.categorySlug = slug).map AdminWantInput.qty

theorem lookup_wantsBySlug (wants : List AdminWantInput) (slug : String) :
    (wantsBySlug wants).lookup slug = lastQty wants slug := by
  rw [wantsBySlug, Table.lookup_putAll, ← List.map_reverse, List.find?_map, Option.map_map,
    lastQty, AList.lookup_empty, Option.or_none]
  rfl

theorem lastQty_eq_none_iff :
    lastQty wants slug = none ↔ ∀ w ∈ wants, w.categorySlug ≠ slug := by
  simp [lastQty, List.find?_eq_none]

def Known (db : Db) (slug : String) : Prop :=
  ∃ c cat, db.categories.lookup c = some cat ∧ cat.slug = slug

theorem known_of_length (hslugs : db.SlugsUnique) {slugs : List String}
    (hlength : (db.categories.select fun _ c => c.slug ∈ slugs).length = slugs.length)
    (hslug : slug ∈ slugs) : db.Known slug := by
  have hfound : ((db.categories.select fun _ c => c.slug ∈ slugs).map fun c => c.2.slug).Nodup := by
    rw [List.Nodup, List.pairwise_map]
    have hkeys := List.pairwise_map.mp (db.categories.nodup_select fun _ c => c.slug ∈ slugs)
    exact hkeys.imp_of_mem fun {x y} hx hy hne heq =>
      hne (hslugs _ _ _ _ (Table.mem_select.mp hx).1 (Table.mem_select.mp hy).1 heq)
  have hsubset : (db.categories.select fun _ c => c.slug ∈ slugs).map (fun c => c.2.slug) ⊆
      slugs := by
    intro slug hmem
    obtain ⟨c, hc, rfl⟩ := List.mem_map.mp hmem
    exact of_decide_eq_true (Table.mem_select.mp hc).2
  have hperm := (hfound.subperm hsubset).perm_of_length_le (by rw [List.length_map, hlength])
  obtain ⟨c, hc, hcslug⟩ := List.mem_map.mp (hperm.mem_iff.mpr hslug)
  exact ⟨c.1, c.2, (Table.mem_select.mp hc).1, hcslug⟩

/-- What a successful call makes of the table: under the event the last-wins map, by category,
and the rows of other events as they were. -/
structure Replaces (db : Db) (e : EventId) (wants : List AdminWantInput)
    (t : Table (EventId × CategoryId) AdminWant) : Prop where
  known : ∀ slug qty, lastQty wants slug = some qty → db.Known slug
  sane : ∀ slug qty, lastQty wants slug = some qty → wantQtySane qty
  rows : ∀ c a, t.lookup (e, c) = some a ↔
    ∃ cat qty, db.categories.lookup c = some cat ∧ lastQty wants cat.slug = some qty ∧
      a.qty = qty.map Int.toNat
  others : ∀ e' ≠ e, (t.select fun k _ => k.1 = e') =
    db.eventAdminWants.select fun k _ => k.1 = e'

theorem mem_keys_wantsBySlug :
    slug ∈ (wantsBySlug wants).keys ↔ ∃ qty, lastQty wants slug = some qty := by
  rw [← AList.mem_keys, Table.mem_iff_exists, lookup_wantsBySlug]

theorem mem_wantedCategories {c : CategoryId × Category} :
    (c ∈ db.categories.select fun _ cat => cat.slug ∈ (wantsBySlug wants).keys) ↔
      db.categories.lookup c.1 = some c.2 ∧ ∃ qty, lastQty wants c.2.slug = some qty := by
  rw [Table.mem_select, decide_eq_true_iff, mem_keys_wantsBySlug]

theorem replaceAdminWants_ok (hslugs : db.SlugsUnique) {u : Unit}
    (h : db.replaceAdminWants e wants = .ok (u, db')) :
    ∃ t, db' = { db with eventAdminWants := t } ∧ db.Replaces e wants t := by
  simp only [replaceAdminWants, bind_ok, found_ok, ensure_ok, pure_ok, Prod.mk.injEq] at h
  obtain ⟨event, hevent, _, hlength, _, hsane, -, rfl⟩ := h
  have hknown (slug : String) (qty : Option ℤ) (hqty : lastQty wants slug = some qty) :
      db.Known slug :=
    known_of_length hslugs hlength (mem_keys_wantsBySlug.mpr ⟨qty, hqty⟩)
  refine ⟨_, rfl, hknown, fun slug qty hqty => ?_, fun c a => ?_, fun e' hne => ?_⟩
  · obtain ⟨c, cat, hcat, rfl⟩ := hknown slug qty hqty
    have hmem := (mem_wantedCategories (c := (c, cat))).mpr ⟨hcat, qty, hqty⟩
    have hrow := hsane _ (List.mem_map_of_mem hmem)
    simpa only [lookup_wantsBySlug, hqty, Option.join_some] using hrow
  · rw [List.map_map, Table.lookup_putAll_eq_some_iff]
    · have hgone :
          (db.eventAdminWants.deleteWhere fun key _ => key.1 = e).lookup (e, c) = none := by
        simp [Table.lookup_deleteWhere]
      rw [hgone]
      simp only [List.mem_map, mem_wantedCategories, Prod.exists, lookup_wantsBySlug,
        Function.comp_apply, Prod.mk.injEq, true_and, reduceCtorEq, and_false, or_false]
      constructor
      · rintro ⟨_, cat, ⟨hcat, qty, hqty⟩, rfl, rfl⟩
        exact ⟨cat, qty, hcat, hqty, by rw [hqty, Option.join_some]⟩
      · rintro ⟨cat, qty, hcat, hqty, ha⟩
        refine ⟨c, cat, ⟨hcat, qty, hqty⟩, rfl, ?_⟩
        rw [hqty, Option.join_some, ← ha]
    · rw [List.map_map]
      exact (List.pairwise_map.mp (Table.nodup_select _ _)).map _ fun x y hne heq =>
        hne (congrArg Prod.snd heq)
  · rw [Table.select_putAll_of_false, Table.select_deleteWhere_of_false]
    · intro k _ hk
      rw [of_decide_eq_true hk]
      exact decide_eq_false hne
    · simp only [List.map_map, List.forall_mem_map]
      intro c _ _
      exact decide_eq_false (Ne.symm hne)

/-! ## The list after the call -/

/-- What the public list of the event shows of the two sources. -/
structure Merged (db : Db) (e : EventId) (wants : List AdminWantInput) (db' : Db) : Prop where
  admin : ∀ slug qty,
    (∃ w ∈ db'.computePublicWants e, w.source = .admin ∧ w.categorySlug = slug ∧
      w.requestedQty = qty) ↔
    ∃ wanted, lastQty wants slug = some wanted ∧ qty = wanted.map fun n => (n : Qty)
  user : ∀ slug qty,
    (∃ w ∈ db'.computePublicWants e, w.source = .user ∧ w.categorySlug = slug ∧
      w.requestedQty = qty) ↔
    lastQty wants slug = none ∧
      (∃ rid r, db.requests.lookup rid = some r ∧ db.asksFor e slug r = true) ∧
      qty = some (db.outstanding e slug)
  once : ((db'.computePublicWants e).map PublicWant.categorySlug).Nodup
  others : ∀ e' ≠ e, db'.computePublicWants e' = db.computePublicWants e'

variable {t : Table (EventId × CategoryId) AdminWant}

theorem Replaces.mem_adminRows (h : db.Replaces e wants t) {cat : Category} {n : Option ℕ} :
    (cat, n) ∈ adminRows { db with eventAdminWants := t } e ↔
      ∃ c qty, db.categories.lookup c = some cat ∧ lastQty wants cat.slug = some qty ∧
        n = qty.map Int.toNat := by
  rw [Db.mem_adminRows]
  constructor
  · rintro ⟨c, a, ha, hcat, rfl⟩
    obtain ⟨cat', qty, hcat', hqty, ha'⟩ := (h.rows c a).mp ha
    obtain rfl : cat' = cat := Option.some.inj (hcat'.symm.trans hcat)
    exact ⟨c, qty, hcat, hqty, ha'⟩
  · rintro ⟨c, qty, hcat, hqty, rfl⟩
    exact ⟨c, ⟨qty.map Int.toNat⟩, (h.rows c _).mpr ⟨cat, qty, hcat, hqty, rfl⟩, hcat, rfl⟩

theorem cast_toNat_of_sane {qty : Option ℤ} (h : wantQtySane qty) :
    ((qty.map Int.toNat).map fun n => (n : Qty)) = qty.map fun n => (n : Qty) := by
  cases qty with
  | none => rfl
  | some q =>
    have hq : ((q.toNat : ℤ) : Qty) = (q : Qty) :=
      congrArg _ (Int.toNat_of_nonneg (h q rfl).1.le)
    exact congrArg some ((Int.cast_natCast q.toNat).symm.trans hq)

theorem Replaces.merged (hslugs : db.SlugsUnique) (h : db.Replaces e wants t) :
    db.Merged e wants { db with eventAdminWants := t } := by
  have hlisted (slug : String) :
      slug ∈ (adminRows { db with eventAdminWants := t } e).map (fun a => a.1.slug) ↔
        ∃ qty, lastQty wants slug = some qty := by
    rw [List.mem_map]
    constructor
    · rintro ⟨⟨cat, n⟩, hrow, rfl⟩
      obtain ⟨-, qty, -, hqty, -⟩ := h.mem_adminRows.mp hrow
      exact ⟨qty, hqty⟩
    · rintro ⟨qty, hqty⟩
      obtain ⟨c, cat, hcat, rfl⟩ := h.known slug qty hqty
      exact ⟨(cat, _), h.mem_adminRows.mpr ⟨c, qty, hcat, hqty, rfl⟩, rfl⟩
  refine ⟨fun slug qty => ?_, fun slug qty => ?_, nodup_computePublicWants hslugs,
    fun e' hne => ?_⟩
  · rw [exists_admin_iff]
    constructor
    · rintro ⟨⟨cat, n⟩, hrow, rfl, rfl⟩
      obtain ⟨-, wanted, -, hwanted, rfl⟩ := h.mem_adminRows.mp hrow
      exact ⟨wanted, hwanted, cast_toNat_of_sane (h.sane _ _ hwanted)⟩
    · rintro ⟨wanted, hwanted, rfl⟩
      obtain ⟨c, cat, hcat, rfl⟩ := h.known slug wanted hwanted
      exact ⟨(cat, _), h.mem_adminRows.mpr ⟨c, wanted, hcat, hwanted, rfl⟩, rfl,
        (cast_toNat_of_sane (h.sane _ _ hwanted)).symm⟩
  · rw [exists_user_iff, hlisted, ← Option.isSome_iff_exists, ← Option.not_isSome_iff_eq_none]
    rfl
  · have hrows : adminRows { db with eventAdminWants := t } e' = db.adminRows e' := by
      unfold adminRows
      rw [h.others e' hne]
    rw [computePublicWants_eq, computePublicWants_eq, hrows]
    rfl

theorem replaceAdminWants_missing (h : db.events.lookup e = none) :
    db.replaceAdminWants e wants = .error errors.notFound := by
  simp only [replaceAdminWants, h]
  rfl

theorem replaceAdminWants_unknown (hslugs : db.SlugsUnique) {w : AdminWantInput} (hw : w ∈ wants)
    (hunknown : ¬db.Known w.categorySlug) :
    ∃ err, db.replaceAdminWants e wants = .error err := by
  rcases h : db.replaceAdminWants e wants with err | ⟨u, db'⟩
  · exact ⟨err, rfl⟩
  · obtain ⟨t, -, hreplaces⟩ := replaceAdminWants_ok hslugs h
    refine absurd ?_ hunknown
    cases hqty : lastQty wants w.categorySlug with
    | none => exact absurd rfl (lastQty_eq_none_iff.mp hqty w hw)
    | some qty => exact hreplaces.known _ qty hqty

/-- A call that succeeds sets the organiser's side of the public list to the last-wins map of
its input; one that fails, for want of the event or of a category among others, changes
nothing. -/
theorem setAdminWants_merges (hslugs : db.SlugsUnique) (e : EventId)
    (wants : List AdminWantInput) :
    (∀ db', (setAdminWants e wants).exec db = (.ok (), db') → db.Merged e wants db') ∧
    (∀ err db', (setAdminWants e wants).exec db = (.error err, db') → db' = db) ∧
    ((db.events.lookup e = none ∨ ∃ w ∈ wants, ¬db.Known w.categorySlug) →
      ∃ err, (setAdminWants e wants).exec db = (.error err, db)) := by
  refine ⟨fun db' h => ?_, fun err db' h => ?_, fun hfails => ?_⟩
  · rcases hbody : db.replaceAdminWants e wants with err | ⟨u, t⟩
    · rw [setAdminWants, Program.exec_transaction_error hbody] at h
      cases h
    · rw [setAdminWants, Program.exec_transaction_ok hbody] at h
      obtain ⟨rows, rfl, hreplaces⟩ := replaceAdminWants_ok hslugs hbody
      cases h
      exact hreplaces.merged hslugs
  · rcases hbody : db.replaceAdminWants e wants with err' | ⟨u, t⟩
    · rw [setAdminWants, Program.exec_transaction_error hbody] at h
      exact (congrArg Prod.snd h).symm
    · rw [setAdminWants, Program.exec_transaction_ok hbody] at h
      cases h
  · obtain ⟨err, herr⟩ : ∃ err, db.replaceAdminWants e wants = .error err := by
      rcases hfails with hmissing | ⟨w, hw, hunknown⟩
      · exact ⟨_, replaceAdminWants_missing hmissing⟩
      · exact replaceAdminWants_unknown hslugs hw hunknown
    exact ⟨err, Program.exec_transaction_error herr⟩

/-- One event, and a category of torches among others. -/
def catalogue : Db :=
  { Db.empty with
    events := (∅ : Table EventId Event).put 1 { startsAt := 0, endsAt := 1 }
    categories := ((∅ : Table CategoryId Category).put 1 { slug := "torch", unit := .item }).put 2
      { slug := "blanket", unit := .item } }

theorem slugsUnique_catalogue : catalogue.SlugsUnique := by
  intro c c' cat cat' h h' hslug
  simp only [catalogue, Table.lookup_put, AList.lookup_empty] at h h'
  split_ifs at h h' <;> cases h <;> cases h' <;> simp_all

def torchTwice : List AdminWantInput := [⟨"torch", some 3⟩, ⟨"torch", some 9⟩]

theorem torchTwice_merges :
    ∃ db', (setAdminWants 1 torchTwice).exec catalogue = (.ok (), db') ∧
      catalogue.Merged 1 torchTwice db' :=
  ⟨_, rfl, (setAdminWants_merges slugsUnique_catalogue 1 torchTwice).1 _ rfl⟩

end Db
end Sahay
