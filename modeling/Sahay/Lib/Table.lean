import Mathlib.Data.List.AList
import Mathlib.Algebra.BigOperators.Group.List.Basic
import Mathlib.Algebra.Order.BigOperators.Group.List
import Mathlib.Algebra.Order.Group.Nat
import Mathlib.Tactic.Abel

/-!
# Keyed tables

A table is a finite map from primary keys to rows, that is Mathlib's `AList` at
a constant row type: the key constraint is part of the value, so a table with
two rows under one key cannot be built.  Lookup, insertion and deletion are
Mathlib's.  This module adds what `UPDATE` and the SQL aggregates need: updates
of one row (`modify`) or of all rows (`mapVal`), deletion by a condition
(`deleteWhere`), and sums and counts over the rows, each with the lemma that
says how an update changes it.
-/

namespace Sahay

universe u v w

/-- Rows of type `ρ` under primary keys of type `κ`. -/
abbrev Table (κ : Type u) (ρ : Type v) := AList (fun _ : κ => ρ)

namespace Table

variable {κ : Type u} {ρ : Type v} {α : Type w}

/-! ## Updates of rows in place -/

def mapVal (t : Table κ ρ) (f : κ → ρ → ρ) : Table κ ρ :=
  ⟨t.entries.map fun e => ⟨e.1, f e.1 e.2⟩, List.NodupKeys.map₂ f t.entries t.nodupKeys⟩

/-- Delete the rows that satisfy `p`. -/
def deleteWhere (t : Table κ ρ) (p : κ → ρ → Bool) : Table κ ρ :=
  ⟨t.entries.filter fun e => !p e.1 e.2, t.nodupKeys.sublist List.filter_sublist⟩

/-- `SELECT`: the rows that satisfy `p`, in table order. -/
def select (t : Table κ ρ) (p : κ → ρ → Bool) : List (κ × ρ) :=
  (t.entries.filter fun e => p e.1 e.2).map fun e => (e.1, e.2)

/-- `SELECT … LIMIT 1`. -/
def first (t : Table κ ρ) (p : κ → ρ → Bool) : Option (κ × ρ) := (t.select p).head?

theorem mapVal_mapVal (t : Table κ ρ) (f g : κ → ρ → ρ) :
    (t.mapVal f).mapVal g = t.mapVal fun k r => g k (f k r) := by
  apply AList.ext
  simp [mapVal]

theorem deleteWhere_deleteWhere_self (t : Table κ ρ) (p : κ → ρ → Bool) :
    (t.deleteWhere p).deleteWhere p = t.deleteWhere p := by
  apply AList.ext
  simp [deleteWhere]

section Lookup

variable [DecidableEq κ]

/-- `INSERT`: the row `r` under `k`.  The model checks that `k` is new. -/
abbrev put (t : Table κ ρ) (k : κ) (r : ρ) : Table κ ρ := AList.insert k r t

/-- `DELETE` of the row under `k`. -/
abbrev drop (t : Table κ ρ) (k : κ) : Table κ ρ := AList.erase k t

/-- Rewrite the row under `k`, if there is one. -/
def modify (t : Table κ ρ) (k : κ) (f : ρ → ρ) : Table κ ρ :=
  t.mapVal fun k' r => if k' = k then f r else r

/-- Put `r` in the place of the row under `k`, if there is one. -/
abbrev replace (t : Table κ ρ) (k : κ) (r : ρ) : Table κ ρ := t.modify k fun _ => r

/-- Rewrite the rows that satisfy `p`. -/
def updateWhere (t : Table κ ρ) (p : κ → ρ → Bool) (f : ρ → ρ) : Table κ ρ :=
  t.mapVal fun k r => if p k r then f r else r

/-- `INSERT … ON CONFLICT DO UPDATE`: rewrite the row under `k` or insert `r`. -/
def upsert (t : Table κ ρ) (k : κ) (r : ρ) (f : ρ → ρ) : Table κ ρ :=
  if k ∈ t then t.modify k f else t.put k r

def freshKey (t : Table ℕ ρ) (proposed : ℕ) : ℕ :=
  if proposed ∈ t then t.keys.sum + 1 else proposed

omit [DecidableEq κ] in
theorem freshKey_notMem (t : Table ℕ ρ) (proposed : ℕ) : t.freshKey proposed ∉ t := by
  unfold freshKey
  split_ifs with h
  · intro hmem
    have hle := List.single_le_sum (fun _ _ => Nat.zero_le _) _ (AList.mem_keys.mp hmem)
    omega
  · exact h

theorem mem_entries_iff {t : Table κ ρ} {k : κ} {r : ρ} :
    (⟨k, r⟩ : Sigma fun _ : κ => ρ) ∈ t.entries ↔ t.lookup k = some r :=
  AList.mem_lookup_iff.symm

def decidableForall (t : Table κ ρ) (P : κ → ρ → Prop) [∀ k r, Decidable (P k r)] :
    Decidable (∀ k r, t.lookup k = some r → P k r) :=
  decidable_of_iff (∀ e ∈ t.entries, P e.1 e.2)
    ⟨fun h k r hk => h ⟨k, r⟩ (mem_entries_iff.mpr hk),
      fun h e he => h e.1 e.2 (mem_entries_iff.mp he)⟩

theorem lookup_mapVal (t : Table κ ρ) (f : κ → ρ → ρ) (k : κ) :
    (t.mapVal f).lookup k = (t.lookup k).map (f k) :=
  List.dlookup_map₂ (f := f) k

@[simp] theorem lookup_modify_self (t : Table κ ρ) (k : κ) (f : ρ → ρ) :
    (t.modify k f).lookup k = (t.lookup k).map f := by
  simp [modify, lookup_mapVal]

theorem lookup_modify_ne {t : Table κ ρ} {k k' : κ} {f : ρ → ρ} (h : k' ≠ k) :
    (t.modify k f).lookup k' = t.lookup k' := by
  simp [modify, lookup_mapVal, h]

theorem lookup_modify (t : Table κ ρ) (k k' : κ) (f : ρ → ρ) :
    (t.modify k f).lookup k' = (t.lookup k').map fun r => if k' = k then f r else r := by
  simp [modify, lookup_mapVal]

theorem modify_eq_replace {t : Table κ ρ} {k : κ} {r : ρ} (h : t.lookup k = some r)
    (f : ρ → ρ) : t.modify k f = t.replace k (f r) := by
  apply AList.ext
  apply List.map_congr_left
  rintro ⟨k', r'⟩ hmem
  by_cases hk : k' = k
  · subst hk
    obtain rfl : r' = r := Option.some.inj ((mem_entries_iff.mp hmem).symm.trans h)
    rfl
  · simp [hk]

theorem modify_replace (t : Table κ ρ) (k : κ) (r : ρ) (f : ρ → ρ) :
    (t.replace k r).modify k f = t.replace k (f r) := by
  apply AList.ext
  simp only [modify, mapVal, List.map_map]
  refine List.map_congr_left fun e _ => ?_
  by_cases hk : e.1 = k <;> simp [hk]

theorem replace_self {t : Table κ ρ} {k : κ} {r : ρ} (h : t.lookup k = some r) :
    t.replace k r = t := by
  rw [← modify_eq_replace h fun row => row]
  apply AList.ext
  simp [modify, mapVal]

theorem lookup_replace {t : Table κ ρ} {k : κ} {r : ρ} (h : t.lookup k = some r) (r' : ρ)
    (k' : κ) : (t.replace k r').lookup k' = if k' = k then some r' else t.lookup k' := by
  rw [lookup_modify]
  split_ifs with hk
  · subst hk
    simp [h]
  · simp

theorem lookup_updateWhere (t : Table κ ρ) (p : κ → ρ → Bool) (f : ρ → ρ) (k : κ) :
    (t.updateWhere p f).lookup k = (t.lookup k).map fun r => if p k r then f r else r := by
  simp [updateWhere, lookup_mapVal]

theorem updateWhere_congr {t : Table κ ρ} {p q : κ → ρ → Bool} {f : ρ → ρ}
    (h : ∀ k r, t.lookup k = some r → p k r = q k r) : t.updateWhere p f = t.updateWhere q f := by
  apply AList.ext
  refine List.map_congr_left fun e he => ?_
  dsimp only
  rw [h e.1 e.2 (mem_entries_iff.mp he)]

theorem updateWhere_eq_self {t : Table κ ρ} {p : κ → ρ → Bool} {f : ρ → ρ}
    (h : ∀ k r, t.lookup k = some r → p k r = false) : t.updateWhere p f = t := by
  rw [updateWhere_congr (q := fun _ _ => false) h]
  apply AList.ext
  simp [updateWhere, mapVal]

theorem updateWhere_updateWhere_self (t : Table κ ρ) {p : κ → ρ → Bool} {f : ρ → ρ}
    (h : ∀ k r, p k (f r) = false) :
    (t.updateWhere p f).updateWhere p f = t.updateWhere p f := by
  apply updateWhere_eq_self
  intro k r hr
  rw [lookup_updateWhere, Option.map_eq_some_iff] at hr
  obtain ⟨r', -, rfl⟩ := hr
  split_ifs with hp
  · exact h k r'
  · exact Bool.eq_false_iff.2 hp

theorem deleteWhere_eq_self {t : Table κ ρ} {p : κ → ρ → Bool}
    (h : ∀ k r, t.lookup k = some r → p k r = false) : t.deleteWhere p = t := by
  apply AList.ext
  apply List.filter_eq_self.2
  intro e he
  rw [h e.1 e.2 (mem_entries_iff.mp he)]
  rfl

theorem lookup_deleteWhere (t : Table κ ρ) (p : κ → ρ → Bool) (k : κ) :
    (t.deleteWhere p).lookup k = (t.lookup k).filter fun r => !p k r := by
  ext r
  rw [Option.filter_eq_some_iff, ← mem_entries_iff, ← mem_entries_iff]
  simp [deleteWhere]

theorem lookup_put (t : Table κ ρ) (k k' : κ) (r : ρ) :
    (t.put k r).lookup k' = if k' = k then some r else t.lookup k' := by
  split_ifs with h
  · subst h
    exact AList.lookup_insert t
  · exact AList.lookup_insert_ne h

theorem lookup_upsert (t : Table κ ρ) (k k' : κ) (r : ρ) (f : ρ → ρ) :
    (t.upsert k r f).lookup k' =
      if k' = k then some ((t.lookup k).elim r f) else t.lookup k' := by
  unfold upsert
  split_ifs with hmem hk hk
  · obtain ⟨row, hrow⟩ := Option.isSome_iff_exists.mp (AList.lookup_isSome.mpr hmem)
    rw [hk, lookup_modify_self, hrow]
    rfl
  · rw [lookup_modify_ne hk]
  · rw [hk, lookup_put, if_pos rfl, AList.lookup_eq_none.mpr hmem]
    rfl
  · rw [lookup_put, if_neg hk]

theorem lookup_drop (t : Table κ ρ) (k k' : κ) :
    (t.drop k).lookup k' = if k' = k then none else t.lookup k' := by
  split_ifs with h
  · subst h
    exact AList.lookup_erase k' t
  · exact AList.lookup_erase_ne h

theorem mem_select {t : Table κ ρ} {p : κ → ρ → Bool} {e : κ × ρ} :
    e ∈ t.select p ↔ t.lookup e.1 = some e.2 ∧ p e.1 e.2 = true := by
  rw [← mem_entries_iff]
  simp only [select, List.mem_map, List.mem_filter]
  constructor
  · rintro ⟨_, hmem, rfl⟩
    exact hmem
  · intro h
    exact ⟨⟨e.1, e.2⟩, h, rfl⟩

omit [DecidableEq κ] in
theorem nodup_select (t : Table κ ρ) (p : κ → ρ → Bool) :
    ((t.select p).map Prod.fst).Nodup := by
  have hkeys : ((t.entries.filter fun e => p e.1 e.2).map Sigma.fst).Nodup :=
    (List.filter_sublist.map Sigma.fst).nodup t.nodupKeys
  simpa [select, List.map_map, Function.comp_def] using hkeys

theorem first_some {t : Table κ ρ} {p : κ → ρ → Bool} {k : κ} {r : ρ}
    (h : t.first p = some (k, r)) : t.lookup k = some r ∧ p k r = true :=
  mem_select.mp (List.mem_of_mem_head? h)

theorem first_none {t : Table κ ρ} {p : κ → ρ → Bool} :
    t.first p = none ↔ ∀ k r, t.lookup k = some r → p k r = false := by
  rw [first, List.head?_eq_none_iff, List.eq_nil_iff_forall_not_mem]
  simp only [mem_select, not_and, Bool.not_eq_true, Prod.forall]

theorem mem_iff_exists {t : Table κ ρ} {k : κ} : k ∈ t ↔ ∃ r, t.lookup k = some r := by
  rw [← AList.lookup_isSome, Option.isSome_iff_exists]

@[simp] theorem mem_modify {t : Table κ ρ} {k k' : κ} {f : ρ → ρ} :
    k' ∈ t.modify k f ↔ k' ∈ t := by
  simp [mem_iff_exists, lookup_modify]

@[simp] theorem mem_updateWhere {t : Table κ ρ} {p : κ → ρ → Bool} {k : κ} {f : ρ → ρ} :
    k ∈ t.updateWhere p f ↔ k ∈ t := by
  simp [mem_iff_exists, lookup_updateWhere]

end Lookup

/-! ## Several rows at once -/

section Several

variable [DecidableEq κ]

/-- `INSERT` of several rows; of two under one key the later stands. -/
def putAll (t : Table κ ρ) (rows : List (κ × ρ)) : Table κ ρ :=
  rows.foldl (fun t row => t.put row.1 row.2) t

theorem lookup_putAll (t : Table κ ρ) (rows : List (κ × ρ)) (k : κ) :
    (t.putAll rows).lookup k =
      ((rows.reverse.find? fun row => row.1 = k).map Prod.snd).or (t.lookup k) := by
  induction rows generalizing t with
  | nil => rfl
  | cons row rows ih =>
    have hfirst : t.putAll (row :: rows) = (t.put row.1 row.2).putAll rows := rfl
    rw [hfirst, ih, lookup_put, List.reverse_cons, List.find?_append]
    cases rows.reverse.find? fun row => row.1 = k with
    | some found => rfl
    | none => by_cases hk : k = row.1 <;> simp [hk, Ne.symm]

theorem lookup_putAll_eq_some_iff {t : Table κ ρ} {rows : List (κ × ρ)} {k : κ} {r : ρ}
    (hkeys : (rows.map Prod.fst).Nodup) :
    (t.putAll rows).lookup k = some r ↔
      (k, r) ∈ rows ∨ k ∉ rows.map Prod.fst ∧ t.lookup k = some r := by
  rw [lookup_putAll]
  cases hfind : rows.reverse.find? fun row => row.1 = k with
  | none =>
    have hnone : k ∉ rows.map Prod.fst := by
      rintro hk
      obtain ⟨row, hrow, rfl⟩ := List.mem_map.mp hk
      simpa using List.find?_eq_none.mp hfind row (List.mem_reverse.mpr hrow)
    simp only [Option.map_none, Option.none_or, hnone, not_false_iff, true_and]
    exact ⟨.inr, fun h => h.resolve_left fun hmem => hnone (List.mem_map_of_mem hmem)⟩
  | some row =>
    have hrow : row ∈ rows := List.mem_reverse.mp (List.mem_of_find?_eq_some hfind)
    obtain rfl : row.1 = k := by simpa using List.find?_some hfind
    simp only [Option.map_some, Option.some_or, Option.some.injEq, List.mem_map_of_mem hrow,
      not_true, false_and, or_false]
    constructor
    · rintro rfl
      exact hrow
    · intro hmem
      exact congrArg Prod.snd (List.inj_on_of_nodup_map hkeys hrow hmem rfl)

omit [DecidableEq κ] in
theorem select_deleteWhere_of_false {p q : κ → ρ → Bool} (h : ∀ k r, p k r = true → q k r = false)
    (t : Table κ ρ) : (t.deleteWhere q).select p = t.select p := by
  unfold select deleteWhere
  rw [List.filter_filter]
  congr 1
  refine List.filter_congr fun e _ => ?_
  cases hp : p e.1 e.2 with
  | false => rfl
  | true => rw [h _ _ hp]; rfl

theorem select_put_of_false {p : κ → ρ → Bool} {k : κ} (hp : ∀ r, p k r = false) (t : Table κ ρ)
    (r : ρ) : (t.put k r).select p = t.select p := by
  have hrest (l : List (Sigma fun _ : κ => ρ)) :
      (l.kerase k).filter (fun e => p e.1 e.2) = l.filter fun e => p e.1 e.2 := by
    induction l with
    | nil => rfl
    | cons e l ih =>
      by_cases hk : k = e.1
      · rw [List.kerase_cons_eq hk, List.filter_cons_of_neg (by rw [← hk, hp]; decide)]
      · rw [List.kerase_cons_ne hk, List.filter_cons, List.filter_cons, ih]
  unfold select
  rw [AList.entries_insert, List.filter_cons_of_neg (by rw [hp]; decide), hrest]

theorem select_putAll_of_false {p : κ → ρ → Bool} {rows : List (κ × ρ)}
    (hp : ∀ row ∈ rows, ∀ r, p row.1 r = false) (t : Table κ ρ) :
    (t.putAll rows).select p = t.select p := by
  induction rows generalizing t with
  | nil => rfl
  | cons row rows ih =>
    calc (t.putAll (row :: rows)).select p
        = (t.put row.1 row.2).select p := ih (fun row hrow => hp row (.tail _ hrow)) _
      _ = t.select p := select_put_of_false (hp row (.head _)) t row.2

end Several

/-! ## Properties of all rows -/

section Forall

variable [DecidableEq κ] {P : κ → ρ → Prop} {t : Table κ ρ}

theorem forall_put (h : ∀ k r, t.lookup k = some r → P k r) {k : κ} {r : ρ} (hr : P k r) :
    ∀ k' r', (t.put k r).lookup k' = some r' → P k' r' := by
  intro k' r' hlookup
  rw [lookup_put] at hlookup
  split_ifs at hlookup with hk
  · rwa [hk, ← Option.some.inj hlookup]
  · exact h k' r' hlookup

theorem forall_replace (h : ∀ k r, t.lookup k = some r → P k r) {k : κ} {r : ρ} (hr : P k r) :
    ∀ k' r', (t.replace k r).lookup k' = some r' → P k' r' := by
  intro k' r' hlookup
  rw [lookup_modify] at hlookup
  obtain ⟨old, hold, hnew⟩ := Option.map_eq_some_iff.mp hlookup
  split_ifs at hnew with hk
  · rwa [hk, ← hnew]
  · exact h k' r' (hnew ▸ hold)

end Forall

/-! ## What updates keep -/

section Keeps

variable [DecidableEq κ] {β : Type w}

/-- Every row of `t` is still in `t'`, and `g` reads the same in both. -/
def Keeps (g : ρ → β) (t t' : Table κ ρ) : Prop :=
  ∀ k r, t.lookup k = some r → ∃ r', t'.lookup k = some r' ∧ g r' = g r

theorem Keeps.refl (g : ρ → β) (t : Table κ ρ) : Keeps g t t := fun _ r h => ⟨r, h, rfl⟩

theorem Keeps.trans {g : ρ → β} {t t' t'' : Table κ ρ} (h : Keeps g t t') (h' : Keeps g t' t'') :
    Keeps g t t'' := by
  intro k r hr
  obtain ⟨r', hr', hg⟩ := h k r hr
  obtain ⟨r'', hr'', hg'⟩ := h' k r' hr'
  exact ⟨r'', hr'', hg'.trans hg⟩

theorem Keeps.put (g : ρ → β) {t : Table κ ρ} {k : κ} (hk : k ∉ t) (r : ρ) :
    Keeps g t (t.put k r) := by
  intro k' r' hr'
  have hne : k' ≠ k := by
    rintro rfl
    exact hk (mem_iff_exists.mpr ⟨r', hr'⟩)
  exact ⟨r', by rw [lookup_put, if_neg hne, hr'], rfl⟩

theorem Keeps.mapVal {g : ρ → β} (t : Table κ ρ) {f : κ → ρ → ρ}
    (hf : ∀ k r, t.lookup k = some r → g (f k r) = g r) : Keeps g t (t.mapVal f) :=
  fun k r hr => ⟨f k r, by rw [lookup_mapVal, hr]; rfl, hf k r hr⟩

theorem Keeps.replace {g : ρ → β} {t : Table κ ρ} {k : κ} {r r' : ρ} (h : t.lookup k = some r)
    (hg : g r' = g r) : Keeps g t (t.replace k r') := by
  apply Keeps.mapVal
  intro k' row hrow
  split_ifs with hk
  · subst hk
    rw [hg, Option.some.inj (h.symm.trans hrow)]
  · rfl

theorem Keeps.updateWhere {g : ρ → β} (t : Table κ ρ) (p : κ → ρ → Bool) {f : ρ → ρ}
    (hf : ∀ r, g (f r) = g r) : Keeps g t (t.updateWhere p f) := by
  apply Keeps.mapVal
  intro k r _
  split_ifs
  · exact hf r
  · rfl

theorem Keeps.of_replace {g : ρ → β} {t : Table κ ρ} {k : κ} {r r' : ρ}
    (h : t.lookup k = some r) (hg : g r' = g r) : Keeps g (t.replace k r') t := by
  intro k' row hrow
  rw [lookup_replace h] at hrow
  split_ifs at hrow with hk
  · subst hk
    exact ⟨r, h, by rw [← Option.some.inj hrow, hg]⟩
  · exact ⟨row, hrow, rfl⟩

theorem Keeps.of_updateWhere {g : ρ → β} (t : Table κ ρ) (p : κ → ρ → Bool) {f : ρ → ρ}
    (hf : ∀ r, g (f r) = g r) : Keeps g (t.updateWhere p f) t := by
  intro k row hrow
  rw [lookup_updateWhere] at hrow
  obtain ⟨r, hr, rfl⟩ := Option.map_eq_some_iff.mp hrow
  refine ⟨r, hr, ?_⟩
  split_ifs
  · exact (hf r).symm
  · rfl

end Keeps

/-! ## Where the rows after an update come from -/

section Inherits

variable [DecidableEq κ] {β : Type w} {p : ρ → Prop} {g : ρ → β} {t t' t'' : Table κ ρ}

/-- Every row of `t'` that satisfies `p` did so in `t`, and `g` reads the same in both. -/
def Inherits (p : ρ → Prop) (g : ρ → β) (t t' : Table κ ρ) : Prop :=
  ∀ k r', t'.lookup k = some r' → p r' → ∃ r, t.lookup k = some r ∧ p r ∧ g r' = g r

theorem Inherits.refl (p : ρ → Prop) (g : ρ → β) (t : Table κ ρ) : Inherits p g t t :=
  fun _ r hr hp => ⟨r, hr, hp, rfl⟩

theorem Inherits.trans (h : Inherits p g t t') (h' : Inherits p g t' t'') :
    Inherits p g t t'' := by
  intro k r'' hr'' hp
  obtain ⟨r', hr', hp', hg'⟩ := h' k r'' hr'' hp
  obtain ⟨r, hr, hp, hg⟩ := h k r' hr' hp'
  exact ⟨r, hr, hp, hg'.trans hg⟩

theorem Inherits.replace {k : κ} {r r' : ρ} (h : t.lookup k = some r)
    (hr : p r' → p r ∧ g r' = g r) : Inherits p g t (t.replace k r') := by
  intro k' row hrow hp
  rw [lookup_replace h] at hrow
  split_ifs at hrow with hk
  · obtain rfl := Option.some.inj hrow
    exact ⟨r, hk ▸ h, hr hp⟩
  · exact ⟨row, hrow, hp, rfl⟩

theorem Inherits.updateWhere (t : Table κ ρ) (q : κ → ρ → Bool) {f : ρ → ρ}
    (hf : ∀ r, p (f r) → p r ∧ g (f r) = g r) : Inherits p g t (t.updateWhere q f) := by
  intro k row hrow hp
  rw [lookup_updateWhere] at hrow
  obtain ⟨r, hr, rfl⟩ := Option.map_eq_some_iff.mp hrow
  refine ⟨r, hr, ?_⟩
  split_ifs at hp ⊢
  · exact hf r hp
  · exact ⟨hp, rfl⟩

theorem Inherits.put {k : κ} {r : ρ} (hr : ¬p r) : Inherits p g t (t.put k r) := by
  intro k' row hrow hp
  rw [lookup_put] at hrow
  split_ifs at hrow
  · exact absurd (Option.some.inj hrow ▸ hp) hr
  · exact ⟨row, hrow, hp, rfl⟩

end Inherits

/-! ## Sums over the rows -/

section Sum

variable [AddCommMonoid α]

/-- The sum of `f` over all rows. -/
def sum (t : Table κ ρ) (f : κ → ρ → α) : α :=
  (t.entries.map fun e => f e.1 e.2).sum

@[simp] theorem sum_empty (f : κ → ρ → α) : (∅ : Table κ ρ).sum f = 0 := rfl

theorem sum_mapVal (t : Table κ ρ) (g : κ → ρ → ρ) (f : κ → ρ → α) :
    (t.mapVal g).sum f = t.sum fun k r => f k (g k r) := by
  simp [sum, mapVal, List.map_map, Function.comp_def]

@[simp] theorem sum_zero (t : Table κ ρ) : (t.sum fun _ _ => (0 : α)) = 0 := by
  simp [sum]

theorem sum_add (t : Table κ ρ) (f g : κ → ρ → α) :
    (t.sum fun k r => f k r + g k r) = t.sum f + t.sum g :=
  List.sum_map_add

variable [DecidableEq κ]

theorem sum_congr {t : Table κ ρ} {f g : κ → ρ → α}
    (h : ∀ k r, t.lookup k = some r → f k r = g k r) : t.sum f = t.sum g := by
  unfold sum
  congr 1
  apply List.map_congr_left
  rintro ⟨k, r⟩ hmem
  exact h k r (mem_entries_iff.mp hmem)

theorem sum_eq_zero {t : Table κ ρ} {f : κ → ρ → α}
    (h : ∀ k r, t.lookup k = some r → f k r = 0) : t.sum f = 0 := by
  rw [sum_congr h, sum_zero]

theorem sum_put {t : Table κ ρ} {k : κ} (hk : k ∉ t) (r : ρ) (f : κ → ρ → α) :
    (t.put k r).sum f = f k r + t.sum f := by
  rw [sum, put, AList.entries_insert_of_notMem hk]
  simp [sum]

/-- A table with a row under `k` is, up to row order, that row and the rest. -/
theorem entries_perm_of_lookup {t : Table κ ρ} {k : κ} {r : ρ} (h : t.lookup k = some r) :
    t.entries.Perm (⟨k, r⟩ :: (t.drop k).entries) := by
  have hk : k ∉ t.drop k := by simp [drop]
  apply (List.perm_ext_iff_of_nodup t.nodupKeys.nodup ?_).mpr
  · rintro ⟨k', r'⟩
    rw [List.mem_cons, mem_entries_iff, mem_entries_iff]
    by_cases hkk : k' = k
    · subst hkk
      simp [drop, h, eq_comm]
    · simp [drop, AList.lookup_erase_ne hkk, hkk]
  · rw [List.nodup_cons]
    refine ⟨fun hmem => hk ?_, (t.drop k).nodupKeys.nodup⟩
    exact AList.mem_keys.mpr (List.mem_keys_of_mem hmem)

theorem sum_drop {t : Table κ ρ} {k : κ} {r : ρ} (h : t.lookup k = some r)
    (f : κ → ρ → α) : f k r + (t.drop k).sum f = t.sum f := by
  have hperm := (entries_perm_of_lookup h).map fun e => f e.1 e.2
  simpa [sum] using hperm.sum_eq.symm

theorem sum_modify {t : Table κ ρ} {k : κ} {r : ρ} (h : t.lookup k = some r)
    (g : ρ → ρ) (f : κ → ρ → α) :
    (t.modify k g).sum f + f k r = t.sum f + f k (g r) := by
  let updated : κ → ρ → α := fun k' r' => f k' (if k' = k then g r' else r')
  have hrest : (t.drop k).sum updated = (t.drop k).sum f := by
    apply sum_congr
    intro k' r' hr'
    have hne : k' ≠ k := by
      rintro rfl
      simp [drop] at hr'
    simp [updated, hne]
  have hmodify : (t.modify k g).sum f = t.sum updated := sum_mapVal _ _ _
  calc (t.modify k g).sum f + f k r
      = (f k (g r) + (t.drop k).sum f) + f k r := by
        rw [hmodify, ← sum_drop h updated, hrest]
        simp [updated]
    _ = (f k r + (t.drop k).sum f) + f k (g r) := by abel
    _ = t.sum f + f k (g r) := by rw [sum_drop h f]

theorem sum_replace {t : Table κ ρ} {k : κ} {r : ρ} (h : t.lookup k = some r) (r' : ρ)
    (f : κ → ρ → α) : (t.replace k r').sum f + f k r = t.sum f + f k r' :=
  sum_modify h _ f

end Sum

/-! ## Ordered sums -/

section Ordered

variable [AddCommMonoid α] [PartialOrder α] [IsOrderedAddMonoid α] [DecidableEq κ]

theorem sum_nonneg {t : Table κ ρ} {f : κ → ρ → α}
    (h : ∀ k r, t.lookup k = some r → 0 ≤ f k r) : 0 ≤ t.sum f := by
  apply List.sum_nonneg
  intro x hx
  obtain ⟨⟨k, r⟩, hmem, rfl⟩ := List.mem_map.mp hx
  exact h k r (mem_entries_iff.mp hmem)

theorem le_sum {t : Table κ ρ} {f : κ → ρ → α} {k : κ} {r : ρ}
    (hr : t.lookup k = some r) (h : ∀ k r, t.lookup k = some r → 0 ≤ f k r) :
    f k r ≤ t.sum f := by
  have hrest : 0 ≤ (t.drop k).sum f := by
    apply sum_nonneg
    intro k' r' hr'
    by_cases hk : k' = k
    · subst hk
      simp [drop] at hr'
    · exact h k' r' (by simpa [drop, AList.lookup_erase_ne hk] using hr')
  rw [← sum_drop hr f]
  exact le_add_of_nonneg_right hrest

end Ordered

/-! ## Counts of rows -/

section Count

variable [DecidableEq κ]

/-- The number of rows that satisfy `p`. -/
def count (t : Table κ ρ) (p : κ → ρ → Bool) : ℕ :=
  t.sum fun k r => if p k r then 1 else 0

theorem count_eq_zero_iff {t : Table κ ρ} {p : κ → ρ → Bool} :
    t.count p = 0 ↔ ∀ k r, t.lookup k = some r → p k r = false := by
  constructor
  · intro h k r hr
    by_contra hp
    have hle := le_sum (f := fun k r => if p k r then 1 else 0) hr fun _ _ _ => Nat.zero_le _
    have hone : (if p k r then 1 else 0) = 1 := if_pos (by simpa using hp)
    rw [count] at h
    omega
  · intro h
    apply sum_eq_zero
    intro k r hr
    simp [h k r hr]

theorem count_pos_iff {t : Table κ ρ} {p : κ → ρ → Bool} :
    0 < t.count p ↔ ∃ k r, t.lookup k = some r ∧ p k r = true := by
  rw [Nat.pos_iff_ne_zero, Ne, count_eq_zero_iff]
  simp only [not_forall, Bool.not_eq_false, exists_prop]

theorem count_put {t : Table κ ρ} {k : κ} (hk : k ∉ t) (r : ρ) (p : κ → ρ → Bool) :
    (t.put k r).count p = (if p k r then 1 else 0) + t.count p :=
  sum_put hk r _

theorem count_modify {t : Table κ ρ} {k : κ} {r : ρ} (h : t.lookup k = some r)
    (g : ρ → ρ) (p : κ → ρ → Bool) :
    (t.modify k g).count p + (if p k r then 1 else 0) =
      t.count p + (if p k (g r) then 1 else 0) :=
  sum_modify h g _

theorem count_replace {t : Table κ ρ} {k : κ} {r : ρ} (h : t.lookup k = some r) (r' : ρ)
    (p : κ → ρ → Bool) :
    (t.replace k r').count p + (if p k r then 1 else 0) =
      t.count p + (if p k r' then 1 else 0) :=
  sum_modify h _ _

theorem count_congr {t : Table κ ρ} {p q : κ → ρ → Bool}
    (h : ∀ k r, t.lookup k = some r → p k r = q k r) : t.count p = t.count q := by
  apply sum_congr
  intro k r hr
  rw [h k r hr]

omit [DecidableEq κ] in
theorem count_eq_length (t : Table κ ρ) (p : κ → ρ → Bool) :
    t.count p = (t.select p).length := by
  rw [count, sum, select, List.length_map]
  induction t.entries with
  | nil => rfl
  | cons e es ih =>
      by_cases hp : p e.1 e.2 = true
      · simp [hp, ih, add_comm]
      · simp [hp, ih]

theorem count_le_count {t t' : Table κ ρ} {p : κ → ρ → Bool}
    (h : ∀ k r', t'.lookup k = some r' → p k r' = true →
      ∃ r, t.lookup k = some r ∧ p k r = true) : t'.count p ≤ t.count p := by
  have hsub : (t'.select p).map Prod.fst ⊆ (t.select p).map Prod.fst := by
    intro k hk
    obtain ⟨e, he, rfl⟩ := List.mem_map.mp hk
    obtain ⟨hlookup, hp⟩ := mem_select.mp he
    obtain ⟨r, hr, hp'⟩ := h e.1 e.2 hlookup hp
    exact List.mem_map.mpr ⟨(e.1, r), mem_select.mpr ⟨hr, hp'⟩, rfl⟩
  have hle := (List.subperm_of_subset (nodup_select t' p) hsub).length_le
  rwa [List.length_map, List.length_map, ← count_eq_length, ← count_eq_length] at hle

theorem count_of_keeps {β : Type*} {g : ρ → β} {t t' : Table κ ρ} (h : Keeps g t t')
    {p : ρ → Bool} (hp : ∀ r r', g r = g r' → p r = p r') :
    t'.count (fun _ r => p r) =
      t.count (fun _ r => p r) + t'.count fun k r => p r && decide (k ∉ t) := by
  have hsplit : t'.count (fun _ r => p r) =
      t'.count (fun k r => p r && decide (k ∈ t)) + t'.count fun k r => p r && decide (k ∉ t) := by
    unfold count
    rw [← sum_add]
    apply sum_congr
    intro k r hr
    by_cases hk : k ∈ t
    · simp [hk]
    · simp [hk]
  have hold : t'.count (fun k r => p r && decide (k ∈ t)) = t.count fun _ r => p r := by
    have hsame : t.count (fun _ r => p r) = t.count fun k r => p r && decide (k ∈ t) := by
      apply count_congr
      intro k r hr
      rw [decide_eq_true (mem_iff_exists.mpr ⟨r, hr⟩), Bool.and_true]
    rw [hsame]
    apply le_antisymm
    · apply count_le_count
      intro k r' hr' hp'
      rw [Bool.and_eq_true, decide_eq_true_eq] at hp'
      obtain ⟨r, hr⟩ := mem_iff_exists.mp hp'.2
      obtain ⟨r'', hr'', hg⟩ := h k r hr
      obtain rfl := Option.some.inj (hr'.symm.trans hr'')
      refine ⟨r, hr, ?_⟩
      rw [hp r r' hg.symm, hp'.1, decide_eq_true hp'.2]
      rfl
    · apply count_le_count
      intro k r hr hp'
      rw [Bool.and_eq_true, decide_eq_true_eq] at hp'
      obtain ⟨r', hr', hg⟩ := h k r hr
      refine ⟨r', hr', ?_⟩
      rw [hp r' r hg, hp'.1, decide_eq_true hp'.2]
      rfl
  rw [hsplit, hold]

/-- If exactly one row satisfies `p`, any two that do are the same row. -/
theorem eq_of_count_le_one {t : Table κ ρ} {p : κ → ρ → Bool} (hone : t.count p ≤ 1)
    {k k' : κ} {r r' : ρ} (hr : t.lookup k = some r) (hr' : t.lookup k' = some r')
    (hp : p k r = true) (hp' : p k' r' = true) : k = k' := by
  by_contra hne
  have hsplit := sum_drop hr fun k r => if p k r then 1 else 0
  have hrest : (t.drop k).lookup k' = some r' := by
    simpa [drop, AList.lookup_erase_ne (Ne.symm hne)] using hr'
  have hpos : 0 < (t.drop k).count p := count_pos_iff.mpr ⟨k', r', hrest, hp'⟩
  rw [if_pos hp] at hsplit
  rw [count] at hone hpos
  omega

end Count
end Table
end Sahay
