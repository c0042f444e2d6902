import Sahay.Lib.Table

/-!
# Tables rewritten row by row

`UPDATE`s write a row from what it was and from something that they draw when they run,
such as the clock.  `Follows f t t'` says that the rows of `t'` are those of `t`, each
rewritten by `f` with some draw of its own.  Sequences of `UPDATE`s are composed row by
row, and two tables that follow the same one differ in the draws only.
-/

namespace Sahay

universe u v w

namespace Table

variable {κ : Type u} {ρ : Type v} {δ : Type w}

def rows (t : Table κ ρ) : List ρ := t.entries.map Sigma.snd

variable [DecidableEq κ] {t t' t'' : Table κ ρ} {f g h : δ → κ → ρ → ρ}

theorem rows_put {k : κ} (hk : k ∉ t) (r : ρ) : (t.put k r).rows = r :: t.rows := by
  rw [rows, put, AList.entries_insert_of_notMem hk]
  rfl

/-- Every row of `t'` is the row of `t` under its key, rewritten by `f` with some draw. -/
def Follows (f : δ → κ → ρ → ρ) (t t' : Table κ ρ) : Prop :=
  ∀ k, ∃ d, t'.lookup k = (t.lookup k).map (f d k)

theorem Follows.refl [Nonempty δ] (t : Table κ ρ) :
    Follows (fun (_ : δ) _ r => r) t t := by
  intro k
  exact ⟨Classical.arbitrary δ, Option.map_id'.symm⟩

theorem Follows.trans (h₁ : Follows f t t') (h₂ : Follows g t' t'')
    (hcomp : ∀ k r d₁ d₂, t.lookup k = some r → ∃ d, g d₂ k (f d₁ k r) = h d k r) :
    Follows h t t'' := by
  intro k
  obtain ⟨d₁, h₁⟩ := h₁ k
  obtain ⟨d₂, h₂⟩ := h₂ k
  cases hk : t.lookup k with
  | none => exact ⟨d₁, by rw [h₂, h₁, hk]; rfl⟩
  | some r =>
      obtain ⟨d, hd⟩ := hcomp k r d₁ d₂ hk
      exact ⟨d, by rw [h₂, h₁, hk, Option.map_some, Option.map_some, Option.map_some, hd]⟩

theorem Follows.congr (h₁ : Follows f t t')
    (heq : ∀ k r d, t.lookup k = some r → ∃ d', f d k r = g d' k r) : Follows g t t' := by
  intro k
  obtain ⟨d, h₁⟩ := h₁ k
  cases hk : t.lookup k with
  | none => exact ⟨d, by rw [h₁, hk]; rfl⟩
  | some r =>
      obtain ⟨d', hd⟩ := heq k r d hk
      exact ⟨d', by rw [h₁, hk, Option.map_some, Option.map_some, hd]⟩

theorem Follows.lookup (h₁ : Follows f t t') {k : κ} {r : ρ} (hk : t.lookup k = some r) :
    ∃ d, t'.lookup k = some (f d k r) := by
  obtain ⟨d, h₁⟩ := h₁ k
  exact ⟨d, by rw [h₁, hk, Option.map_some]⟩

theorem Follows.before (h₁ : Follows f t t') {k : κ} {r' : ρ} (hk : t'.lookup k = some r') :
    ∃ r d, t.lookup k = some r ∧ r' = f d k r := by
  obtain ⟨d, h₁⟩ := h₁ k
  obtain ⟨r, hr, hr'⟩ := Option.map_eq_some_iff.mp (h₁.symm.trans hk)
  exact ⟨r, d, hr, hr'.symm⟩

theorem Follows.fixed (h₁ : Follows f t t') {k : κ} {r : ρ} (hk : t.lookup k = some r)
    (hfix : ∀ d, f d k r = r) : t'.lookup k = some r := by
  obtain ⟨d, hk'⟩ := h₁.lookup hk
  rw [hk', hfix]

theorem Follows.agree {α : Type*} (h₁ : Follows f t t') (h₂ : Follows f t t'') {erase : ρ → α}
    (herase : ∀ k r d d', t.lookup k = some r → erase (f d k r) = erase (f d' k r)) (k : κ) :
    (t'.lookup k).map erase = (t''.lookup k).map erase := by
  obtain ⟨d₁, h₁⟩ := h₁ k
  obtain ⟨d₂, h₂⟩ := h₂ k
  rw [h₁, h₂]
  cases hk : t.lookup k with
  | none => rfl
  | some r => exact congrArg some (herase k r d₁ d₂ hk)

/-- Of the rows that meet `q`, those that meet `p` may have been rewritten by `f`, and the
others are as they were.  No row is new. -/
def RewritesOnly (q : ρ → Prop) (p : κ → ρ → Prop) (f : δ → κ → ρ → ρ) (t t' : Table κ ρ) :
    Prop :=
  (∀ k, t.lookup k = none → t'.lookup k = none) ∧
  ∀ k r, t.lookup k = some r → q r →
    t'.lookup k = some r ∨ p k r ∧ ∃ d, t'.lookup k = some (f d k r)

theorem Follows.rewritesOnly {q : ρ → Prop} {p : κ → ρ → Prop} (h₁ : Follows f t t')
    (honly : ∀ k r d, t.lookup k = some r → q r → f d k r = r ∨ p k r ∧ f d k r = g d k r) :
    RewritesOnly q p g t t' := by
  constructor
  · intro k hk
    obtain ⟨d, h₁⟩ := h₁ k
    rw [h₁, hk, Option.map_none]
  · intro k r hk hq
    obtain ⟨d, hk'⟩ := h₁.lookup hk
    rcases honly k r d hk hq with hsame | ⟨hp, hnew⟩
    · exact .inl (hsame ▸ hk')
    · exact .inr ⟨hp, d, hnew ▸ hk'⟩

/-! ## `UPDATE`s -/

theorem follows_replace {k : κ} {r : ρ} (hk : t.lookup k = some r) (f : δ → ρ → ρ) (d : δ) :
    Follows (fun d k' r' => if k' = k then f d r' else r') t (t.replace k (f d r)) := by
  intro k'
  refine ⟨d, ?_⟩
  rw [lookup_replace hk]
  split_ifs with heq
  · subst heq
    simp [hk]
  · simp [heq]

theorem follows_updateWhere (t : Table κ ρ) (p : κ → ρ → Bool) (f : δ → ρ → ρ) (d : δ) :
    Follows (fun d k r => if p k r then f d r else r) t (t.updateWhere p (f d)) := by
  intro k
  exact ⟨d, lookup_updateWhere t p (f d) k⟩

theorem lookup_deleteWhere_some {p : κ → ρ → Bool} {k : κ} {r : ρ} :
    (t.deleteWhere p).lookup k = some r ↔ t.lookup k = some r ∧ p k r = false := by
  rw [lookup_deleteWhere, Option.filter_eq_some_iff, Bool.not_eq_true']

theorem lookup_deleteWhere_none {p : κ → ρ → Bool} {k : κ} (h : ∀ r, p k r = true) :
    (t.deleteWhere p).lookup k = none := by
  rw [lookup_deleteWhere, Option.filter_eq_none_iff]
  simp [h]

theorem lookup_deleteWhere_of_not {p : κ → ρ → Bool} {k : κ} (h : ∀ r, p k r = false) :
    (t.deleteWhere p).lookup k = t.lookup k := by
  rw [lookup_deleteWhere]
  cases t.lookup k with
  | none => rfl
  | some r => simp [Option.filter, h]

/-! ## Doing it again -/

omit [DecidableEq κ] in
theorem deleteWhere_deleteWhere (t : Table κ ρ) (p : κ → ρ → Bool) :
    (t.deleteWhere p).deleteWhere p = t.deleteWhere p := by
  apply AList.ext
  simp [deleteWhere]

theorem drop_drop (t : Table κ ρ) (k : κ) : (t.drop k).drop k = t.drop k :=
  AList.ext (List.kerase_of_notMem_keys (List.notMem_keys_kerase k t.nodupKeys))

theorem modify_modify {k : κ} {f g : ρ → ρ} (h : ∀ r, g (f r) = g r) :
    (t.modify k f).modify k g = t.modify k g := by
  apply AList.ext
  simp only [modify, mapVal, List.map_map]
  refine List.map_congr_left fun e _ => ?_
  by_cases hk : e.1 = k <;> simp [hk, h]

omit [DecidableEq κ] in
theorem updateWhere_updateWhere {p : κ → ρ → Bool} {f g : ρ → ρ}
    (hp : ∀ k r, p k r = true → p k (f r) = true) (h : ∀ r, g (f r) = g r) :
    (t.updateWhere p f).updateWhere p g = t.updateWhere p g := by
  apply AList.ext
  simp only [updateWhere, mapVal, List.map_map]
  refine List.map_congr_left fun e _ => ?_
  cases hpe : p e.1 e.2 with
  | true => simp [hpe, hp _ _ hpe, h]
  | false => simp [hpe]

/-! ## What a query has listed -/

omit [DecidableEq κ] in
theorem sum_select {α : Type*} [AddCommMonoid α] (t : Table κ ρ) (p : κ → ρ → Bool)
    (f : κ × ρ → α) :
    ((t.select p).map f).sum = t.sum fun k r => if p k r then f (k, r) else 0 := by
  rw [select, sum, List.map_map]
  induction t.entries with
  | nil => rfl
  | cons e es ih =>
      cases hp : p e.1 e.2 with
      | true => simp [hp, ih]
      | false => simp [hp, ih]

theorem exists_perm_select {p : κ → ρ → Bool} {ks : List κ}
    (hks : ks.Perm ((t.select p).map Prod.fst)) :
    ∃ es : List (κ × ρ), es.Perm (t.select p) ∧ es.map Prod.fst = ks := by
  let entry (k : κ) : Option (κ × ρ) := (t.lookup k).map fun r => (k, r)
  have hentry {e : κ × ρ} (he : e ∈ t.select p) : entry e.1 = some e := by
    simp [entry, (mem_select.mp he).1]
  have hselect : ((t.select p).map Prod.fst).filterMap entry = t.select p := by
    rw [List.filterMap_map]
    exact (List.filterMap_congr fun e he => hentry he).trans List.filterMap_some
  refine ⟨ks.filterMap entry, ?_, ?_⟩
  · exact hselect ▸ hks.filterMap entry
  · rw [List.map_filterMap]
    refine (List.filterMap_congr fun k hk => ?_).trans List.filterMap_some
    obtain ⟨e, he, rfl⟩ := List.mem_map.mp (hks.subset hk)
    rw [hentry he]
    rfl

end Table
end Sahay
