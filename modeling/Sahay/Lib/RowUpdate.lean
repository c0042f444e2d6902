import Sahay.Lib.Table

/-!
# An `UPDATE` row by row

Under `READ COMMITTED` an `UPDATE` finds its rows in the committed rows as they are when it
begins.  It takes them one by one: where another transaction holds a row it waits, and once it
has the row it looks again whether the row still satisfies the condition.  Rows that it takes
stay locked until its transaction ends, and are seen changed only after its commit.
-/

namespace Sahay

universe u v

variable {κ : Type u} {ρ : Type v} [DecidableEq κ]

structure RowUpdate (κ : Type u) where
  /-- The rows that satisfied the condition when the statement began. -/
  found : List κ
  /-- Those that it has yet to look at. -/
  todo : List κ
  /-- Those that it has taken. -/
  held : List κ := []

namespace RowUpdate

def start (t : Table κ ρ) (p : ρ → Bool) : RowUpdate κ :=
  let keys := (t.select fun _ r => p r).map Prod.fst
  { found := keys, todo := keys }

def take (t : Table κ ρ) (p : ρ → Bool) (k : κ) (s : RowUpdate κ) : RowUpdate κ :=
  { s with
    todo := s.todo.erase k
    held := if (t.lookup k).any p then k :: s.held else s.held }

def finish (t : Table κ ρ) (f : ρ → ρ) (s : RowUpdate κ) : Table κ ρ :=
  t.updateWhere (fun k _ => k ∈ s.held) f

/-- Each row found is yet to be looked at, has been taken, or satisfies the condition no more. -/
def Covers (t : Table κ ρ) (p : ρ → Bool) (s : RowUpdate κ) : Prop :=
  ∀ k ∈ s.found, k ∈ t ∧ (k ∈ s.todo ∨ k ∈ s.held ∨ (t.lookup k).any p = false)

variable {t t' : Table κ ρ} {p : ρ → Bool} {f : ρ → ρ} {s : RowUpdate κ} {k : κ}

theorem mem_start : k ∈ (start t p).found ↔ (t.lookup k).any p = true := by
  simp only [start, List.mem_map, Table.mem_select, Prod.exists, exists_and_right,
    exists_eq_right, Option.any_eq_true]

theorem covers_start : (start t p).Covers t p := by
  intro k hk
  refine ⟨?_, .inl hk⟩
  obtain ⟨r, hr, -⟩ := (Option.any_eq_true _ _).1 (mem_start.1 hk)
  exact Table.mem_iff_exists.2 ⟨r, hr⟩

theorem Covers.take (h : s.Covers t p) (k : κ) : (s.take t p k).Covers t p := by
  intro k' hk'
  obtain ⟨hmem, hcase⟩ := h k' hk'
  refine ⟨hmem, ?_⟩
  unfold RowUpdate.take
  dsimp only
  by_cases hk : k' = k
  · subst hk
    by_cases hp : (t.lookup k').any p = true
    · rw [if_pos hp]
      exact .inr (.inl List.mem_cons_self)
    · exact .inr (.inr (Bool.not_eq_true _ ▸ hp))
  · rcases hcase with htodo | hheld | hnot
    · exact .inl ((List.mem_erase_of_ne hk).2 htodo)
    · right
      left
      split_ifs
      · exact List.mem_cons_of_mem _ hheld
      · exact hheld
    · exact .inr (.inr hnot)

theorem Covers.mono (h : s.Covers t p)
    (hkeys : ∀ k ∈ t, k ∈ t' ∧ ((t'.lookup k).any p = true → (t.lookup k).any p = true)) :
    s.Covers t' p := by
  intro k hk
  obtain ⟨hmem, hcase⟩ := h k hk
  obtain ⟨hmem', hp⟩ := hkeys k hmem
  refine ⟨hmem', hcase.imp_right (Or.imp_right fun hnot => ?_)⟩
  rw [Bool.eq_false_iff] at hnot ⊢
  exact mt hp hnot

/-- Once the statement has looked at every row, none that it had found satisfies the condition
when its transaction has committed. -/
theorem Covers.finish (h : s.Covers t p) (htodo : s.todo = []) (hf : ∀ r, p (f r) = false)
    (hk : k ∈ s.found) : ((s.finish t f).lookup k).any p = false := by
  obtain ⟨-, hcase⟩ := h k hk
  rw [RowUpdate.finish, Table.lookup_updateWhere]
  cases hlookup : t.lookup k with
  | none => rfl
  | some r =>
      rw [Option.map_some, Option.any_some]
      rcases hcase with hin | hheld | hnot
      · rw [htodo] at hin
        cases hin
      · rw [if_pos (decide_eq_true hheld)]
        exact hf r
      · rw [hlookup, Option.any_some] at hnot
        split_ifs
        · exact hf r
        · exact hnot

theorem foldl_take (ks : List κ) (hks : s.todo = ks) :
    (ks.foldl (fun s k => s.take t p k) s).todo = [] ∧
      ∀ k, k ∈ (ks.foldl (fun s k => s.take t p k) s).held ↔
        k ∈ s.held ∨ k ∈ ks ∧ (t.lookup k).any p = true := by
  induction ks generalizing s with
  | nil => exact ⟨hks, fun k => by simp⟩
  | cons k ks ih =>
      have htodo : (s.take t p k).todo = ks := by
        rw [take, hks, List.erase_cons_head]
      obtain ⟨hempty, hheld⟩ := ih htodo
      refine ⟨hempty, fun k' => ?_⟩
      rw [List.foldl_cons, hheld, take]
      by_cases hp : (t.lookup k).any p = true
      · simp only [if_pos hp, List.mem_cons]
        grind
      · simp only [if_neg hp, List.mem_cons]
        grind

end RowUpdate
end Sahay
