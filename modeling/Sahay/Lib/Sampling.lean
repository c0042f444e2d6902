import Mathlib.Algebra.BigOperators.Fin
import Mathlib.Analysis.SpecificLimits.Basic
import Mathlib.Data.Fintype.BigOperators
import Mathlib.Topology.Algebra.InfiniteSum.Real

/-!
# Random texts

A sampler draws uniformly from a finite type.  By rejection, it keeps what it accepts until it has
enough, and what it keeps is distributed as the accepted draws are (`hasSum_collect`).  Without
rejection, some results have more draws than others, and no result has more than the most likely
letters make (`card_agree_le`).
-/

namespace Sahay

namespace Sampling

/-! ## Rejection -/

section Rejection

variable {α β : Type*}

/-- The first `n` values that are accepted, and what has not been drawn then. -/
def collect (accept : α → Option β) : ℕ → List α → Option (List β × List α)
  | 0, draws => some ([], draws)
  | _ + 1, [] => none
  | n + 1, a :: draws =>
      match accept a with
      | none => collect accept (n + 1) draws
      | some b => (collect accept n draws).map fun r => (b :: r.1, r.2)

theorem length_collect {accept : α → Option β} {n : ℕ} {draws rest : List α} {bs : List β}
    (h : collect accept n draws = some (bs, rest)) : bs.length = n := by
  induction draws generalizing n bs with
  | nil =>
      cases n with
      | zero =>
          cases h
          rfl
      | succ n => cases h
  | cons a draws ih =>
      cases n with
      | zero =>
          cases h
          rfl
      | succ n =>
          rw [collect] at h
          cases ha : accept a with
          | none =>
              rw [ha] at h
              exact ih h
          | some b =>
              rw [ha] at h
              obtain ⟨⟨bs', rest'⟩, hcollect, hsame⟩ := Option.map_eq_some_iff.mp h
              obtain ⟨rfl, rfl⟩ := Prod.mk.inj hsame
              rw [List.length_cons, ih hcollect]

variable [Fintype α]

theorem card_ofFn_succ (k : ℕ) (P : List α → Prop) [DecidablePred P] :
    Fintype.card {draws : Fin (k + 1) → α // P (List.ofFn draws)} =
      ∑ a, Fintype.card {draws : Fin k → α // P (a :: List.ofFn draws)} := by
  rw [← Fintype.card_sigma]
  refine Fintype.card_congr
    { toFun := fun d => ⟨d.1 0, Fin.tail d.1, ?_⟩
      invFun := fun d => ⟨Fin.cons d.1 d.2.1, ?_⟩
      left_inv := fun d => Subtype.ext (Fin.cons_self_tail d.1)
      right_inv := fun _ => rfl }
  · have h := d.2
    rw [List.ofFn_succ] at h
    exact h
  · rw [List.ofFn_succ]
    exact d.2.2

variable [DecidableEq α] [DecidableEq β] (accept : α → Option β)

/-- In how many ways `k` draws can be those after which the sampler has just collected `bs`. -/
def ways (k : ℕ) (bs : List β) : ℕ :=
  Fintype.card {draws : Fin k → α //
    collect accept bs.length (List.ofFn draws) = some (bs, [])}

/-- How many draws are read as `r`. -/
def reads (r : Option β) : ℕ := Fintype.card {a : α // accept a = r}

variable {accept}

theorem ways_nil_zero : ways accept 0 [] = 1 := by
  rw [ways, Fintype.card_eq_one_iff]
  refine ⟨⟨Fin.elim0, rfl⟩, fun draws => ?_⟩
  apply Subtype.ext
  exact Subsingleton.elim _ _

theorem ways_nil_succ (k : ℕ) : ways accept (k + 1) [] = 0 := by
  rw [ways, Fintype.card_eq_zero_iff]
  refine ⟨fun draws => ?_⟩
  have h := draws.property
  rw [List.ofFn_succ] at h
  cases h

theorem ways_cons_zero (b : β) (bs : List β) : ways accept 0 (b :: bs) = 0 := by
  rw [ways, Fintype.card_eq_zero_iff]
  refine ⟨fun draws => ?_⟩
  have h := draws.property
  rw [List.ofFn_zero] at h
  cases h

theorem ways_cons_succ (k : ℕ) (b : β) (bs : List β) :
    ways accept (k + 1) (b :: bs) =
      reads accept none * ways accept k (b :: bs) + reads accept (some b) * ways accept k bs := by
  have hfirst (a : α) : Fintype.card {draws : Fin k → α //
      collect accept (b :: bs).length (a :: List.ofFn draws) = some (b :: bs, [])} =
        (if accept a = none then ways accept k (b :: bs) else 0) +
          if accept a = some b then ways accept k bs else 0 := by
    cases ha : accept a with
    | none =>
        rw [if_pos rfl, if_neg (by simp), add_zero, ways]
        simp only [List.length_cons, collect, ha]
    | some b' =>
        rw [if_neg (by simp), zero_add]
        simp only [List.length_cons, collect, ha, Option.map_eq_some_iff, Prod.mk.injEq,
          List.cons.injEq, Option.some.injEq]
        split_ifs with hb
        · rw [ways]
          refine Fintype.card_congr (Equiv.subtypeEquivRight fun draws => ?_)
          constructor
          · rintro ⟨⟨bs', rest⟩, hcollect, ⟨-, rfl⟩, rfl⟩
            exact hcollect
          · exact fun hcollect => ⟨_, hcollect, ⟨hb, rfl⟩, rfl⟩
        · rw [Fintype.card_eq_zero_iff]
          exact ⟨fun draws => by
            obtain ⟨_, -, ⟨hb', -⟩, -⟩ := draws.property
            exact hb hb'⟩
  calc ways accept (k + 1) (b :: bs)
      = ∑ a, ((if accept a = none then ways accept k (b :: bs) else 0) +
          if accept a = some b then ways accept k bs else 0) := by
        rw [ways, card_ofFn_succ k fun draws =>
          collect accept (b :: bs).length draws = some (b :: bs, [])]
        exact Finset.sum_congr rfl fun a _ => hfirst a
    _ = reads accept none * ways accept k (b :: bs) +
          reads accept (some b) * ways accept k bs := by
        rw [Finset.sum_add_distrib, ← Finset.sum_filter, ← Finset.sum_filter, Finset.sum_const,
          Finset.sum_const, smul_eq_mul, smul_eq_mul, reads, reads, Fintype.card_subtype,
          Fintype.card_subtype]

/-- A probability that is shared out step by step: `q` of it stays, `p` of it goes on. -/
theorem hasSum_of_recurrence {f g : ℕ → ℝ} {p q t : ℝ} (hzero : f 0 = 0)
    (hsucc : ∀ n, f (n + 1) = q * f n + p * g n) (hf : ∀ n, 0 ≤ f n) (hg : ∀ n, 0 ≤ g n)
    (hp : 0 ≤ p) (hq : 0 ≤ q) (hq₁ : q < 1) (hsum : HasSum g t) :
    HasSum f (p * t / (1 - q)) := by
  have hpos : 0 < 1 - q := by linarith
  have hbound (n : ℕ) : ∑ i ∈ Finset.range n, f i ≤ p * t / (1 - q) := by
    induction n with
    | zero =>
        rw [Finset.sum_range_zero]
        exact div_nonneg (mul_nonneg hp (hsum.nonneg hg)) hpos.le
    | succ n ih =>
        have hshare : ∑ i ∈ Finset.range n, g i ≤ t :=
          sum_le_hasSum _ (fun i _ => hg i) hsum
        calc ∑ i ∈ Finset.range (n + 1), f i
            = ∑ i ∈ Finset.range n, f (i + 1) + f 0 := Finset.sum_range_succ' f n
          _ = q * ∑ i ∈ Finset.range n, f i + p * ∑ i ∈ Finset.range n, g i := by
              rw [hzero, add_zero, Finset.mul_sum, Finset.mul_sum, ← Finset.sum_add_distrib]
              exact Finset.sum_congr rfl fun i _ => hsucc i
          _ ≤ q * (p * t / (1 - q)) + p * t := by gcongr
          _ = p * t / (1 - q) := by
              field_simp
              ring
  have hsummable : Summable f := summable_of_sum_range_le hf hbound
  have hnext : HasSum (fun n => f (n + 1)) (q * tsum f + p * t) := by
    refine ((hsummable.hasSum.mul_left q).add (hsum.mul_left p)).congr_fun ?_
    exact fun n => hsucc n
  have htotal : tsum f = q * tsum f + p * t := by
    have hsplit := hsummable.tsum_eq_zero_add
    rw [hzero, zero_add, hnext.tsum_eq] at hsplit
    exact hsplit
  have hvalue : tsum f = p * t / (1 - q) := by
    rw [eq_div_iff hpos.ne']
    linarith
  rw [← hvalue]
  exact hsummable.hasSum

/-- The sampler stops, and what it has collected then is distributed as the accepted draws are. -/
theorem hasSum_collect (haccepts : reads accept none < Fintype.card α) (bs : List β) :
    HasSum (fun k => (ways accept k bs : ℝ) / (Fintype.card α : ℝ) ^ k)
      (bs.map fun b => (reads accept (some b) : ℝ) /
        (Fintype.card α - reads accept none)).prod := by
  have hcard : (0 : ℝ) < Fintype.card α := by
    exact_mod_cast lt_of_le_of_lt (Nat.zero_le _) haccepts
  have hlt : (reads accept none : ℝ) < Fintype.card α := by exact_mod_cast haccepts
  induction bs with
  | nil =>
      rw [List.map_nil, List.prod_nil]
      have honly : ∀ k, k ≠ 0 → (ways accept k [] : ℝ) / (Fintype.card α : ℝ) ^ k = 0 := by
        intro k hk
        obtain ⟨n, rfl⟩ := Nat.exists_eq_succ_of_ne_zero hk
        rw [ways_nil_succ, Nat.cast_zero, zero_div]
      have hsingle := hasSum_single 0 honly
      rw [ways_nil_zero, pow_zero, Nat.cast_one, div_one] at hsingle
      exact hsingle
  | cons b bs ih =>
      have hstep := hasSum_of_recurrence (p := reads accept (some b) / Fintype.card α)
        (q := reads accept none / Fintype.card α)
        (f := fun k => (ways accept k (b :: bs) : ℝ) / (Fintype.card α : ℝ) ^ k)
        (by rw [ways_cons_zero, Nat.cast_zero, zero_div])
        (fun k => by
          rw [ways_cons_succ, Nat.cast_add, Nat.cast_mul, Nat.cast_mul, pow_succ]
          field_simp)
        (fun k => by positivity) (fun k => by positivity) (by positivity) (by positivity)
        ((div_lt_one hcard).mpr hlt) ih
      rw [List.map_cons, List.prod_cons]
      convert hstep using 1
      have hne : (Fintype.card α : ℝ) - reads accept none ≠ 0 := by linarith
      field_simp

end Rejection

/-! ## Without rejection -/

section Bias

variable {ι α β : Type*} [Fintype ι] [DecidableEq ι] [Fintype α] [DecidableEq β]

/-- Draws that agree letter by letter are at most as many as the letters have draws. -/
theorem card_agree_le {letter : α → β} {m : ℕ}
    (hm : ∀ b, Fintype.card {a // letter a = b} ≤ m) (P : (ι → α) → Prop) [DecidablePred P]
    (h : ∀ d d', P d → P d' → ∀ i, letter (d i) = letter (d' i)) :
    Fintype.card {d // P d} ≤ m ^ Fintype.card ι := by
  by_cases hsome : ∃ d₀, P d₀
  · obtain ⟨d₀, hd₀⟩ := hsome
    let agree (i : ι) : Finset α := Finset.univ.filter fun a => letter a = letter (d₀ i)
    calc Fintype.card {d // P d}
        = (Finset.univ.filter P).card := Fintype.card_subtype P
      _ ≤ (Fintype.piFinset agree).card := by
          apply Finset.card_le_card
          intro d hd
          rw [Fintype.mem_piFinset]
          intro i
          rw [Finset.mem_filter]
          exact ⟨Finset.mem_univ _, h d d₀ (Finset.mem_filter.mp hd).2 hd₀ i⟩
      _ = ∏ i, (agree i).card := Fintype.card_piFinset agree
      _ ≤ ∏ _i : ι, m := by
          apply Finset.prod_le_prod' fun i _ => ?_
          rw [← Fintype.card_subtype]
          exact hm _
      _ = m ^ Fintype.card ι := by rw [Finset.prod_const, Finset.card_univ]
  · rw [Fintype.card_eq_zero_iff.mpr ⟨fun d => hsome ⟨d.1, d.2⟩⟩]
    exact Nat.zero_le _

/-- A draw of `n` values, reduced to a letter of the alphabet. -/
def pick (alphabet : List β) (fallback : β) {n : ℕ} (a : Fin n) : β :=
  alphabet.getD (a % alphabet.length) fallback

theorem card_pick_le {alphabet : List β} {fallback : β} {n m : ℕ} (hnodup : alphabet.Nodup)
    (hm : n ≤ m * alphabet.length) (b : β) :
    Fintype.card {a : Fin n // pick alphabet fallback a = b} ≤ m := by
  rw [← Fintype.card_fin m]
  have hlength (a : Fin n) : 0 < alphabet.length := by
    apply Nat.pos_of_ne_zero
    intro hnone
    rw [hnone, Nat.mul_zero] at hm
    have hlt := a.isLt
    omega
  have hround (a : Fin n) : a / alphabet.length < m := by
    rw [Nat.div_lt_iff_lt_mul (hlength a)]
    exact a.isLt.trans_le hm
  refine Fintype.card_le_of_injective (fun a => ⟨a.1 / alphabet.length, hround a.1⟩) ?_
  -- a draw is known by its letter and its round
  rintro ⟨a, ha⟩ ⟨a', ha'⟩ hsame
  have hletter : (alphabet[(a : ℕ) % alphabet.length]?).getD fallback =
      (alphabet[(a' : ℕ) % alphabet.length]?).getD fallback := by
    rw [← List.getD_eq_getElem?_getD, ← List.getD_eq_getElem?_getD]
    exact ha.trans ha'.symm
  have hlt (a : Fin n) : a % alphabet.length < alphabet.length := Nat.mod_lt _ (hlength a)
  rw [List.getElem?_eq_getElem (hlt a), List.getElem?_eq_getElem (hlt a'), Option.getD_some,
    Option.getD_some] at hletter
  have hrest : (a : ℕ) % alphabet.length = (a' : ℕ) % alphabet.length :=
    hnodup.getElem_inj_iff.mp hletter
  have hdiv : (a : ℕ) / alphabet.length = (a' : ℕ) / alphabet.length :=
    congrArg Fin.val hsame
  apply Subtype.ext
  apply Fin.ext
  calc (a : ℕ) = a % alphabet.length + alphabet.length * (a / alphabet.length) :=
        (Nat.mod_add_div _ _).symm
    _ = a' % alphabet.length + alphabet.length * (a' / alphabet.length) := by rw [hrest, hdiv]
    _ = a' := Nat.mod_add_div _ _

end Bias

end Sampling
end Sahay
