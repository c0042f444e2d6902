import Mathlib.Tactic.MkIffOfInductiveProp
import Sahay.Lib.Stretch
import Sahay.Server.Shared

/-!
# Redaction of phone numbers

The global replace goes over the text once, from the left.  Wherever it stands, the digits behind
and ahead that belong together are few, or those behind are out of reach: so a match is always a
whole run, and what is kept is in no run that is long enough.
-/

namespace Sahay

def digitsIn (w : List Char) : ℕ := w.countP isDigitChar

def digitsAhead (l : List Char) : ℕ := digitsIn (lead isDigitChar isSeparatorChar l)

/-- Eight or more digits, and between them white space and hyphens only. -/
def LongRun (w : List Char) : Prop := IsStretch isDigitChar isSeparatorChar w ∧ 8 ≤ digitsIn w

def HasLongRun (text : List Char) : Prop :=
  ∃ before w after, text = before ++ w ++ after ∧ LongRun w

/-- The first character of `rest` belongs to a maximal run of eight or more digits. -/
def InLongRun (before rest : List Char) : Prop :=
  ∃ b w w' after, before = b ++ w ∧ rest = w' ++ after ∧ w' ≠ [] ∧
    MaximalStretch isDigitChar isSeparatorChar b (w ++ w') after ∧ 8 ≤ digitsIn (w ++ w')

/-- `out` is `rest`, which stands behind `before`, with the placeholder for each maximal run of
eight or more digits and every other character kept. -/
@[mk_iff]
inductive Redacts : List Char → List Char → List Char → Prop
  | nil {before} : Redacts before [] []
  | run {before w after out} (hmaximal : MaximalStretch isDigitChar isSeparatorChar before w after)
      (hlong : 8 ≤ digitsIn w) (h : Redacts (before ++ w) after out) :
      Redacts before (w ++ after) (redacted ++ out)
  | keep {before c rest out} (hfree : ¬InLongRun before (c :: rest))
      (h : Redacts (before ++ [c]) rest out) : Redacts before (c :: rest) (c :: out)

variable {before rest text w : List Char} {c : Char}

/-! ## The scan -/

theorem digitsAhead_of_digit (h : isDigitChar c = true) :
    digitsAhead (c :: rest) = digitsAhead rest + 1 := by
  rw [digitsAhead, lead_cons_of_mark h, digitsIn, List.countP_cons_of_pos h]
  rfl

theorem digitsAhead_of_not_digit (h : isDigitChar c = false) :
    digitsAhead (c :: rest) = if isSeparatorChar c then digitsAhead rest else 0 := by
  have hreach : reachesMark isDigitChar isSeparatorChar (c :: rest) =
      (isSeparatorChar c && reachesMark isDigitChar isSeparatorChar rest) := by
    rw [reachesMark, h, Bool.false_or]
  rw [digitsAhead, lead, hreach]
  by_cases hsep : isSeparatorChar c = true
  · rw [hsep, Bool.true_and, if_pos rfl]
    split_ifs with hrest
    · rw [digitsIn, List.countP_cons_of_neg (by rw [h]; exact Bool.false_ne_true)]
      rfl
    · rw [digitsAhead, lead_of_not_reaches (Bool.not_eq_true _ ▸ hrest)]
  · rw [Bool.not_eq_true] at hsep
    rw [hsep, Bool.false_and, if_neg Bool.false_ne_true, if_neg Bool.false_ne_true]
    rfl

theorem digitGroups_eq (gap : ℕ) (l : List Char) :
    digitGroups gap l = (digitsAhead l, if reachesMark isDigitChar isSeparatorChar l then
      gap + (lead isDigitChar isSeparatorChar l).length else 0) := by
  induction l generalizing gap with
  | nil => rfl
  | cons c l ih =>
      rw [digitGroups]
      by_cases hdigit : isDigitChar c = true
      · rw [if_pos hdigit, ih, digitsAhead_of_digit hdigit, lead_cons_of_mark hdigit, reachesMark,
          hdigit, Bool.true_or, if_pos rfl, List.length_cons]
        refine Prod.ext rfl ?_
        dsimp only
        split_ifs with hreach
        · omega
        · rw [lead_of_not_reaches (Bool.not_eq_true _ ▸ hreach)]
          rfl
      · rw [Bool.not_eq_true] at hdigit
        rw [if_neg (by rw [hdigit]; exact Bool.false_ne_true), digitsAhead_of_not_digit hdigit,
          lead, reachesMark, hdigit, Bool.false_or]
        by_cases hsep : isSeparatorChar c = true
        · rw [if_pos hsep, if_pos hsep, ih, hsep, Bool.true_and]
          refine Prod.ext rfl ?_
          dsimp only
          split_ifs
          · rw [List.length_cons]
            omega
          · rfl
        · rw [if_neg hsep, if_neg hsep, Bool.eq_false_iff.2 hsep, Bool.false_and,
            if_neg Bool.false_ne_true]

theorem redactFrom_skip (skip : ℕ) (l : List Char) :
    redactFrom skip l = redactFrom 0 (l.drop skip) := by
  induction l generalizing skip with
  | nil => rw [List.drop_nil, redactFrom, redactFrom]
  | cons c l ih =>
      cases skip with
      | zero => rfl
      | succ skip => exact ih skip

theorem redactFrom_cons (c : Char) (l : List Char) :
    redactFrom 0 (c :: l) =
      if isDigitChar c ∧ 7 ≤ digitsAhead l then
        redacted ++ redactFrom 0 (l.drop (lead isDigitChar isSeparatorChar l).length)
      else c :: redactFrom 0 l := by
  have hgroups : digitGroups 0 l =
      (digitsAhead l, (lead isDigitChar isSeparatorChar l).length) := by
    rw [digitGroups_eq, Nat.zero_add]
    split_ifs with h
    · rfl
    · rw [lead_of_not_reaches (Bool.not_eq_true _ ▸ h)]
      rfl
  rw [redactFrom, hgroups, redactFrom_skip]

/-! ## Every match is a maximal run -/

/-- The digits behind and those ahead do not make a run of eight. -/
def Settled (before rest : List Char) : Prop :=
  reachesMark isDigitChar isSeparatorChar before.reverse = false ∨
    reachesMark isDigitChar isSeparatorChar rest = false ∨
    digitsAhead before.reverse + digitsAhead rest < 8

theorem digitsAhead_of_not_reaches (h : reachesMark isDigitChar isSeparatorChar rest = false) :
    digitsAhead rest = 0 := by
  rw [digitsAhead, lead_of_not_reaches h]
  rfl

theorem digitsIn_le {w' : List Char} (h : IsStretch isDigitChar isSeparatorChar (w ++ w'))
    (before' after : List Char) :
    digitsIn (w ++ w') ≤ digitsAhead (before' ++ w).reverse + digitsAhead (w' ++ after) := by
  have hbehind : digitsIn w.reverse ≤ digitsAhead (before' ++ w).reverse :=
    (h.suffix_lead (List.suffix_append before' w)).sublist.countP_le
  have hahead : digitsIn w' ≤ digitsAhead (w' ++ after) :=
    (h.prefix_lead (List.prefix_append w' after)).sublist.countP_le
  rw [digitsIn, List.countP_reverse] at hbehind
  rw [digitsIn, List.countP_append]
  exact Nat.add_le_add hbehind hahead

theorem Settled.not_inLongRun (h : Settled before (c :: rest))
    (hkept : ¬(isDigitChar c ∧ 7 ≤ digitsAhead rest)) : ¬InLongRun before (c :: rest) := by
  rintro ⟨b, w, w', after, rfl, hrest, hne, hmaximal, hlong⟩
  have hle := digitsIn_le hmaximal.toIsStretch b after
  rw [← hrest] at hle
  rcases h with hbehind | hahead | hfew
  · -- No digit behind belongs to the run, so it begins here.
    have hw : w.reverse <+: [] := lead_of_not_reaches hbehind ▸
      hmaximal.toIsStretch.suffix_lead (List.suffix_append b w)
    obtain rfl := List.reverse_eq_nil_iff.1 (List.prefix_nil.1 hw)
    obtain ⟨d, hd, hdigit⟩ := hmaximal.head
    obtain ⟨e, w', rfl⟩ := List.exists_cons_of_ne_nil hne
    obtain ⟨rfl, -⟩ := List.cons_eq_cons.1 hrest
    obtain rfl : c = d := Option.some.inj hd
    rw [digitsAhead_of_not_reaches hbehind, digitsAhead_of_digit hdigit] at hle
    have hfew : digitsAhead rest < 7 := not_le.1 fun h => hkept ⟨hdigit, h⟩
    omega
  · -- No digit ahead belongs to the run, so it ends behind.
    have hw' := hmaximal.toIsStretch.prefix_lead (List.prefix_append w' after)
    rw [← hrest, lead_of_not_reaches hahead] at hw'
    exact hne (List.prefix_nil.1 hw')
  · omega

theorem Settled.keep (h : Settled before (c :: rest))
    (hkept : ¬(isDigitChar c ∧ 7 ≤ digitsAhead rest)) : Settled (before ++ [c]) rest := by
  unfold Settled at *
  rw [List.reverse_append, List.reverse_singleton, List.singleton_append]
  by_cases hdigit : isDigitChar c = true
  · rw [digitsAhead_of_digit hdigit] at *
    rcases h with hbehind | hahead | hfew
    · have hfew : digitsAhead rest < 7 := not_le.1 fun h => hkept ⟨hdigit, h⟩
      have hnone := digitsAhead_of_not_reaches hbehind
      exact .inr (.inr (by omega))
    · rw [reachesMark, hdigit] at hahead
      cases hahead
    · exact .inr (.inr (by omega))
  · rw [Bool.not_eq_true] at hdigit
    simp only [reachesMark, hdigit, Bool.false_or, digitsAhead_of_not_digit hdigit] at h ⊢
    by_cases hsep : isSeparatorChar c = true
    · simpa only [hsep, Bool.true_and, if_true] using h
    · rw [Bool.not_eq_true] at hsep
      exact .inl (by rw [hsep, Bool.false_and])

theorem Settled.run (h : Settled before (c :: rest)) (hdigit : isDigitChar c = true)
    (hlong : 7 ≤ digitsAhead rest) :
    MaximalStretch isDigitChar isSeparatorChar before
      (c :: lead isDigitChar isSeparatorChar rest)
      (rest.drop (lead isDigitChar isSeparatorChar rest).length) := by
  refine ⟨isStretch_cons_lead hdigit, ?_, not_reaches_drop_lead _ _ _⟩
  rcases h with hbehind | hahead | hfew
  · exact hbehind
  · rw [reachesMark, hdigit] at hahead
    cases hahead
  · rw [digitsAhead_of_digit hdigit] at hfew
    omega

theorem cons_eq_run_append (c : Char) (rest : List Char) :
    c :: rest = (c :: lead isDigitChar isSeparatorChar rest) ++
      rest.drop (lead isDigitChar isSeparatorChar rest).length := by
  rw [List.cons_append, ← List.prefix_append_drop (lead_isPrefix _ _ rest)]

theorem redactFrom_redacts (h : Settled before rest) :
    Redacts before rest (redactFrom 0 rest) := by
  induction hlength : rest.length using Nat.strong_induction_on generalizing before rest with
  | _ n ih =>
      subst hlength
      cases rest with
      | nil => exact .nil
      | cons c rest =>
          rw [redactFrom_cons]
          split_ifs with hmatch
          · obtain ⟨hdigit, hlong⟩ := hmatch
            have hrun := h.run hdigit hlong
            rw [cons_eq_run_append c rest]
            refine .run hrun ?_ (ih _ ?_ (.inr (.inl hrun.right)) rfl)
            · rw [digitsIn, List.countP_cons_of_pos hdigit]
              exact Nat.succ_le_succ hlong
            · rw [List.length_cons, List.length_drop]
              omega
          · exact .keep (h.not_inLongRun hmatch) (ih _ (Nat.lt_succ_self _) (h.keep hmatch) rfl)

/-! ## Texts without a run -/

theorem length_match_lt {l out : List Char} (hlong : 7 ≤ digitsAhead l)
    (hout : out.length ≤ (l.drop (lead isDigitChar isSeparatorChar l).length).length) :
    (redacted ++ out).length < (c :: l).length := by
  have hdigits : digitsAhead l ≤ (lead isDigitChar isSeparatorChar l).length :=
    List.countP_le_length
  have hlead := (lead_isPrefix isDigitChar isSeparatorChar l).length_le
  have hplaceholder : redacted.length = 3 := rfl
  rw [List.length_drop] at hout
  rw [List.length_append, List.length_cons]
  omega

theorem length_redactFrom_le (l : List Char) : (redactFrom 0 l).length ≤ l.length := by
  induction hlength : l.length using Nat.strong_induction_on generalizing l with
  | _ n ih =>
      subst hlength
      cases l with
      | nil => exact le_rfl
      | cons c l =>
          rw [redactFrom_cons]
          split_ifs with hmatch
          · refine (length_match_lt hmatch.2 (ih _ ?_ _ rfl)).le
            rw [List.length_drop, List.length_cons]
            omega
          · exact Nat.succ_le_succ (ih _ (Nat.lt_succ_self _) _ rfl)

theorem hasLongRun_cons (c : Char) (l : List Char) :
    HasLongRun (c :: l) ↔ (isDigitChar c ∧ 7 ≤ digitsAhead l) ∨ HasLongRun l := by
  constructor
  · rintro ⟨before, w, after, hsplit, hstretch, hlong⟩
    cases before with
    | nil =>
        left
        obtain ⟨d, hhead, hdigit⟩ := hstretch.head
        cases w with
        | nil => cases hhead
        | cons e w =>
            obtain ⟨rfl, rfl⟩ := List.cons_eq_cons.1 hsplit
            obtain rfl : c = d := Option.some.inj hhead
            have hle : digitsIn (c :: w) ≤ digitsAhead [] + digitsAhead (c :: w ++ after) :=
              digitsIn_le (w := []) hstretch [] after
            simp only [List.cons_append, digitsAhead_of_digit hdigit] at hle
            exact ⟨hdigit, Nat.le_of_succ_le_succ ((hlong.trans hle).trans (Nat.zero_add _).le)⟩
    | cons b before =>
        right
        obtain ⟨rfl, rfl⟩ := List.cons_eq_cons.1 hsplit
        exact ⟨before, w, after, rfl, hstretch, hlong⟩
  · rintro (⟨hdigit, hlong⟩ | ⟨before, w, after, rfl, hrun⟩)
    · refine ⟨[], c :: lead isDigitChar isSeparatorChar l, _, cons_eq_run_append c l,
        isStretch_cons_lead hdigit, ?_⟩
      rw [digitsIn, List.countP_cons_of_pos hdigit]
      exact Nat.succ_le_succ hlong
    · exact ⟨c :: before, w, after, rfl, hrun⟩

theorem redactFrom_eq_self_iff (l : List Char) : redactFrom 0 l = l ↔ ¬HasLongRun l := by
  induction l with
  | nil =>
      refine iff_of_true rfl ?_
      rintro ⟨before, w, after, hnil, hstretch, -⟩
      obtain ⟨a, hhead, -⟩ := hstretch.head
      obtain ⟨-, rfl, -⟩ : before = [] ∧ w = [] ∧ after = [] := by simpa using hnil.symm
      cases hhead
  | cons c l ih =>
      rw [redactFrom_cons, hasLongRun_cons]
      split_ifs with hmatch
      · refine iff_of_false (fun heq => ?_) (not_not_intro (.inl hmatch))
        exact (length_match_lt hmatch.2 (length_redactFrom_le _)).ne (congrArg List.length heq)
      · simp only [hmatch, false_or, List.cons.injEq, true_and]
        exact ih

/-! ## Redacting twice -/

theorem not_reaches_redacted (l : List Char) :
    reachesMark isDigitChar isSeparatorChar (redacted ++ l) = false := rfl

theorem redactFrom_redacted_append (l : List Char) :
    redactFrom 0 (redacted ++ l) = redacted ++ redactFrom 0 l := by
  have hkeep (c : Char) (hc : isDigitChar c = false) (l : List Char) :
      redactFrom 0 (c :: l) = c :: redactFrom 0 l := by
    rw [redactFrom_cons, if_neg (by simp [hc])]
  simp only [redacted, List.cons_append, List.nil_append]
  rw [hkeep _ rfl, hkeep _ rfl, hkeep _ rfl]

/-- The output does not continue a run further than the text did. -/
theorem digitsAhead_redactFrom (l : List Char) :
    (reachesMark isDigitChar isSeparatorChar (redactFrom 0 l) →
      reachesMark isDigitChar isSeparatorChar l) ∧
      digitsAhead (redactFrom 0 l) ≤ digitsAhead l := by
  induction l with
  | nil => exact ⟨id, le_rfl⟩
  | cons c l ih =>
      rw [redactFrom_cons]
      split_ifs with hmatch
      · have hnone := not_reaches_redacted
          (redactFrom 0 (l.drop (lead isDigitChar isSeparatorChar l).length))
        rw [hnone, digitsAhead_of_not_reaches hnone]
        exact ⟨fun h => absurd h Bool.false_ne_true, Nat.zero_le _⟩
      · obtain ⟨hreach, hdigits⟩ := ih
        refine ⟨?_, ?_⟩
        · simp only [reachesMark, Bool.or_eq_true, Bool.and_eq_true]
          exact Or.imp_right (And.imp_right hreach)
        · by_cases hdigit : isDigitChar c = true
          · rw [digitsAhead_of_digit hdigit, digitsAhead_of_digit hdigit]
            exact Nat.succ_le_succ hdigits
          · rw [Bool.not_eq_true] at hdigit
            rw [digitsAhead_of_not_digit hdigit, digitsAhead_of_not_digit hdigit]
            split_ifs
            · exact hdigits
            · exact le_rfl

theorem redactFrom_redactFrom (l : List Char) :
    redactFrom 0 (redactFrom 0 l) = redactFrom 0 l := by
  induction hlength : l.length using Nat.strong_induction_on generalizing l with
  | _ n ih =>
      subst hlength
      cases l with
      | nil => rfl
      | cons c l =>
          rw [redactFrom_cons]
          split_ifs with hmatch
          · rw [redactFrom_redacted_append, ih _ _ _ rfl]
            rw [List.length_drop, List.length_cons]
            omega
          · have hkept : ¬(isDigitChar c ∧ 7 ≤ digitsAhead (redactFrom 0 l)) :=
              fun h => hmatch ⟨h.1, h.2.trans (digitsAhead_redactFrom l).2⟩
            rw [redactFrom_cons, if_neg hkept, ih _ (Nat.lt_succ_self _) _ rfl]

/-! ## The specification -/

/-- `Redacts` leaves no choice. -/
theorem Redacts.unique {out out' : List Char} (h : Redacts before rest out)
    (h' : Redacts before rest out') : out = out' := by
  have hnonempty {b w after : List Char}
      (hmaximal : MaximalStretch isDigitChar isSeparatorChar b w after) : w ≠ [] := by
    rintro rfl
    obtain ⟨a, hhead, -⟩ := hmaximal.head
    cases hhead
  have hrun {b w after : List Char}
      (hmaximal : MaximalStretch isDigitChar isSeparatorChar b w after) (hlong : 8 ≤ digitsIn w) :
      InLongRun b (w ++ after) :=
    ⟨b, [], w, after, (List.append_nil b).symm, rfl, hnonempty hmaximal, hmaximal, hlong⟩
  induction h generalizing out' with
  | nil =>
      rcases (redacts_iff _ _ _).1 h' with ⟨-, rfl⟩ | ⟨w, after, o, hmaximal, -, -, hnil, -⟩ |
        ⟨c, rest, o, -, -, hnil, -⟩
      · rfl
      · exact absurd (List.append_eq_nil_iff.1 hnil.symm).1 (hnonempty hmaximal)
      · cases hnil
  | @run before w after out hmaximal hlong _ ih =>
      rcases (redacts_iff _ _ _).1 h' with ⟨hnil, -⟩ | ⟨w', after', o, hmaximal', -, ho, heq, rfl⟩ |
        ⟨c, rest, o, hfree, -, heq, -⟩
      · exact absurd (List.append_eq_nil_iff.1 hnil).1 (hnonempty hmaximal)
      · obtain rfl : w = w' := by rw [← hmaximal.lead_eq, heq, hmaximal'.lead_eq]
        obtain rfl := List.append_cancel_left heq
        rw [ih ho]
      · exact absurd (heq ▸ hrun hmaximal hlong) hfree
  | @keep before c rest out hfree _ ih =>
      rcases (redacts_iff _ _ _).1 h' with ⟨hnil, -⟩ | ⟨w, after, o, hmaximal, hlong, -, heq, -⟩ |
        ⟨c', rest', o, -, ho, heq, rfl⟩
      · cases hnil
      · exact absurd (heq ▸ hrun hmaximal hlong) hfree
      · obtain ⟨rfl, rfl⟩ := List.cons_eq_cons.1 heq
        rw [ih ho]

/-- The output has no run of eight or more digits; it is the text with the placeholder for each
maximal one and everything else kept; a text without one stays as it is; and redacting twice is
redacting once. -/
theorem redactContactDetails_spec (text : String) :
    ¬HasLongRun (redactContactDetails text).toList ∧
      (∀ out, Redacts [] text.toList out ↔ out = (redactContactDetails text).toList) ∧
      (¬HasLongRun text.toList → redactContactDetails text = text) ∧
      redactContactDetails (redactContactDetails text) = redactContactDetails text := by
  have hlist : (redactContactDetails text).toList = redactFrom 0 text.toList :=
    String.toList_ofList
  refine ⟨?_, fun out => ?_, fun h => ?_, ?_⟩
  · rw [hlist, ← redactFrom_eq_self_iff]
    exact redactFrom_redactFrom _
  · rw [hlist]
    have hredacts : Redacts [] text.toList (redactFrom 0 text.toList) :=
      redactFrom_redacts (.inl rfl)
    constructor
    · exact fun h => h.unique hredacts
    · rintro rfl
      exact hredacts
  · rw [redactContactDetails, (redactFrom_eq_self_iff _).2 h, String.ofList_toList]
  · rw [redactContactDetails, hlist, redactFrom_redactFrom]
    rfl

end Sahay
