import Mathlib.Data.List.Infix
import Mathlib.Data.Nat.Notation

/-!
# Stretches of marks

A stretch runs from a mark to a mark and has nothing in it but marks and the fillers that may
stand between them.  What of a stretch lies behind a place of the list is the `lead` of the rest.
-/

namespace Sahay

variable {α : Type*} (mark filler : α → Bool)

/-- Behind fillers only there is a mark. -/
def reachesMark : List α → Bool
  | [] => false
  | a :: l => mark a || (filler a && reachesMark l)

/-- What continues a stretch: up to the last mark that fillers and marks lead to. -/
def lead : List α → List α
  | [] => []
  | a :: l => if reachesMark mark filler (a :: l) then a :: lead l else []

/-- From a mark to a mark, with fillers between the marks. -/
structure IsStretch (w : List α) : Prop where
  only : ∀ a ∈ w, mark a ∨ filler a
  head : ∃ a, w.head? = some a ∧ mark a
  last : ∃ a, w.getLast? = some a ∧ mark a

/-- A stretch that neither what stands before it nor what stands behind it continues. -/
structure MaximalStretch (before w after : List α) : Prop extends IsStretch mark filler w where
  left : reachesMark mark filler before.reverse = false
  right : reachesMark mark filler after = false

variable {mark filler} {l w before after : List α} {a : α}

theorem lead_of_not_reaches (h : reachesMark mark filler l = false) : lead mark filler l = [] := by
  cases l with
  | nil => rfl
  | cons a l => rw [lead, h, if_neg Bool.false_ne_true]

theorem lead_cons_of_mark (h : mark a = true) :
    lead mark filler (a :: l) = a :: lead mark filler l := by
  rw [lead, reachesMark, h, Bool.true_or, if_pos rfl]

theorem lead_isPrefix (mark filler : α → Bool) (l : List α) : lead mark filler l <+: l := by
  induction l with
  | nil => exact List.prefix_rfl
  | cons a l ih =>
      rw [lead]
      split_ifs
      · exact (List.prefix_cons_inj a).2 ih
      · exact List.nil_prefix

theorem lead_only : ∀ a ∈ lead mark filler l, mark a ∨ filler a := by
  induction l with
  | nil => simp [lead]
  | cons b l ih =>
      rw [lead]
      split_ifs with h
      · simp only [reachesMark, Bool.or_eq_true, Bool.and_eq_true] at h
        intro a ha
        rcases List.mem_cons.1 ha with rfl | ha
        · exact h.imp_right And.left
        · exact ih a ha
      · simp

theorem lead_last (h : reachesMark mark filler l = true) :
    ∃ a, (lead mark filler l).getLast? = some a ∧ mark a := by
  induction l with
  | nil => simp [reachesMark] at h
  | cons b l ih =>
      rw [lead, if_pos h]
      by_cases hl : reachesMark mark filler l = true
      · obtain ⟨a, hlast, ha⟩ := ih hl
        exact ⟨a, by rw [List.getLast?_cons, hlast, Option.getD_some], ha⟩
      · rw [Bool.not_eq_true] at hl
        rw [lead_of_not_reaches hl]
        simp only [reachesMark, hl, Bool.and_false, Bool.or_false] at h
        exact ⟨b, rfl, h⟩

theorem not_reaches_drop_lead (mark filler : α → Bool) (l : List α) :
    reachesMark mark filler (l.drop (lead mark filler l).length) = false := by
  induction l with
  | nil => rfl
  | cons a l ih =>
      rw [lead]
      split_ifs with h
      · exact ih
      · exact Bool.not_eq_true _ ▸ h

theorem prefix_lead (hfront : w <+: l) (honly : ∀ a ∈ w, mark a ∨ filler a)
    (hlast : ∃ a, w.getLast? = some a ∧ mark a) : w <+: lead mark filler l := by
  induction w generalizing l with
  | nil => exact List.nil_prefix
  | cons a w ih =>
      obtain ⟨l, rfl, hw⟩ := List.cons_prefix_iff.1 hfront
      have honly' : ∀ b ∈ w, mark b ∨ filler b := fun b hb => honly b (List.mem_cons_of_mem _ hb)
      cases w with
      | nil =>
          obtain ⟨b, hb, hmark⟩ := hlast
          obtain rfl : a = b := Option.some.inj hb
          rw [lead_cons_of_mark hmark]
          exact (List.prefix_cons_inj a).2 List.nil_prefix
      | cons b w =>
          have hrest : b :: w <+: lead mark filler l :=
            ih hw honly' (by simpa only [List.getLast?_cons_cons] using hlast)
          have hreach : reachesMark mark filler l = true := by
            by_contra hnot
            rw [lead_of_not_reaches (Bool.not_eq_true _ ▸ hnot)] at hrest
            exact List.cons_ne_nil _ _ (List.prefix_nil.1 hrest)
          have hhere : reachesMark mark filler (a :: l) = true := by
            rw [reachesMark, hreach, Bool.and_true, Bool.or_eq_true]
            exact honly a List.mem_cons_self
          rw [lead, if_pos hhere]
          exact (List.prefix_cons_inj a).2 hrest

/-- The part of a stretch before a place, read backwards, lies in the lead of what stands there. -/
theorem IsStretch.suffix_lead {w' : List α} (h : IsStretch mark filler (w ++ w'))
    (hsuffix : w <:+ before) : w.reverse <+: lead mark filler before.reverse := by
  cases w with
  | nil => exact List.nil_prefix
  | cons a w =>
      refine prefix_lead (List.reverse_prefix.2 hsuffix) ?_ ?_
      · intro b hb
        exact h.only b (List.mem_append_left _ (List.mem_reverse.1 hb))
      · obtain ⟨b, hb, hmark⟩ := h.head
        exact ⟨b, List.getLast?_reverse.trans hb, hmark⟩

theorem IsStretch.prefix_lead {w' : List α} (h : IsStretch mark filler (w ++ w'))
    (hfront : w' <+: after) : w' <+: lead mark filler after := by
  cases w' with
  | nil => exact List.nil_prefix
  | cons a w' =>
      refine Sahay.prefix_lead hfront ?_ ?_
      · exact fun b hb => h.only b (List.mem_append_right _ hb)
      · obtain ⟨b, hb, hmark⟩ := h.last
        exact ⟨b, by simpa only [List.getLast?_append_cons] using hb, hmark⟩

theorem isStretch_cons_lead (h : mark a = true) :
    IsStretch mark filler (a :: lead mark filler l) where
  only := by
    intro b hb
    rcases List.mem_cons.1 hb with rfl | hb
    · exact .inl h
    · exact lead_only b hb
  head := ⟨a, rfl, h⟩
  last := by
    by_cases hl : reachesMark mark filler l = true
    · obtain ⟨b, hb, hmark⟩ := lead_last hl
      exact ⟨b, by rw [List.getLast?_cons, hb, Option.getD_some], hmark⟩
    · rw [lead_of_not_reaches (Bool.not_eq_true _ ▸ hl)]
      exact ⟨a, rfl, h⟩

theorem lead_append_le (h : reachesMark mark filler after = false) :
    lead mark filler (w ++ after) <+: w := by
  induction w with
  | nil => rw [List.nil_append, lead_of_not_reaches h]
  | cons a w ih =>
      rw [List.cons_append, lead]
      split_ifs
      · exact (List.prefix_cons_inj a).2 ih
      · exact List.nil_prefix

theorem MaximalStretch.lead_eq (h : MaximalStretch mark filler before w after) :
    lead mark filler (w ++ after) = w := by
  have hle : w <+: lead mark filler (w ++ after) :=
    h.toIsStretch.prefix_lead (w := []) (List.prefix_append w after)
  exact (lead_append_le h.right).eq_of_length_le hle.length_le

end Sahay
