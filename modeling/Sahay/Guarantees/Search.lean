import Sahay.Server.Listings

/-!
# Search texts

The pattern of a search takes its text literally as long as the text has no backslash.  Before
`%` and `_` the server puts a backslash, but a backslash of the user's own stays as it is, and
`ILIKE` then reads it together with whatever the pattern has behind it.
-/

namespace Sahay

open Like

variable {f : Char → Char} {q rest : List Char}

/-- The text with a backslash before each `%` and `_`. -/
def escaped (q : List Char) : List Char :=
  q.flatMap fun c => if c = '%' ∨ c = '_' then ['\\', c] else [c]

theorem toList_likePattern (q : String) :
    (likePattern q).toList = '%' :: (escaped q.toList ++ ['%']) := by
  simp [likePattern, escaped]

theorem tokens_escaped_cons {c : Char} (hc : c ≠ '\\') :
    tokens (escaped (c :: q) ++ rest) = (tokens (escaped q ++ rest)).map (.literal c :: ·) := by
  by_cases hspecial : c = '%' ∨ c = '_'
  · rw [escaped, List.flatMap_cons, if_pos hspecial]
    rfl
  · rw [escaped, List.flatMap_cons, if_neg hspecial, List.append_assoc, List.singleton_append,
      tokens]
    · rfl
    · exact fun h => hspecial (.inl h)
    · exact fun h => hspecial (.inr h)
    · exact fun h _ => hc h
    · exact fun _ _ h _ => hc h

theorem tokens_escaped (h : '\\' ∉ q) :
    tokens (escaped q ++ ['%']) = some (q.map .literal ++ [.many]) := by
  induction q with
  | nil => rfl
  | cons c q ih =>
      rw [List.mem_cons, not_or] at h
      rw [tokens_escaped_cons (Ne.symm h.1), ih h.2]
      rfl

/-- Behind a backslash of the user's the pattern reads the next character of the escaped text,
be it the user's own or the backslash that the server has put before it. -/
theorem tokens_escaped_backslash (c : Char) :
    tokens (escaped ('\\' :: c :: q) ++ rest) = (tokens (escaped q ++ rest)).map
      ((if c = '%' then [.literal '\\', .many]
        else if c = '_' then [.literal '\\', .one] else [.literal c]) ++ ·) := by
  have hsplit : escaped ('\\' :: c :: q) ++ rest =
      '\\' :: ((if c = '%' ∨ c = '_' then ['\\', c] else [c]) ++ (escaped q ++ rest)) := by
    simp [escaped]
  rw [hsplit]
  by_cases hmany : c = '%'
  · subst hmany
    simp only [true_or, ↓reduceIte, List.cons_append, List.nil_append, tokens, Option.map_map]
    rfl
  by_cases hone : c = '_'
  · subst hone
    simp only [or_true, ↓reduceIte, List.cons_append, List.nil_append, tokens, Option.map_map,
      hmany]
    rfl
  · simp only [hmany, hone, or_self, ↓reduceIte, List.cons_append, List.nil_append, tokens]

/-- With a backslash the pattern matches a text that does not have `q` in it: the shortest one is
shorter than `q` or differs from it. -/
theorem misread (hf : KeepsSpecial f) (q : List Char) :
    ∃ ts, tokens (escaped q ++ ['%']) = some ts ∧ (shortest '\\' ts).length ≤ q.length ∧
      ('\\' ∈ q → (shortest '\\' ts).map f ≠ q.map f) := by
  have hmany : f '%' = '%' := (hf _ (by simp) _).2 rfl
  have hone : f '_' = '_' := (hf _ (by simp) _).2 rfl
  have hescape : f '\\' = '\\' := (hf _ (by simp) _).2 rfl
  have hplain {c : Char} (hc : c ≠ '\\') {q : List Char}
      (ih : ∃ ts, tokens (escaped q ++ ['%']) = some ts ∧ (shortest '\\' ts).length ≤ q.length ∧
        ('\\' ∈ q → (shortest '\\' ts).map f ≠ q.map f)) :
      ∃ ts, tokens (escaped (c :: q) ++ ['%']) = some ts ∧
        (shortest '\\' ts).length ≤ (c :: q).length ∧
        ('\\' ∈ c :: q → (shortest '\\' ts).map f ≠ (c :: q).map f) := by
    obtain ⟨ts, hts, hlength, hne⟩ := ih
    refine ⟨.literal c :: ts, by rw [tokens_escaped_cons hc, hts]; rfl, ?_, ?_⟩
    · exact Nat.succ_le_succ hlength
    · intro hmem hmap
      have hq : '\\' ∈ q := (List.mem_cons.1 hmem).resolve_left (Ne.symm hc)
      exact hne hq (List.cons_eq_cons.1 hmap).2
  induction q using tokens.induct with
  | case1 => exact ⟨[.many], rfl, le_rfl, by simp⟩
  | case2 q ih => exact hplain (by decide) ih
  | case3 q ih => exact hplain (by decide) ih
  | case4 =>
      -- The escape takes the closing `%`.
      refine ⟨[.literal '%'], rfl, le_rfl, fun _ => ?_⟩
      simp [shortest, hmany, hescape]
  | case5 c q ih =>
      obtain ⟨ts, hts, hlength, -⟩ := ih
      rw [tokens_escaped_backslash, hts]
      refine ⟨_, rfl, ?_⟩
      have hshorter {t : List Char} (h : t.length ≤ q.length + 1) :
          t.length ≤ ('\\' :: c :: q).length ∧
            ('\\' ∈ '\\' :: c :: q → t.map f ≠ ('\\' :: c :: q).map f) := by
        refine ⟨h.trans (Nat.le_succ _), fun _ hmap => ?_⟩
        have hlen := congrArg List.length hmap
        simp only [List.length_map, List.length_cons] at hlen
        omega
      split_ifs with hpercent hunderscore
      · exact hshorter (Nat.succ_le_succ hlength)
      · subst hunderscore
        refine ⟨Nat.succ_le_succ (Nat.succ_le_succ hlength), fun _ => ?_⟩
        simp [shortest, hone, hescape]
      · exact hshorter (Nat.succ_le_succ hlength)
  | case6 c q hpercent hunderscore hend hpair ih =>
      refine hplain (fun hc => ?_) ih
      cases q with
      | nil => exact hend hc rfl
      | cons d q => exact hpair d q hc rfl

/-! ## The listings -/

section Ilike

variable {env : ListingEnv} (hlower : ∀ s, env.lower s = s.map f) (hf : KeepsSpecial f)
include hlower hf

theorem ilike_likePattern_iff {text q : String} :
    env.ilike text (likePattern q) = true ↔
      ∃ ts, tokens (escaped q.toList ++ ['%']) = some ts ∧
        Matches ((.many :: ts).map (Token.map f)) (text.toList.map f) := by
  rw [ListingEnv.ilike, hlower, hlower, like_iff, String.toList_map, String.toList_map,
    tokens_map hf, toList_likePattern, tokens, Option.map_map]
  simp only [Option.map_eq_some_iff, Function.comp_apply]
  constructor
  · rintro ⟨_, ⟨ts, hts, rfl⟩, h⟩
    exact ⟨ts, hts, h⟩
  · rintro ⟨ts, hts, h⟩
    exact ⟨_, ⟨ts, hts, rfl⟩, h⟩

theorem ilike_likePattern_of_not_mem {text q : String} (hq : '\\' ∉ q.toList) :
    env.ilike text (likePattern q) = true ↔ (env.lower q).toList <:+: (env.lower text).toList := by
  rw [ilike_likePattern_iff hlower hf, tokens_escaped hq, hlower, hlower, String.toList_map,
    String.toList_map]
  simp only [Option.some.injEq, exists_eq_left']
  have hmap : (Token.many :: (q.toList.map .literal ++ [.many])).map (Token.map f) =
      .many :: ((q.toList.map f).map .literal ++ [.many]) := by
    simp [Token.map]
  rw [hmap, matches_contains_iff]

/-- Search texts are taken literally exactly if they have no backslash. -/
theorem matches_literally_iff (q : String) :
    (∀ text, env.ilike text (likePattern q) = true ↔
        (env.lower q).toList <:+: (env.lower text).toList) ↔ '\\' ∉ q.toList := by
  constructor
  · intro h hmem
    obtain ⟨ts, hts, hlength, hne⟩ := misread hf q.toList
    have hmatch : env.ilike (String.ofList (shortest '\\' ts)) (likePattern q) = true := by
      rw [ilike_likePattern_iff hlower hf, String.toList_ofList]
      exact ⟨ts, hts, (Matches.many [] (matches_shortest '\\' ts)).map f⟩
    have hcontained := (h _).1 hmatch
    rw [hlower, hlower, String.toList_map, String.toList_map, String.toList_ofList] at hcontained
    have hsame : (q.toList.map f).length = ((shortest '\\' ts).map f).length := by
      have hle := hcontained.length_le
      simp only [List.length_map] at hle ⊢
      omega
    exact hne hmem (hcontained.eq_of_length hsame).symm
  · exact fun hmem text => ilike_likePattern_of_not_mem hlower hf hmem

theorem listUsers_contains {db : Db} {micros : UserId → Fin 1000} {q : String}
    {view : AdminUserView} (hq : '\\' ∉ q.toList)
    (h : view ∈ db.listUsers env micros (some q)) :
    (env.lower q).toList <:+: (env.lower view.pseudonym).toList := by
  obtain ⟨e, he, rfl⟩ := List.mem_map.1 h
  have hselected := (List.mem_insertionSort _).1 (List.mem_of_mem_take he)
  have hmatching := (Table.mem_select.1 hselected).2
  rcases eq_or_ne q "" with rfl | hne
  · rw [hlower, String.toList_map]
    exact List.nil_infix
  · simp only [ne_eq, hne, not_false_eq_true, decide_true, Option.filter_some_pos,
      Option.all_some] at hmatching
    exact (ilike_likePattern_of_not_mem hlower hf hq).1 hmatching

/-- The events found for a text without a backslash have it in their title or their area. -/
theorem eventMatches_contains {input : EventSearchInput} {near : Option Coords} {event : Event}
    {q : String} (hq : '\\' ∉ q.toList) (hinput : input.q = some q)
    (h : eventMatches env input near event = true) :
    (env.lower q).toList <:+: (env.lower event.title).toList ∨
      (env.lower q).toList <:+: (env.lower event.areaLabel).toList := by
  simp only [eventMatches, Bool.and_eq_true] at h
  obtain ⟨⟨⟨-, htext⟩, -⟩, -⟩ := h
  rcases eq_or_ne q "" with rfl | hne
  · left
    rw [hlower, String.toList_map]
    exact List.nil_infix
  · rw [hinput] at htext
    simp only [ne_eq, hne, not_false_eq_true, decide_true, Option.filter_some_pos,
      Option.all_some, Bool.or_eq_true] at htext
    exact htext.imp (ilike_likePattern_of_not_mem hlower hf hq).1
      (ilike_likePattern_of_not_mem hlower hf hq).1

end Ilike

theorem keepsSpecial_toLower : KeepsSpecial Char.toLower := by
  intro special hspecial c
  unfold Char.toLower
  split_ifs with h
  · -- A capital is none of the three, and neither is a small letter.
    have hlow : 65 ≤ c.val.toNat := UInt32.le_iff_toNat_le.1 h.1
    have hhigh : c.val.toNat ≤ 90 := UInt32.le_iff_toNat_le.1 h.2
    have hsmall : (c.val + 32).toNat = c.val.toNat + 32 := by
      rw [UInt32.toNat_add]
      exact Nat.mod_eq_of_lt (Nat.lt_of_le_of_lt (Nat.add_le_add_right hhigh 32) (by decide))
    have houtside : special.val.toNat < 65 ∨ 90 < special.val.toNat ∧ special.val.toNat < 97 := by
      simp only [List.mem_cons, List.not_mem_nil, or_false] at hspecial
      rcases hspecial with rfl | rfl | rfl <;> decide
    constructor <;> intro heq
    · have hval : (c.val + 32).toNat = special.val.toNat := congrArg (fun d => d.val.toNat) heq
      omega
    · rw [heq] at hlow hhigh
      omega
  · exact Iff.rfl

namespace SmallEvent

/-- A collation whose `lower` knows the letters of ASCII. -/
def searching : ListingEnv := { listing 5 with lower := String.map Char.toLower }

theorem searching_matches_literally :
    (∀ text, searching.ilike text (likePattern "50%_a") = true ↔
        (searching.lower "50%_a").toList <:+: (searching.lower text).toList) ↔
      '\\' ∉ "50%_a".toList :=
  matches_literally_iff (fun _ => rfl) keepsSpecial_toLower "50%_a"

/-- A search for `a\b` finds `ab`, which does not have it, and does not find `a\b`. -/
theorem backslash_not_literal :
    searching.ilike "ab" (likePattern "a\\b") = true ∧
      ¬ (searching.lower "a\\b").toList <:+: (searching.lower "ab").toList ∧
      searching.ilike "a\\b" (likePattern "a\\b") = false ∧
      (searching.lower "a\\b").toList <:+: (searching.lower "a\\b").toList := by
  decide +kernel

end SmallEvent
end Sahay
