import Mathlib.Data.List.Infix
import Mathlib.Data.Nat.Notation

/-!
# Patterns of `LIKE`

What a pattern means is said through its tokens: a character stands for itself, `_` for any
character, `%` for any text, and a backslash takes the character behind it as it is.
-/

namespace Sahay

/-- `LIKE`: `%` stands for any text, `_` for any character, and a backslash takes the next
character as it is. -/
def like : List Char → List Char → Bool
  | [], text => text.isEmpty
  | '%' :: pattern, text => text.tails.any (like pattern)
  | '_' :: pattern, text => text.tail?.any (like pattern)
  | ['\\'], _ => false
  | '\\' :: c :: pattern, text => text.head? = some c && text.tail?.any (like pattern)
  | c :: pattern, text => text.head? = some c && text.tail?.any (like pattern)

namespace Like

inductive Token
  | literal (c : Char)
  | one
  | many
  deriving DecidableEq

/-- The tokens of a pattern; one that ends in an escape without a character has none. -/
def tokens : List Char → Option (List Token)
  | [] => some []
  | '%' :: pattern => (tokens pattern).map (.many :: ·)
  | '_' :: pattern => (tokens pattern).map (.one :: ·)
  | ['\\'] => none
  | '\\' :: c :: pattern => (tokens pattern).map (.literal c :: ·)
  | c :: pattern => (tokens pattern).map (.literal c :: ·)

inductive Matches : List Token → List Char → Prop
  | nil : Matches [] []
  | literal (c : Char) {pattern text} (h : Matches pattern text) :
      Matches (.literal c :: pattern) (c :: text)
  | one (c : Char) {pattern text} (h : Matches pattern text) :
      Matches (.one :: pattern) (c :: text)
  | many (skipped : List Char) {pattern text} (h : Matches pattern text) :
      Matches (.many :: pattern) (skipped ++ text)

variable {pattern text : List Char} {ts : List Token}

theorem matches_nil_iff : Matches [] text ↔ text = [] := by
  constructor
  · rintro ⟨⟩
    rfl
  · rintro rfl
    exact .nil

theorem matches_literal_iff {c : Char} :
    Matches (.literal c :: ts) text ↔ ∃ rest, text = c :: rest ∧ Matches ts rest := by
  constructor
  · rintro (_ | ⟨_, h⟩)
    exact ⟨_, rfl, h⟩
  · rintro ⟨rest, rfl, h⟩
    exact .literal c h

theorem matches_one_iff :
    Matches (.one :: ts) text ↔ ∃ c rest, text = c :: rest ∧ Matches ts rest := by
  constructor
  · rintro (_ | _ | ⟨c, h⟩)
    exact ⟨c, _, rfl, h⟩
  · rintro ⟨c, rest, rfl, h⟩
    exact .one c h

theorem matches_many_iff :
    Matches (.many :: ts) text ↔ ∃ rest, rest <:+ text ∧ Matches ts rest := by
  constructor
  · rintro (_ | _ | _ | ⟨skipped, h⟩)
    exact ⟨_, List.suffix_append _ _, h⟩
  · rintro ⟨rest, ⟨skipped, rfl⟩, h⟩
    exact .many skipped h

theorem exists_tokens_cons {t : Token} {p : Option (List Token)} :
    (∃ ts, p.map (t :: ·) = some ts ∧ Matches ts text) ↔
      ∃ ts, p = some ts ∧ Matches (t :: ts) text := by
  simp only [Option.map_eq_some_iff]
  constructor
  · rintro ⟨_, ⟨ts, hp, rfl⟩, h⟩
    exact ⟨ts, hp, h⟩
  · rintro ⟨ts, hp, h⟩
    exact ⟨_, ⟨ts, hp, rfl⟩, h⟩

/-- `like` on a pattern whose first token takes one character. -/
theorem like_literal_iff {c : Char}
    (ih : ∀ rest, like pattern rest = true ↔ ∃ ts, tokens pattern = some ts ∧ Matches ts rest) :
    (text.head? = some c && text.tail?.any (like pattern)) = true ↔
      ∃ ts, tokens pattern = some ts ∧ Matches (.literal c :: ts) text := by
  cases text with
  | nil => simp [matches_literal_iff]
  | cons d rest =>
      simp only [List.head?_cons, List.tail?_cons, Option.any_some, Bool.and_eq_true,
        decide_eq_true_eq, Option.some.injEq, ih, matches_literal_iff, List.cons.injEq]
      grind

theorem like_iff : like pattern text = true ↔ ∃ ts, tokens pattern = some ts ∧ Matches ts text := by
  induction pattern using tokens.induct generalizing text with
  | case1 => simp [like, tokens, matches_nil_iff]
  | case2 pattern ih =>
      simp only [like, tokens, exists_tokens_cons, matches_many_iff, List.any_eq_true,
        List.mem_tails, ih]
      grind
  | case3 pattern ih =>
      simp only [like, tokens, exists_tokens_cons]
      cases text with
      | nil => simp [matches_one_iff]
      | cons c rest =>
          simp only [List.tail?_cons, Option.any_some, ih, matches_one_iff, List.cons.injEq]
          grind
  | case4 => simp [like, tokens]
  | case5 c pattern ih =>
      simp only [like, tokens, exists_tokens_cons]
      exact like_literal_iff fun _ => ih
  | case6 c pattern hmany hone hend hescape ih =>
      rw [like, tokens, exists_tokens_cons]
      · exact like_literal_iff fun _ => ih
      all_goals assumption

/-- A text that `%…%` matches contains what stands between the two. -/
theorem matches_contains_iff {q : List Char} :
    Matches (.many :: (q.map .literal ++ [.many])) text ↔ q <:+: text := by
  have hfront (rest : List Char) : Matches (q.map .literal ++ [.many]) rest ↔ q <+: rest := by
    induction q generalizing rest with
    | nil =>
        simp only [List.map_nil, List.nil_append, matches_many_iff, matches_nil_iff,
          exists_eq_right, List.nil_suffix, List.nil_prefix]
    | cons c q ih =>
        simp only [List.map_cons, List.cons_append, matches_literal_iff, ih, List.cons_prefix_iff]
  simp only [matches_many_iff, hfront, List.infix_iff_prefix_suffix]
  grind

/-! ## The shortest text -/

/-- The shortest text that a pattern matches, with `filler` wherever any character will do. -/
def shortest (filler : Char) : List Token → List Char
  | [] => []
  | .literal c :: ts => c :: shortest filler ts
  | .one :: ts => filler :: shortest filler ts
  | .many :: ts => shortest filler ts

theorem matches_shortest (filler : Char) (ts : List Token) : Matches ts (shortest filler ts) := by
  induction ts with
  | nil => exact .nil
  | cons t ts ih =>
      cases t with
      | literal c => exact .literal c ih
      | one => exact .one filler ih
      | many => exact .many [] ih

/-! ## Letter case -/

/-- The characters that a pattern takes specially are their own lower case and nobody else's. -/
def KeepsSpecial (f : Char → Char) : Prop := ∀ special ∈ ['%', '_', '\\'], ∀ c,
  f c = special ↔ c = special

def Token.map (f : Char → Char) : Token → Token
  | .literal c => .literal (f c)
  | .one => .one
  | .many => .many

theorem Matches.map (f : Char → Char) (h : Matches ts text) :
    Matches (ts.map (Token.map f)) (text.map f) := by
  induction h with
  | nil => exact .nil
  | literal c _ ih => exact .literal (f c) ih
  | one c _ ih => exact .one (f c) ih
  | many skipped _ ih =>
      rw [List.map_append]
      exact .many _ ih

theorem tokens_map {f : Char → Char} (hf : KeepsSpecial f) :
    tokens (pattern.map f) = (tokens pattern).map (List.map (Token.map f)) := by
  have hmany (c : Char) : f c = '%' ↔ c = '%' := hf _ (by simp) c
  have hone (c : Char) : f c = '_' ↔ c = '_' := hf _ (by simp) c
  have hescape (c : Char) : f c = '\\' ↔ c = '\\' := hf _ (by simp) c
  induction pattern using tokens.induct with
  | case1 => rfl
  | case2 pattern ih =>
      rw [List.map_cons, (hmany '%').2 rfl, tokens, ih, tokens, Option.map_map, Option.map_map]
      rfl
  | case3 pattern ih =>
      rw [List.map_cons, (hone '_').2 rfl, tokens, ih, tokens, Option.map_map, Option.map_map]
      rfl
  | case4 =>
      rw [List.map_cons, (hescape '\\').2 rfl]
      rfl
  | case5 c pattern ih =>
      rw [List.map_cons, List.map_cons, (hescape '\\').2 rfl, tokens, ih, tokens,
        Option.map_map, Option.map_map]
      rfl
  | case6 c pattern hc hc' hend hpair ih =>
      rw [List.map_cons, tokens, ih, tokens, Option.map_map, Option.map_map]
      · rfl
      all_goals first | assumption | skip
      · exact fun h => hc ((hmany c).1 h)
      · exact fun h => hc' ((hone c).1 h)
      · exact fun h hnil => hend ((hescape c).1 h) (List.map_eq_nil_iff.1 hnil)
      · intro d rest h hcons
        cases pattern with
        | nil => exact hend ((hescape c).1 h) rfl
        | cons d rest => exact hpair d rest ((hescape c).1 h) rfl

end Like
end Sahay
