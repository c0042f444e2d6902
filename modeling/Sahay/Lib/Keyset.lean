import Mathlib.Data.List.Sort
import Mathlib.Data.Prod.Lex
import Sahay.Lib.Table

/-!
# Keyset pagination

A listing shows its rows in pages.  A full page comes with a cursor made of its last row, and
the next call shows the rows behind that cursor.  Whoever follows the cursors sees every row
exactly once if and only if each cursor parts the rows where its page ends: the last row of the
page does not lie behind it, and the row after it does.
-/

namespace Sahay

/-! ## Following the cursors -/

section Visits

variable {σ α κ ε : Type*}

/-- Calls from the `n`-th one on, each with the cursor that the one before has returned, until
one returns none: the items of all their pages. -/
inductive Visits (call : ℕ → Option κ → σ → Except ε (List α × Option κ × σ)) :
    ℕ → Option κ → σ → List α → Prop
  | last {n cursor s items s'} (h : call n cursor s = .ok (items, none, s')) :
      Visits call n cursor s items
  | next {n cursor s items c s' rest} (h : call n cursor s = .ok (items, some c, s'))
      (hrest : Visits call (n + 1) (some c) s' rest) : Visits call n cursor s (items ++ rest)

variable {call : ℕ → Option κ → σ → Except ε (List α × Option κ × σ)} {n : ℕ}
  {cursor : Option κ} {s s' : σ} {items visited : List α}

theorem visits_last_iff (h : call n cursor s = .ok (items, none, s')) :
    Visits call n cursor s visited ↔ visited = items := by
  constructor
  · intro hv
    cases hv with
    | last h' =>
        rw [h] at h'
        simp only [Except.ok.injEq, Prod.mk.injEq] at h'
        exact h'.1.symm
    | next h' =>
        rw [h] at h'
        simp only [Except.ok.injEq, Prod.mk.injEq, reduceCtorEq, false_and, and_false] at h'
  · rintro rfl
    exact .last h

theorem visits_next_iff {c : κ} (h : call n cursor s = .ok (items, some c, s')) :
    Visits call n cursor s visited ↔
      ∃ rest, Visits call (n + 1) (some c) s' rest ∧ visited = items ++ rest := by
  constructor
  · intro hv
    cases hv with
    | last h' =>
        rw [h] at h'
        simp only [Except.ok.injEq, Prod.mk.injEq, reduceCtorEq, false_and, and_false] at h'
    | next h' hrest =>
        rw [h] at h'
        simp only [Except.ok.injEq, Prod.mk.injEq, Option.some.injEq] at h'
        obtain ⟨rfl, rfl, rfl⟩ := h'
        exact ⟨_, hrest, rfl⟩
  · rintro ⟨rest, hrest, rfl⟩
    exact .next h hrest

theorem Visits.starts {next : Option κ} (h : call n cursor s = .ok (items, next, s'))
    (hv : Visits call n cursor s visited) : items <+: visited := by
  cases next with
  | none => exact ((visits_last_iff h).mp hv).symm ▸ List.prefix_refl items
  | some c =>
      obtain ⟨rest, -, rfl⟩ := (visits_next_iff h).mp hv
      exact List.prefix_append items rest

end Visits

/-! ## Pages of rows -/

section Pages

variable {ρ κ : Type*}

def nextCursor (limit : ℕ) (cursor : ρ → κ) (page : List ρ) : Option κ :=
  if page.length = limit then page.getLast?.map cursor else none

theorem nextCursor_short {limit : ℕ} {cursor : ρ → κ} {page : List ρ} (h : page.length < limit) :
    nextCursor limit cursor page = none := if_neg h.ne

theorem nextCursor_full {limit : ℕ} {cursor : ρ → κ} {front : List ρ} {b : ρ}
    (h : front.length + 1 = limit) : nextCursor limit cursor (front ++ [b]) = some (cursor b) := by
  rw [nextCursor, if_pos (by rw [List.length_append, List.length_singleton, h]),
    List.getLast?_concat, Option.map_some]

def behind (beyond : ρ → ρ → Bool) (rows : List ρ) (after : Option ρ) : List ρ :=
  rows.filter fun r => after.all fun b => beyond b r

/-- The row ends a full page; `rest` is what comes after it. -/
def EndsPage (limit : ℕ) (rows : List ρ) (b : ρ) (rest : List ρ) : Prop :=
  ∃ front, rows = front ++ b :: rest ∧ limit ∣ front.length + 1

def Separates (beyond : ρ → ρ → Bool) (limit : ℕ) (rows : List ρ) : Prop :=
  ∀ b rest, EndsPage limit rows b rest →
    beyond b b = false ∧ ∀ r ∈ rest.head?, beyond b r = true

variable {beyond : ρ → ρ → Bool} {limit : ℕ} {rows front rest : List ρ} {b : ρ}

theorem EndsPage.mem (h : EndsPage limit rows b rest) : b ∈ rows := by
  obtain ⟨front, rfl, -⟩ := h
  exact List.mem_append_right _ List.mem_cons_self

theorem separates_short (h : rows.length < limit) : Separates beyond limit rows := by
  intro b rest hends
  obtain ⟨front, rfl, hdvd⟩ := hends
  have hle := Nat.le_of_dvd (Nat.succ_pos _) hdvd
  simp only [List.length_append, List.length_cons] at h
  omega

theorem endsPage_append {b' : ρ} {rest' : List ρ} (h : front.length + 1 = limit) :
    EndsPage limit (front ++ b :: rest) b' rest' ↔
      b' = b ∧ rest' = rest ∨ EndsPage limit rest b' rest' := by
  constructor
  · rintro ⟨front', heq, hdvd⟩
    rcases List.append_eq_append_iff.mp heq with ⟨more, rfl, hmore⟩ | ⟨less, rfl, hless⟩
    · cases more with
      | nil =>
          simp only [List.nil_append, List.cons.injEq] at hmore
          exact .inl ⟨hmore.1.symm, hmore.2.symm⟩
      | cons x more =>
          simp only [List.cons_append, List.cons.injEq] at hmore
          refine .inr ⟨more, hmore.2, ?_⟩
          have hlength : (front ++ x :: more).length + 1 = limit + (more.length + 1) := by
            simp only [List.length_append, List.length_cons]
            omega
          rw [hlength] at hdvd
          exact (Nat.dvd_add_right (Nat.dvd_refl limit)).mp hdvd
    · have hle := Nat.le_of_dvd (Nat.succ_pos _) hdvd
      have hnil : less = [] := by
        apply List.eq_nil_of_length_eq_zero
        rw [List.length_append] at h
        omega
      rw [hnil] at hless
      simp only [List.nil_append, List.cons.injEq] at hless
      exact .inl hless
  · rintro (⟨rfl, rfl⟩ | ⟨more, rfl, hdvd⟩)
    · exact ⟨front, rfl, by rw [h]⟩
    · refine ⟨front ++ b :: more, by simp, ?_⟩
      have hlength : (front ++ b :: more).length + 1 = limit + (more.length + 1) := by
        simp only [List.length_append, List.length_cons]
        omega
      rw [hlength]
      exact Nat.dvd_add (Nat.dvd_refl limit) hdvd

theorem separates_append (h : front.length + 1 = limit) :
    Separates beyond limit (front ++ b :: rest) ↔
      (beyond b b = false ∧ ∀ r ∈ rest.head?, beyond b r = true) ∧
        Separates beyond limit rest := by
  constructor
  · intro hsep
    exact ⟨hsep b rest ((endsPage_append h).mpr (.inl ⟨rfl, rfl⟩)),
      fun b' rest' hends => hsep b' rest' ((endsPage_append h).mpr (.inr hends))⟩
  · rintro ⟨hfirst, hsep⟩ b' rest' hends
    rcases (endsPage_append h).mp hends with ⟨rfl, rfl⟩ | hends
    · exact hfirst
    · exact hsep b' rest' hends

/-- A cursor that parts the rows after `b` finds what is left. -/
theorem behind_eq (hup : (front ++ b :: rest).Pairwise fun x y => beyond b x = true →
      beyond b y = true)
    (hb : beyond b b = false) (hrest : ∀ r ∈ rest.head?, beyond b r = true) :
    behind beyond (front ++ b :: rest) (some b) = rest := by
  obtain ⟨-, htail, hfront⟩ := List.pairwise_append.mp hup
  have hnone : front.filter (beyond b) = [] := by
    apply List.filter_eq_nil_iff.mpr
    intro x hx hbeyond
    rw [hfront x hx b List.mem_cons_self hbeyond] at hb
    cases hb
  have hall : rest.filter (beyond b) = rest := by
    apply List.filter_eq_self.mpr
    cases rest with
    | nil => exact fun _ h => absurd h List.not_mem_nil
    | cons r rest =>
        have hr := hrest r rfl
        intro x hx
        rcases List.mem_cons.mp hx with rfl | hx
        · exact hr
        · exact (List.pairwise_cons.mp (List.pairwise_cons.mp htail).2).1 x hx hr
  simp only [behind, Option.all_some]
  rw [List.filter_append, List.filter_cons_of_neg (by simp [hb]), hnone, hall, List.nil_append]

/-- If what is found behind `b` begins as what comes after `b` does, then `b` parts the rows. -/
theorem separated_of_head {I : Type*} {name : ρ → I}
    (hnames : ((front ++ b :: rest).map name).Nodup)
    (hhead : (behind beyond (front ++ b :: rest) (some b)).head?.map name = rest.head?.map name) :
    beyond b b = false ∧ ∀ r ∈ rest.head?, beyond b r = true := by
  have hinj := List.inj_on_of_nodup_map hnames
  have hrows := hnames.of_map
  simp only [behind, Option.all_some] at hhead
  cases rest with
  | nil =>
      rw [List.head?_nil, Option.map_none, Option.map_eq_none_iff, List.head?_eq_none_iff,
        List.filter_eq_nil_iff] at hhead
      exact ⟨by simpa using hhead b (by simp), fun _ h => absurd h (Option.not_mem_none _)⟩
  | cons r rest =>
      rw [List.head?_cons, Option.map_some, Option.map_eq_some_iff] at hhead
      obtain ⟨k, hk, hname⟩ := hhead
      obtain ⟨hmem, hbeyond⟩ := List.mem_filter.mp (List.mem_of_head? hk)
      obtain rfl := hinj hmem (by simp) hname
      constructor
      · -- Otherwise the first row found would be `b` or one before it.
        cases hb : beyond b b with
        | false => rfl
        | true =>
            exfalso
            rw [List.append_cons, List.filter_append, List.head?_append_of_ne_nil] at hk
            · have hin := (List.mem_filter.mp (List.mem_of_head? hk)).1
              rw [List.append_cons] at hrows
              exact List.disjoint_of_nodup_append hrows hin List.mem_cons_self
            · exact List.ne_nil_of_mem (List.mem_filter.mpr ⟨by simp, hb⟩)
      · intro r' hr'
        rw [← Option.some.inj hr']
        exact hbeyond

theorem exists_page (hlimit : 0 < limit) (hfull : limit ≤ rows.length) :
    ∃ page b rest, rows = page ++ b :: rest ∧ page.length + 1 = limit := by
  obtain ⟨k, rfl⟩ := Nat.exists_eq_succ_of_ne_zero hlimit.ne'
  refine ⟨rows.take k, rows[k], rows.drop (k + 1), ?_, ?_⟩
  · rw [List.getElem_cons_drop, List.take_append_drop]
  · rw [List.length_take, Nat.min_eq_left (Nat.le_of_succ_le hfull)]

theorem take_page {page : List ρ} (h : page.length + 1 = limit) :
    (page ++ b :: rest).take limit = page ++ [b] := by
  rw [← h, List.take_append, List.take_of_length_le (Nat.le_succ _), Nat.add_sub_cancel_left]
  rfl

end Pages

/-! ## Exact listings -/

section Exact

variable {ρ I σ α κ ε : Type*}

/-- In every state of `Inv`, the call shows the pages of `rows`: the items of a page go by the
names of its rows, and its cursor is made of the last one. -/
structure Serves (call : ℕ → Option κ → σ → Except ε (List α × Option κ × σ)) (rows : List ρ)
    (limit : ℕ) (beyond : ρ → ρ → Bool) (cursor : ρ → κ) (shown : α → I) (name : ρ → I)
    (Inv : σ → Prop) : Prop where
  answer : ∀ n s after, (∀ b ∈ after, b ∈ rows) → Inv s →
    ∃ items s', call n (after.map cursor) s =
        .ok (items, nextCursor limit cursor ((behind beyond rows after).take limit), s') ∧
      items.map shown = ((behind beyond rows after).take limit).map name ∧ Inv s'

variable {call : ℕ → Option κ → σ → Except ε (List α × Option κ × σ)} {rows : List ρ}
  {limit : ℕ} {beyond : ρ → ρ → Bool} {cursor : ρ → κ} {shown : α → I} {name : ρ → I}
  {Inv : σ → Prop}

theorem Serves.head (h : Serves call rows limit beyond cursor shown name Inv) (hlimit : 0 < limit)
    {n : ℕ} {s : σ} {after : Option ρ} (hafter : ∀ b ∈ after, b ∈ rows) (hs : Inv s)
    {visited : List α} (hv : Visits call n (after.map cursor) s visited) :
    (visited.map shown).head? = (behind beyond rows after).head?.map name := by
  obtain ⟨items, s', hcall, hitems, -⟩ := h.answer n s after hafter hs
  cases hfound : behind beyond rows after with
  | nil =>
      rw [hfound, List.take_nil] at hcall hitems
      rw [nextCursor_short hlimit] at hcall
      rw [(visits_last_iff hcall).mp hv, hitems]
      rfl
  | cons k found =>
      have hstarts := (hv.starts hcall).map shown
      rw [hitems, hfound] at hstarts
      obtain ⟨limit, rfl⟩ := Nat.exists_eq_succ_of_ne_zero hlimit.ne'
      rw [List.take_succ_cons, List.map_cons] at hstarts
      obtain ⟨more, hmore⟩ := hstarts
      rw [← hmore]
      rfl

/-- From a cursor that leaves exactly `rest`: the calls end and show `rest`, exactly if the
cursors to come part it. -/
theorem Serves.visits_iff (h : Serves call rows limit beyond cursor shown name Inv)
    (hlimit : 0 < limit) (hnames : (rows.map name).Nodup)
    (hup : ∀ b ∈ rows, rows.Pairwise fun x y => beyond b x = true → beyond b y = true)
    (front rest : List ρ) (hrows : rows = front ++ rest) (n : ℕ) (s : σ) (hs : Inv s)
    (after : Option ρ) (hafter : ∀ b ∈ after, b ∈ rows)
    (hbehind : behind beyond rows after = rest) :
    (∃ visited, Visits call n (after.map cursor) s visited ∧
        visited.map shown = rest.map name) ↔ Separates beyond limit rest := by
  -- By induction on what is left: one page is shown, and then less is left.
  induction hlength : rest.length using Nat.strong_induction_on
    generalizing front rest n s after with
  | h length ih =>
      obtain ⟨items, s', hcall, hitems, hs'⟩ := h.answer n s after hafter hs
      rw [hbehind] at hcall hitems
      rcases Nat.lt_or_ge rest.length limit with hshort | hfull
      · rw [List.take_of_length_le hshort.le, nextCursor_short hshort] at hcall
        rw [List.take_of_length_le hshort.le] at hitems
        exact iff_of_true ⟨items, .last hcall, hitems⟩ (separates_short hshort)
      · obtain ⟨page, b, rest', rfl, hpage⟩ := exists_page hlimit hfull
        rw [take_page hpage, nextCursor_full hpage] at hcall
        rw [take_page hpage] at hitems
        have hsplit : rows = (front ++ page) ++ b :: rest' := by rw [hrows, List.append_assoc]
        have hb : b ∈ rows := hsplit ▸ List.mem_append_right _ List.mem_cons_self
        have hafter' : ∀ b' ∈ some b, b' ∈ rows := fun _ h => Option.mem_some.mp h ▸ hb
        have hless : rest'.length < length := by
          rw [← hlength, List.length_append, List.length_cons]
          omega
        have hlater (hbehind' : behind beyond rows (some b) = rest') :=
          ih rest'.length hless (front ++ page ++ [b]) rest' (by rw [hsplit, ← List.append_cons])
            (n + 1) s' hs' (some b) hafter' hbehind' rfl
        have hfound (hsep : beyond b b = false ∧ ∀ r ∈ rest'.head?, beyond b r = true) :
            behind beyond rows (some b) = rest' := by
          rw [hsplit]
          exact behind_eq (hsplit ▸ hup b hb) hsep.1 hsep.2
        have hnamed : (page ++ b :: rest').map name = (page ++ [b]).map name ++ rest'.map name := by
          rw [List.append_cons, List.map_append]
        rw [separates_append hpage]
        constructor
        · rintro ⟨visited, hv, hvisited⟩
          obtain ⟨visited, hv', rfl⟩ := (visits_next_iff hcall).mp hv
          have hrest : visited.map shown = rest'.map name := by
            rw [List.map_append, hitems, hnamed] at hvisited
            exact List.append_cancel_left hvisited
          have hhead := h.head hlimit hafter' hs' hv'
          rw [hrest, List.head?_map] at hhead
          have hsep : beyond b b = false ∧ ∀ r ∈ rest'.head?, beyond b r = true := by
            rw [hsplit] at hhead hnames
            exact separated_of_head hnames hhead.symm
          exact ⟨hsep, (hlater (hfound hsep)).mp ⟨visited, hv', hrest⟩⟩
        · rintro ⟨hsep, hlast⟩
          obtain ⟨visited, hv, hvisited⟩ := (hlater (hfound hsep)).mpr hlast
          refine ⟨items ++ visited, .next hcall hv, ?_⟩
          rw [List.map_append, hitems, hvisited, hnamed]

/-- Following the cursors from the start ends and shows the rows, each once and in their order,
exactly if every cursor parts them where its page ends. -/
theorem Serves.exact_iff (h : Serves call rows limit beyond cursor shown name Inv)
    (hlimit : 0 < limit) (hnames : (rows.map name).Nodup)
    (hup : ∀ b ∈ rows, rows.Pairwise fun x y => beyond b x = true → beyond b y = true)
    {s : σ} (hs : Inv s) :
    (∃ visited, Visits call 0 none s visited ∧ visited.map shown = rows.map name) ↔
      Separates beyond limit rows :=
  h.visits_iff hlimit hnames hup [] rows rfl 0 s hs none
    (fun _ h => absurd h (Option.not_mem_none _)) (List.filter_eq_self.mpr fun _ _ => rfl)

end Exact

/-! ## Rows of a table in order -/

section Order

variable {ι ρ K : Type*} [LinearOrder K]

/-- `ORDER BY key`. -/
def orderBy (key : ι × ρ → K) (rows : List (ι × ρ)) : List (ι × ρ) :=
  rows.insertionSort fun a b => key a ≤ key b

/-- The keys of the rows that satisfy `p`, in order. -/
def keysInOrder (t : Table ι ρ) (p : ι → ρ → Bool) (key : ι × ρ → K) : List K :=
  ((t.select p).map key).insertionSort (· ≤ ·)

/-- The names are those of the rows that satisfy `p`, each once, in the order of the keys. -/
def ListsInOrder [DecidableEq ι] (t : Table ι ρ) (p : ι → ρ → Bool) (key : ι × ρ → K)
    (names : List ι) : Prop :=
  (∀ id, id ∈ names ↔ ∃ r, t.lookup id = some r ∧ p id r = true) ∧
    names.Pairwise fun id id' => ∀ r r', t.lookup id = some r → t.lookup id' = some r' →
      key (id, r) < key (id', r')

theorem filter_insertionSort (q : K → Bool) (l : List K) :
    (l.filter q).insertionSort (· ≤ ·) = (l.insertionSort (· ≤ ·)).filter q := by
  apply List.Perm.eq_of_pairwise (fun a b _ _ => le_antisymm)
    (List.pairwise_insertionSort _ _) ((List.pairwise_insertionSort _ _).filter q)
  exact (List.perm_insertionSort _ _).trans ((List.perm_insertionSort _ _).symm.filter q)

variable {t : Table ι ρ} {p : ι → ρ → Bool} {key : ι × ρ → K}

theorem orderBy_keys (q : K → Bool) :
    (orderBy key (t.select fun id r => p id r && q (key (id, r)))).map key =
      (keysInOrder t p key).filter q := by
  have hselect : t.select (fun id r => p id r && q (key (id, r))) =
      (t.select p).filter fun e => q (key e) := by
    simp only [Table.select, List.filter_map, List.filter_filter, Function.comp_def, Bool.and_comm]
  rw [orderBy, List.map_insertionSort (fun a b => key a ≤ key b) (· ≤ ·) key _
    (fun _ _ _ _ => Iff.rfl), hselect, ← Function.comp_def q key, ← List.filter_map,
    filter_insertionSort, keysInOrder]

theorem keysInOrder_mapVal {f : ι → ρ → ρ} (hp : ∀ id r, p id (f id r) = p id r)
    (hkey : ∀ id r, key (id, f id r) = key (id, r)) :
    keysInOrder (t.mapVal f) p key = keysInOrder t p key := by
  have hselect : ((t.mapVal f).select p).map key = (t.select p).map key := by
    simp only [Table.select, Table.mapVal, List.filter_map, List.map_map, Function.comp_def, hp,
      hkey]
  rw [keysInOrder, hselect, keysInOrder]

theorem mem_keysInOrder [DecidableEq ι] {k : K} : k ∈ keysInOrder t p key ↔
    ∃ id r, t.lookup id = some r ∧ p id r = true ∧ key (id, r) = k := by
  rw [keysInOrder, List.mem_insertionSort, List.mem_map]
  constructor
  · rintro ⟨e, he, rfl⟩
    obtain ⟨hlookup, hp⟩ := Table.mem_select.mp he
    exact ⟨e.1, e.2, hlookup, hp, rfl⟩
  · rintro ⟨id, r, hlookup, hp, rfl⟩
    exact ⟨(id, r), Table.mem_select.mpr ⟨hlookup, hp⟩, rfl⟩

section Names

variable {name : K → ι} (hname : ∀ e, name (key e) = e.1)

include hname

theorem keysInOrder_names : ((keysInOrder t p key).map name).Nodup := by
  have hkeys : ((t.select p).map key).map name = (t.select p).map Prod.fst := by
    rw [List.map_map]
    exact List.map_congr_left fun e _ => hname e
  have hnodup : (((t.select p).map key).map name).Nodup := hkeys ▸ t.nodup_select p
  exact ((List.perm_insertionSort _ _).map name).nodup_iff.mpr hnodup

theorem keysInOrder_sorted : (keysInOrder t p key).Pairwise (· < ·) := by
  have hle : (keysInOrder t p key).Pairwise (· ≤ ·) := List.pairwise_insertionSort _ _
  have hne : (keysInOrder t p key).Pairwise (· ≠ ·) := (keysInOrder_names hname).of_map
  exact (hle.and hne).imp fun h => lt_of_le_of_ne h.1 h.2

variable [DecidableEq ι]

theorem listsInOrder_keys : ListsInOrder t p key ((keysInOrder t p key).map name) := by
  constructor
  · intro id
    rw [List.mem_map]
    constructor
    · rintro ⟨k, hk, rfl⟩
      obtain ⟨id, r, hlookup, hp, rfl⟩ := mem_keysInOrder.mp hk
      exact ⟨r, (hname (id, r)).symm ▸ hlookup, (hname (id, r)).symm ▸ hp⟩
    · rintro ⟨r, hlookup, hp⟩
      exact ⟨key (id, r), mem_keysInOrder.mpr ⟨id, r, hlookup, hp, rfl⟩, hname (id, r)⟩
  · apply List.pairwise_map.mpr
    have hrow {k : K} (hk : k ∈ keysInOrder t p key) {r : ρ} (hr : t.lookup (name k) = some r) :
        key (name k, r) = k := by
      obtain ⟨id, r', hlookup, -, rfl⟩ := mem_keysInOrder.mp hk
      rw [hname] at hr ⊢
      rw [Option.some.inj (hr.symm.trans hlookup)]
    refine (keysInOrder_sorted hname).imp_of_mem fun {k k'} hk hk' hlt r r' hr hr' => ?_
    rw [hrow hk hr, hrow hk' hr']
    exact hlt

theorem listsInOrder_iff {names : List ι} :
    ListsInOrder t p key names ↔ names = (keysInOrder t p key).map name := by
  constructor
  · rintro ⟨hmem, hsorted⟩
    obtain ⟨hmem', hsorted'⟩ := listsInOrder_keys (t := t) (p := p) hname
    have hne : names.Nodup := by
      refine hsorted.imp_of_mem fun {id id'} hid _ hlt => ?_
      obtain ⟨r, hr, -⟩ := (hmem id).mp hid
      rintro rfl
      exact lt_irrefl _ (hlt r r hr hr)
    have hperm := (List.perm_ext_iff_of_nodup hne (keysInOrder_names hname)).mpr fun id =>
      (hmem id).trans (hmem' id).symm
    refine hperm.eq_of_pairwise (fun id id' hid hid' hlt hlt' => ?_) hsorted hsorted'
    obtain ⟨r, hr, -⟩ := (hmem id).mp hid
    obtain ⟨r', hr', -⟩ := (hmem' id').mp hid'
    exact absurd (hlt r r' hr hr') (hlt' r' r hr' hr).asymm
  · rintro rfl
    exact listsInOrder_keys hname

end Names

/-! ## Cursors that round the key -/

/-- What lies behind the cursor of `b`, which carries `round b`. -/
def beyondKey (round : K → K) (b r : K) : Bool := decide (round b < r)

variable {round : K → K} {limit : ℕ}

/-- `SELECT … WHERE p AND key > cursor ORDER BY key LIMIT limit`. -/
def queryPage (t : Table ι ρ) (p : ι → ρ → Bool) (key : ι × ρ → K) (round : K → K) (limit : ℕ)
    (after : Option K) : List (ι × ρ) :=
  (orderBy key (t.select fun id r => p id r && after.all fun b =>
    decide (round b < key (id, r)))).take limit

theorem queryPage_keys (after : Option K) :
    (queryPage t p key round limit after).map key =
      (behind (beyondKey round) (keysInOrder t p key) after).take limit := by
  rw [queryPage, List.map_take, orderBy_keys fun k => after.all fun b => decide (round b < k)]
  rfl

theorem nextCursor_map {α β κ : Type*} (f : α → β) (cursor : β → κ)
    (page : List α) : nextCursor limit cursor (page.map f) =
      nextCursor limit (fun r => cursor (f r)) page := by
  rw [nextCursor, nextCursor, List.length_map, List.getLast?_map, Option.map_map]
  rfl

theorem beyondKey_up {rows : List K} (hrows : rows.Pairwise (· < ·)) (b : K) :
    rows.Pairwise fun x y => beyondKey round b x = true → beyondKey round b y = true := by
  refine hrows.imp fun {x y} hlt hx => ?_
  rw [beyondKey, decide_eq_true_iff] at hx ⊢
  exact hx.trans hlt

theorem EndsPage.lt_head {rows rest : List K} {b r : K} (hrows : rows.Pairwise (· < ·))
    (h : EndsPage limit rows b rest) (hr : r ∈ rest.head?) : b < r := by
  obtain ⟨front, rfl, -⟩ := h
  have htail := (List.pairwise_append.mp hrows).2.1
  exact (List.pairwise_cons.mp htail).1 r (List.mem_of_head? hr)

theorem separates_exact {rows : List K} (hrows : rows.Pairwise (· < ·)) :
    Separates (beyondKey fun k => k) limit rows := by
  intro b rest hends
  exact ⟨decide_eq_false (lt_irrefl b), fun r hr => decide_eq_true (hends.lt_head hrows hr)⟩

/-- Cursors that round down part the rows exactly where they lose nothing. -/
theorem separates_floor {rows : List K} (hrows : rows.Pairwise (· < ·))
    (hround : ∀ b, round b ≤ b) :
    Separates (beyondKey round) limit rows ↔
      ∀ b rest, EndsPage limit rows b rest → round b = b := by
  constructor
  · intro hsep b rest hends
    exact (hround b).antisymm (not_lt.mp (of_decide_eq_false (hsep b rest hends).1))
  · intro hexact b rest hends
    have hb := hexact b rest hends
    refine ⟨decide_eq_false (hb.symm ▸ lt_irrefl b), fun r hr => decide_eq_true ?_⟩
    rw [hb]
    exact hends.lt_head hrows hr

/-- Cursors that round towards what is to come part the rows exactly where they pass none. -/
theorem separates_ceil {rows : List K} (hround : ∀ b, b ≤ round b) :
    Separates (beyondKey round) limit rows ↔
      ∀ b rest, EndsPage limit rows b rest → ∀ r ∈ rest.head?, round b < r := by
  constructor
  · exact fun hsep b rest hends r hr => of_decide_eq_true ((hsep b rest hends).2 r hr)
  · intro hpass b rest hends
    exact ⟨decide_eq_false (not_lt.mpr (hround b)),
      fun r hr => decide_eq_true (hpass b rest hends r hr)⟩

section Calls

variable {σ α κ ε : Type*} {call : ℕ → Option κ → σ → Except ε (List α × Option κ × σ)}
  {cursor : K → κ} {shown : α → ι} {name : K → ι} {Inv : σ → Prop}

/-- A call that answers with the rows of such a query, on a table whose keys stay the same. -/
theorem serves_of_query (table : σ → Table ι ρ) (rowCursor : ι × ρ → κ)
    (hname : ∀ e, name (key e) = e.1) (hcursor : ∀ e, cursor (key e) = rowCursor e)
    (htable : ∀ s, Inv s → keysInOrder (table s) p key = keysInOrder t p key)
    (hcall : ∀ n s after, (∀ b ∈ after, b ∈ keysInOrder t p key) → Inv s →
      ∃ items s', call n (after.map cursor) s =
          .ok (items, nextCursor limit rowCursor (queryPage (table s) p key round limit after),
            s') ∧
        items.map shown = (queryPage (table s) p key round limit after).map Prod.fst ∧ Inv s') :
    Serves call (keysInOrder t p key) limit (beyondKey round) cursor shown name Inv := by
  constructor
  intro n s after hafter hs
  obtain ⟨items, s', hok, hitems, hs'⟩ := hcall n s after hafter hs
  rw [← htable s hs, ← queryPage_keys, nextCursor_map, List.map_map]
  refine ⟨items, s', ?_, ?_, hs'⟩
  · simp only [hok, hcursor]
  · rw [hitems]
    exact List.map_congr_left fun e _ => (hname e).symm

/-- Following the cursors from the start ends and shows the rows, each once and in order,
exactly if every cursor parts them where its page ends. -/
theorem Serves.lists_iff [DecidableEq ι]
    (h : Serves call (keysInOrder t p key) limit (beyondKey round) cursor shown name Inv)
    (hname : ∀ e, name (key e) = e.1) (hlimit : 0 < limit) {s : σ} (hs : Inv s) :
    (∃ visited, Visits call 0 none s visited ∧ ListsInOrder t p key (visited.map shown)) ↔
      Separates (beyondKey round) limit (keysInOrder t p key) := by
  simp only [listsInOrder_iff hname]
  exact h.exact_iff hlimit (keysInOrder_names hname)
    (fun b _ => beyondKey_up (keysInOrder_sorted hname) b) hs

end Calls

end Order
end Sahay
