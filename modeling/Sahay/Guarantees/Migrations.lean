import Sahay.Lib.RelyGuarantee
import Sahay.Server.Migrations

/-!
# Every migration once, in its order

However many runners there are, of this version or of older ones, and wherever some of them fail
or stop: the database is at all times what the first so many files make of it, and `_migrations`
has exactly these.  A runner that returns has seen to all files that it has found.
-/

namespace Sahay

/-- The names in `_migrations`. -/
def MigrationDb.names {δ : Type} (db : MigrationDb δ) : List String := db.migrations.getD []

namespace Migrations

variable {δ : Type} (files : MigrationFiles δ) {all : List String} {schema₀ : δ}
  {db₀ : MigrationDb δ}

def runFile (schema : δ) (file : String) : Except String δ :=
  match files.readFile file with
  | none => .error "unreadable"
  | some sql => files.query sql schema

def migrate (schema : δ) (names : List String) : Except String δ :=
  names.foldlM (runFile files) schema

def UpTo (all : List String) (schema₀ : δ) (db : MigrationDb δ) : Prop :=
  ∃ n, db.names = all.take n ∧ migrate files schema₀ (all.take n) = .ok db.schema

/-- Nothing is taken out of `_migrations`. -/
def Grows (db db' : MigrationDb δ) : Prop := db.names <+: db'.names

theorem grows_refl (db : MigrationDb δ) : Grows db db := List.prefix_rfl

theorem grows_trans (db db' db'' : MigrationDb δ) (h : Grows db db') (h' : Grows db' db'') :
    Grows db db'' :=
  List.IsPrefix.trans h h'

variable {files}

/-- Where the names end that are there, if the file at `k` is not, but all before it are. -/
theorem take_eq_of_notMem {k n : ℕ} {file : String} (hfile : all[k]? = some file)
    (hnot : file ∉ all.take n) (hfirst : all.take k <+: all.take n) : n = k := by
  obtain ⟨hk, hget⟩ := List.getElem?_eq_some_iff.mp hfile
  have hlength := hfirst.length_le
  rw [List.length_take, List.length_take] at hlength
  have hle : n ≤ k := by
    by_contra hlt
    refine hnot (List.mem_iff_getElem.mpr ⟨k, ?_, ?_⟩)
    · rw [List.length_take]
      omega
    · rw [List.getElem_take, hget]
  omega

theorem take_succ_prefix_of_mem (hall : all.Nodup) {k n : ℕ} {file : String}
    (hfile : all[k]? = some file) (hmem : file ∈ all.take n) : all.take (k + 1) <+: all.take n := by
  obtain ⟨hk, hget⟩ := List.getElem?_eq_some_iff.mp hfile
  obtain ⟨i, hi, hgeti⟩ := List.mem_iff_getElem.mp hmem
  rw [List.length_take] at hi
  rw [List.getElem_take, ← hget] at hgeti
  have hsame : i = k := (hall.getElem_inj_iff).mp hgeti
  exact List.take_prefix_take_left (by omega)

theorem migrate_concat {schema schema' : δ} {names : List String} {file sql : String}
    (h : migrate files schema₀ names = .ok schema) (hread : files.readFile file = some sql)
    (hquery : files.query sql schema = .ok schema') :
    migrate files schema₀ (names ++ [file]) = .ok schema' := by
  have hrun : runFile files schema file = .ok schema' := by
    rw [runFile, hread]
    exact hquery
  rw [migrate] at h ⊢
  rw [List.foldlM_append, h]
  show (do List.foldlM (runFile files) schema [file]) = Except.ok schema'
  rw [List.foldlM_cons, hrun]
  rfl

theorem commit_eq_ok {file sql : String} {db db' : MigrationDb δ} {u : Unit}
    (h : commit files file sql db = .ok (u, db')) :
    file ∉ db.names ∧ files.query sql db.schema = .ok db'.schema ∧
      db'.names = db.names ++ [file] := by
  unfold commit at h
  cases hquery : files.query sql db.schema with
  | error message =>
      rw [hquery] at h
      cases h
  | ok schema =>
      simp only [hquery] at h
      split_ifs at h with hrecorded
      cases h
      refine ⟨?_, rfl, rfl⟩
      rwa [MigrationDb.recorded, decide_eq_true_iff] at hrecorded

theorem applyFile_sound (hall : all.Nodup) {k : ℕ} {file : String} (hfile : all[k]? = some file)
    (h₀ : all.take k <+: db₀.names) :
    (applyFile files file).Sound (UpTo files all schema₀) Grows
      (fun _ db => all.take (k + 1) <+: db.names) db₀ := by
  refine Program.Sound.bind (Q := fun seen db => all.take k <+: db.names ∧
    (seen = true → all.take (k + 1) <+: db.names)) (Program.Sound.read grows_refl ?_) ?_
  · rintro db hgrows ⟨n, hnames, -⟩
    refine ⟨h₀.trans hgrows, fun hseen => ?_⟩
    rw [MigrationDb.recorded, decide_eq_true_iff] at hseen
    rw [hnames]
    refine take_succ_prefix_of_mem hall hfile ?_
    rw [← hnames]
    exact hseen
  · rintro seen db ⟨hbefore, hseen⟩
    split_ifs with h
    · exact Program.Sound.pure (hseen h)
    · split
      · exact Program.Sound.throw _
      · next sql hread =>
          refine Program.Sound.bind (Q := fun _ db => all.take (k + 1) <+: db.names)
            (Program.Sound.transaction grows_refl ?_) fun _ db h => Program.Sound.pure h
          rintro db' u db'' hgrows ⟨n, hnames, hschema⟩ hcommit
          obtain ⟨hnot, hquery, hrecorded⟩ := commit_eq_ok hcommit
          rw [hnames] at hnot
          have hn : n = k := by
            refine take_eq_of_notMem hfile hnot ?_
            rw [← hnames]
            exact hbefore.trans hgrows
          subst hn
          have hnext : db''.names = all.take (n + 1) := by
            rw [hrecorded, hnames, List.take_add_one, hfile]
            rfl
          refine ⟨⟨n + 1, hnext, ?_⟩, ?_, ?_⟩
          · rw [← hnext, hrecorded, hnames]
            exact migrate_concat hschema hread hquery
          · rw [Grows, hrecorded]
            exact List.prefix_append _ _
          · exact hnext ▸ List.prefix_rfl

theorem applyFrom_sound (hall : all.Nodup) {rest applied : List String} {k : ℕ}
    (hrest : rest <+: all.drop k) (h₀ : all.take k <+: db₀.names) :
    (applyFrom files rest applied).Sound (UpTo files all schema₀) Grows
      (fun _ db => all.take (k + rest.length) <+: db.names) db₀ := by
  induction rest generalizing k applied db₀ with
  | nil => exact Program.Sound.pure h₀
  | cons file rest ih =>
      obtain ⟨more, hmore⟩ := hrest
      have hfile : all[k]? = some file := by
        rw [← Nat.add_zero k, ← List.getElem?_drop, ← hmore]
        rfl
      have hnext : rest <+: all.drop (k + 1) := by
        refine ⟨more, ?_⟩
        rw [← List.drop_drop, ← hmore]
        rfl
      refine Program.Sound.bind (applyFile_sound hall hfile h₀) fun did db hdb => ?_
      refine (ih hnext hdb).mono fun _ db h => ?_
      rwa [List.length_cons, Nat.add_comm rest.length, ← Nat.add_assoc]

theorem runMigrations_sound (hall : all.Nodup) {entries : List String}
    (hentries : sqlFiles entries <+: all) (db₀ : MigrationDb δ) :
    (runMigrations files entries).Sound (UpTo files all schema₀) Grows
      (fun _ db => sqlFiles entries <+: db.names) db₀ := by
  refine Program.Sound.bind (Q := fun _ _ => True) (Program.Sound.write ?_) fun _ db _ => ?_
  · intro db hgrows hdb
    exact ⟨hdb, List.prefix_rfl, trivial⟩
  · refine (applyFrom_sound (k := 0) hall hentries List.nil_prefix).mono fun _ db h => ?_
    obtain ⟨more, rfl⟩ := hentries
    rwa [Nat.zero_add, List.take_left] at h

end Migrations

open Migrations

/-- Runners that find the first so many of the files each. -/
theorem migrations_in_order {δ κ : Type} [DecidableEq κ] (files : MigrationFiles δ)
    {all : List String} (hall : all.Nodup) (schema₀ : δ)
    {acts : List (ServiceAct κ (List String) Empty)}
    (hentries : ∀ k entries, .call k entries ∈ acts → sqlFiles entries <+: all) :
    let s := runFrom (Service.step (runMigrations files) fun db _ => db)
      { state := { schema := schema₀ } } acts
    (∃ n, s.state.names = all.take n ∧ migrate files schema₀ (all.take n) = .ok s.state.schema) ∧
      ∀ k entries applied, s.slots k = some (entries, .done (.ok applied)) →
        sqlFiles entries <+: s.state.names := by
  have hstart : Service.Relies (UpTo files all schema₀) Grows
      (fun entries (_ : List String) db => sqlFiles entries <+: db.names)
      ({ state := { schema := schema₀ } } :
        Service κ (List String) (MigrationDb δ) MigrationError (List String)) :=
    Service.Relies.idle ⟨0, rfl, rfl⟩
  have hacts : Along (Service.step (runMigrations files) fun db (_ : Empty) => db)
      (fun _ act => ∀ k entries, act = .call k entries → sqlFiles entries <+: all)
      ({ state := { schema := schema₀ } } :
        Service κ (List String) (MigrationDb δ) MigrationError (List String)) acts :=
    Along.of_forall (C := fun act : ServiceAct κ (List String) Empty =>
      ∀ k entries, act = .call k entries → sqlFiles entries <+: all)
      (by rintro act hact k entries rfl; exact hentries k entries hact) _
  have hrun := (Service.run_relies grows_trans grows_refl
    (fun s k entries _ hC => runMigrations_sound hall (hC k entries rfl) s.state)
    (fun _ i _ _ => i.elim) hstart hacts).1
  refine ⟨hrun.state, fun k entries applied hslot => ?_⟩
  exact hrun.returned hslot fun db db' h hgrows => h.trans hgrows

namespace TwoImages

def files : MigrationFiles (List String) where
  readFile file := some file
  query sql schema := .ok (schema ++ [sql])

def entries : Bool → List String
  | false => ["1.sql"]
  | true => ["2.sql", "README", "1.sql"]

/-- Both are at the first file when the new one applies it. -/
def acts : List (ServiceAct Bool (List String) Empty) :=
  [.call false (entries false), .call true (entries true), .turn false, .turn true, .turn false,
    .turn true, .turn true, .turn false, .turn true, .turn true]

theorem sqlFiles_entries (k : Bool) : sqlFiles (entries k) <+: ["1.sql", "2.sql"] := by
  cases k <;> decide +kernel

end TwoImages

open TwoImages in
theorem migrations_in_order_twoImages :
    let s := runFrom (Service.step (runMigrations TwoImages.files) fun db _ => db)
      { state := { schema := [] } } TwoImages.acts
    (∃ n, s.state.names = ["1.sql", "2.sql"].take n ∧
      migrate TwoImages.files [] (["1.sql", "2.sql"].take n) = .ok s.state.schema) ∧
      ∀ k entries applied, s.slots k = some (entries, .done (.ok applied)) →
        sqlFiles entries <+: s.state.names := by
  refine migrations_in_order TwoImages.files (by decide) [] ?_
  intro k entries h
  simp only [TwoImages.acts, List.mem_cons, ServiceAct.call.injEq, reduceCtorEq,
    List.not_mem_nil, or_false] at h
  obtain ⟨-, rfl⟩ | ⟨-, rfl⟩ := h
  · exact sqlFiles_entries false
  · exact sqlFiles_entries true

end Sahay
