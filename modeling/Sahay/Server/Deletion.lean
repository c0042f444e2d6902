import Sahay.Server.System

/-!
# Account deletion, the job

`performAccountDeletion` of `workers/data-request.ts`.  One query lists the user's active
matches; then each of them is cancelled, the open requests are, and the user's data goes,
statement by statement.  Every one of these is a transaction of its own, with the clock
of its own time.  The first that throws ends the job.
-/

namespace Sahay

namespace Db

def commitAll : List (Env × Op) → Db → Outcome Db
  | [], db => return db
  | i :: is, db => do
      let (_, db) ← db.exec i.1 i.2
      commitAll is db

/-- Steps 3 to 7. -/
def deletionWipes (userId : UserId) (avatarSeed : String) : List Op :=
  [.deletionStatement userId .sessions,
   .deletionStatement userId .pushTokens,
   .deletionStatement userId .availability,
   .deletionStatement userId .memberLocations,
   .deletionZeroInventory userId,
   .deletionStatement userId .notifications,
   .deletionStatement userId .notificationPrefs,
   .deletionStatement userId .blocks,
   .deletionStatement userId (.anonymize avatarSeed)]

def deletionTail (userId : UserId) (avatarSeed : String) : List Op :=
  .deletionCancelRequests userId :: deletionWipes userId avatarSeed

def deletionCancels (ids : List MatchId) : List Op :=
  ids.map fun id => .cancelMatchForModeration id "account_deleted"

/-- The transactions of the job, whose query for active matches runs in `env`. -/
def deletionOps (db : Db) (env : Env) (userId : UserId) (avatarSeed : String) : List Op :=
  deletionCancels (db.activeMatchesOf env userId) ++ deletionTail userId avatarSeed

/-- The query runs in `envs 0`, the transactions in `envs 1`, `envs 2` and so on. -/
def deletionScript (db : Db) (envs : ℕ → Env) (userId : UserId) (avatarSeed : String) :
    List (Env × Op) :=
  (db.deletionOps (envs 0) userId avatarSeed).mapIdx fun n op => (envs (n + 1), op)

def performAccountDeletion (db : Db) (envs : ℕ → Env) (userId : UserId) (avatarSeed : String) :
    Outcome Db :=
  commitAll (db.deletionScript envs userId avatarSeed) db

/-! ## Sequences of transactions -/

variable {db db' : Db}

theorem commitAll_cons {i : Env × Op} {is : List (Env × Op)} :
    commitAll (i :: is) db = .ok db' ↔
      ∃ effects mid, db.exec i.1 i.2 = .ok (effects, mid) ∧ commitAll is mid = .ok db' := by
  simp only [commitAll, bind_ok, Prod.exists]

theorem commitAll_append {is js : List (Env × Op)} :
    commitAll (is ++ js) db = .ok db' ↔
      ∃ mid, commitAll is db = .ok mid ∧ commitAll js mid = .ok db' := by
  induction is generalizing db with
  | nil => simp [commitAll, pure_ok]
  | cons i is ih =>
      simp only [List.cons_append, commitAll_cons, ih]
      constructor
      · rintro ⟨effects, mid, hexec, last, hfirst, hrest⟩
        exact ⟨last, ⟨effects, mid, hexec, hfirst⟩, hrest⟩
      · rintro ⟨last, ⟨effects, mid, hexec, hfirst⟩, hrest⟩
        exact ⟨effects, mid, hexec, last, hfirst, hrest⟩

@[simp] theorem deletionScript_ops (db : Db) (envs : ℕ → Env) (userId : UserId)
    (avatarSeed : String) :
    (db.deletionScript envs userId avatarSeed).map Prod.snd =
      db.deletionOps (envs 0) userId avatarSeed :=
  List.ext_getElem (by simp [deletionScript]) (by simp [deletionScript])

/-- Whatever the surroundings of its transactions are, they are those of some script. -/
theorem exists_deletionScript {env : Env} {userId : UserId} {avatarSeed : String}
    {is : List (Env × Op)}
    (h : is.map Prod.snd = db.deletionOps env userId avatarSeed) :
    ∃ envs, db.deletionScript envs userId avatarSeed = is := by
  let envs (n : ℕ) : Env := ((env :: is.map Prod.fst)[n]?).getD env
  have hops : db.deletionOps (envs 0) userId avatarSeed = is.map Prod.snd := h.symm
  refine ⟨envs, List.ext_getElem? fun n => ?_⟩
  rw [deletionScript, hops, List.getElem?_mapIdx, List.getElem?_map]
  cases hn : is[n]? with
  | none => rfl
  | some i => simp [envs, hn]

end Db
end Sahay
