import Sahay.Guarantees.Enumeration
import Sahay.Refinement.Site

/-!
# Where locations come from

A location that the matcher can read was stored for a member who was helping, by the clock of the
call that stored it, or asking at some point before, is no more precise than the grid, and is
younger than its time to live.  A ping
looks twice before it stores, and anything may happen in between.
-/

namespace Sahay

namespace Site

variable {κ : Type} [DecidableEq κ] {cfg : AuthConfig} {lib : AuthLib} {st : SiteState}
  {is : List (SiteAct κ)}

/-- At some point of the run the member was available, by the clock of these surroundings, or had an
open request. -/
def Entitled (cfg : AuthConfig) (lib : AuthLib) (st : SiteState) (is : List (SiteAct κ))
    (env : Env) (key : UserId × EventId) : Prop :=
  ∃ js, js <+: is ∧
    let db := (runFrom (step cfg lib) (opened st) js).state.db
    (isHelping env.now key.1 key.2 db = true ∨ isAsking key.1 key.2 db = true)

def Used (is : List (SiteAct κ)) (env : Env) : Prop :=
  (∃ k c, .call k c ∈ is ∧ c.1.toEnv = env) ∨ ∃ i, .alone i ∈ is ∧ i.1 = env

/-- Every location has been stored by something in the run, of a member who was entitled to it by
the clock of that. -/
def Located (cfg : AuthConfig) (lib : AuthLib) (st : SiteState) (is : List (SiteAct κ))
    (dir : Directory) : Prop :=
  ∀ key l, dir.memberLocations.lookup key = some l →
    ∃ env coords, Used is env ∧ Entitled cfg lib st is env key ∧ l = .sharedAt env coords

section Writes

variable {env : Env} {signs : String → Prop} {shares joins : UserId × EventId → Prop}
  {dir dir' : Directory}

theorem Located.of_locations (h : Located cfg lib st is dir)
    (hsame : dir'.memberLocations = dir.memberLocations) : Located cfg lib st is dir' := by
  intro key l hl
  rw [hsame] at hl
  exact h key l hl

theorem Located.directoryWrite (h : Located cfg lib st is dir)
    (hwrite : DirectoryWrite env signs shares dir dir') (hused : Used is env)
    (hshares : ∀ key, shares key → Entitled cfg lib st is env key) :
    Located cfg lib st is dir' := by
  cases hwrite with
  | share t key coords hshared ht =>
      intro key' l hl
      rw [ht] at hl
      split_ifs at hl with hkey
      · obtain rfl := Option.some.inj hl
        exact ⟨env, coords, hused, hkey ▸ hshares key hshared, rfl⟩
      · exact h key' l hl
  | forget t ht => exact fun key l hl => h key l (ht key l hl)
  | _ => exact h.of_locations rfl

theorem Located.siteWrite {env : AccountEnv} {picks : String → Prop}
    (h : Located cfg lib st is dir) (hwrite : SiteWrite lib env picks signs shares joins dir dir')
    (hused : Used is env.toEnv)
    (hshares : ∀ key, shares key → Entitled cfg lib st is env.toEnv key) :
    Located cfg lib st is dir' := by
  cases hwrite with
  | write _ hwrite => exact h.directoryWrite hwrite hused hshares
  | _ => exact h.of_locations rfl

end Writes

def Visited (cfg : AuthConfig) (lib : AuthLib) (st : SiteState) (is : List (SiteAct κ))
    (st' : SiteState) : Prop :=
  ∃ js, js <+: is ∧ (runFrom (step cfg lib) (opened st) js).state = st'

theorem admits_entitled (env : AccountEnv) :
    Admits (Visited cfg lib st is) env (Entitled cfg lib st is env.toEnv) := by
  rintro _ userId eventId ⟨js, hjs, rfl⟩ hsees
  exact ⟨js, hjs, hsees⟩

theorem isAsking_of_opensRequest {db db' : Db} {key : UserId × EventId}
    (h : db.OpensRequest db' key) : isAsking key.1 key.2 db' = true := by
  obtain ⟨id, r, -, hr, hrequester, hevent, hstatus⟩ := h
  rw [isAsking, Option.isSome_iff_ne_none]
  intro hnone
  have hno := Table.first_none.mp hnone id r hr
  rw [hrequester, hevent, hstatus] at hno
  simp [RequestStatus.isOpen] at hno

theorem along_visited : Along (step (κ := κ) cfg lib) (fun (s : Site κ) (act : SiteAct κ) =>
    Visited cfg lib st is s.state ∧ act ∈ is ∧
      ∃ js, js ++ [act] <+: is ∧ runFrom (step cfg lib) (opened st) js = s) (opened st) is := by
  refine (Along.visited (opened st) is).mono ?_
  rintro s act ⟨js, hjs, rfl⟩
  refine ⟨⟨js, (List.prefix_append js [act]).trans hjs, rfl⟩, hjs.subset ?_, js, hjs, rfl⟩
  exact List.mem_append_right js (List.mem_singleton_self act)

theorem located_run (his : KeepsDirectory is)
    (hst : st.db.memberLocations = ∅) :
    Located cfg lib st is (dir (runFrom (step cfg lib) (opened st) is)) := by
  refine Service.run_keeps (I := fun st' => Located cfg lib st is st'.db.toDirectory)
    ?_ ?_ ?_ ?_ (along_visited (κ := κ))
  · -- a call that comes in
    rintro s k c ⟨hmem, -⟩
    have hdoes : Does (Visited cfg lib st is) lib c.1 c.2.chooses (c.2.opens c.1)
        (Entitled cfg lib st is c.1.toEnv) (fun _ => True) (serve cfg lib c) :=
      serve_does (fun _ h => h) (fun _ h => h) (admits_entitled c.1)
        fun _ _ _ _ _ _ _ => .anybody _ _ _
    refine hdoes.mono (fun _ h => h) ?_
    intro s t _ hwrites hlocated
    refine hwrites.invariant (fun _ _ h hwrite => h.siteWrite hwrite ?_ fun _ h => h) hlocated
    exact .inl ⟨k, c, hmem, rfl⟩
  · -- an act of the backend
    rintro s i ⟨hmem, js, hjs, hs⟩ hlocated
    have hnext : alone lib s.state i =
        (runFrom (step cfg lib) (opened st) (js ++ [.alone i])).state := by
      rw [runFrom_append, hs]
      rfl
    refine (Backend.upkeepStep_run s.state.backend (his _ hmem).1).invariant
      (fun _ _ h hwrite => h.directoryWrite hwrite (.inr ⟨i, hmem, rfl⟩) ?_) hlocated
    intro key hopens
    refine ⟨js ++ [.alone i], hjs, .inr ?_⟩
    rw [← hnext]
    exact isAsking_of_opensRequest hopens
  · intro k c p hslot
    cases hslot
  · intro key l hl
    change st.db.memberLocations.lookup key = some l at hl
    rw [hst] at hl
    cases hl

/-- What the matcher reads of where a member is. -/
theorem live_location_entitled (his : KeepsDirectory is)
    (hst : st.db.memberLocations = ∅) {now : Time} {userId : UserId} {eventId : EventId}
    {coords : Coords}
    (h : (runFrom (step cfg lib) (opened st) is).state.db.liveLocation now userId eventId =
      some coords) :
    ∃ env given, Used is env ∧ Entitled cfg lib st is env (userId, eventId) ∧
      coords = coarsen given ∧ now < env.now + env.platform.locationTtlMinutes * 60000 := by
  obtain ⟨l, hl, rfl⟩ := Option.map_eq_some_iff.mp h
  obtain ⟨hlookup, hlive⟩ := Option.filter_eq_some_iff.mp hl
  obtain ⟨env, given, hused, hentitled, rfl⟩ := located_run his hst (userId, eventId) l hlookup
  exact ⟨env, given, hused, hentitled, rfl, of_decide_eq_true hlive⟩

end Site

/-! ## Non-vacuity -/

namespace SmallSite

/-- User 1 is available in event 7. -/
def helping : SiteState :=
  signedIn.setDb { signedIn.db with
    availability := (∅ : Table (UserId × EventId) Availability).put (1, 7) { isOn := true } }

def ping : List (SiteAct Unit) :=
  .call () (env 5, .member "phone" (.putLocation 7 ⟨1, 2⟩)) :: List.replicate 3 (.turn ())

end SmallSite

namespace Site

theorem live_location_entitled_ping :
    ∃ env given, Used SmallSite.ping env ∧
      Entitled {} Auth.plainLib SmallSite.helping SmallSite.ping env (1, 7) ∧
      coarsen ⟨1, 2⟩ = coarsen given ∧
        6 < env.now + env.platform.locationTtlMinutes * 60000 := by
  have hkeeps : KeepsDirectory SmallSite.ping := by
    intro act hact
    simp only [SmallSite.ping, List.mem_cons, List.mem_replicate] at hact
    rcases hact with rfl | ⟨-, rfl⟩ <;> trivial
  have hread : (runFrom (step {} Auth.plainLib) (opened SmallSite.helping)
      SmallSite.ping).state.db.liveLocation 6 1 7 = some (coarsen ⟨1, 2⟩) := rfl
  exact live_location_entitled hkeeps rfl hread

end Site
end Sahay
