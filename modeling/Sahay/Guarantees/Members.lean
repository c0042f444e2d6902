import Sahay.Guarantees.Locations

/-!
# How members have come in

Whoever is a member of an event now was one from the start, or has created it, or has asked to
join while the event was open, and with its code if it takes nobody in without; whatever becomes of
the event between the two looks that a join takes at it.
-/

namespace Sahay

namespace Site

variable {κ : Type} [DecidableEq κ] {cfg : AuthConfig} {lib : AuthLib} {st : SiteState}
  {is : List (SiteAct κ)}

/-- In the run somebody has asked to join the event, signed in as the user, with a code with which
the event took in at the time. -/
def LetIn (cfg : AuthConfig) (lib : AuthLib) (st : SiteState) (is : List (SiteAct κ))
    (key : UserId × EventId) : Prop :=
  ∃ k env tokenHash given, .call k (env, .member tokenHash (.joinEvent key.2 given)) ∈ is ∧
    (∃ st' auth, Visited cfg lib st is st' ∧ auth.userId = key.1 ∧
      st'.db.authenticateAt (MemberCall.joinEvent key.2 given).route env.now tokenHash =
        .ok auth) ∧
    ∃ st', Visited cfg lib st is st' ∧ TakesIn st' key.2 given

/-- In the run somebody has created an event, signed in as the user, and there was none under this
id then. -/
def Founded (cfg : AuthConfig) (lib : AuthLib) (st : SiteState) (is : List (SiteAct κ))
    (key : UserId × EventId) : Prop :=
  ∃ k env tokenHash input, .call k (env, .member tokenHash (.createEvent input)) ∈ is ∧
    (∃ st' auth, Visited cfg lib st is st' ∧ auth.userId = key.1 ∧
      st'.db.authenticateAt (MemberCall.createEvent input).route env.now tokenHash = .ok auth) ∧
    ∃ st', Visited cfg lib st is st' ∧ key.2 ∉ st'.db.events

/-- Every current membership was one at the start, or its member has been let in or has created
the event. -/
def Joined (cfg : AuthConfig) (lib : AuthLib) (st : SiteState) (is : List (SiteAct κ))
    (dir : Directory) : Prop :=
  ∀ key m, dir.memberships.lookup key = some m → m.leftAt = none →
    (LetIn cfg lib st is key ∨ Founded cfg lib st is key) ∨
      ∃ old, st.db.memberships.lookup key = some old ∧ old.leftAt = none

section Writes

variable {env : Env} {signs picks : String → Prop} {shares joins : UserId × EventId → Prop}
  {dir dir' : Directory}

theorem Joined.of_memberships (h : Joined cfg lib st is dir)
    (hsame : dir'.memberships = dir.memberships) : Joined cfg lib st is dir' := by
  intro key m hm
  rw [hsame] at hm
  exact h key m hm

theorem Joined.directoryWrite (h : Joined cfg lib st is dir)
    (hwrite : DirectoryWrite env signs shares dir dir') : Joined cfg lib st is dir' := by
  cases hwrite <;> exact h.of_memberships rfl

theorem Joined.siteWrite {env : AccountEnv} (h : Joined cfg lib st is dir)
    (hwrite : SiteWrite lib env picks signs shares joins dir dir')
    (hjoins : ∀ key, joins key → LetIn cfg lib st is key ∨ Founded cfg lib st is key) :
    Joined cfg lib st is dir' := by
  cases hwrite with
  | write _ hwrite => exact h.directoryWrite hwrite
  | credentials t => exact h.of_memberships rfl
  | memberships t ht =>
      intro key m hm hcurrent
      obtain hnew | ⟨old, hold, holdcurrent⟩ := ht key m hm hcurrent
      · exact .inl (hjoins key hnew)
      · exact h key old hold holdcurrent
  | found id event t _ => exact h.of_memberships rfl

end Writes

end Site

/-! ## Non-vacuity -/

namespace SmallSite

/-- Event 7 takes in whoever has its code. -/
def closed : SiteState :=
  { signedIn with
    backend := { signedIn.backend with
      events := (∅ : Table EventId Event).put 7
        { status := .active, visibility := .inviteOnly, startsAt := 0, endsAt := 1000 } }
    inviteCodes := (∅ : Table EventId String).put 7 "moon" }

end SmallSite

namespace Site

end Site
end Sahay
