import Sahay.Lib.RelyGuarantee
import Sahay.Server.Delivery

/-!
# What a push may tell, and whom

A push goes to the tokens that its user has enabled, under a type that the user has not switched
off, and says what the preferences let it say; all of that as the tables were at some moment of
the delivery, whatever else was going on.
-/

namespace Sahay
namespace Notices

variable {catalogs : Catalogs} {env : Env} {V : NoticeState → Prop} {job : NotifyJob}

/-- What must have been seen, in states that `V` tells of, before the push is made. -/
structure Accounted (catalogs : Catalogs) (V : NoticeState → Prop) (p : SentPush) : Prop where
  told : ∃ st₁ st₂, V st₁ ∧ st₁.db.muted p.job = false ∧ V st₂ ∧
    (st₂.notificationPrefs.lookup p.job.userId).bind (fun row => row.perType.lookup p.job.type) ≠
      some false ∧
    p.payload = buildPushPayload catalogs p.job
      ((st₂.notificationPrefs.lookup p.job.userId).any (·.detailedPreviews))
      (localeOf st₁.db p.job.userId)
  first : ∃ st, V st ∧ st.db.findNotification p.job.userId p.job.dedupeKey = none
  tokens : ∃ st, V st ∧ p.tokens = enabledTokens st p.job.userId ∧ p.tokens ≠ []

/-- What a statement of a delivery does to what it does not only read. -/
def Delivers (catalogs : Catalogs) (V : NoticeState → Prop) (s t : NoticeState) : Prop :=
  t.notificationPrefs = s.notificationPrefs ∧
    (t.pushes = s.pushes ∨ ∃ p, t.pushes = s.pushes ++ [p] ∧ Accounted catalogs V p)

theorem Delivers.of_eq {s t : NoticeState} (hprefs : t.notificationPrefs = s.notificationPrefs)
    (hpushes : t.pushes = s.pushes) : Delivers catalogs V s t :=
  ⟨hprefs, .inl hpushes⟩

theorem Delivers.refl (s : NoticeState) : Delivers catalogs V s s := .of_eq rfl rfl

theorem sendAll_does {tokens : List Push.PushToken} {payload : Push.PushPayload}
    (hp : Accounted catalogs V ⟨job, tokens, payload⟩) (providers : List Push.PushProvider)
    (failed : List String) :
    (sendAll job tokens payload providers failed).Does V (Delivers catalogs V) := by
  induction providers generalizing failed with
  | nil => exact .pure failed
  | cons provider providers ih =>
      exact .bind (.write fun s _ => ⟨rfl, .inr ⟨_, rfl, hp⟩⟩) fun _ => ih _

theorem push_does {st₁ st₀ : NoticeState} (hst₁ : V st₁) (hmuted : st₁.db.muted job = false)
    (hst₀ : V st₀) (hfirst : st₀.db.findNotification job.userId job.dedupeKey = none)
    (providers : List Push.PushProvider) :
    (push catalogs job (localeOf st₁.db job.userId) providers).Does V
      (Delivers catalogs V) := by
  refine .read_bind (fun s _ => .refl s) fun st₂ hst₂ => ?_
  split_ifs with hoff
  · exact .pure ()
  · refine .read_bind (fun s _ => .refl s) fun st₃ hst₃ => ?_
    dsimp only
    split_ifs with hempty
    · exact .pure ()
    · have hp : Accounted catalogs V ⟨job, enabledTokens st₃ job.userId, buildPushPayload catalogs
          job ((st₂.notificationPrefs.lookup job.userId).any (·.detailedPreviews))
          (localeOf st₁.db job.userId)⟩ :=
        { told := ⟨st₁, st₂, hst₁, hmuted, hst₂, hoff, rfl⟩
          first := ⟨st₀, hst₀, hfirst⟩
          tokens := ⟨st₃, hst₃, rfl, fun h => hempty (List.isEmpty_iff.mpr h)⟩ }
      refine .bind (sendAll_does hp providers []) fun failed => ?_
      split_ifs
      · exact .write fun s _ => .of_eq rfl rfl
      · exact .pure ()

theorem insertNotification_fst (st : NoticeState) {uuid : ℕ} {row : ℕ × Notification}
    (h : (insertNotification env job uuid st).1 = some row) :
    st.db.findNotification job.userId job.dedupeKey = none := by
  unfold insertNotification at h
  split_ifs at h with hfound
  exact Option.not_isSome_iff_eq_none.mp hfound

theorem insertNotification_snd (st : NoticeState) (uuid : ℕ) :
    (insertNotification env job uuid st).2 =
      { st with db := (insertNotification env job uuid st).2.db } := by
  unfold insertNotification
  split_ifs <;> rfl

theorem deliverNotification_does (job : NotifyJob) (uuid : ℕ)
    (providers : List Push.PushProvider) :
    (deliverNotification catalogs env job uuid providers).Does V (Delivers catalogs V) := by
  refine .read_bind (fun s _ => .refl s) fun st₁ hst₁ => ?_
  split_ifs with hmuted
  · exact .pure ()
  · intro st₀ hst₀
    refine ⟨?_, ?_⟩
    · show Delivers catalogs V st₀ (insertNotification env job uuid st₀).2
      rw [insertNotification_snd]
      exact .of_eq rfl rfl
    · dsimp only
      cases hrow : (insertNotification env job uuid st₀).1 with
      | none => exact .pure ()
      | some row =>
          show ((do
            Program.write fun st => { st with published := st.published ++ [(job.userId, row)] }
            push catalogs job (localeOf st₁.db job.userId) providers :
              NoticeProgram Unit)).Does V (Delivers catalogs V)
          refine .bind (.write fun s _ => .of_eq rfl rfl) fun _ => ?_
          exact push_does hst₁ (Bool.not_eq_true _ ▸ hmuted) hst₀
            (insertNotification_fst st₀ hrow) providers

/-- A call changes the preferences of a user only as that user says. -/
theorem serve_does (c : Env × NoticeCall) : (serve catalogs c).Does V fun s t =>
    Delivers catalogs V s t ∨ t.pushes = s.pushes ∧ ∃ userId prefs,
      c.2 = .putNotificationPrefs userId prefs ∧
        t.notificationPrefs = s.notificationPrefs.upsert userId prefs fun _ => prefs := by
  obtain ⟨env, call⟩ := c
  cases call with
  | deliver job uuid providers =>
      refine .bind ((deliverNotification_does job uuid providers).mono (fun _ h => h) ?_)
        fun _ => .pure _
      exact fun _ _ _ h => .inl h
  | registerPushToken userId provider token =>
      exact .bind (.write fun s _ => .inl (.of_eq rfl rfl)) fun _ => .pure _
  | getNotificationPrefs userId =>
      exact .bind (.read fun s _ => .inl (.refl s)) fun _ => .pure _
  | putNotificationPrefs userId prefs =>
      exact .bind (.write fun s _ => .inr ⟨rfl, userId, prefs, rfl, rfl⟩) fun _ => .pure _

/-! ## Run alone -/

theorem sendAll_sound (tokens : List Push.PushToken) (payload : Push.PushPayload)
    (providers : List Push.PushProvider) (failed : List String) (st : NoticeState) :
    (sendAll job tokens payload providers failed).Sound (fun _ => True)
      (fun s t => t.db = s.db) (fun _ _ => True) st := by
  induction providers generalizing failed st with
  | nil => exact .pure trivial
  | cons provider providers ih =>
      exact .bind (Q := fun _ _ => True) (.write fun s _ _ => ⟨trivial, rfl, trivial⟩)
        fun _ s _ => ih _ s

theorem push_sound (locale : Locale) (providers : List Push.PushProvider) (st : NoticeState) :
    (push catalogs job locale providers).Sound (fun _ => True)
      (fun s t => t.db = s.db) (fun _ _ => True) st := by
  refine .bind (Q := fun _ _ => True) (.read (fun _ => rfl) fun _ _ _ => trivial)
    fun prefs s _ => ?_
  split_ifs
  · exact .pure trivial
  · refine .bind (Q := fun _ _ => True) (.read (fun _ => rfl) fun _ _ _ => trivial)
      fun tokens s _ => ?_
    split_ifs
    · exact .pure trivial
    · refine .bind (Q := fun _ _ => True) (sendAll_sound tokens _ providers [] s)
        fun failed s _ => ?_
      split_ifs
      · exact .write fun s _ _ => ⟨trivial, rfl, trivial⟩
      · exact .pure trivial

/-- Run alone, a delivery does to the database what it does taken as one statement. -/
theorem exec_deliverNotification (job : NotifyJob) (uuid : ℕ)
    (providers : List Push.PushProvider) (st : NoticeState) :
    ((deliverNotification catalogs env job uuid providers).exec st).2.db =
      (st.db.deliverNotification env job uuid).2 := by
  have hpush (locale : Locale) (st : NoticeState) :
      ((push catalogs job locale providers).exec st).2.db = st.db := by
    have hdb (s t u : NoticeState) (h : t.db = s.db) (h' : u.db = t.db) : u.db = s.db := h'.trans h
    exact ((push_sound locale providers st).exec hdb (fun _ => rfl) rfl trivial
      fun _ _ _ _ _ => trivial).2.1
  unfold deliverNotification Db.deliverNotification
  rw [Program.exec_bind_ok (Program.exec_read _)]
  by_cases hmuted : st.db.muted job = true
  · rw [if_pos hmuted, if_pos hmuted, Program.exec_pure]
  · rw [if_neg hmuted, if_neg hmuted, Program.exec_bind_ok (Program.exec_update _)]
    unfold insertNotification
    split_ifs with hfound
    · rfl
    · exact hpush _ _

end Notices

open Notices

variable {κ : Type} [DecidableEq κ] {catalogs : Catalogs} {st₀ : NoticeState}
  {is : List (ServiceAct κ (Env × NoticeCall) NoticeAct)}

abbrev noticeRun (catalogs : Catalogs) (st₀ : NoticeState)
    (is : List (ServiceAct κ (Env × NoticeCall) NoticeAct)) :
    Service κ (Env × NoticeCall) NoticeState TxError NoticeReply :=
  runFrom (Service.step (serve catalogs) alone) { state := st₀ } is

def Notices.Visited (catalogs : Catalogs) (st₀ : NoticeState)
    (is : List (ServiceAct κ (Env × NoticeCall) NoticeAct)) (st : NoticeState) : Prop :=
  ∃ js, js <+: is ∧ (noticeRun catalogs st₀ js).state = st

/-- Of every push, all that decides on it has been read in states of the run. -/
theorem push_accounted_for (h₀ : st₀.pushes = []) :
    ∀ p ∈ (noticeRun catalogs st₀ is).state.pushes,
      Accounted catalogs (Visited catalogs st₀ is) p := by
  have hrun : Along (Service.step (serve catalogs) alone)
      (fun s _ => Visited catalogs st₀ is s.state ∧ True)
      ({ state := st₀ } : Service κ (Env × NoticeCall) NoticeState TxError NoticeReply) is := by
    refine (Along.visited _ is).mono ?_
    rintro s act ⟨js, hjs, rfl⟩
    exact ⟨⟨js, (List.prefix_append js [act]).trans hjs, rfl⟩, trivial⟩
  refine Service.run_keeps (I := fun st : NoticeState => ∀ p ∈ st.pushes,
    Accounted catalogs (Visited catalogs st₀ is) p) ?_ ?_ ?_ ?_ hrun
  · intro s k c _
    refine (serve_does c).mono (fun _ h => h) ?_
    rintro s t _ (⟨-, hsame | ⟨p, hpushed, hp⟩⟩ | ⟨hsame, -⟩) hall
    · rwa [hsame]
    · rw [hpushed]
      intro p' hp'
      obtain hold | hnew := List.mem_append.mp hp'
      · exact hall p' hold
      · exact List.mem_singleton.mp hnew ▸ hp
    · rwa [hsame]
  · intro s i _ hall
    cases i <;> exact hall
  · intro k c p hslot
    cases hslot
  · intro p hp
    rw [h₀] at hp
    cases hp

/-- To a user who has not asked for detailed previews, no push says more of an offer or a message
than that there is one. -/
theorem vague_until_opted_in {userId : UserId} (h₀ : st₀.pushes = [])
    (hprefs : ∀ row, st₀.notificationPrefs.lookup userId = some row → row.detailedPreviews = false)
    (his : ∀ k env row, .call k (env, .putNotificationPrefs userId row) ∈ is →
      row.detailedPreviews = false) :
    ∀ p ∈ (noticeRun catalogs st₀ is).state.pushes, p.job.userId = userId →
      p.job.type ∈ vaguePreviewTypes → ∃ locale,
        p.payload.title = t catalogs locale "common.appName" ∧
          p.payload.body = t catalogs locale (vagueBody p.job.type) := by
  -- while nothing but vague previews can be read, nothing but vague pushes are made
  let Vague (st : NoticeState) : Prop :=
    (∀ row, st.notificationPrefs.lookup userId = some row → row.detailedPreviews = false) ∧
      ∀ p ∈ st.pushes, p.job.userId = userId → p.job.type ∈ vaguePreviewTypes → ∃ locale,
        p.payload.title = t catalogs locale "common.appName" ∧
          p.payload.body = t catalogs locale (vagueBody p.job.type)
  have hpush {p : SentPush} (hp : Accounted catalogs Vague p) (huser : p.job.userId = userId)
      (htype : p.job.type ∈ vaguePreviewTypes) : ∃ locale,
        p.payload.title = t catalogs locale "common.appName" ∧
          p.payload.body = t catalogs locale (vagueBody p.job.type) := by
    obtain ⟨st₁, st₂, -, -, ⟨hvague, -⟩, -, hpayload⟩ := hp.told
    have hoff : (st₂.notificationPrefs.lookup p.job.userId).any (·.detailedPreviews) = false := by
      rw [huser]
      cases hrow : st₂.notificationPrefs.lookup userId with
      | none => rfl
      | some row => exact hvague row hrow
    refine ⟨localeOf st₁.db p.job.userId, ?_⟩
    rw [hpayload, hoff]
    simp [buildPushPayload, htype]
  have hcall (c : Env × NoticeCall)
      (hc : ∀ env row, c = (env, .putNotificationPrefs userId row) → row.detailedPreviews = false) :
      (serve catalogs c).Keeps Vague := by
    refine (serve_does c).mono (fun _ h => h) ?_
    rintro s t ⟨hvague, hall⟩ (⟨hprefs, hpushes⟩ | ⟨hpushes, userId', row, hset, hprefs⟩)
    · refine ⟨by rwa [hprefs], ?_⟩
      obtain hsame | ⟨p, hpushed, hp⟩ := hpushes
      · rwa [hsame]
      · rw [hpushed]
        intro p' hp'
        obtain hold | hnew := List.mem_append.mp hp'
        · exact hall p' hold
        · exact List.mem_singleton.mp hnew ▸ hpush hp
    · refine ⟨fun row' hrow' => ?_, by rwa [hpushes]⟩
      rw [hprefs, Table.lookup_upsert] at hrow'
      split_ifs at hrow' with hsame
      · have hrow : row' = row := by
          cases hold : s.notificationPrefs.lookup userId' with
          | none =>
              rw [hold] at hrow'
              exact (Option.some.inj hrow').symm
          | some old =>
              rw [hold] at hrow'
              exact (Option.some.inj hrow').symm
        rw [hrow]
        exact hc c.1 row (hsame ▸ Prod.ext rfl hset)
      · exact hvague row' hrow'
  have halone (st : NoticeState) (i : NoticeAct) (h : Vague st) : Vague (alone st i) := by
    cases i with
    | other db => exact h
    | forgetTokens userId' => exact h
    | forgetPrefs userId' =>
        refine ⟨fun row hrow => ?_, h.2⟩
        rw [alone, Table.lookup_drop] at hrow
        split_ifs at hrow
        exact h.1 row hrow
  have hstart : Service.Holds Vague
      ({ state := st₀ } : Service κ (Env × NoticeCall) NoticeState TxError NoticeReply) := by
    refine ⟨⟨hprefs, fun p hp => ?_⟩, fun k c p hslot => by cases hslot⟩
    rw [h₀] at hp
    cases hp
  have hrun : Along (Service.step (serve catalogs) alone)
      (fun _ act => ∀ k env row, act = .call k (env, .putNotificationPrefs userId row) →
        row.detailedPreviews = false)
      ({ state := st₀ } : Service κ (Env × NoticeCall) NoticeState TxError NoticeReply) is :=
    Along.of_forall (C := fun act : ServiceAct κ (Env × NoticeCall) NoticeAct =>
      ∀ k env row, act = .call k (env, .putNotificationPrefs userId row) →
        row.detailedPreviews = false)
      (by rintro act hact k env row rfl; exact his k env row hact) _
  exact (Service.run_holds (fun s k c hC => hcall c fun env row h => hC k env row (by rw [h]))
    (fun s i h _ => halone s.state i h) hstart hrun).state.2

/-! ## Non-vacuity -/

namespace SmallNotices

def state : NoticeState where
  db := { Db.empty with users := (∅ : Table UserId User).put 7 {} }
  pushTokens := (∅ : Table (UserId × String) PushTokenRow).put (7, "phone") { provider := "expo" }

def offer : List (ServiceAct Unit (Env × NoticeCall) NoticeAct) :=
  .call () ({ now := 5, platform := { stDistance := fun _ _ => 0, locationTtlMinutes := 30 } }, .deliver
    { userId := 7, type := "match_offer", titleKey := "offer.title", bodyKey := "offer.body" } 1
    [.console]) :: List.replicate 6 (.turn ())

end SmallNotices

theorem push_accounted_for_offer :
    (noticeRun (fun _ _ => none) SmallNotices.state SmallNotices.offer).state.pushes.length = 1 ∧
      ∀ p ∈ (noticeRun (fun _ _ => none) SmallNotices.state SmallNotices.offer).state.pushes,
        Accounted (fun _ _ => none)
          (Visited (fun _ _ => none) SmallNotices.state SmallNotices.offer) p :=
  ⟨rfl, push_accounted_for rfl⟩

theorem vague_until_opted_in_offer :
    (noticeRun (fun _ _ => none) SmallNotices.state SmallNotices.offer).state.pushes.length = 1 ∧
      ∀ p ∈ (noticeRun (fun _ _ => none) SmallNotices.state SmallNotices.offer).state.pushes,
        p.job.userId = 7 → p.job.type ∈ vaguePreviewTypes → ∃ locale,
          p.payload.title = t (fun _ _ => none) locale "common.appName" ∧
            p.payload.body = t (fun _ _ => none) locale (vagueBody p.job.type) := by
  refine ⟨rfl, vague_until_opted_in rfl (fun row h => by cases h) ?_⟩
  intro k env row h
  simp [SmallNotices.offer] at h

end Sahay
