import Sahay.Lifecycle.Parted
import Sahay.Refinement.ModerationCancel
import Sahay.Server.Sweep

/-!
# Blocks

A block keeps two users from being offered each other's requests, and the call
that places it ends the match it names.  Whatever else joins the two at that
moment stays: other active matches, open offers, and conversations of matches
that have closed but still take messages.  When there is nothing else, the block
keeps the two apart for good.
-/

namespace Sahay

theorem Conversation.effectiveStatus_later {conv : Conversation} {t t' : Time}
    (h : conv.effectiveStatus t ≠ .open) (ht : t ≤ t') : conv.effectiveStatus t' ≠ .open := by
  unfold Conversation.effectiveStatus at h ⊢
  by_cases hopen : conv.status = .open
  · have hexpired : conv.expiresAt.any (fun e => e ≤ t) = true := by
      by_contra hexpired
      exact h (by rw [if_neg fun hc => hexpired hc.2, hopen])
    have hlater : conv.expiresAt.any (fun e => e ≤ t') = true := by
      obtain ⟨e, he, hle⟩ := (Option.any_eq_true _ _).mp hexpired
      exact (Option.any_eq_true _ _).mpr ⟨e, he, by simpa using (of_decide_eq_true hle).trans ht⟩
    rw [if_pos ⟨hopen, hlater⟩]
    decide
  · rw [if_neg fun hc => hopen hc.1]
    exact hopen

namespace Db

variable {db db' : Db} {env : Env} {effects : List Effect} {a b : UserId}

/-! ## What a block promises -/

def Unmatched (db : Db) (a b : UserId) : Prop :=
  ∀ mid m, db.matchRows.lookup mid = some m → m.Between a b → m.status ≠ .active

instance (db : Db) (a b : UserId) : Decidable (db.Unmatched a b) :=
  db.matchRows.decidableForall fun _ m => m.Between a b → m.status ≠ .active

/-- A step between users of whom one blocks the other: no active match of theirs
is left by it, and no message is sent in a conversation of theirs. -/
structure Isolates (a b : UserId) (db : Db) (i : Env × Op) : Prop where
  unmatched : (db.step i).Unmatched a b
  unheard : ∀ token cid input conv m, i.2 = .sendMessage token cid input →
    db.conversations.lookup cid = some conv → db.matchRows.lookup conv.matchId = some m →
    m.Between a b → ∀ r, db.exec i.1 i.2 ≠ .ok r

/-! ## When it keeps its promise -/

/-- The users share no active match but `mid`, and no open offer. -/
def AloneIn (db : Db) (a b : UserId) (mid : MatchId) : Prop :=
  db.Parted a b fun id => id = mid

instance (db : Db) (a b : UserId) (mid : MatchId) : Decidable (db.AloneIn a b mid) :=
  inferInstanceAs (Decidable (db.Parted a b fun id => id = mid))

/-- Every conversation of the users that still takes messages is that of an
active match. -/
def TalkOnlyMatched (db : Db) (a b : UserId) (t : Time) : Prop :=
  ∀ cid conv m, db.conversations.lookup cid = some conv →
    db.matchRows.lookup conv.matchId = some m → m.Between a b →
    conv.effectiveStatus t = .open → m.status = .active

instance (db : Db) (a b : UserId) (t : Time) : Decidable (db.TalkOnlyMatched a b t) :=
  have (conv : Conversation) : Decidable (∀ m, db.matchRows.lookup conv.matchId = some m →
      m.Between a b → conv.effectiveStatus t = .open → m.status = .active) :=
    inferInstanceAs (Decidable (∀ m ∈ db.matchRows.lookup conv.matchId, _))
  have := db.conversations.decidableForall fun _ conv => ∀ m,
    db.matchRows.lookup conv.matchId = some m → m.Between a b →
      conv.effectiveStatus t = .open → m.status = .active
  decidable_of_iff _
    ⟨fun h cid conv m hcid => h cid conv hcid m, fun h cid conv hcid m => h cid conv m hcid⟩

def repeatsMessage (db : Db) (i : Env × Op) : Bool :=
  match i.2 with
  | .sendMessage _ _ input => (db.callerOf i.1 i.2).any fun userId =>
      (db.findMessage userId input.clientMsgId).isSome
  | _ => false

/-- The block is in place, the clock has reached `t`, and no message is repeated. -/
def undisturbed (a b : UserId) (t : Time) (db : Db) (i : Env × Op) : Bool :=
  decide ((a, b) ∈ db.blocks) && decide (t ≤ i.1.now) && !db.repeatsMessage i

/-! ## One step -/

theorem step_parted {spared : MatchId → Prop} (hx : db.toExchange.Consistent) (i : Env × Op)
    (hblocked : (a, b) ∈ db.blocks) (hp : db.Parted a b spared) :
    (db.step i).Parted a b spared := by
  rcases db.step_cases i with ⟨effects, h⟩ | h
  · refine ((exec_refines hx h).run.invariant (P := fun x => x.Consistent ∧ x.Parted a b spared)
      ?_ ⟨hx, hp⟩).2
    exact fun x x' hx hstep => ⟨hstep.consistent hx.1, hstep.parted hx.1.linked hblocked hx.2⟩
  · rwa [h]

theorem step_silent {t : Time} (hx : db.toExchange.Consistent) (i : Env × Op)
    (hblocked : (a, b) ∈ db.blocks) (hp : db.Parted a b fun _ => False) (hs : db.Silent a b t) :
    (db.step i).Silent a b t := by
  rcases db.step_cases i with ⟨effects, h⟩ | h
  · refine ((exec_refines hx h).run.invariant
      (P := fun x => x.Consistent ∧ x.Parted a b (fun _ => False) ∧ x.Silent a b t)
      ?_ ⟨hx, hp, hs⟩).2.2
    exact fun x x' hx hstep => ⟨hstep.consistent hx.1,
      hstep.parted hx.1.linked hblocked hx.2.1, hstep.silent hx.2.1 hx.1.conversed hx.2.2⟩
  · rwa [h]

/-- A silent conversation refuses every new message. -/
theorem sendMessage_refused {token : String} {cid : ConversationId} {input : SendMessageInput}
    {t : Time} {conv : Conversation} {m : Match} (hs : db.Silent a b t) (ht : t ≤ env.now)
    (hnew : db.repeatsMessage (env, .sendMessage token cid input) = false)
    (hcid : db.conversations.lookup cid = some conv)
    (hm : db.matchRows.lookup conv.matchId = some m) (hbetween : m.Between a b)
    (r : List Effect × Db) : db.exec env (.sendMessage token cid input) ≠ .ok r := by
  intro h
  obtain ⟨auth, hauth, -, hsend⟩ := asUser_ok h
  have hcaller : db.callerOf env (.sendMessage token cid input) = some auth.userId := by
    rw [callerOf, Op.token?, Option.bind_some, hauth, Option.map_some]
  simp only [repeatsMessage, hcaller, Option.any_some] at hnew
  simp only [sendMessage, contextForViewer, bind_ok, found_ok, ensure_ok, pure_ok, hnew,
    Bool.false_eq_true, if_false] at hsend
  obtain ⟨_, ⟨conv', hconv', m', hm', -, -, rfl⟩, -, hopen, -⟩ := hsend
  obtain rfl := Option.some.inj (hcid.symm.trans hconv')
  exact Conversation.effectiveStatus_later (hs cid conv m hcid hm hbetween) ht hopen

/-! ## The call -/

/-- The call places the block, and asks for the match's cancellation if it is active. -/
theorem blockViaMatch_ok {token : String} {mid : MatchId} {m : Match}
    (h : db.exec env (.blockViaMatch token mid) = .ok (effects, db'))
    (hcaller : db.callerOf env (.blockViaMatch token mid) = some a)
    (hm : db.matchRows.lookup mid = some m) (hbetween : m.Between a b) (hne : a ≠ b) :
    db'.toExchange = db.toExchange ∧ (a, b) ∈ db'.blocks ∧
      sweepTargets effects = if m.status = .active then [(mid, "blocked")] else [] := by
  obtain ⟨auth, hauth, -, hblock⟩ := asUser_ok h
  rw [callerOf, Op.token?, Option.bind_some, hauth, Option.map_some] at hcaller
  obtain rfl : auth.userId = a := Option.some.inj hcaller
  simp only [blockViaMatch, matchPeer, bind_ok, found_ok, pure_ok, Prod.mk.injEq] at hblock
  obtain ⟨_, ⟨m', hm', side, hside, rfl⟩, rfl, rfl⟩ := hblock
  obtain rfl := Option.some.inj (hm.symm.trans hm')
  have hpeer : (if side = .requester then m.helperId else m.requesterId) = b := by
    unfold Match.sideOf at hside
    rcases hbetween with ⟨hrequester, hhelper⟩ | ⟨hrequester, hhelper⟩
    · rw [if_pos hrequester] at hside
      rw [if_pos (Option.some.inj hside).symm, hhelper]
    · rw [if_neg (by rw [hrequester]; exact hne.symm), if_pos hhelper] at hside
      rw [← Option.some.inj hside, if_neg (by decide), hrequester]
  simp only [hpeer]
  refine ⟨?_, ?_, ?_⟩
  · split_ifs <;> rfl
  · split_ifs with hplaced
    · exact hplaced
    · exact Table.mem_iff_exists.mpr ⟨_, by rw [Table.lookup_put, if_pos rfl]⟩
  · split_ifs <;> rfl

theorem TalkOnlyMatched.silent {t : Time} (h : db.TalkOnlyMatched a b t)
    (hp : db.Parted a b fun _ => False) : db.Silent a b t :=
  fun cid conv m hcid hm hbetween hopen =>
    (hp.matchRows _ m hm (h cid conv m hcid hm hbetween hopen) hbetween).elim

/-- The cancellation that the block asked for ends the match and its conversation,
the last that the two shared. -/
theorem step_cancelled {mid : MatchId} {m : Match} (hx : db.Consistent)
    (hblocked : (a, b) ∈ db.blocks) (hp : db.Parted a b fun id => id = mid)
    (htalk : db.TalkOnlyMatched a b env.now) (hm : db.matchRows.lookup mid = some m)
    (hactive : m.status = .active) :
    let db' := db.step (env, .cancelMatchForModeration mid "blocked")
    db'.Parted a b (fun _ => False) ∧ db'.Silent a b env.now := by
  obtain ⟨effects, db', hcancel⟩ :=
    cancelMatchForModeration_commits env "blocked" hx hm hactive
  have hstep : db.step (env, .cancelMatchForModeration mid "blocked") = db' := step_of_ok hcancel
  have hp' := step_parted hx.exchange (env, .cancelMatchForModeration mid "blocked") hblocked hp
  rw [hstep] at hp' ⊢
  obtain ⟨m₀, cid₀, conv₀, hm₀, -, hrows, hcid₀, hmatch, hconvs⟩ :=
    cancelMatchForModeration_ok hx.exchange hcancel
  have hclosed {m' : Match} (hm' : db'.matchRows.lookup mid = some m') : m'.status ≠ .active := by
    rw [hrows, Table.lookup_replace hm₀, if_pos rfl] at hm'
    rw [← Option.some.inj hm']
    exact nofun
  refine ⟨⟨hp'.offers, fun id m' hm' hactive' hbetween => ?_⟩,
    fun cid conv m' hcid hm' hbetween => ?_⟩
  · obtain rfl := hp'.matchRows id m' hm' hactive' hbetween
    exact hclosed hm' hactive'
  · rw [hconvs, Table.lookup_replace hcid₀] at hcid
    split_ifs at hcid with hk
    · rw [← Option.some.inj hcid, Conversation.effectiveStatus, if_neg fun hc => nomatch hc.1]
      exact nofun
    · -- Another conversation of theirs would be that of another active match.
      have hmid : conv.matchId ≠ mid := fun heq =>
        hk (hx.exchange.conversed.unique cid cid₀ conv conv₀ hcid hcid₀ (heq.trans hmatch.symm))
      rw [hrows, Table.lookup_replace hm₀, if_neg hmid] at hm'
      intro hopen
      exact hmid (hp.matchRows _ m' hm' (htalk cid conv m' hcid hm' hbetween hopen) hbetween)

theorem step_followUp {mid : MatchId} (hx : db.Consistent) (hblocked : (a, b) ∈ db.blocks)
    (hp : db.Parted a b fun id => id = mid) (htalk : db.TalkOnlyMatched a b env.now) :
    let db' := db.step (env, .cancelMatchForModeration mid "blocked")
    db'.Parted a b (fun _ => False) ∧ db'.Silent a b env.now := by
  by_cases hactive : ∃ m, db.matchRows.lookup mid = some m ∧ m.status = .active
  · obtain ⟨m, hm, hactive⟩ := hactive
    exact step_cancelled hx hblocked hp htalk hm hactive
  · -- Somebody else has ended the match, and the cancellation throws.
    have hp' : db.Parted a b fun _ => False := by
      refine ⟨hp.offers, fun id m hm hopen hbetween => ?_⟩
      obtain rfl := hp.matchRows id m hm hopen hbetween
      exact hactive ⟨m, hm, hopen⟩
    exact ⟨step_parted hx.exchange _ hblocked hp',
      step_silent hx.exchange _ hblocked hp' (htalk.silent hp')⟩

/-! ## Runs -/

theorem run_parted {spared : MatchId → Prop} {is : List (Env × Op)} (hx : db.Consistent)
    (hp : db.Parted a b spared) (hkept : Along step (fun db _ => (a, b) ∈ db.blocks) db is) :
    (runFrom step db is).Consistent ∧ (runFrom step db is).Parted a b spared :=
  Along.invariant (P := fun db => db.Consistent ∧ db.Parted a b spared)
    (fun db i ⟨hx, hp⟩ hblocked =>
      ⟨db.step_consistent i hx, step_parted hx.exchange i hblocked hp⟩) ⟨hx, hp⟩ hkept

/-- In every run from a block on in which it stays in place, the users stay apart. -/
theorem isolates_after {t : Time} {is : List (Env × Op)} (hx : db.Consistent)
    (hp : db.Parted a b fun _ => False) (hs : db.Silent a b t)
    (hafter : Along step (fun db i => db.undisturbed a b t i = true) db is) :
    Along step (fun db i => db.Isolates a b i) db is := by
  refine Along.strengthen
    (P := fun db => db.Consistent ∧ db.Parted a b (fun _ => False) ∧ db.Silent a b t)
    ?_ ?_ ⟨hx, hp, hs⟩ hafter
  · intro db i ⟨hx, hp, hs⟩ hundisturbed
    simp only [undisturbed, Bool.and_eq_true, decide_eq_true_eq] at hundisturbed
    obtain ⟨⟨hblocked, -⟩, -⟩ := hundisturbed
    exact ⟨db.step_consistent i hx, step_parted hx.exchange i hblocked hp,
      step_silent hx.exchange i hblocked hp hs⟩
  · intro db i ⟨hx, hp, hs⟩ hundisturbed
    simp only [undisturbed, Bool.and_eq_true, decide_eq_true_eq, Bool.not_eq_true'] at hundisturbed
    obtain ⟨⟨hblocked, htime⟩, hnew⟩ := hundisturbed
    constructor
    · exact fun mid m hm hbetween hactive =>
        (step_parted hx.exchange i hblocked hp).matchRows mid m hm hactive hbetween
    · intro token cid input conv m hop hcid hm hbetween
      obtain ⟨env, op⟩ := i
      obtain rfl : op = _ := hop
      exact sendMessage_refused hs htime hnew hcid hm hbetween

/-- A block keeps its promise when it is placed by users who are alone in the
match, and whose other conversations are over when its cancellation runs. -/
theorem blockViaMatch_isolates {db₁ : Db} {env' : Env} {token : String} {mid : MatchId} {m : Match}
    {before after : List (Env × Op)} (hdb : db.Reached)
    (hcall : db.exec env (.blockViaMatch token mid) = .ok (effects, db₁))
    (hcaller : db.callerOf env (.blockViaMatch token mid) = some a)
    (hm : db.matchRows.lookup mid = some m) (hbetween : m.Between a b)
    (halone : db.AloneIn a b mid)
    (hkept : Along step (fun db _ => (a, b) ∈ db.blocks) db₁ (before ++ followUps env' effects))
    (htalk : (runFrom step db₁ before).TalkOnlyMatched a b env'.now)
    (hafter : Along step (fun db i => db.undisturbed a b env'.now i = true)
      (runFrom step db₁ (before ++ followUps env' effects)) after) :
    (a, b) ∈ db₁.blocks ∧
      (runFrom step db₁ (before ++ followUps env' effects)).Unmatched a b ∧
      Along step (fun db i => db.Isolates a b i)
        (runFrom step db₁ (before ++ followUps env' effects)) after := by
  have hx := hdb.consistent
  have hne : a ≠ b := by
    have hpeer := hx.exchange.linked.peer hm
    rcases hbetween with ⟨rfl, rfl⟩ | ⟨rfl, rfl⟩
    · exact hpeer.symm
    · exact hpeer
  obtain ⟨hsame, hblocked, htargets⟩ := blockViaMatch_ok hcall hcaller hm hbetween hne
  have hx₁ : db₁.Consistent := step_of_ok (i := (_, .blockViaMatch _ _)) hcall ▸
    step_consistent _ _ hx
  obtain ⟨hbefore, hfollow⟩ := Along.append.mp hkept
  have hrun : (runFrom step db₁ (before ++ followUps env' effects)).Consistent ∧
      (runFrom step db₁ (before ++ followUps env' effects)).Parted a b (fun _ => False) ∧
      (runFrom step db₁ (before ++ followUps env' effects)).Silent a b env'.now := by
    by_cases hactive : m.status = .active
    · have hp₁ : db₁.Parted a b fun id => id = mid := by
        rw [hsame]
        exact halone
      obtain ⟨hx₂, hp₂⟩ := run_parted hx₁ hp₁ hbefore
      rw [if_pos hactive] at htargets
      rw [followUps, htargets] at hfollow ⊢
      simp only [runFrom, List.foldl_append] at hfollow ⊢
      exact ⟨step_consistent _ _ hx₂, step_followUp hx₂ hfollow.1 hp₂ htalk⟩
    · have hp₁ : db₁.Parted a b fun _ => False := by
        rw [hsame]
        refine ⟨halone.offers, fun id m' hm' hopen hbetween' => ?_⟩
        obtain rfl := halone.matchRows id m' hm' hopen hbetween'
        exact hactive (Option.some.inj (hm.symm.trans hm') ▸ hopen)
      obtain ⟨hx₂, hp₂⟩ := run_parted hx₁ hp₁ hbefore
      rw [if_neg hactive] at htargets
      rw [followUps, htargets, List.map_nil, List.append_nil]
      exact ⟨hx₂, hp₂, htalk.silent hp₂⟩
  obtain ⟨hx₃, hp₃, hs₃⟩ := hrun
  exact ⟨hblocked, fun mid m hm hbetween hactive => hp₃.matchRows mid m hm hactive hbetween,
    isolates_after hx₃ hp₃ hs₃ hafter⟩

/-- User 1 blocks user 2 in their only match, and both are silenced. -/
theorem blockViaMatch_isolates_oneMatch :
    ∃ effects db₁, (runFrom step Db.empty SmallEvent.oneMatch).exec (SmallEvent.clock 5)
        (.blockViaMatch (SmallEvent.token 1) 40) = .ok (effects, db₁) ∧ (1, 2) ∈ db₁.blocks ∧
      (runFrom step db₁ ([] ++ followUps (SmallEvent.clock 6) effects)).Unmatched 1 2 ∧
      Along step (fun db i => db.Isolates 1 2 i)
        (runFrom step db₁ ([] ++ followUps (SmallEvent.clock 6) effects))
        [(SmallEvent.clock 7, .sendMessage (SmallEvent.token 2) 40 ⟨true, "where_meet", "m"⟩)] := by
  obtain ⟨⟨effects, db₁⟩, hcall, hrun⟩ := exists_ok (p := fun r : List Effect × Db =>
      decide (Along step (fun db _ => (1, 2) ∈ db.blocks) r.2
        ([] ++ followUps (SmallEvent.clock 6) r.1)) &&
      decide (r.2.TalkOnlyMatched 1 2 (SmallEvent.clock 6).now) &&
      decide (Along step (fun db i => db.undisturbed 1 2 (SmallEvent.clock 6).now i = true)
        (runFrom step r.2 ([] ++ followUps (SmallEvent.clock 6) r.1))
        [(SmallEvent.clock 7, .sendMessage (SmallEvent.token 2) 40 ⟨true, "where_meet", "m"⟩)]))
    (show ((runFrom step Db.empty SmallEvent.oneMatch).exec (SmallEvent.clock 5)
      (.blockViaMatch (SmallEvent.token 1) 40)).toOption.any _ = true by decide +kernel)
  simp only [Bool.and_eq_true, decide_eq_true_eq] at hrun
  obtain ⟨m, hm, hbetween⟩ : ∃ m,
      (runFrom step Db.empty SmallEvent.oneMatch).matchRows.lookup 40 = some m ∧
        decide (m.Between 1 2) = true :=
    (Option.any_eq_true _ _).mp (by decide +kernel)
  exact ⟨effects, db₁, hcall, blockViaMatch_isolates ⟨_, rfl⟩ hcall (by decide +kernel) hm
    (of_decide_eq_true hbetween) (by decide +kernel) hrun.1.1 hrun.1.2 hrun.2⟩

/-- The users share the matches 41 and 42 and an open offer when user 1 blocks user 2
in match 41: match 42 stays active, a message in its conversation goes through, and
the offer is accepted. -/
theorem blockViaMatch_isolates_fails :
    let db := runFrom step Db.empty (SmallEvent.twoMatches ++
      [(SmallEvent.clock 10, .blockViaMatch (SmallEvent.token 1) 41),
       (SmallEvent.clock 11, .cancelMatchForModeration 41 "blocked")])
    (1, 2) ∈ db.blocks ∧ ¬db.Unmatched 1 2 ∧
      (db.exec (SmallEvent.clock 12)
        (.sendMessage (SmallEvent.token 2) 42 ⟨true, "where_meet", "m"⟩)).isOk = true ∧
      43 ∉ db.matchRows ∧ 43 ∈ (db.step (SmallEvent.clock 12 43,
        .acceptOffer (SmallEvent.token 2) 33 SmallEvent.draws)).matchRows := by
  decide +kernel

end Db
end Sahay
