import Mathlib.Data.List.Induction
import Sahay.Lib.Rewrite
import Sahay.Refinement.Accounts
import Sahay.Refinement.Writes
import Sahay.Server.Upkeep

/-!
# What upkeep leaves standing

Deleting rows by age breaks the coupling of requests, offers and matches.  What stays true is
said here: requests pass their checks, a request in status offering has been offered to
somebody, and nobody's message lies in an expired chat.
-/

namespace Sahay

namespace Db

def Offered (db : Db) (rid : RequestId) : Prop :=
  ∃ oid o, db.matchOffers.lookup oid = some o ∧ o.requestId = rid

/-- What holds of the database where `asked` holds of the requests whose offers may be gone. -/
structure Sound (asked : RequestId → Prop) (db : Db) : Prop where
  checked : ∀ rid r, db.requests.lookup rid = some r → r.check
  offering : ∀ rid r, db.requests.lookup rid = some r → r.status = .offering →
    asked rid ∨ db.Offered rid
  messages : ∀ id msg, db.messages.lookup id = some msg → msg.kind = .system ∨
    ∃ c, db.conversations.lookup msg.conversationId = some c ∧ c.status ≠ .expired

variable {asks : MatchOffer → Prop} {rewrites : Bool} {asked asked' : RequestId → Prop}
  {db db' : Db} {rid : RequestId}

/-! ## Operations -/

theorem Writes.offered (h : Writes asks rewrites db db') (ho : db.Offered rid) :
    db'.Offered rid := by
  obtain ⟨oid, o, ho, hrid⟩ := ho
  cases h with
  | answer f hid =>
    have hidentity := hid oid o
    simp only [MatchOffer.identity, Prod.mk.injEq] at hidentity
    exact ⟨oid, f oid o, by rw [Table.lookup_mapVal, ho, Option.map_some], hidentity.1.trans hrid⟩
  | ask id offer hid hasks =>
    have hne : oid ≠ id := fun heq =>
      hid (heq ▸ Table.mem_iff_exists.mpr ⟨o, ho⟩)
    exact ⟨oid, o, (AList.lookup_insert_ne hne).trans ho, hrid⟩
  | outside db' hexchange => exact ⟨oid, o, by rw [hexchange]; exact ho, hrid⟩
  | _ => exact ⟨oid, o, ho, hrid⟩

theorem Sound.weaken (h : db.Sound asked) (hasked : ∀ rid, asked rid → asked' rid) :
    db.Sound asked' where
  checked := h.checked
  offering rid r hr hoffering := (h.offering rid r hr hoffering).imp_left (hasked rid)
  messages := h.messages

theorem Writes.sound (h : Writes asks rewrites db db') (hdb : db.Sound asked) :
    db'.Sound asked := by
  have hoffering (rid : RequestId) (r : Request) (hr : db.requests.lookup rid = some r)
      (hs : r.status = .offering) : asked rid ∨ db'.Offered rid :=
    (hdb.offering rid r hr hs).imp_right h.offered
  cases h with
  | rewriteRequest id r r' hr hcheck hid hstatus =>
    exact
      { checked := Table.forall_replace hdb.checked hcheck
        offering := Table.forall_replace hoffering fun hs => hoffering id r hr (hstatus ▸ hs)
        messages := hdb.messages }
  | moveRequest id r r' source target actor reason now hr hcan hstatus hcheck hid hasked =>
    exact
      { checked := Table.forall_replace hdb.checked hcheck
        offering := Table.forall_replace hoffering fun hs => .inr (hasked (hstatus ▸ hs))
        messages := hdb.messages }
  | openRequest id r actor reason now hid hcheck hstatus =>
    exact
      { checked := Table.forall_put hdb.checked hcheck
        offering := Table.forall_put hoffering fun hs => by rw [hstatus] at hs; cases hs
        messages := hdb.messages }
  | converse id c hid hopen =>
    refine { checked := hdb.checked, offering := hoffering, messages := fun mid msg hmsg => ?_ }
    apply (hdb.messages mid msg hmsg).imp_right
    rintro ⟨chat, hchat, hstatus⟩
    have hne : msg.conversationId ≠ id := fun heq =>
      hid (heq ▸ Table.mem_iff_exists.mpr ⟨chat, hchat⟩)
    exact ⟨chat, (AList.lookup_insert_ne hne).trans hchat, hstatus⟩
  | conversation f hmatch hexpired =>
    refine { checked := hdb.checked, offering := hoffering, messages := fun mid msg hmsg => ?_ }
    apply (hdb.messages mid msg hmsg).imp_right
    rintro ⟨chat, hchat, hstatus⟩
    exact ⟨f msg.conversationId chat, by rw [Table.lookup_mapVal, hchat, Option.map_some],
      mt (hexpired _ _) hstatus⟩
  | say id message hid hopen =>
    refine { checked := hdb.checked, offering := hoffering, messages := ?_ }
    apply Table.forall_put hdb.messages
    apply hopen.imp_right
    rintro ⟨chat, hchat, hstatus⟩
    exact ⟨chat, hchat, by rw [hstatus]; decide⟩
  | outside db' hexchange hmessages =>
    have hrequests : db'.requests = db.requests := congrArg Exchange.requests hexchange
    have hconversations : db'.conversations = db.conversations :=
      congrArg Exchange.conversations hexchange
    exact
      { checked := hrequests ▸ hdb.checked
        offering := hrequests ▸ hoffering
        messages := by rw [hmessages, hconversations]; exact hdb.messages }
  | _ => exact { checked := hdb.checked, offering := hoffering, messages := hdb.messages }

theorem WriteRun.sound (h : WriteRun asks rewrites db db') (hdb : db.Sound asked) :
    db'.Sound asked :=
  h.invariant (fun _ _ hmid hstep => hstep.sound hmid) hdb

/-! ## Statements of the tasks -/

/-- A statement that only deletes offers that `asked` remembers. -/
theorem upkeepStatement_sound (env : Env) (statement : UpkeepStatement) (hdb : db.Sound asked)
    (hasked : ∀ rid, db.Offered rid → asked rid) :
    (db.upkeepStatement env statement).Sound asked := by
  have hoffering (rid : RequestId) (r : Request) (hr : db.requests.lookup rid = some r)
      (hs : r.status = .offering) : asked rid :=
    (hdb.offering rid r hr hs).elim id (hasked rid)
  have houtside {db' : Db} (hexchange : db'.toExchange = db.toExchange)
      (hmessages : db'.messages = db.messages) : db'.Sound asked :=
    Writes.sound (show Writes (fun _ => True) true db db' from
      .outside db' hexchange hmessages fun h => by cases h) hdb
  cases statement with
  | closeConversations =>
    refine { checked := hdb.checked, offering := hdb.offering, messages := fun id msg hmsg => ?_ }
    apply (hdb.messages id msg hmsg).imp_right
    rintro ⟨c, hc, hstatus⟩
    refine ⟨_, (Table.lookup_updateWhere _ _ _ _).trans (congrArg _ hc), ?_⟩
    dsimp only
    split_ifs
    · exact fun h => by cases h
    · exact hstatus
  | purgeMessages =>
    refine { checked := hdb.checked, offering := hdb.offering, messages := fun id msg hmsg => ?_ }
    obtain ⟨hmsg, hkept⟩ := Table.lookup_deleteWhere_some.mp hmsg
    apply (hdb.messages id msg hmsg).imp_right
    rintro ⟨c, hc, hstatus⟩
    rw [hc, Option.any_some] at hkept
    refine ⟨c, (Table.lookup_updateWhere _ _ _ _).trans ?_, hstatus⟩
    rw [hc, Option.map_some, hkept]
    rfl
  | scrubRequests =>
    have hrow (rid : RequestId) (r' : Request)
        (hr' : (db.upkeepStatement env .scrubRequests).requests.lookup rid = some r') :
        ∃ r, db.requests.lookup rid = some r ∧ r'.status = r.status ∧ (r.check → r'.check) := by
      obtain ⟨r, hr, rfl⟩ := Option.map_eq_some_iff.mp
        ((Table.lookup_updateWhere _ _ _ _).symm.trans hr')
      refine ⟨r, hr, ?_⟩
      split_ifs
      · exact ⟨rfl, id⟩
      · exact ⟨rfl, id⟩
    refine { checked := fun rid r' hr' => ?_, offering := fun rid r' hr' hs => ?_,
             messages := hdb.messages }
    · obtain ⟨r, hr, -, hcheck⟩ := hrow rid r' hr'
      exact hcheck (hdb.checked rid r hr)
    · obtain ⟨r, hr, hstatus, -⟩ := hrow rid r' hr'
      exact .inl (hoffering rid r hr (hstatus ▸ hs))
  | dropOffers =>
    exact
      { checked := hdb.checked
        offering := fun rid r hr hs => .inl (hoffering rid r hr hs)
        messages := hdb.messages }
  | lifecycle statement => cases statement <;> exact houtside rfl rfl
  | _ => exact houtside rfl rfl

end Db

namespace Backend

variable {lib : TextLib}

/-! ## Runs -/

theorem step_writes (lib : TextLib) (b : Backend) (i : Env × BackendAct) :
    ∃ asks rewrites, Db.WriteRun asks rewrites b.toDb (b.step lib i).toDb := by
  obtain ⟨env, act⟩ := i
  have houtside {b' : Backend} (hexchange : b'.toExchange = b.toExchange)
      (hmessages : b'.messages = b.messages) :
      ∃ asks rewrites, Db.WriteRun asks rewrites b.toDb b'.toDb :=
    ⟨fun _ => True, true, .single (.outside _ hexchange hmessages fun h => by cases h)⟩
  have hcommit {result : Outcome Backend}
      (hok : ∀ b', result = .ok b' → b'.toExchange = b.toExchange ∧ b'.messages = b.messages) :
      ∃ asks rewrites, Db.WriteRun asks rewrites b.toDb (b.commit result).toDb := by
    rcases b.commit_cases result with hresult | hsame
    · exact houtside (hok _ hresult).1 (hok _ hresult).2
    · rw [hsame]
      exact houtside rfl rfl
  cases act with
  | op op =>
    rcases Db.step_cases b.toDb (env, op) with ⟨effects, hexec⟩ | hsame
    · exact ⟨_, _, Db.exec_writes hexec⟩
    · rw [step_op, hsame]
      exact ⟨fun _ => True, true, .refl⟩
  | lifecycle statement => cases statement <;> exact houtside rfl rfl
  | createAppeal userId moderationActionId body uuid =>
    refine hcommit fun b' hcreate => ?_
    simp only [Backend.createAppeal, bind_ok, pure_ok] at hcreate
    obtain ⟨-, -, -, -, -, -, rfl⟩ := hcreate
    exact ⟨rfl, rfl⟩
  | resolveAppeal actorId appealId outcome reason =>
    refine hcommit fun b' hresolve => ?_
    simp only [Backend.resolveAppeal, bind_ok, pure_ok] at hresolve
    obtain ⟨-, -, -, -, -, -, rfl⟩ := hresolve
    exact ⟨rfl, rfl⟩
  | requestAccountDeletion userId confirmPseudonym uuid =>
    refine hcommit fun b' hrequest => ?_
    simp only [Backend.requestAccountDeletion, bind_ok, pure_ok] at hrequest
    obtain ⟨-, -, -, -, rfl⟩ := hrequest
    exact ⟨rfl, rfl⟩
  | verifyOtp email consumed draws =>
    refine hcommit fun b' hverify => ?_
    simp only [Backend.verifyOtp, bind_ok, pure_ok] at hverify
    obtain ⟨-, -, ⟨newId, mid⟩, haccount, rfl⟩ := hverify
    obtain ⟨hexchange, hmessages, -, -⟩ := accountForEmail_frame haccount
    exact ⟨hexchange, hmessages⟩
  | loginWithPassword username password draws =>
    refine hcommit fun b' hlogin => ?_
    simp only [Backend.loginWithPassword, bind_ok, pure_ok] at hlogin
    obtain ⟨-, -, -, -, -, -, -, -, rfl⟩ := hlogin
    exact ⟨rfl, rfl⟩
  | finishDataRequest | emergencyShutdown => exact houtside rfl rfl

def EverOffered (lib : TextLib) (is : List (Env × UpkeepAct)) (rid : RequestId) : Prop :=
  ∃ js, js <+: is ∧ (upkeepRun lib js).toDb.Offered rid

theorem upkeepRun_concat (is : List (Env × UpkeepAct)) (i : Env × UpkeepAct) :
    upkeepRun lib (is ++ [i]) = (upkeepRun lib is).upkeepStep lib i := by
  rw [upkeepRun, runFrom, List.foldl_append]
  rfl

theorem EverOffered.of_offered {is : List (Env × UpkeepAct)} {rid : RequestId}
    (h : (upkeepRun lib is).toDb.Offered rid) : EverOffered lib is rid :=
  ⟨is, List.prefix_refl is, h⟩

theorem EverOffered.concat {is : List (Env × UpkeepAct)} {rid : RequestId}
    (h : EverOffered lib is rid) (i : Env × UpkeepAct) : EverOffered lib (is ++ [i]) rid := by
  obtain ⟨js, hjs, hoffered⟩ := h
  exact ⟨js, hjs.trans (List.prefix_append is [i]), hoffered⟩

theorem upkeepStep_sound (lib : TextLib) {b : Backend} {asked : RequestId → Prop}
    (hb : b.toDb.Sound asked) (hasked : ∀ rid, b.toDb.Offered rid → asked rid)
    (i : Env × UpkeepAct) : (b.upkeepStep lib i).toDb.Sound asked := by
  obtain ⟨env, act⟩ := i
  cases act with
  | act act =>
    obtain ⟨asks, rewrites, hrun⟩ := step_writes lib b (env, act)
    exact hrun.sound hb
  | statement statement => exact Db.upkeepStatement_sound env statement hb hasked
  | patchEvent actorId eventId patch =>
    unfold upkeepStep
    dsimp only
    cases hpatch : b.toDb.adminPatchEvent env actorId eventId patch with
    | error e => exact hb
    | ok db =>
      simp only [Db.adminPatchEvent, bind_ok, pure_ok] at hpatch
      obtain ⟨-, -, -, -, -, -, rfl⟩ := hpatch
      exact ⟨hb.checked, hb.offering, hb.messages⟩

theorem upkeepRun_sound (lib : TextLib) (is : List (Env × UpkeepAct)) :
    (upkeepRun lib is).toDb.Sound (EverOffered lib is) := by
  induction is using List.reverseRec with
  | nil =>
    exact
      { checked := fun rid r hr => by cases hr
        offering := fun rid r hr => by cases hr
        messages := fun id msg hmsg => by cases hmsg }
  | append_singleton is i ih =>
    rw [upkeepRun_concat]
    have hnext := upkeepStep_sound lib ih (fun rid => EverOffered.of_offered) i
    exact hnext.weaken fun rid h => h.concat i

end Backend
end Sahay
