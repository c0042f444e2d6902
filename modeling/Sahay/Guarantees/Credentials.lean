import Sahay.Guarantees.Enumeration
import Sahay.Lib.UniqueIndex
import Sahay.Refinement.Site

/-!
# Who signs in with what

In every state that the site can reach, a username and an address each lead to one account, and
an account that need not choose another password has one that somebody chose.  So behind the
pre-handler a generated password opens nothing but the three exempt routes.
-/

namespace Sahay

namespace Directory

/-- Usernames and addresses lead to one account each; whoever has a username has a password, and a
deleted account has no address. -/
structure Identities (dir : Directory) : Prop where
  usernames : dir.users.Unique User.username
  addresses : dir.users.Unique User.emailHmac
  passwords : ∀ id user, dir.users.lookup id = some user → user.username.isSome →
    user.passwordHash.isSome
  deleted : ∀ id user, dir.users.lookup id = some user → user.deletedAt.isSome →
    user.emailHmac = none

/-- An account that need not choose another password has none, or one of these. -/
def PasswordsChosen (lib : AuthLib) (picks : String → Prop) (dir : Directory) : Prop :=
  ∀ id user hash, dir.users.lookup id = some user → user.mustChangePassword = false →
    user.passwordHash = some hash → ∃ password, picks password ∧ hash = lib.hashPassword password

variable {dir dir' dir'' : Directory}

theorem resolveAuth_user {now : Time} {tokenHash : String} {auth : AuthContext}
    (h : dir.resolveAuth now tokenHash = some auth) :
    ∃ user, dir.users.lookup auth.userId = some user ∧
      auth.mustChangePassword = user.mustChangePassword := by
  simp only [resolveAuth, Option.bind_eq_bind, Option.bind_eq_some_iff,
    Option.guard_eq_some', Option.pure_def, Option.some.injEq] at h
  obtain ⟨session, -, user, huser, -, -, rfl⟩ := h
  exact ⟨user, huser, rfl⟩

theorem Identities.of_users (h : Identities dir) (hdir : dir'.users = dir.users) :
    Identities dir' := by
  obtain ⟨hnames, haddresses, hpasswords, hdeleted⟩ := h
  rw [← hdir] at hnames haddresses hpasswords hdeleted
  exact ⟨hnames, haddresses, hpasswords, hdeleted⟩

/-- Rows are rewritten, and none gains an address or comes back from deletion. -/
theorem Identities.mapVal (h : Identities dir) {f : UserId → User → User}
    (hdir : dir'.users = dir.users.mapVal f)
    (hnames : (dir.users.mapVal f).Unique User.username)
    (haddress : ∀ id user, (f id user).emailHmac = none ∨
      (f id user).emailHmac = user.emailHmac ∧ (f id user).deletedAt = user.deletedAt)
    (hpassword : ∀ id user, dir.users.lookup id = some user → (f id user).username.isSome →
      (f id user).passwordHash.isSome ∨ user.username.isSome ∧
        (f id user).passwordHash = user.passwordHash) : Identities dir' where
  usernames := hdir ▸ hnames
  addresses := by
    rw [hdir]
    exact h.addresses.mapVal fun id user => (haddress id user).imp_right And.left
  passwords id user huser hsome := by
    rw [hdir, Table.lookup_mapVal, Option.map_eq_some_iff] at huser
    obtain ⟨row, hrow, rfl⟩ := huser
    rcases hpassword id row hrow hsome with hset | ⟨hhad, hkept⟩
    · exact hset
    · rw [hkept]
      exact h.passwords id row hrow hhad
  deleted id user huser hgone := by
    rw [hdir, Table.lookup_mapVal, Option.map_eq_some_iff] at huser
    obtain ⟨row, hrow, rfl⟩ := huser
    rcases haddress id row with hnone | ⟨hsame, hkept⟩
    · exact hnone
    · rw [hkept] at hgone
      rw [hsame]
      exact h.deleted id row hrow hgone

/-- A row is inserted whose username and address are in nobody else's. -/
theorem Identities.put (h : Identities dir) {id : UserId} {user : User}
    (hdir : dir'.users = dir.users.put id user)
    (hname : user.username.isSome → ∀ id' row, dir.users.lookup id' = some row →
      row.username ≠ user.username)
    (haddress : user.emailHmac.isSome → ∀ id' row, dir.users.lookup id' = some row →
      row.emailHmac ≠ user.emailHmac)
    (hpassword : user.username.isSome → user.passwordHash.isSome)
    (hlive : user.deletedAt = none) : Identities dir' where
  usernames := by
    rw [hdir]
    exact h.usernames.put hname
  addresses := by
    rw [hdir]
    exact h.addresses.put haddress
  passwords id' user' huser' hsome := by
    rw [hdir, Table.lookup_put] at huser'
    split_ifs at huser'
    · obtain rfl := Option.some.inj huser'
      exact hpassword hsome
    · exact h.passwords id' user' huser' hsome
  deleted id' user' huser' hgone := by
    rw [hdir, Table.lookup_put] at huser'
    split_ifs at huser'
    · obtain rfl := Option.some.inj huser'
      rw [hlive] at hgone
      cases hgone
    · exact h.deleted id' user' huser' hgone

end Directory

open Directory

/-! ## Writes -/

section Writes

variable {lib : AuthLib} {env : Env} {picks signs : String → Prop}
  {shares joins : UserId × EventId → Prop} {dir dir' : Directory}

theorem User.Rewrites.username {user user' : User} (h : User.Rewrites user user') :
    user'.username = user.username :=
  congrArg Prod.fst h.credentials

theorem User.Rewrites.password {user user' : User} (h : User.Rewrites user user') :
    user'.passwordHash = user.passwordHash ∧
      user'.mustChangePassword = user.mustChangePassword :=
  Prod.mk.inj (congrArg Prod.snd h.credentials)

theorem Directory.Identities.detached (h : Identities dir) {user : User} {holder : Option UserId}
    (hholder : holder =
      (dir.users.first fun _ row => row.emailHmac = user.emailHmac).map Prod.fst) :
    Identities { dir with
        users := holder.elim dir.users fun id => dir.users.modify id User.detached } ∧
      (user.emailHmac.isSome → ∀ id row,
        (holder.elim dir.users fun id => dir.users.modify id User.detached).lookup id = some row →
          row.emailHmac ≠ user.emailHmac) := by
  cases hfirst : dir.users.first fun _ row => row.emailHmac = user.emailHmac with
  | none =>
      rw [hfirst] at hholder
      subst hholder
      refine ⟨h, fun _ id row hrow => ?_⟩
      exact of_decide_eq_false (Table.first_none.mp hfirst id row hrow)
  | some found =>
      obtain ⟨held, heldRow⟩ := found
      obtain ⟨hheld, hsame⟩ := Table.first_some hfirst
      have hsame : heldRow.emailHmac = user.emailHmac := of_decide_eq_true hsame
      rw [hfirst] at hholder
      subst hholder
      constructor
      · refine h.mapVal (f := fun id user => if id = held then user.detached else user) rfl ?_
          (fun id user => ?_) fun id user _ hsome => ?_
        · refine h.usernames.mapVal fun id user => .inr ?_
          split_ifs <;> rfl
        · split_ifs
          · exact .inl rfl
          · exact .inr ⟨rfl, rfl⟩
        · split_ifs at hsome ⊢ <;> exact .inr ⟨hsome, rfl⟩
      · intro hsome id row hrow heq
        simp only [Option.map_some, Option.elim_some] at hrow
        rw [Table.lookup_modify, Option.map_eq_some_iff] at hrow
        obtain ⟨old, hold, rfl⟩ := hrow
        split_ifs at heq with hid
        · rw [← heq] at hsome
          cases hsome
        · exact hid (h.addresses id held old heldRow hold hheld (heq ▸ hsome)
            (heq.trans hsame.symm))

theorem DirectoryWrite.identities (h : DirectoryWrite env signs shares dir dir')
    (hdir : Identities dir) : Identities dir' := by
  cases h with
  | users f hf =>
      refine hdir.mapVal rfl ?_ (fun id user => (hf id user).address.symm) fun id user _ hsome => ?_
      · exact hdir.usernames.mapVal fun id user => .inr (hf id user).username
      · exact .inr ⟨(hf id user).username ▸ hsome, (hf id user).password.1⟩
  | signUp id user holder hid hholder hcredentials hlive =>
      obtain ⟨hdetached, hfree⟩ := hdir.detached hholder
      have hnone : user.username = none := congrArg Prod.fst hcredentials
      refine hdetached.put rfl (fun hsome => ?_) hfree (fun hsome => ?_) hlive
      · rw [hnone] at hsome
        cases hsome
      · rw [hnone] at hsome
        cases hsome
  | _ => exact hdir.of_users rfl

theorem DirectoryWrite.passwordsChosen (h : DirectoryWrite env signs shares dir dir')
    (hdir : PasswordsChosen lib picks dir) : PasswordsChosen lib picks dir' := by
  cases h with
  | users f hf =>
      intro id user hash huser hmust hhash
      rw [Table.lookup_mapVal, Option.map_eq_some_iff] at huser
      obtain ⟨row, hrow, rfl⟩ := huser
      obtain ⟨hpassword, hchange⟩ := (hf id row).password
      exact hdir id row hash hrow (hchange ▸ hmust) (hpassword ▸ hhash)
  | signUp id user holder hid hholder hcredentials hlive =>
      intro id' user' hash huser' hmust hhash
      rw [signedUp, Table.lookup_put] at huser'
      split_ifs at huser'
      · obtain rfl := Option.some.inj huser'
        have hnone : user.passwordHash = none := congrArg (fun c => c.2.1) hcredentials
        rw [hnone] at hhash
        cases hhash
      · cases holder with
        | none => exact hdir id' user' hash huser' hmust hhash
        | some holder =>
            simp only [Option.elim_some] at huser'
            rw [Table.lookup_modify, Option.map_eq_some_iff] at huser'
            obtain ⟨row, hrow, rfl⟩ := huser'
            split_ifs at hmust hhash <;> exact hdir id' row hash hrow hmust hhash
  | _ => exact hdir

/-- A row of `modify`, before and after. -/
theorem lookup_modify_cases {users : Table UserId User} {userId id : UserId} {f : User → User}
    {user : User} (h : (users.modify userId f).lookup id = some user) :
    ∃ row, users.lookup id = some row ∧
      (id = userId ∧ user = f row ∨ id ≠ userId ∧ user = row) := by
  rw [Table.lookup_modify, Option.map_eq_some_iff] at h
  obtain ⟨row, hrow, rfl⟩ := h
  refine ⟨row, hrow, ?_⟩
  split_ifs with hid
  · exact .inl ⟨hid, rfl⟩
  · exact .inr ⟨hid, rfl⟩

section Credentials

variable {env : AccountEnv} {users users' : Table UserId User}

theorem CredentialWrite.identities (h : CredentialWrite lib env picks dir.users users')
    (hdir : Identities dir) (hdir' : dir'.users = users') : Identities dir' := by
  cases h with
  | choose userId password _ =>
      refine hdir.mapVal (f := fun id user =>
        if id = userId then Auth.choosePassword lib env password user else user) hdir' ?_
        (fun id user => .inr ?_) fun id user _ hsome => ?_
      · refine hdir.usernames.mapVal fun id user => .inr ?_
        split_ifs <;> rfl
      · split_ifs <;> exact ⟨rfl, rfl⟩
      · split_ifs at hsome ⊢
        · exact .inl rfl
        · exact .inr ⟨hsome, rfl⟩
  | setUp userId username password hfree _ =>
      refine hdir.mapVal (f := fun id user => if id = userId then
        { Auth.choosePassword lib env password user with username := some username } else user)
        hdir' ?_ (fun id user => .inr ?_) fun id user _ hsome => ?_
      · exact hdir.usernames.modify fun _ _ id row hrow hid => hfree id row hrow hid
      · split_ifs <;> exact ⟨rfl, rfl⟩
      · split_ifs at hsome ⊢
        · exact .inl rfl
        · exact .inr ⟨hsome, rfl⟩
  | reissue userId =>
      refine hdir.mapVal hdir' ?_ (fun id user => .inr ?_) fun id user _ hsome => ?_
      · refine hdir.usernames.mapVal fun id user => .inr ?_
        split_ifs <;> rfl
      · split_ifs <;> exact ⟨rfl, rfl⟩
      · split_ifs at hsome ⊢
        · exact .inl rfl
        · exact .inr ⟨hsome, rfl⟩
  | hire id user hid huser hname haddress =>
      exact hdir.put hdir' (fun _ => hname) (fun _ => haddress) (fun _ => huser.password) huser.live

theorem CredentialWrite.passwordsChosen {picks' : String → Prop}
    (h : CredentialWrite lib env picks' dir.users users') (hpicks : ∀ p, picks' p → picks p)
    (hdir : PasswordsChosen lib picks dir) (hdir' : dir'.users = users') :
    PasswordsChosen lib picks dir' := by
  intro id user hash huser hmust hhash
  rw [hdir'] at huser
  cases h with
  | choose userId password hpick =>
      obtain ⟨row, hrow, ⟨-, rfl⟩ | ⟨-, rfl⟩⟩ := lookup_modify_cases huser
      · exact ⟨password, hpicks password hpick, (Option.some.inj hhash).symm⟩
      · exact hdir id user hash hrow hmust hhash
  | setUp userId username password _ hpick =>
      obtain ⟨row, hrow, ⟨-, rfl⟩ | ⟨-, rfl⟩⟩ := lookup_modify_cases huser
      · exact ⟨password, hpicks password hpick, (Option.some.inj hhash).symm⟩
      · exact hdir id user hash hrow hmust hhash
  | reissue userId =>
      rw [Table.lookup_updateWhere, Option.map_eq_some_iff] at huser
      obtain ⟨row, hrow, rfl⟩ := huser
      split_ifs at hmust hhash
      exact hdir id row hash hrow hmust hhash
  | hire id' hired _ hhired _ _ =>
      rw [Table.lookup_put] at huser
      split_ifs at huser
      · obtain rfl := Option.some.inj huser
        rw [hhired.mustChange] at hmust
        cases hmust
      · exact hdir id user hash huser hmust hhash

theorem SiteWrite.identities (h : SiteWrite lib env picks signs shares joins dir dir')
    (hdir : Identities dir) : Identities dir' := by
  cases h with
  | write _ hwrite => exact hwrite.identities hdir
  | credentials t hwrite => exact hwrite.identities hdir rfl
  | memberships | found => exact hdir.of_users rfl

theorem SiteWrite.passwordsChosen {picks' : String → Prop}
    (h : SiteWrite lib env picks' signs shares joins dir dir') (hpicks : ∀ p, picks' p → picks p)
    (hdir : PasswordsChosen lib picks dir) : PasswordsChosen lib picks dir' := by
  cases h with
  | write _ hwrite => exact hwrite.passwordsChosen hdir
  | credentials t hwrite => exact hwrite.passwordsChosen hpicks hdir rfl
  | memberships | found => exact hdir

end Credentials
end Writes

/-! ## Runs -/

namespace Site

variable {κ : Type} [DecidableEq κ] {cfg : AuthConfig} {lib : AuthLib} {st : SiteState}
  {is : List (SiteAct κ)}

def Chosen (is : List (SiteAct κ)) (password : String) : Prop :=
  ∃ k c, .call k c ∈ is ∧ c.2.chooses password

theorem identities_run (his : KeepsDirectory is) (hst : Identities st.db.toDirectory) :
    Identities (dir (runFrom (step cfg lib) (opened st) is)) :=
  run_invariant (fun _ => True) (fun _ => True)
    (fun _ _ _ _ hdir hwrite => hwrite.identities hdir)
    (fun _ _ _ _ _ _ hdir hwrite => hwrite.identities hdir) (served_opened st)
    (underWay_opened _ st) hst his

/-- A username and an address lead to one account, whatever order the rows are in, and no deleted
account is led to by its address. -/
theorem names_lead_to_one_account (his : KeepsDirectory is)
    (hst : Identities st.db.toDirectory) :
    let s := runFrom (step cfg lib) (opened st) is
    (∀ username userId user,
      Auth.findByUsername username s.state.backend = some (userId, user) ↔
        (dir s).users.lookup userId = some user ∧ user.username = some username) ∧
      (∀ emailHmac userId user,
        Auth.findByEmail emailHmac s.state.backend = some (userId, user) ↔
          (dir s).users.lookup userId = some user ∧ user.emailHmac = some emailHmac) ∧
      ∀ emailHmac userId user,
        Auth.findByEmail emailHmac s.state.backend = some (userId, user) →
          user.deletedAt = none := by
  have hids : Identities (dir (runFrom (step cfg lib) (opened st) is)) := identities_run his hst
  refine ⟨fun username userId user => hids.usernames.first_eq_some_iff,
    fun emailHmac userId user => hids.addresses.first_eq_some_iff, ?_⟩
  intro emailHmac userId user hfound
  obtain ⟨huser, haddress⟩ := hids.addresses.first_eq_some_iff.mp hfound
  by_contra hgone
  rw [hids.deleted userId user huser (Option.isSome_iff_ne_none.mpr hgone)] at haddress
  cases haddress

theorem passwordsChosen_run (his : KeepsDirectory is)
    (hst : PasswordsChosen lib (Chosen is) st.db.toDirectory) :
    PasswordsChosen lib (Chosen is) (dir (runFrom (step cfg lib) (opened st) is)) := by
  refine run_invariant (fun c => ∀ password, c.2.chooses password → Chosen is password)
    (fun _ => True) (fun c hc _ _ hdir hwrite => hwrite.passwordsChosen hc hdir)
    (fun _ _ _ _ _ _ hdir hwrite => hwrite.passwordsChosen hdir) (served_opened st)
    (underWay_opened _ st) hst fun act hact => ?_
  cases act with
  | call k c => exact fun password hpicks => ⟨k, c, hact, hpicks⟩
  | turn k => trivial
  | alone i => exact his _ hact

theorem asUser_refused {α : Type} {env : AccountEnv} {route tokenHash : String} {e : TxError}
    {handler : AuthContext → SiteProgram α}
    (h : st.db.authenticateAt route env.now tokenHash = .error e) :
    (asUser env route tokenHash handler).exec st = (.error e, st) := by
  have hselect (k : Outcome AuthContext → SiteProgram α) :
      (select (fun st => st.db.authenticateAt route env.now tokenHash) >>= k).exec st =
        (k (st.db.authenticateAt route env.now tokenHash)).exec st := rfl
  unfold asUser
  rw [hselect, h]
  rfl

/-- While the password of an account is not one that a call has chosen, its sessions are refused
behind the pre-handler of every route but the exempt ones, and their calls leave everything as it
is.  Routes that look at a session without the pre-handler are not meant. -/
theorem generated_password_refused (his : KeepsDirectory is)
    (hst : ∀ id user, st.db.users.lookup id = some user → user.passwordHash.isSome →
      user.mustChangePassword = true)
    {userId : UserId} {user : User} {hash : String}
    (huser : (dir (runFrom (step cfg lib) (opened st) is)).users.lookup userId = some user)
    (hhash : user.passwordHash = some hash)
    (hgenerated : ∀ password, Chosen is password → lib.hashPassword password ≠ hash)
    {now : Time} {tokenHash : String} {auth : AuthContext}
    (hauth : (dir (runFrom (step cfg lib) (opened st) is)).resolveAuth now tokenHash = some auth)
    (howner : auth.userId = userId) {route : String} (hroute : route ∉ passwordChangeExempt) :
    let s := runFrom (step cfg lib) (opened st) is
    let refused : TxError := if auth.status = .suspended then errors.accountRestricted
      else errors.passwordChangeRequired
    (dir s).authenticateAt route now tokenHash = .error refused ∧
      ∀ (env : AccountEnv) (call : MemberCall), env.now = now → call.route = route →
        (serve cfg lib (env, .member tokenHash call)).exec s.state = (.error refused, s.state) := by
  intro s refused
  suffices hrefused : (dir s).authenticateAt route now tokenHash = .error refused by
    refine ⟨hrefused, ?_⟩
    rintro env call rfl rfl
    exact asUser_refused hrefused
  have hchosen : PasswordsChosen lib (Chosen is)
      (dir (runFrom (step cfg lib) (opened st) is)) := by
    refine passwordsChosen_run his fun id user hash huser hmust hhash => ?_
    rw [hst id user huser (by rw [hhash]; rfl)] at hmust
    cases hmust
  obtain ⟨user', huser', hmust⟩ := resolveAuth_user hauth
  obtain rfl : user' = user := Option.some.inj (huser'.symm.trans (howner ▸ huser))
  have hmust : auth.mustChangePassword = true := by
    rw [hmust, ← Bool.not_eq_false]
    intro hfree
    obtain ⟨password, hpicked, hsame⟩ := hchosen userId user' hash huser hfree hhash
    exact hgenerated password hpicked hsame.symm
  rw [authenticateAt, hauth, found_some, bind_ok_left]
  simp only [refused]
  split_ifs with hstatus
  · rw [ensure_neg (not_not.mpr hstatus)]
    rfl
  · rw [ensure_pos hstatus, bind_ok_left, ensure_neg]
    · rfl
    · exact fun h => hroute (h hmust)

end Site

/-! ## Non-vacuity -/

namespace SmallSite

/-- The first administrator is created with a generated password and signs in with it. -/
def firstSignIn : List (SiteAct Unit) :=
  .call () ({ env 5 with generated := "drawn" },
    .account (.bootstrapAdmin "asha" "asha@example.com" none .admin)) :: .turn () ::
  .call () (env 6, .account (.signIn (.loginWithPassword "asha" "drawn" "ip"))) ::
    List.replicate 6 (.turn ())

end SmallSite

namespace Site

theorem firstSignIn_keepsDirectory : KeepsDirectory SmallSite.firstSignIn := by
  intro act hact
  simp only [SmallSite.firstSignIn, List.mem_cons, List.mem_replicate] at hact
  rcases hact with rfl | rfl | rfl | ⟨-, rfl⟩ <;> trivial

theorem names_lead_to_one_account_firstSignIn :
    let s := runFrom (step {} Auth.plainLib) (opened SmallSite.empty) SmallSite.firstSignIn
    (∀ username userId user,
      Auth.findByUsername username s.state.backend = some (userId, user) ↔
        (dir s).users.lookup userId = some user ∧ user.username = some username) ∧
      (∀ emailHmac userId user,
        Auth.findByEmail emailHmac s.state.backend = some (userId, user) ↔
          (dir s).users.lookup userId = some user ∧ user.emailHmac = some emailHmac) ∧
      ∀ emailHmac userId user,
        Auth.findByEmail emailHmac s.state.backend = some (userId, user) →
          user.deletedAt = none := by
  refine names_lead_to_one_account firstSignIn_keepsDirectory ⟨?_, ?_, ?_, ?_⟩
  · exact fun _ _ _ _ huser => by cases huser
  · exact fun _ _ _ _ huser => by cases huser
  · exact fun _ _ huser => by cases huser
  · exact fun _ _ huser => by cases huser

theorem generated_password_refused_firstSignIn :
    (dir (runFrom (step {} Auth.plainLib) (opened SmallSite.empty)
      SmallSite.firstSignIn)).authenticateAt "/api/v1/events/:id/join" 7 "new" =
        .error errors.passwordChangeRequired := by
  have hgenerated : ∀ password, Chosen SmallSite.firstSignIn password →
      Auth.plainLib.hashPassword password ≠ "drawn" := by
    rintro password ⟨k, c, hc, hpicks⟩
    simp only [SmallSite.firstSignIn, List.mem_cons, List.mem_replicate, ServiceAct.call.injEq,
      reduceCtorEq, false_or, and_false, or_false] at hc
    rcases hc with ⟨-, rfl⟩ | ⟨-, rfl⟩ <;> cases hpicks
  have hnone : ∀ id user, SmallSite.empty.db.users.lookup id = some user →
      user.passwordHash.isSome → user.mustChangePassword = true := by
    intro id user huser
    cases huser
  have hhash : ((dir (runFrom (step {} Auth.plainLib) (opened SmallSite.empty)
      SmallSite.firstSignIn)).users.lookup 0).map User.passwordHash = some (some "drawn") := rfl
  obtain ⟨user, huser, hhash⟩ := Option.map_eq_some_iff.mp hhash
  have hauth : (dir (runFrom (step {} Auth.plainLib) (opened SmallSite.empty)
      SmallSite.firstSignIn)).resolveAuth 7 "new" =
        some ⟨0, 0, .admin, .active, true, true, true⟩ := rfl
  exact (generated_password_refused firstSignIn_keepsDirectory hnone huser hhash hgenerated hauth
    rfl (by decide)).1

end Site
end Sahay
