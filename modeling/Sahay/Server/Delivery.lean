import Sahay.Lib.Service
import Sahay.Server.Notify
import Sahay.Server.Push

/-!
# Delivery

`deliverNotification` of `workers/notify.ts`, statement by statement: the row of the feed, the
hint, and the pushes, which follow the preferences and the tokens of the user.  What the providers
are handed is kept in the order in which they are.
-/

namespace Sahay

/-! ## Texts -/

inductive Locale
  | en | hi
  deriving DecidableEq

/-- `catalogs`, by the parts of a path. -/
abbrev Catalogs := Locale → List String → Option String

/-- What a replacement stands for in `replaceAll`: `$` makes patterns of what follows it. -/
def expandReplacement (before matched after : List Char) : List Char → List Char
  | '$' :: c :: v =>
      if c = '$' then '$' :: expandReplacement before matched after v
      else if c = '&' then matched ++ expandReplacement before matched after v
      else if c.toNat = 0x60 then before ++ expandReplacement before matched after v
      else if c.toNat = 0x27 then after ++ expandReplacement before matched after v
      else '$' :: expandReplacement before matched after (c :: v)
  | c :: v => c :: expandReplacement before matched after v
  | [] => []

/-- `replaceAll` from a position on; the first `skip` characters belong to the last match. -/
def replaceAllFrom (pattern value before : List Char) : ℕ → List Char → List Char
  | _, [] => []
  | skip + 1, c :: rest => replaceAllFrom pattern value (before ++ [c]) skip rest
  | 0, c :: rest =>
      if pattern.isPrefixOf (c :: rest) then
        expandReplacement before pattern ((c :: rest).drop pattern.length) value ++
          replaceAllFrom pattern value (before ++ [c]) (pattern.length - 1) rest
      else c :: replaceAllFrom pattern value (before ++ [c]) 0 rest

def replaceParam (s : String) (param : String × String) : String :=
  let pattern := '\x7b' :: '\x7b' :: param.1.toList ++ ['\x7d', '\x7d']
  String.ofList (replaceAllFrom pattern param.2.toList [] 0 s.toList)

def t (catalogs : Catalogs) (locale : Locale) (key : String)
    (params : List (String × String) := []) : String :=
  let path := key.splitOn "."
  let s := (catalogs locale path).getD ((catalogs .en path).getD key)
  params.foldl replaceParam s

/-! ## Pushes -/

namespace Push

structure PushPayload where
  title : String
  body : String
  deepLink : Option String := none
  deriving DecidableEq

/-- How a web push ends. -/
inductive WebPushOutcome
  | unparseable
  | sent
  | error (statusCode : Option ℕ)

def WebPushOutcome.isPermanent : WebPushOutcome → Bool
  | .unparseable => true
  | .sent => false
  | .error statusCode => statusCode = some 404 || statusCode = some 410

/-- A provider, with what is going to happen when it sends. -/
inductive PushProvider
  | console
  | expo (outcomes : ℕ → BatchOutcome)
  | webpush (outcomes : ℕ → WebPushOutcome)

/-- The tokens that a provider reports as dead. -/
def PushProvider.failed (tokens : List PushToken) : PushProvider → List String
  | .console => []
  | .expo outcomes => send tokens outcomes
  | .webpush outcomes =>
      tokens.zipIdx.filterMap fun entry =>
        if entry.1.provider = "webpush" && (outcomes entry.2).isPermanent then some entry.1.token
        else none

end Push

structure NotificationPrefsRow where
  detailedPreviews : Bool := false
  perType : List (String × Bool) := []

/-- The row of a token, which its user and the token itself identify. -/
structure PushTokenRow where
  provider : String
  disabled : Bool := false
  lastUsedAt : Option Time := none

/-- What a provider has been handed, and for which job. -/
structure SentPush where
  job : NotifyJob
  tokens : List Push.PushToken
  payload : Push.PushPayload

/-- The tables behind a delivery, and what has left the server. -/
structure NoticeState where
  db : Db
  notificationPrefs : Table UserId NotificationPrefsRow := ∅
  pushTokens : Table (UserId × String) PushTokenRow := ∅
  /-- The rows of `notification.new`. -/
  published : List (UserId × ℕ × Notification) := []
  pushes : List SentPush := []

namespace Notices

open Push

def vaguePreviewTypes : List String := ["match_offer", "new_message"]

def vagueBody (type : String) : String :=
  if type = "match_offer" then "notifications.vaguePreview"
  else if type = "new_message" then "notifications.vagueMessage"
  else "notifications.vagueGeneric"

def buildPushPayload (catalogs : Catalogs) (job : NotifyJob) (detailedPreviews : Bool)
    (locale : Locale) : PushPayload :=
  let vague := job.type ∈ vaguePreviewTypes && !detailedPreviews
  let payload : PushPayload :=
    if vague then
      { title := t catalogs locale "common.appName"
        body := t catalogs locale (vagueBody job.type) }
    else
      { title := t catalogs locale job.titleKey job.params
        body := t catalogs locale job.bodyKey job.params }
  -- an empty link is none
  { payload with deepLink := job.deepLink.filter fun link => link ≠ "" }

abbrev NoticeProgram := Program NoticeState TxError

variable (catalogs : Catalogs) (env : Env)

def localeOf (db : Db) (userId : UserId) : Locale :=
  if (db.users.lookup userId).any fun user => user.locale = "hi" then .hi else .en

/-- `INSERT ... ON CONFLICT DO NOTHING RETURNING`. -/
def insertNotification (job : NotifyJob) (uuid : ℕ) (st : NoticeState) :
    Option (ℕ × Notification) × NoticeState :=
  if (st.db.findNotification job.userId job.dedupeKey).isSome then (none, st)
  else
    let id := st.db.notifications.freshKey uuid
    let row := job.toNotification env.now
    (some (id, row), { st with db := { st.db with
      notifications := st.db.notifications.put id row } })

def enabledTokens (st : NoticeState) (userId : UserId) : List Push.PushToken :=
  (st.pushTokens.select fun key row => key.1 = userId && !row.disabled).map fun e =>
    { provider := e.2.provider, token := e.1.2 }

/-- The providers one after the other, with the tokens that have failed so far. -/
def sendAll (job : NotifyJob) (tokens : List Push.PushToken) (payload : PushPayload) :
    List PushProvider → List String → NoticeProgram (List String)
  | [], failed => return failed
  | provider :: providers, failed => do
      .write fun st => { st with pushes := st.pushes ++ [⟨job, tokens, payload⟩] }
      sendAll job tokens payload providers (failed ++ provider.failed tokens)

def disableTokens (userId : UserId) (failed : List String) (st : NoticeState) : NoticeState :=
  let isFailed (key : UserId × String) (_ : PushTokenRow) : Bool := key.1 = userId && key.2 ∈ failed
  let disable (row : PushTokenRow) : PushTokenRow := { row with disabled := true }
  { st with pushTokens := st.pushTokens.updateWhere isFailed disable }

/-- The push, which the preferences and the tokens decide. -/
def push (job : NotifyJob) (locale : Locale) (providers : List PushProvider) :
    NoticeProgram Unit := do
  let prefs ← .read fun st => st.notificationPrefs.lookup job.userId
  if (prefs.bind fun row => row.perType.lookup job.type) = some false then return
  let tokens ← .read fun st => enabledTokens st job.userId
  if tokens.isEmpty then return
  let payload := buildPushPayload catalogs job (prefs.any (·.detailedPreviews)) locale
  let failed ← sendAll job tokens payload providers []
  if !failed.isEmpty then .write (disableTokens job.userId failed)

def deliverNotification (job : NotifyJob) (uuid : ℕ) (providers : List PushProvider) :
    NoticeProgram Unit := do
  let found ← .read fun st => (st.db.muted job, localeOf st.db job.userId)
  if found.1 then return
  match ← .update (insertNotification env job uuid) with
  | none => return
  | some row =>
      .write fun st => { st with published := st.published ++ [(job.userId, row)] }
      push catalogs job found.2 providers

def registerPushToken (userId : UserId) (provider token : String) : NoticeProgram Unit :=
  let row : PushTokenRow := { provider := provider, lastUsedAt := some env.now }
  let set (old : PushTokenRow) : PushTokenRow :=
    { old with provider := provider, disabled := false, lastUsedAt := some env.now }
  .write fun st => { st with pushTokens := st.pushTokens.upsert (userId, token) row set }

def getNotificationPrefs (userId : UserId) : NoticeProgram NotificationPrefsRow :=
  .read fun st => (st.notificationPrefs.lookup userId).getD {}

def putNotificationPrefs (userId : UserId) (prefs : NotificationPrefsRow) : NoticeProgram Unit :=
  .write fun st => { st with
    notificationPrefs := st.notificationPrefs.upsert userId prefs fun _ => prefs }

/-! ## The machine -/

inductive NoticeCall
  | deliver (job : NotifyJob) (uuid : ℕ) (providers : List PushProvider)
  | registerPushToken (userId : UserId) (provider token : String)
  | getNotificationPrefs (userId : UserId)
  | putNotificationPrefs (userId : UserId) (prefs : NotificationPrefsRow)

inductive NoticeReply
  | done
  | prefs (row : NotificationPrefsRow)

def serve (c : Env × NoticeCall) : NoticeProgram NoticeReply :=
  match c.2 with
  | .deliver job uuid providers => do
      deliverNotification catalogs c.1 job uuid providers
      return .done
  | .registerPushToken userId provider token => do
      registerPushToken c.1 userId provider token
      return .done
  | .getNotificationPrefs userId => return .prefs (← getNotificationPrefs userId)
  | .putNotificationPrefs userId prefs => do
      putNotificationPrefs userId prefs
      return .done

/-- What is no call of these: anything may be written to the other tables, and the deletion of an
account empties these. -/
inductive NoticeAct
  | other (db : Db)
  | forgetTokens (userId : UserId)
  | forgetPrefs (userId : UserId)

def alone (st : NoticeState) : NoticeAct → NoticeState
  | .other db => { st with db := db }
  | .forgetTokens userId => { st with
      pushTokens := st.pushTokens.deleteWhere fun key _ => key.1 = userId }
  | .forgetPrefs userId => { st with notificationPrefs := st.notificationPrefs.drop userId }

end Notices
end Sahay
