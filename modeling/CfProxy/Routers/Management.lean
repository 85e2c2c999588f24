import CfProxy.Auth.Sessions
import CfProxy.Core.Envelopes
import CfProxy.Services.Tenants

set_option autoImplicit false

namespace CfProxy.ManagementApi

open Scope Models Cache Envelopes TokenPlane TokenService AuditService OauthService
open Accounts (Account Keys Refusal)

-- What a handler or what it depends on raises; `HTTPException` is FastAPI's class.
inductive Failure
  | httpException (status : Nat) (detail : Json)
  | validationError (errors : Json)
  | unhandled (raised : PyError)

def Failure.ofRefusal : Refusal → Failure
  | .httpException status detail => .httpException status (.str detail)
  | .raised raised => .unhandled raised

inductive Reply
  | response (response : ClientResponse)
  | redirect (url : Str)

def answered (status : Nat) (message : Str) (data : Json) : Reply := .response (makeResponse status message data)

section Data

-- Python's `repr` of a text, and how a timestamp is written.
structure Rendering where
  repr : Str → Str
  moment : Datetime → Str

variable (r : Rendering)

def momentOrNull (column : Option Datetime) : Json := Json.ofOption (column.map r.moment)

-- The fields of `UpstreamCredentialResponse`.
def credentialResponseData (row : UpstreamCredential) : Json := .obj [
  ("id".toList, .str row.id),
  ("label".toList, .str row.label),
  ("cred_type".toList, .str row.credType),
  ("cf_account_email".toList, Json.ofOption row.cfAccountEmail),
  ("verify_status".toList, Json.ofOption row.verifyStatus),
  ("verified_at".toList, momentOrNull r row.verifiedAt)]

def statusText : Status → Str
  | .active => "active".toList
  | .revoked => "revoked".toList

def tokenFields (token : ScopedToken) : Json.Dict := [
  ("id".toList, .str token.id),
  ("name".toList, .str token.name),
  ("token_prefix".toList, .str token.tokenPrefix),
  ("status".toList, .str (statusText token.status)),
  ("version".toList, .num token.version),
  ("expires_at".toList, momentOrNull r token.expiresAt),
  ("revoked_at".toList, momentOrNull r token.revokedAt)]

def tokenResponseData (token : ScopedToken) : Json := .obj (tokenFields r token)

-- What `ScopeRuleResponse` has in common with a cached rule.
def ruleResponseData (rule : ScopeRule) : Json := .obj (ruleToCacheDict rule)

def detailResponseData (detail : Detail) : Json :=
  .obj (tokenFields r detail.token ++ [("rules".toList, .arr (detail.rules.map ruleResponseData))])

def createResponseData (issued : Issued) : Json := .obj [
  ("id".toList, .str issued.token.id),
  ("name".toList, .str issued.token.name),
  ("token".toList, .str issued.full),
  ("token_prefix".toList, .str issued.token.tokenPrefix),
  ("expires_at".toList, momentOrNull r issued.token.expiresAt)]

def rotateResponseData (issued : Issued) : Json := .obj [
  ("id".toList, .str issued.token.id),
  ("token".toList, .str issued.full),
  ("token_prefix".toList, .str issued.token.tokenPrefix),
  ("version".toList, .num issued.token.version)]

def auditLogResponseData (log : AuditLog) : Json := .obj [
  ("ts".toList, .str (r.moment log.ts)),
  ("scoped_token_id".toList, .str log.row.scopedTokenId),
  ("token_prefix".toList, .str log.row.tokenPrefix),
  ("method".toList, .str log.row.method),
  ("path".toList, .str log.row.path),
  ("zone_id".toList, .str log.row.zoneId),
  ("record_id".toList, Json.ofOption log.row.recordId),
  ("record_name".toList, log.row.recordName),
  ("record_type".toList, log.row.recordType),
  ("decision".toList, .str (if log.row.allow then "allow".toList else "deny".toList)),
  ("deny_reason".toList, Json.ofOption log.row.denyReason),
  ("upstream_status".toList, match log.row.upstreamStatus with
    | some status => .num status
    | none => .null),
  ("client_ip".toList, Json.ofOption log.row.clientIp)]

def logsResponseData (logs : LogPage) : Json := .obj [
  ("items".toList, .arr (logs.entries.map (auditLogResponseData r))),
  ("result_info".toList, .obj [
    ("page".toList, .num logs.page),
    ("per_page".toList, .num logs.perPage),
    ("count".toList, .num logs.count),
    ("total_count".toList, .num logs.totalCount)])]

def isRotation : Command → Bool
  | .rotate _ => true
  | _ => false

def responseData (command : Command) : Answer → Json
  | .done => .null
  | .credential row => credentialResponseData r row
  | .credentials rows => .arr (rows.map (credentialResponseData r))
  | .zones value => value
  | .records items => .arr items
  | .issued issued => if isRotation command then rotateResponseData issued else createResponseData r issued
  | .tokens rows => .arr (rows.map (tokenResponseData r))
  | .detail detail => detailResponseData r detail
  | .logs page => logsResponseData r page

def success : Command → Nat × Str
  | .register .. => (201, "Upstream credential registered".toList)
  | .verify _ => (200, "Upstream credential verified".toList)
  | .listCredentials => (200, "Upstream credentials listed".toList)
  | .deleteCredential _ => (200, "Upstream credential deleted".toList)
  | .listZones _ => (200, "Zones listed".toList)
  | .listRecords .. => (200, "DNS records listed".toList)
  | .mint .. => (201, "Scoped token minted".toList)
  | .listTokens => (200, "Scoped tokens listed".toList)
  | .detail _ => (200, "Scoped token detail".toList)
  | .rotate _ => (200, "Scoped token rotated".toList)
  | .revoke _ => (200, "Scoped token revoked".toList)
  | .listAuditLogs _ => (200, "Audit logs listed".toList)

def notFoundText : Target → Str
  | .credential credentialId => "upstream credential ".toList ++ r.repr credentialId ++ " not found".toList
  | .token tokenId => "scoped token ".toList ++ r.repr tokenId ++ " not found".toList

-- `str(exc)` of what `except ValueError` catches.
def valueErrorText : PyError → Option Str
  | .valueError text | .unicodeError text => some text
  | _ => none

def badRequest (raised : PyError) : Except PyError Reply :=
  match valueErrorText raised with
  | some text => .ok (answered 400 text .null)
  | none => .error raised

def catchesValueError : Command → Bool
  | .register .. | .mint .. => true
  | _ => false

-- The router's part of an operation: what it makes of what the service comes to.
def reply (command : Command) : Except PyError Answer → Except PyError Reply
  | .ok answer => .ok (answered (success command).1 (success command).2 (responseData r command answer))
  | .error raised =>
    match command.target with
    | some target =>
      if raised = notFound then .ok (answered 404 (notFoundText r target) .null)
      else if catchesValueError command then badRequest raised else .error raised
    | none => if catchesValueError command then badRequest raised else .error raised

-- The fields of `UserResponse`.
def userResponseData (account : Account) : Json := .obj [
  ("id".toList, .str account.id),
  ("email".toList, Json.ofOption account.email),
  ("auth_provider".toList, .str account.authProvider),
  ("is_active".toList, .bool account.isActive)]

-- The fields of `TokenResponse`.
def sessionResponseData (accessToken : Str) : Json := .obj [
  ("access_token".toList, .str accessToken),
  ("token_type".toList, .str "bearer".toList)]

end Data

structure CredentialBody where
  label : Str
  credType : Str
  apiToken : Option Str
  globalKey : Option Str
  cfAccountEmail : Option Str

structure TokenBody where
  name : Str
  upstreamCredentialId : Str
  expiresAt : Option Datetime
  scopeRules : List RuleSpec

-- What a request meets: the state, what is drawn for it, and what FastAPI makes of its header, its body and its query
-- (with the errors of the validation).
structure Portal where
  d : Deployment
  hasher : Accounts.PasswordHasher
  jwt : Accounts.SessionJwt
  rendering : Rendering
  env : Env
  drawn : Drawn
  salt : Str
  store : Store
  accounts : List Account
  credentials : Option Str
  json : Except Json Unit
  accountBody : Except Json (Str × Str)
  credentialBody : Except Json CredentialBody
  tokenBody : Except Json TokenBody
  callbackQuery : Except Json (Str × Str)
  recordType : Option Str
  recordName : Option Str
  logQuery : Except Json LogQuery

section Handlers

variable (portal : Portal)

def Portal.keys : Keys := ⟨portal.d.oauth, portal.hasher, portal.jwt, portal.d.settings.collation⟩

def Portal.currentUser : Except Failure Account :=
  (Accounts.getCurrentUser portal.keys.jwt (seconds portal.env.now) portal.credentials portal.accounts).mapError .ofRefusal

def validated {α : Type} (read : Except Json α) : Except Failure α := read.mapError .validationError

-- A body that is no JSON fails before the dependencies, and one that does not validate after them.
def Portal.parsed : Except Failure Unit := validated portal.json

def ran {σ : Type} (handler : Stateful σ Reply) (s : σ) : Except Failure Reply := (handler s).1.mapError .unhandled

def registerAccount (email pw : Str) : Stateful (List Account) Reply := do
  let existing ← .query fun accounts => Accounts.selectByEmail portal.keys.collation accounts email
  if existing.isSome then return answered 409 "Email already registered".toList .null
  else do
    let user := Accounts.localAccount portal.keys.hasher portal.env.newId portal.salt email pw
    .commit fun accounts => Accounts.insertAccount portal.keys.collation accounts user
    return answered 201 "User registered".toList (userResponseData user)

def register : Except Failure Reply := do
  portal.parsed
  let (email, pw) ← validated portal.accountBody
  ran (registerAccount portal email pw) portal.accounts

def signInAccount (email pw : Str) : Stateful (List Account) Reply := do
  let found ← .query fun accounts => Accounts.selectByEmail portal.keys.collation accounts email
  let user ← .lift (Accounts.checkLogin portal.keys.hasher found pw)
  match user with
  | none => return answered 401 "Invalid email or password".toList .null
  | some account =>
    let session := createJwt portal.keys.oauth (seconds portal.env.now) account.id
    return answered 200 "Login successful".toList (sessionResponseData (portal.keys.jwt.encode session))

def login : Except Failure Reply := do
  portal.parsed
  let (email, pw) ← validated portal.accountBody
  ran (signInAccount portal email pw) portal.accounts

def readMe : Except Failure Reply := do
  return answered 200 "Current user".toList (userResponseData (← portal.currentUser))

def cfLogin : Except Failure Reply :=
  ran (do return .redirect (← startCfOauthLogin portal.d portal.env portal.drawn)) portal.store

def callbackReply : Except PyError (User × Session) → Except PyError Reply
  | .ok (_, session) =>
    .ok (answered 200 "Cloudflare login successful".toList (sessionResponseData (portal.keys.jwt.encode session)))
  | .error raised => badRequest raised

def cfCallback : Except Failure Reply := do
  let (code, state) ← validated portal.callbackQuery
  ran ((handleCfOauthCallback portal.d portal.env code state).concluding (callbackReply portal)) portal.store

def Portal.command (user : Account) (command : Command) : Except Failure Reply :=
  ran ((manage portal.d portal.env user.id command).concluding (reply portal.rendering command)) portal.store

def createCredential : Except Failure Reply := do
  portal.parsed
  let user ← portal.currentUser
  let body ← validated portal.credentialBody
  portal.command user (.register body.label body.credType body.apiToken body.globalKey body.cfAccountEmail)

def listCredentials : Except Failure Reply := do portal.command (← portal.currentUser) .listCredentials

def deleteCredential (credentialId : Str) : Except Failure Reply := do
  portal.command (← portal.currentUser) (.deleteCredential credentialId)

def verifyCredential (credentialId : Str) : Except Failure Reply := do
  portal.command (← portal.currentUser) (.verify credentialId)

def listZones (credentialId : Str) : Except Failure Reply := do
  portal.command (← portal.currentUser) (.listZones credentialId)

def recordParams : List (Str × Json) :=
  (portal.recordType.map fun recordType => ("type".toList, Json.str recordType)).toList ++
    (portal.recordName.map fun recordName => ("name".toList, Json.str recordName)).toList

def listZoneRecords (credentialId zoneId : Str) : Except Failure Reply := do
  let params := recordParams portal
  portal.command (← portal.currentUser)
    (.listRecords credentialId zoneId (if params.isEmpty then none else some params))

def mintScopedToken : Except Failure Reply := do
  portal.parsed
  let user ← portal.currentUser
  let body ← validated portal.tokenBody
  portal.command user (.mint body.name body.upstreamCredentialId body.scopeRules body.expiresAt)

def listScopedTokens : Except Failure Reply := do portal.command (← portal.currentUser) .listTokens

def getScopedToken (tokenId : Str) : Except Failure Reply := do portal.command (← portal.currentUser) (.detail tokenId)

def rotateScopedToken (tokenId : Str) : Except Failure Reply := do
  portal.command (← portal.currentUser) (.rotate tokenId)

def revokeScopedToken (tokenId : Str) : Except Failure Reply := do
  portal.command (← portal.currentUser) (.revoke tokenId)

def getAuditLogs : Except Failure Reply := do
  let user ← portal.currentUser
  let query ← validated portal.logQuery
  portal.command user (.listAuditLogs query)

end Handlers

section Envelopes

inductive Enveloped : Reply → Prop
  | response {response : ClientResponse} (envelope : ManagementEnvelope response.content) :
      Enveloped (.response response)
  | redirect (url : Str) : Enveloped (.redirect url)

def Answers (result : Except Failure Reply) : Prop := ∀ reply, result = .ok reply → Enveloped reply

variable {portal : Portal}

theorem Answers.bind {α : Type} {first : Except Failure α} {next : α → Except Failure Reply}
    (later : ∀ value, Answers (next value)) : Answers (first >>= next) := by
  cases first with
  | error failure =>
    intro reply thrown
    cases thrown
  | ok value => exact later value

end Envelopes

section Example

-- Nobody is signed in, and no body or query validates.
def unknownPortal : Portal where
  d := plainDeployment
  hasher := Accounts.plainHasher
  jwt := Accounts.plainJwt
  rendering := ⟨id, fun _ => []⟩
  env := drawing [] TokenPlane.issued
  drawn := ⟨[], [], []⟩
  salt := []
  store := { db := .empty true }
  accounts := []
  credentials := none
  json := .error .null
  accountBody := .error .null
  credentialBody := .error .null
  tokenBody := .error .null
  callbackQuery := .error .null
  recordType := none
  recordName := none
  logQuery := .error .null

end Example

end CfProxy.ManagementApi
