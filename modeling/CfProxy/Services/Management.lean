import CfProxy.Services.AuditService
import CfProxy.Services.TokenService
import CfProxy.Shared.Machine

set_option autoImplicit false

namespace CfProxy

open Models Cache Crypto OauthCf OauthService Client TokenPlane CredentialService TokenService AuditService Machine

namespace OauthService

variable (d : Deployment) (env : Env)

def startCfOauthLogin (drawn : Drawn) : Operation Str := do
  cacheSetJson env (oauthStateKey drawn.state) drawn.stored
  return drawn.authorizeUrl d.oauth

-- GETDEL: an error leaves the entry where it is.
def consumeOauthState (state : Str) : Operation Json := do
  let stored ← cacheGetJson env (oauthStateKey state)
  .modify fun s =>
    if env.cacheReads (oauthStateKey state) then { s with cache := s.cache.del [oauthStateKey state] } else s
  return stored

def commitCallback (collation : Collation) (delivered : Delivered) (user : UserWrite) (credential : Option UpstreamCredential) :
    Operation Unit :=
  .commit fun s => do
    let users ← user.write collation s.users
    let db ← delivered.write collation s.db user.userId env.newId credential
    return { s with db, users }

def refreshUser (userId : Str) : Operation User :=
  .query fun s => match s.users.find? (·.id == userId) with
    | some user => .ok user
    | none => .error (.named "InvalidRequestError".toList)

def seconds (moment : Datetime) : Int := moment.wall / 1000000

def signIn (code : Str) (stored : Json) : Operation (User × Session) := do
  let verifier ← .lift (stored.item verifierKey)
  let tokens ← .lift (exchangeCode d.oauth env.issuer code verifier)
  let identity ← .lift (identify d.oauth (seconds env.now) env.jwks stored code tokens)
  let found ← .query fun s => selectUser d.settings.collation s.users identity.sub
  let user ← .lift (upsertUser found env.newUserId identity)
  -- The flush before the next SELECT: it raises what the commit of the user would raise.
  let _ ← .query fun s => user.write d.settings.collation s.users
  let credential ← .query fun s => selectCredential d.settings.collation s.db user.userId
  let delivered ← .lift (readDelivered d.fernet (env.drawn.1, env.drawn.2.1) env.now tokens)
  commitCallback env d.settings.collation delivered user credential
  let row ← refreshUser user.userId
  return (row, createJwt d.oauth (seconds env.now) row.id)

def handleCfOauthCallback (code state : Str) : Operation (User × Session) := do
  let stored ← consumeOauthState env state
  if stored.isNull then .raise invalidState else signIn d env code stored

end OauthService

inductive Command
  | register (label credType : Str) (apiToken globalKey cfAccountEmail : Option Str)
  | verify (credentialId : Str)
  | listCredentials
  | deleteCredential (credentialId : Str)
  | listZones (credentialId : Str)
  | listRecords (credentialId zoneId : Str) (params : Option (List (Str × Json)))
  | mint (name upstreamCredentialId : Str) (scopeRules : List RuleSpec) (expiresAt : Option Datetime)
  | listTokens
  | detail (tokenId : Str)
  | rotate (tokenId : Str)
  | revoke (tokenId : Str)
  | listAuditLogs (query : LogQuery)

inductive Answer
  | done
  | credential (row : UpstreamCredential)
  | credentials (rows : List UpstreamCredential)
  | zones (value : Json)
  | records (items : List Json)
  | issued (issued : Issued)
  | tokens (rows : List ScopedToken)
  | detail (detail : Detail)
  | logs (page : LogPage)

def manage (d : Deployment) (env : Env) (userId : Str) : Command → Operation Answer
  | .register label credType apiToken globalKey cfAccountEmail => do
    return .credential (← registerCredential d env userId label credType apiToken globalKey cfAccountEmail)
  | .verify credentialId => do return .credential (← verifyCredential d env userId credentialId)
  | .listCredentials => do return .credentials (← CredentialService.listCredentials userId)
  | .deleteCredential credentialId => do
    CredentialService.deleteCredential env userId credentialId
    return .done
  | .listZones credentialId => do return .zones (← listCredentialZones d env userId credentialId)
  | .listRecords credentialId zoneId params => do
    return .records (← listCredentialZoneRecords d env userId credentialId zoneId params)
  | .mint name upstreamCredentialId scopeRules expiresAt => do
    return .issued (← mintScopedToken d env { userId, name, upstreamCredentialId, scopeRules, expiresAt })
  | .listTokens => do return .tokens (← listScopedTokens userId)
  | .detail tokenId => do return .detail (← getScopedTokenDetail userId tokenId)
  | .rotate tokenId => do return .issued (← rotateScopedToken d env userId tokenId)
  | .revoke tokenId => do
    revokeScopedToken env userId tokenId
    return .done
  | .listAuditLogs query => do return .logs (← AuditService.listAuditLogs userId query)

inductive Material
  | token (apiToken : Str)
  | globalKey (email key : Str)

def Material.headers : Material → Headers
  | .token apiToken => [("Authorization".toList, "Bearer ".toList ++ apiToken)]
  | .globalKey email key => [("X-Auth-Email".toList, email), ("X-Auth-Key".toList, key)]

def Command.material : Command → Option Material
  | .register _ credType apiToken globalKey cfAccountEmail =>
    if credType = tokenType then apiToken.map .token
    else match cfAccountEmail, globalKey with
      | some email, some key => some (.globalKey email key)
      | _, _ => none
  | _ => none

-- What the credentials were registered with is not in the store: it is what they are compared by.
structure Site where
  store : Store
  registered : Str → Option Material := fun _ => none

-- Complete operations, one after the other; anything may happen to the cache between them.
inductive Label
  | manage (userId : Str) (command : Command) (env : Env)
  | startLogin (drawn : Drawn) (env : Env)
  | callback (code state : Str) (env : Env)
  | resolve (credentialId : Str) (env : Env)
  | audit (log : AuditLog)
  | account (row : User)
  | cache (entries : Entries)

section

variable (d : Deployment)

def resolveById (env : Env) (credentialId : Str) : Operation Headers := do
  resolveUpstreamAuth d env (← selectById credentialId)

def recordMaterial (site : Site) (command : Command) (env : Env) : Except PyError Answer → Str → Option Material
  | .ok (.credential _) =>
    match command.material with
    | some material => Function.update site.registered env.newId (some material)
    | none => site.registered
  | _ => site.registered

def step (site : Site) : Label → Option Site
  | .manage userId command env =>
    if env.Fresh d site.store then
      let (answer, store) := manage d env userId command site.store
      some ⟨store, recordMaterial site command env answer⟩
    else none
  | .startLogin drawn env => some { site with store := (startCfOauthLogin d env drawn site.store).2 }
  | .callback code state env =>
    if env.Fresh d site.store then some { site with store := (handleCfOauthCallback d env code state site.store).2 }
    else none
  | .resolve credentialId env =>
    if env.Fresh d site.store then some { site with store := (resolveById d env credentialId site.store).2 } else none
  | .audit log => some { site with store := (writeAudit log site.store).2 }
  | .account row =>
    let users := insertUser d.settings.collation site.store.users { row with cfSub := none }
    some { site with store := { site.store with users := users.toOption.getD site.store.users } }
  | .cache entries => some { site with store := { site.store with cache := entries } }

def site (foreignKeys : Bool) : System Site Label where
  init s := s = { store := { db := .empty foreignKeys } }
  step := step d

end

end CfProxy
