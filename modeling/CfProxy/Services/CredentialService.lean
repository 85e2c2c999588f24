import CfProxy.Upstream.Credentials

set_option autoImplicit false

namespace CfProxy.CredentialService

open Models Cache Crypto Client TokenPlane OauthService

def getOwnedCredential (userId credentialId : Str) : Operation UpstreamCredential :=
  .query fun s => match s.db.ownedCredential userId credentialId with
    | some row => .ok row
    | none => .error notFound

section

variable (d : Deployment) (env : Env)

def secretPlain (credType : Str) (apiToken globalKey cfAccountEmail : Option Str) : Except PyError Str := do
  unless credType = tokenType ∨ credType = globalKeyType do
    throw (.valueError ("unsupported cred_type: ".toList ++ d.settings.unicode.repr credType))
  if credType = tokenType then
    match apiToken.getD [] with
    | [] => throw (.valueError "api_token is required for cred_type='token'".toList)
    | apiToken => return apiToken
  else
    match globalKey.getD [], cfAccountEmail.getD [] with
    | [], _ | _, [] =>
      throw (.valueError "global_key and cf_account_email are required for cred_type='global_key'".toList)
    | globalKey, cfAccountEmail => return d.pairJson.dumps cfAccountEmail globalKey

def registeredRow (userId label credType : Str) (cfAccountEmail : Option Str) (secret : Str) : UpstreamCredential where
  id := env.newId
  userId
  label
  credType
  secretEnc := some (d.fernet.encryptSecret env.drawn.1 secret)
  cfAccountEmail

def registerCredential (userId label credType : Str) (apiToken globalKey cfAccountEmail : Option Str) :
    Operation UpstreamCredential := do
  let secret ← .lift (secretPlain d credType apiToken globalKey cfAccountEmail)
  commitDb fun db =>
    db.insertCredential d.settings.collation (registeredRow d env userId label credType cfAccountEmail secret)
  return registeredRow d env userId label credType cfAccountEmail secret

def readVerification (envelope : Json) : Except PyError (Str × Option Str) := do
  let success ← envelope.getAttr "success".toList
  let email := match ← envelope.getAttr resultKey with
    | .obj fields => Json.get fields "email".toList
    | _ => .null
  let status := if success.truthy then "active".toList else "invalid".toList
  return (status, ← if email.truthy then columnText email else pure none)

def verifiedRow (status : Str) (email : Option Str) (row : UpstreamCredential) : UpstreamCredential :=
  { row with
    verifyStatus := some status
    verifiedAt := some env.now
    cfAccountEmail := email.or row.cfAccountEmail }

def verifyCredential (userId credentialId : Str) : Operation UpstreamCredential := do
  let credential ← getOwnedCredential userId credentialId
  let authHeaders ← resolveUpstreamAuth d env credential
  let envelope ← .lift (verifyUpstream (env.world d) authHeaders).result
  let (status, email) ← .lift (readVerification envelope)
  commitDb fun db => db.updateCredential credential.id (verifiedRow env status email)
  selectById credential.id

def listCredentials (userId : Str) : Operation (List UpstreamCredential) :=
  .reads fun s => s.db.credentials.filter (·.userId == userId)

def deleteCredential (userId credentialId : Str) : Operation Unit := do
  let _ ← getOwnedCredential userId credentialId
  let tokens ← .reads fun s => s.db.activeTokens credentialId
  .forEach (cascadeKeys credentialId tokens) (cacheDel env)
  commitDb fun db => cascadeDelete db credentialId tokens env.now

def credentialZoneParams (page : Nat) : List (Str × Json) :=
  [("page".toList, .num page), ("per_page".toList, .num 50)]

def credentialZonePages (w : World) (authHeaders : Headers) : Nat → Nat → List Json → Traced Event (List Json)
  | 0, _, _ => Traced.raise stillRunning
  | fuel + 1, page, zones => do
    let response ← forwardRequest w getMethod "/client/v4/zones".toList none (some (credentialZoneParams page)) none
      authHeaders
    Traced.lift (raiseForStatus response)
    let body ← Traced.lift response.json
    let (items, isLast) ← Traced.lift (readPage body page)
    if isLast then return zones ++ items
    credentialZonePages w authHeaders fuel (page + 1) (zones ++ items)

def listCredentialZones (userId credentialId : Str) : Operation Json := do
  let credential ← getOwnedCredential userId credentialId
  let cached ← cacheGetJson env (zonesKey credential.id)
  if cached.isNull then
    let authHeaders ← resolveUpstreamAuth d env credential
    let zones ← .lift (credentialZonePages (env.world d) authHeaders env.fuel 1 []).result
    cacheSetJson env (zonesKey credential.id) (.arr zones)
    return .arr zones
  else return cached

def listCredentialZoneRecords (userId credentialId zoneId : Str) (params : Option (List (Str × Json))) :
    Operation (List Json) := do
  let credential ← getOwnedCredential userId credentialId
  let authHeaders ← resolveUpstreamAuth d env credential
  .lift (listAllRecords (env.world d) zoneId params authHeaders env.fuel).result

end

end CfProxy.CredentialService
