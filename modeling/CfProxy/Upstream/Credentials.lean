import CfProxy.Services.Store
import CfProxy.Services.OauthService

set_option autoImplicit false

namespace CfProxy.Client

open Models Cache Crypto OauthCf OauthService

def tokenType : Str := "token".toList
def globalKeyType : Str := "global_key".toList

def authEmailHeader : Str := "X-Auth-Email".toList
def authKeyHeader : Str := "X-Auth-Key".toList
def bearerHeaders (token : Str) : Headers := [("Authorization".toList, "Bearer ".toList ++ token)]

-- `value.encode()`, which only text has.
def encoded : Json → Except PyError Str
  | .str text => .ok text
  | _ => .error .attributeError

def noResultFound : PyError := .named "NoResultFound".toList

-- `scalar_one()` of the row with an id.
def selectById (credentialId : Str) : Operation UpstreamCredential :=
  .query fun s => match s.db.credential credentialId with
    | some row => .ok row
    | none => .error noResultFound

structure Renewal where
  accessToken : Str
  refreshToken : Str
  expiresIn : Json
  tokenExpiresAt : Option Datetime

section

variable (d : Deployment) (env : Env)

def decryptColumn (column : Option Str) : Except PyError Str :=
  match column with
  | some ciphertext => d.fernet.decryptSecret ciphertext
  | none => .error .attributeError

def unexpired (tokenExpiresAt : Option Datetime) : Except PyError Bool :=
  match tokenExpiresAt with
  | none => .ok false
  | some expiresAt => env.now.before (expiresAt.addSeconds (-d.oauth.accessTokenSkew))

def renew (locked : UpstreamCredential) : Except PyError Renewal := do
  let refreshToken ← decryptColumn d locked.refreshTokenEnc
  let tokenData ← refreshAccessToken d.oauth env.issuer refreshToken
  let newAccessToken ← tokenData.item accessTokenKey
  let newRefreshToken ← tokenData.getAttr refreshTokenKey
  let expiresIn ← tokenData.getAttr expiresInKey
  let tokenExpiresAt ← tokenExpiry env.now expiresIn
  return {
    accessToken := ← encoded newAccessToken
    refreshToken := ← if newRefreshToken.truthy then encoded newRefreshToken else pure refreshToken
    expiresIn
    tokenExpiresAt }

def renewedRow (locked : UpstreamCredential) (renewal : Renewal) (row : UpstreamCredential) : UpstreamCredential :=
  { row with
    accessTokenEnc := some (d.fernet.encryptSecret env.drawn.1 renewal.accessToken)
    refreshTokenEnc := some (d.fernet.encryptSecret env.drawn.2.1 renewal.refreshToken)
    tokenExpiresAt := renewal.tokenExpiresAt
    credVersion := locked.credVersion + 1 }

def storeRenewal (locked : UpstreamCredential) (renewal : Renewal) : Operation Unit :=
  commitDb fun db => .ok { db with
    credentials := db.credentials.map fun row =>
      if row.id = locked.id ∧ row.credVersion = locked.credVersion then renewedRow d env locked renewal row else row }

def cacheRenewal (locked : UpstreamCredential) (renewal : Renewal) : Operation Unit :=
  if renewal.expiresIn.isNull then pure ()
  else cacheSetJson env (oauthAtKey locked.id) (.str (d.fernet.encryptSecret env.drawn.2.2 renewal.accessToken))

def refreshUnderLock (locked : UpstreamCredential) : Operation Str := do
  let renewal ← .lift (renew d env locked)
  storeRenewal d env locked renewal
  cacheRenewal d env locked renewal
  return renewal.accessToken

def getValidAccessToken (credential : UpstreamCredential) : Operation Str := do
  if credential.credType ≠ oauthType then .lift (decryptColumn d credential.secretEnc)
  else do
    let cachedEnc ← cacheGetJson env (oauthAtKey credential.id)
    if cachedEnc.truthy then .lift (encoded cachedEnc >>= d.fernet.decryptSecret)
    else do
      let locked ← selectById credential.id
      if ← .lift (unexpired d env locked.tokenExpiresAt) then .lift (decryptColumn d locked.accessTokenEnc)
      else refreshUnderLock d env locked

def readPair (column : Option Str) : Except PyError Headers := do
  let data ← d.pairJson.loads (← decryptColumn d column)
  let email ← data.item "email".toList
  let key ← data.item "key".toList
  return [(authEmailHeader, ← encoded email), (authKeyHeader, ← encoded key)]

def resolveUpstreamAuth (credential : UpstreamCredential) : Operation Headers :=
  if credential.credType = globalKeyType then .lift (readPair d credential.secretEnc)
  else do return bearerHeaders (← getValidAccessToken d env credential)

def verifyPath : Str := "/client/v4/user/tokens/verify".toList

def verifyUpstream (w : World) (authHeaders : Headers) : Traced Event Json := do
  let response ← forwardRequest w getMethod verifyPath none none none authHeaders
  Traced.lift response.json

end

end CfProxy.Client
