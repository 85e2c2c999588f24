import CfProxy.Auth.OauthCf
import CfProxy.Core.Crypto
import CfProxy.Db.Models

set_option autoImplicit false

namespace CfProxy.OauthService

open Text Models Crypto OauthCf

def oauthCredentialLabel : Str := "cloudflare-oauth".toList
def oauthType : Str := "oauth".toList

def verifierKey : Str := "verifier".toList
def nonceKey : Str := "nonce".toList
def idTokenKey : Str := "id_token".toList
def accessTokenKey : Str := "access_token".toList
def refreshTokenKey : Str := "refresh_token".toList
def expiresInKey : Str := "expires_in".toList
def subKey : Str := "sub".toList

structure Drawn where
  verifier : Str
  state : Str
  nonce : Str
  deriving DecidableEq

-- What is read back of the entry that a start leaves in Redis.
def Drawn.stored (drawn : Drawn) : Json := .obj [(verifierKey, .str drawn.verifier), (nonceKey, .str drawn.nonce)]

theorem Drawn.stored_verifier (drawn : Drawn) : drawn.stored.item verifierKey = .ok (.str drawn.verifier) := rfl

theorem Drawn.stored_nonce (drawn : Drawn) : drawn.stored.item nonceKey = .ok (.str drawn.nonce) := by
  have other : (nonceKey == verifierKey) = false := by decide
  simp [Drawn.stored, Json.item, List.lookup_cons, other]

def Drawn.authorizeUrl (oauth : Oauth) (drawn : Drawn) : Str :=
  buildAuthorizeUrl oauth drawn.state drawn.nonce (challenge oauth drawn.verifier)

structure Identity where
  idToken : Json
  claims : Json.Dict
  sub : Str
  email : Json

def invalidState : PyError := .valueError "invalid or expired oauth state".toList

def readIdToken (tokens : Json) : Except PyError Json := do
  let idToken ← tokens.getAttr idTokenKey
  unless idToken.truthy do throw (.valueError "token response is missing id_token".toList)
  return idToken

def identify (oauth : Oauth) (now : Int) (jwks : Jwks) (stored : Json) (code : Str) (tokens : Json) :
    Except PyError Identity := do
  let idToken ← readIdToken tokens
  let claims ← validateIdToken oauth now jwks idToken (← stored.item nonceKey) (← tokens.getAttr accessTokenKey)
    (.str code)
  match claims.lookup subKey with
  | some (.str sub) => return ⟨idToken, claims, sub, Json.get claims "email".toList⟩
  | some _ => throw .typeError
  | none => throw .keyError

def columnText : Json → Except PyError (Option Str)
  | .null => .ok none
  | .str text => .ok (some text)
  | _ => .error (.named "StatementError".toList)

def selectUser (collation : Collation) (users : List User) (cfSub : Str) : Except PyError (Option User) :=
  scalarOneOrNone (users.filter fun row => collation.holds row.cfSub cfSub)

inductive UserWrite
  | insert (row : User)
  | keep (userId : Str) (email : Option Str)

def UserWrite.userId : UserWrite → Str
  | .insert row => row.id
  | .keep userId _ => userId

def upsertUser (found : Option User) (newId : Str) (identity : Identity) : Except PyError UserWrite :=
  match found with
  | none => do
    return .insert {
      id := newId
      email := ← columnText identity.email
      authProvider := "cloudflare_oauth".toList
      cfSub := some identity.sub }
  | some user =>
    if identity.email.truthy then .keep user.id <$> columnText identity.email else .ok (.keep user.id none)

def UserWrite.write (collation : Collation) (users : List User) : UserWrite → Except PyError (List User)
  | .insert row => insertUser collation users row
  | .keep userId (some email) => setEmail collation users userId email
  | .keep _ none => .ok users

def selectCredential (collation : Collation) (db : Database) (userId : Str) :
    Except PyError (Option UpstreamCredential) :=
  scalarOneOrNone (db.credentials.filter fun row =>
    row.userId == userId && collation.same row.label oauthCredentialLabel)

-- `encrypt_secret(token)` behind `if token:`; no value is nothing to write.
def encryptDelivered (fernet : Fernet) (drawn : Str) (token : Json) : Except PyError (Option Str) :=
  if token.truthy then
    match token with
    | .str text => .ok (some (fernet.encryptSecret drawn text))
    | _ => .error .attributeError
  else .ok none

def tokenExpiry (now : Datetime) (expiresIn : Json) : Except PyError (Option Datetime) :=
  if expiresIn.isNull then .ok none else do return some (now.addSeconds (← expiresIn.number))

structure Delivered where
  accessTokenEnc : Option Str
  refreshTokenEnc : Option Str
  tokenExpiresAt : Option Datetime
  scope : Json

def readDelivered (fernet : Fernet) (drawn : Str × Str) (now : Datetime) (tokens : Json) : Except PyError Delivered := do
  let accessToken ← tokens.getAttr accessTokenKey
  let refreshToken ← tokens.getAttr refreshTokenKey
  let tokenExpiresAt ← tokenExpiry now (← tokens.getAttr expiresInKey)
  return {
    accessTokenEnc := ← encryptDelivered fernet drawn.1 accessToken
    refreshTokenEnc := ← encryptDelivered fernet drawn.2 refreshToken
    tokenExpiresAt
    scope := ← tokens.getAttr "scope".toList }

def Delivered.inserted (delivered : Delivered) (userId newId : Str) (scopes : Option Str) : UpstreamCredential where
  id := newId
  userId
  label := oauthCredentialLabel
  credType := oauthType
  accessTokenEnc := delivered.accessTokenEnc
  refreshTokenEnc := delivered.refreshTokenEnc
  tokenExpiresAt := delivered.tokenExpiresAt
  oauthScopes := scopes

-- A column is written only where its value differs from the one that was loaded.
def written {α : Type} [DecidableEq α] (loaded value current : α) : α := if value = loaded then current else value

def Delivered.updated (delivered : Delivered) (scopes : Option Str) (loaded row : UpstreamCredential) :
    UpstreamCredential :=
  { row with
    accessTokenEnc := delivered.accessTokenEnc.or row.accessTokenEnc
    refreshTokenEnc := delivered.refreshTokenEnc.or row.refreshTokenEnc
    tokenExpiresAt := written loaded.tokenExpiresAt delivered.tokenExpiresAt row.tokenExpiresAt
    oauthScopes := written loaded.oauthScopes scopes row.oauthScopes
    credVersion := loaded.credVersion + 1 }

def Delivered.write (collation : Collation) (delivered : Delivered) (db : Database) (userId newId : Str)
    (found : Option UpstreamCredential) : Except PyError Database :=
  match found with
  | none => do db.insertCredential collation (delivered.inserted userId newId (← columnText delivered.scope))
  | some loaded => do
    let scopes ← if delivered.scope.truthy then columnText delivered.scope else pure loaded.oauthScopes
    db.updateCredential loaded.id (delivered.updated scopes loaded)

-- The payload of `create_jwt`; the signature on it is not modelled.
structure Session where
  sub : Str
  iat : Int
  exp : Int

def createJwt (oauth : Oauth) (now : Int) (sub : Str) : Session := ⟨sub, now, now + oauth.jwtTtlSeconds⟩

variable {collation : Collation}

theorem UserWrite.distinct {users after : List User} {write : UserWrite} (distinct : DistinctUsers collation users)
    (wrote : write.write collation users = .ok after) : DistinctUsers collation after := by
  match write with
  | .insert row => exact distinct.insert wrote
  | .keep userId (some email) => exact distinct.setEmail wrote
  | .keep userId none =>
    cases wrote
    exact distinct

theorem UserWrite.keepsSubs {users after : List User} {write : UserWrite}
    (wrote : write.write collation users = .ok after) : KeepsSubs users after := by
  match write with
  | .insert row => exact insertUser_keepsSubs wrote
  | .keep userId (some email) => exact setEmail_keepsSubs wrote
  | .keep userId none =>
    cases wrote
    exact .refl users

section Identified

variable {oauth : Oauth} {now : Int} {jwks : Jwks} {stored tokens : Json} {code : Str} {identity : Identity}

theorem identify_validates (identified : identify oauth now jwks stored code tokens = .ok identity) :
    ∃ nonce accessToken, stored.item nonceKey = .ok nonce ∧ tokens.getAttr idTokenKey = .ok identity.idToken ∧
      tokens.getAttr accessTokenKey = .ok accessToken ∧
      validateIdToken oauth now jwks identity.idToken nonce accessToken (.str code) = .ok identity.claims ∧
      identity.claims.lookup subKey = some (.str identity.sub) := by
  unfold identify at identified
  obtain ⟨idToken, read, identified⟩ := Except.bind_eq_ok.mp identified
  obtain ⟨nonce, nonceFound, identified⟩ := Except.bind_eq_ok.mp identified
  obtain ⟨accessToken, accessFound, identified⟩ := Except.bind_eq_ok.mp identified
  obtain ⟨claims, validated, identified⟩ := Except.bind_eq_ok.mp identified
  have present : tokens.getAttr idTokenKey = .ok idToken := by
    obtain ⟨found, got, read⟩ := Except.bind_eq_ok.mp read
    cases truthy : found.truthy <;> simp_all
  split at identified
  · rename_i sub found
    cases identified
    exact ⟨nonce, accessToken, nonceFound, present, accessFound, validated, found⟩
  · simp at identified
  · simp at identified

end Identified

end CfProxy.OauthService
