import CfProxy.Upstream.Client

set_option autoImplicit false

namespace CfProxy.OauthCf

open Text Client

def rs256 : Str := "RS256".toList
def allowedAlgs : List Str := [rs256]

def invalidToken : PyError := .named "InvalidTokenError".toList

structure DecodeOptions where
  algorithms : List Str
  audience : Str
  issuer : Str
  leeway : Int
  require : List Str

-- PyJWT raises for every signature, expiry or claim that is not in order, and for a `sub` that is no text.
structure Jwt where
  unverifiedHeader : Json → Except PyError Json.Dict
  decode : DecodeOptions → (now : Int) → (idToken key : Json) → Except PyError Json.Dict

structure Oauth where
  issuer : Str
  clientId : Str
  clientSecret : Str
  redirectUri : Str
  baseScopes : Str
  dnsScope : Str
  accessTokenSkew : Int
  jwtTtlSeconds : Int
  sha256 : Bytes → Bytes
  jwt : Jwt
  -- What `encode("ascii")` says of text that it cannot encode.
  asciiError : Str → Str := fun _ => "'ascii' codec can't encode character".toList

def utf8 (text : Str) : Bytes := text.flatMap String.utf8EncodeChar

def b64Digit (value : Nat) : Char :=
  "ABCDEFGHIJKLMNOPQRSTUVWXYZabcdefghijklmnopqrstuvwxyz0123456789-_".toList.getD (value % 64) 'A'

-- The padding of the last group is what the callers strip.
def urlsafeB64 : Bytes → Str
  | [] => []
  | [a] => [b64Digit (a.toNat / 4), b64Digit (a.toNat * 16)]
  | [a, b] => [b64Digit (a.toNat / 4), b64Digit (a.toNat * 16 + b.toNat / 16), b64Digit (b.toNat * 4)]
  | a :: b :: c :: rest =>
    b64Digit (a.toNat / 4) :: b64Digit (a.toNat * 16 + b.toNat / 16) ::
      b64Digit (b.toNat * 4 + c.toNat / 64) :: b64Digit c.toNat :: urlsafeB64 rest

def hexDigit (value : Nat) : Char := "0123456789ABCDEF".toList.getD (value % 16) '0'

-- `quote_plus`, which `urlencode` applies to every key and value.
def quotePlus (text : Str) : Str :=
  text.flatMap fun c =>
    if isAscii c && c.isAlphanum || c == '_' || c == '.' || c == '-' || c == '~' then [c]
    else if c == ' ' then ['+']
    else (String.utf8EncodeChar c).flatMap fun byte => ['%', hexDigit (byte.toNat / 16), hexDigit byte.toNat]

def urlencode (params : List (Str × Str)) : Str :=
  ['&'].intercalate (params.map fun param => quotePlus param.1 ++ '=' :: quotePlus param.2)

section

variable (oauth : Oauth)

def challenge (verifier : Str) : Str := urlsafeB64 (oauth.sha256 (utf8 verifier))

def scopes : Str := if oauth.dnsScope.isEmpty then oauth.baseScopes else oauth.baseScopes ++ ' ' :: oauth.dnsScope

def buildAuthorizeUrl (state nonce codeChallenge : Str) : Str :=
  oauth.issuer ++ "/oauth2/auth?".toList ++ urlencode [
    ("response_type".toList, "code".toList),
    ("client_id".toList, oauth.clientId),
    ("redirect_uri".toList, oauth.redirectUri),
    ("scope".toList, scopes oauth),
    ("state".toList, state),
    ("nonce".toList, nonce),
    ("code_challenge".toList, codeChallenge),
    ("code_challenge_method".toList, "S256".toList)]

abbrev Form := List (Str × Json)

def codeForm (code : Str) (codeVerifier : Json) : Form :=
  [("grant_type".toList, .str "authorization_code".toList), ("code".toList, .str code),
    ("redirect_uri".toList, .str oauth.redirectUri), ("client_id".toList, .str oauth.clientId),
    ("client_secret".toList, .str oauth.clientSecret), ("code_verifier".toList, codeVerifier)]

def refreshForm (refreshToken : Str) : Form :=
  [("grant_type".toList, .str "refresh_token".toList), ("refresh_token".toList, .str refreshToken),
    ("client_id".toList, .str oauth.clientId), ("client_secret".toList, .str oauth.clientSecret)]

def readTokens (reply : Except PyError Response) : Except PyError Json := do
  let response ← reply
  raiseForStatus response
  response.json

def exchangeCode (reply : Form → Except PyError Response) (code : Str) (codeVerifier : Json) : Except PyError Json :=
  readTokens (reply (codeForm oauth code codeVerifier))

def refreshAccessToken (reply : Form → Except PyError Response) (refreshToken : Str) : Except PyError Json :=
  readTokens (reply (refreshForm oauth refreshToken))

structure Jwks where
  cached : Except PyError Json
  fetched : Except PyError Json

def matchingKeys (jwks kid : Json) : Except PyError (List Json) := do
  match jwks with
  | .obj fields =>
    let keys ← (Json.getD fields "keys".toList (.arr [])).elements
    if kid.isNull then return keys
    keys.filterM fun key => do return (← key.getAttr "kid".toList).pyEq kid
  | _ => throw .attributeError

def resolveSigningKey (jwks : Jwks) (kid : Json) : Except PyError Json := do
  let cached ← matchingKeys (← jwks.cached) kid
  let keys ← if cached.isEmpty then matchingKeys (← jwks.fetched) kid else pure cached
  match keys with
  | [] => throw invalidToken
  | key :: _ => return key

def computeOidcHash (value alg : Json) : Except PyError Str := do
  unless alg.pyEq (.str rs256) do throw invalidToken
  match value with
  | .str text =>
    unless ascii text do throw (.unicodeError (oauth.asciiError text))
    let digest := oauth.sha256 (utf8 text)
    return urlsafeB64 (digest.take (digest.length / 2))
  | _ => throw .attributeError

def checkHash (alg : Json) (claims : Json.Dict) (hashClaim : Str) (source : Json) : Except PyError Unit :=
  match Json.get claims hashClaim with
  | .null => .ok ()
  | .str (c :: rest) => do
    if source.isNull then throw invalidToken
    let expected ← computeOidcHash oauth source alg
    -- `compare_digest` takes text only if it is ASCII.
    unless ascii (c :: rest) do throw .typeError
    unless expected = c :: rest do throw invalidToken
  | _ => .error invalidToken

def decodeOptions : DecodeOptions where
  algorithms := allowedAlgs
  audience := oauth.clientId
  issuer := oauth.issuer
  leeway := oauth.accessTokenSkew
  require := ["exp".toList, "iat".toList]

def validateIdToken (now : Int) (jwks : Jwks) (idToken nonce accessToken code : Json) : Except PyError Json.Dict := do
  let header ← oauth.jwt.unverifiedHeader idToken
  let alg := Json.get header "alg".toList
  unless alg.isIn allowedAlgs do throw invalidToken
  let signingKey ← resolveSigningKey jwks (Json.get header "kid".toList)
  let claims ← oauth.jwt.decode (decodeOptions oauth) now idToken signingKey
  unless (Json.get claims "nonce".toList).pyEq nonce do throw invalidToken
  checkHash oauth alg claims "at_hash".toList accessToken
  checkHash oauth alg claims "c_hash".toList code
  return claims

end

end CfProxy.OauthCf
