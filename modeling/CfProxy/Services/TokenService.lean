import CfProxy.Services.CredentialService

set_option autoImplicit false

namespace CfProxy.TokenService

open Text Scope Models Cache Crypto Client TokenPlane CredentialService

abbrev ZoneNames := List (Str × Str)

section

variable (d : Deployment) (env : Env)

-- A name that is no text would fail in the validation after it.
def readZoneName (w : World) (zoneId : Str) (authHeaders : Headers) : Traced Event Str := do
  let response ← forwardRequest w getMethod (zonesPrefix ++ zoneId) none none none authHeaders
  if response.status = 404 then
    Traced.raise (.valueError ("zone ".toList ++ w.unicode.repr zoneId ++ " not found upstream".toList))
  else do
    Traced.lift (raiseForStatus response)
    let body ← Traced.lift response.json
    let name ← Traced.lift (body.item resultKey >>= (·.item "name".toList))
    Traced.lift (encoded name)

def resolveZoneName (w : World) (zoneId : Str) (authHeaders : Headers) (names : ZoneNames) :
    Except PyError (Str × ZoneNames) :=
  match names.lookup zoneId with
  | some name => .ok (name, names)
  | none => do
    let name ← (readZoneName w zoneId authHeaders).result
    return (name, (zoneId, name) :: names)

-- `auth_headers` is resolved at the first pattern and kept for the others.
def resolveOnce (credential : UpstreamCredential) : Option Headers → Operation Headers
  | some authHeaders => pure authHeaders
  | none => resolveUpstreamAuth d env credential

def validateEach (credential : UpstreamCredential) : List RuleSpec → Option Headers → ZoneNames → Operation Unit
  | [], _, _ => pure ()
  | spec :: rest, known, names => do
    let pattern := spec.namePattern.getD []
    if pattern.isEmpty && (spec.recordIds.getD []).isEmpty then .raise unscopedRule
    else if pattern.isEmpty then validateEach credential rest known names
    else do
      let authHeaders ← resolveOnce d env credential known
      let (zoneName, names) ← .lift (resolveZoneName (env.world d) spec.zoneId authHeaders names)
      .lift (validateNamePattern d.settings.unicode pattern (spec.nameMatch.getD exact) zoneName)
      validateEach credential rest (some authHeaders) names

def validateScopeRules (credential : UpstreamCredential) (specs : List RuleSpec) : Operation Unit :=
  if specs.isEmpty then .raise noRules else validateEach d env credential specs none []

structure Issued where
  token : ScopedToken
  full : Str

def mintScopedToken (order : MintOrder) : Operation Issued := do
  let credential ← getOwnedCredential order.userId order.upstreamCredentialId
  validateScopeRules d env credential order.scopeRules
  commitDb fun db =>
    db.insertToken (order.token d.settings env.newId env.generated) (order.scopeRules.map RuleSpec.rule)
  return ⟨order.token d.settings env.newId env.generated, env.generated.full d.settings.brand⟩

def getOwnedScopedToken (userId tokenId : Str) : Operation ScopedToken :=
  .query fun s => match s.db.ownedToken userId tokenId with
    | some row => .ok row
    | none => .error notFound

def listScopedTokens (userId : Str) : Operation (List ScopedToken) :=
  .reads fun s => s.db.tokens.filter (·.userId == userId)

structure Detail where
  token : ScopedToken
  rules : List ScopeRule

def getScopedTokenDetail (userId tokenId : Str) : Operation Detail := do
  let token ← getOwnedScopedToken userId tokenId
  let rules ← .reads fun s => s.db.rulesOf token.id
  return ⟨token, rules⟩

def rotateScopedToken (userId tokenId : Str) : Operation Issued := do
  let token ← getOwnedScopedToken userId tokenId
  commitDb fun db => db.updateToken token.id (rotateRow d.settings token env.generated)
  cacheDel env [rulesKey token.lookupId token.version]
  return ⟨rotateRow d.settings token env.generated token, env.generated.full d.settings.brand⟩

def revokeScopedToken (userId tokenId : Str) : Operation Unit := do
  let token ← getOwnedScopedToken userId tokenId
  commitDb fun db => db.updateToken token.id (revokeRow token env.now)
  cacheDel env [rulesKey token.lookupId token.version]

end

end CfProxy.TokenService
