import CfProxy.Cache.Redis
import CfProxy.Core.Crypto
import CfProxy.Db.Models
import CfProxy.Shared.Machine

set_option autoImplicit false

namespace CfProxy.TokenPlane

open Scope Models Cache Crypto Machine

-- A rule dict as a client sends it; absent keys are `none`.
structure RuleSpec where
  zoneId : Str
  namePattern : Option Str
  nameMatch : Option Str
  recordTypes : List Str
  recordIds : Option (List Str)
  allowRead : Option Bool
  allowCreate : Option Bool
  allowWrite : Option Bool
  allowDelete : Option Bool

def RuleSpec.rule (spec : RuleSpec) : ScopeRule where
  zoneId := spec.zoneId
  namePattern := spec.namePattern
  nameMatch := spec.nameMatch.getD exact
  recordTypes := spec.recordTypes
  recordIds := spec.recordIds
  allowRead := spec.allowRead.getD false
  allowCreate := spec.allowCreate.getD false
  allowWrite := spec.allowWrite.getD false
  allowDelete := spec.allowDelete.getD false

def noRules : PyError := .valueError "at least one scope rule is required".toList
def unscopedRule : PyError := .valueError "each scope rule requires a name_pattern or record_ids".toList

-- `zoneName` stands for the memoized upstream lookup of a zone's name.
def validateScopeRules (u : Text.Unicode) (zoneName : Str → Except PyError Str) (specs : List RuleSpec) :
    Except PyError Unit := do
  if specs.isEmpty then throw noRules
  specs.forM fun spec => do
    let pattern := spec.namePattern.getD []
    if pattern.isEmpty && (spec.recordIds.getD []).isEmpty then throw unscopedRule
    unless pattern.isEmpty do
      validateNamePattern u pattern (spec.nameMatch.getD exact) (← zoneName spec.zoneId)

structure MintOrder where
  userId : Str
  name : Str
  upstreamCredentialId : Str
  scopeRules : List RuleSpec
  expiresAt : Option Datetime

inductive Change
  | minted (token : ScopedToken) (rules : List ScopeRule) (generated : Generated)
  | rotated (tokenId : Str) (generated : Generated)
  | revoked (tokenId : Str)

structure ProxyAuthContext where
  token : ScopedToken
  rules : List ScopeRule
  credential : UpstreamCredential

structure Seen where
  presented : Str
  atStart : List Change
  atRead : List Change
  credentials : List UpstreamCredential

inductive Phase
  | idle
  | minting (order : MintOrder)
  | rotating (token : ScopedToken)
  | revoking (token : ScopedToken)
  | uncaching (key : Str)
  | selecting (credentialId : Str)
  | cascading (credentialId : Str) (tokens : List ScopedToken) (keys : List (List Str))
  | presented (seen : Seen)
  | verified (seen : Seen) (token : ScopedToken)
  | authenticated (seen : Seen) (token : ScopedToken) (credential : UpstreamCredential)
  | missed (seen : Seen) (token : ScopedToken) (credential : UpstreamCredential)
  | loaded (seen : Seen) (context : ProxyAuthContext)
  | resolved (seen : Seen) (answer : Except PyError (Option ProxyAuthContext))
  | finished (outcome : Except PyError Unit)

inductive Action
  | register (row : UpstreamCredential)
  | mint (zoneName : Str → Except PyError Str) (order : MintOrder)
  | mintCommit (tokenId : Str) (generated : Generated)
  | rotate (userId tokenId : Str)
  | rotateCommit (generated : Generated)
  | revoke (userId tokenId : Str)
  | revokeCommit (now : Datetime)
  | uncache (works : Bool)
  | delete (userId credentialId : Str)
  | selectTokens
  | deleteCommit (now : Datetime)
  | present (token : Str)
  | readToken (now : Datetime)
  | readCredential
  | readCache (works : Bool)
  | selectRules (rules : List ScopeRule)
  | fillCache (works : Bool)

structure Shared where
  db : Database
  cache : Entries
  history : List Change

-- A Redis error is logged and otherwise passed over.
def Shared.uncache (s : Shared) (works : Bool) (keys : List Str) : Shared :=
  if works then { s with cache := s.cache.del keys } else s

def Shared.fill (s : Shared) (works : Bool) (key : Str) (rules : List ScopeRule) : Shared :=
  if works then { s with cache := Function.update s.cache key (some (rulesToCache rules)) } else s

@[simp] theorem Shared.uncache_db (s : Shared) (works : Bool) (keys : List Str) : (s.uncache works keys).db = s.db := by
  cases works <;> rfl

@[simp] theorem Shared.uncache_history (s : Shared) (works : Bool) (keys : List Str) :
    (s.uncache works keys).history = s.history := by
  cases works <;> rfl

@[simp] theorem Shared.fill_history (s : Shared) (works : Bool) (key : Str) (rules : List ScopeRule) :
    (s.fill works key rules).history = s.history := by
  cases works <;> rfl

structure Settings where
  unicode : Text.Unicode
  brand : Str
  hashToken : Str → Str
  collation : Collation := .exact

def notFound : PyError := .named "NotFoundError".toList

def MintOrder.token (settings : Settings) (order : MintOrder) (tokenId : Str) (generated : Generated) :
    ScopedToken where
  id := tokenId
  userId := order.userId
  upstreamCredentialId := order.upstreamCredentialId
  name := order.name
  lookupId := generated.lookupId
  tokenPrefix := generated.tokenPrefix settings.brand
  tokenHash := settings.hashToken (generated.full settings.brand)
  expiresAt := order.expiresAt

-- The columns a rotation writes; `loaded` is the row as it was read.
def rotateRow (settings : Settings) (loaded : ScopedToken) (generated : Generated) (row : ScopedToken) :
    ScopedToken :=
  { row with
    lookupId := generated.lookupId
    tokenPrefix := generated.tokenPrefix settings.brand
    tokenHash := settings.hashToken (generated.full settings.brand)
    version := loaded.version + 1 }

def revokeRow (loaded : ScopedToken) (now : Datetime) (row : ScopedToken) : ScopedToken :=
  { row with status := .revoked, revokedAt := some now, version := loaded.version + 1 }

def cascadeRow (loaded : List ScopedToken) (now : Datetime) (row : ScopedToken) : ScopedToken :=
  match loaded.find? fun token => token.id == row.id with
  | some token => revokeRow token now row
  | none => row

def cascadeDelete (db : Database) (credentialId : Str) (loaded : List ScopedToken) (now : Datetime) :
    Except PyError Database :=
  Database.deleteCredential { db with tokens := db.tokens.map (cascadeRow loaded now) } credentialId

-- The part of `resolve_scoped_token` up to the expiry check, on one read of the row.
def checkToken (settings : Settings) (db : Database) (fullToken : Str) (now : Datetime) :
    Except PyError (Option ScopedToken) :=
  match parseScopedToken settings.unicode fullToken with
  | none => .ok none
  | some (lookupId, _) =>
    match db.tokenByLookup lookupId with
    | none => .ok none
    | some token =>
      if !verifyToken settings.hashToken fullToken token.tokenHash then .ok none
      else if token.status ≠ .active then .ok none
      else match token.expiresAt with
        | none => .ok (some token)
        | some expiresAt => do
          if ← expiresAt.before now then return none
          return some token

def cascadeKeys (credentialId : Str) (tokens : List ScopedToken) : List (List Str) :=
  tokens.map (fun token => [rulesKey token.lookupId token.version]) ++ [[oauthAtKey credentialId, zonesKey credentialId]]

def act (settings : Settings) (action : Action) (s : Shared) (phase : Phase) : Option (Shared × Phase) :=
  match action, phase with
  | .register row, .idle =>
    match s.db.insertCredential settings.collation row with
    | .ok db => some ({ s with db }, .finished (.ok ()))
    | .error raised => some (s, .finished (.error raised))
  | .mint zoneName order, .idle =>
    match s.db.ownedCredential order.userId order.upstreamCredentialId with
    | none => some (s, .finished (.error notFound))
    | some _ =>
      match validateScopeRules settings.unicode zoneName order.scopeRules with
      | .ok _ => some (s, .minting order)
      | .error raised => some (s, .finished (.error raised))
  | .mintCommit tokenId generated, .minting order =>
    let token := order.token settings tokenId generated
    let rules := order.scopeRules.map RuleSpec.rule
    match s.db.insertToken token rules with
    | .ok db => some ({ s with db, history := .minted token rules generated :: s.history }, .finished (.ok ()))
    | .error raised => some (s, .finished (.error raised))
  | .rotate userId tokenId, .idle =>
    match s.db.ownedToken userId tokenId with
    | none => some (s, .finished (.error notFound))
    | some token => some (s, .rotating token)
  | .rotateCommit generated, .rotating token =>
    match s.db.updateToken token.id (rotateRow settings token generated) with
    | .ok db =>
      some ({ s with db, history := .rotated token.id generated :: s.history },
        .uncaching (rulesKey token.lookupId token.version))
    | .error raised => some (s, .finished (.error raised))
  | .revoke userId tokenId, .idle =>
    match s.db.ownedToken userId tokenId with
    | none => some (s, .finished (.error notFound))
    | some token => some (s, .revoking token)
  | .revokeCommit now, .revoking token =>
    match s.db.updateToken token.id (revokeRow token now) with
    | .ok db =>
      some ({ s with db, history := .revoked token.id :: s.history },
        .uncaching (rulesKey token.lookupId token.version))
    | .error raised => some (s, .finished (.error raised))
  | .uncache works, .uncaching key =>
    some (s.uncache works [key], .finished (.ok ()))
  | .delete userId credentialId, .idle =>
    match s.db.ownedCredential userId credentialId with
    | none => some (s, .finished (.error notFound))
    | some _ => some (s, .selecting credentialId)
  | .selectTokens, .selecting credentialId =>
    let tokens := s.db.activeTokens credentialId
    some (s, .cascading credentialId tokens (cascadeKeys credentialId tokens))
  | .uncache works, .cascading credentialId tokens (keys :: later) =>
    some (s.uncache works keys, .cascading credentialId tokens later)
  | .deleteCommit now, .cascading credentialId tokens [] =>
    match cascadeDelete s.db credentialId tokens now with
    | .ok db =>
      some ({ s with db, history := tokens.map (fun token => .revoked token.id) ++ s.history }, .finished (.ok ()))
    | .error raised => some (s, .finished (.error raised))
  | .present token, .idle => some (s, .presented ⟨token, s.history, s.history, []⟩)
  | .readToken now, .presented seen =>
    let seen := { seen with atRead := s.history }
    match checkToken settings s.db seen.presented now with
    | .ok (some token) => some (s, .verified seen token)
    | .ok none => some (s, .resolved seen (.ok none))
    | .error raised => some (s, .resolved seen (.error raised))
  | .readCredential, .verified seen token =>
    let seen := { seen with credentials := s.db.credentials }
    match s.db.credential token.upstreamCredentialId with
    | none => some (s, .resolved seen (.ok none))
    | some credential => some (s, .authenticated seen token credential)
  | .readCache works, .authenticated seen token credential =>
    match if works then s.cache (rulesKey token.lookupId token.version) else none with
    | none => some (s, .missed seen token credential)
    | some cached =>
      some (s, .resolved seen ((rulesFromCache cached).map fun rules => some ⟨token, rules, credential⟩))
  | .selectRules rules, .missed seen token credential =>
    -- The statement has no ORDER BY.
    if rules.Perm (s.db.rulesOf token.id) then some (s, .loaded seen ⟨token, rules, credential⟩) else none
  | .fillCache works, .loaded seen context =>
    let key := rulesKey context.token.lookupId context.token.version
    some (s.fill works key context.rules, .resolved seen (.ok (some context)))
  | _, _ => none

-- Any number of requests on one database and one cache that may lose any entry at any time.
def plane (ι : Type) (settings : Settings) : Interleaving ι Shared Phase Action Str where
  start s := (∃ foreignKeys, s.db = .empty foreignKeys) ∧ s.cache = (fun _ => none) ∧ s.history = []
  idle := .idle
  act _ := act settings
  env key s := some (s.uncache true [key])

end CfProxy.TokenPlane
