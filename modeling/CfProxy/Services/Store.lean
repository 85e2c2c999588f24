import CfProxy.Auth.OauthCf
import CfProxy.Services.TokenPlane
import CfProxy.Shared.Stateful

set_option autoImplicit false

namespace CfProxy

open Models Cache Crypto OauthCf

structure AuditLog where
  ts : Datetime
  row : AuditRow

structure Store where
  db : Database
  users : List User := []
  auditLogs : List AuditLog := []
  cache : Entries := fun _ => none

-- Of JSON texts, only the pair of e-mail and key is ever stored and read again.
structure PairJson where
  dumps : (email key : Str) → Str
  loads : Str → Except PyError Json
  roundTrip : ∀ email key, loads (dumps email key) = .ok (.obj [("email".toList, .str email), ("key".toList, .str key)])

structure Deployment where
  settings : TokenPlane.Settings
  oauth : Oauth
  fernet : Fernet
  pairJson : PairJson

-- What one operation draws and meets; `cacheReads`, `cacheWrites` and `cacheDels` say which calls of Redis work.
structure Env where
  now : Datetime
  newId : Str
  newUserId : Str := []
  generated : Generated
  drawn : Str × Str × Str
  reply : UpstreamRequest → Except PyError Response
  issuer : Form → Except PyError Response
  jwks : Jwks := ⟨.ok .null, .ok .null⟩
  cacheReads : Str → Bool := fun _ => true
  cacheWrites : Str → Bool := fun _ => true
  cacheDels : List Str → Bool := fun _ => true
  fuel : Nat := 100

def Env.world (d : Deployment) (env : Env) : World := { World.answering env.reply with unicode := d.settings.unicode }

def Env.tokenHash (d : Deployment) (env : Env) : Str := d.settings.hashToken (env.generated.full d.settings.brand)

-- What was drawn is not in use.
structure Env.Fresh (d : Deployment) (env : Env) (s : Store) : Prop where
  credentials : ∀ row ∈ s.db.credentials, row.id ≠ env.newId
  tokens : ∀ token ∈ s.db.tokens, token.id ≠ env.newId ∧ token.upstreamCredentialId ≠ env.newId
  generated : ∀ token ∈ s.db.tokens, token.lookupId ≠ env.generated.lookupId ∧ token.tokenHash ≠ env.tokenHash d
  cache : (s.cache (zonesKey env.newId)).isNone ∧ (s.cache (oauthAtKey env.newId)).isNone

instance (d : Deployment) (env : Env) (s : Store) : Decidable (env.Fresh d s) :=
  decidable_of_iff
    ((∀ row ∈ s.db.credentials, row.id ≠ env.newId) ∧
      (∀ token ∈ s.db.tokens, token.id ≠ env.newId ∧ token.upstreamCredentialId ≠ env.newId) ∧
      (∀ token ∈ s.db.tokens, token.lookupId ≠ env.generated.lookupId ∧ token.tokenHash ≠ env.tokenHash d) ∧
      (s.cache (zonesKey env.newId)).isNone ∧ (s.cache (oauthAtKey env.newId)).isNone)
    ⟨fun ⟨credentials, tokens, generated, cache⟩ => ⟨credentials, tokens, generated, cache⟩,
      fun ⟨credentials, tokens, generated, cache⟩ => ⟨credentials, tokens, generated, cache⟩⟩

abbrev Operation (α : Type) := Stateful Store α

namespace Store

def withDb (s : Store) (db : Database) : Store := { s with db }

@[simp] theorem withDb_db (s : Store) (db : Database) : (s.withDb db).db = db := rfl

@[simp] theorem withDb_users (s : Store) (db : Database) : (s.withDb db).users = s.users := rfl

@[simp] theorem withDb_auditLogs (s : Store) (db : Database) : (s.withDb db).auditLogs = s.auditLogs := rfl

@[simp] theorem withDb_cache (s : Store) (db : Database) : (s.withDb db).cache = s.cache := rfl

end Store

def commitDb (write : Database → Except PyError Database) : Operation Unit :=
  .commit fun s => (write s.db).map s.withDb

section

variable {write : Database → Except PyError Database} {s : Store}

theorem commitDb_ok {db : Database} (wrote : write s.db = .ok db) : commitDb write s = (.ok (), s.withDb db) := by
  simp [commitDb, Stateful.commit, wrote]

theorem commitDb_error {raised : PyError} (failed : write s.db = .error raised) :
    commitDb write s = (.error raised, s) := by
  simp [commitDb, Stateful.commit, failed]

end

section

variable (env : Env)

-- `null` is what both an absent entry and an error of Redis read as.
def cacheGetJson (key : Str) : Operation Json :=
  .reads fun s => if env.cacheReads key then (s.cache key).getD .null else .null

def cacheSetJson (key : Str) (value : Json) : Operation Unit :=
  .modify fun s => if env.cacheWrites key then { s with cache := Function.update s.cache key (some value) } else s

def cacheDel (keys : List Str) : Operation Unit :=
  .modify fun s => if env.cacheDels keys then { s with cache := s.cache.del keys } else s

end

end CfProxy
