import CfProxy.Auth.Authentication
import CfProxy.Services.Callback
import CfProxy.Services.Isolation
import CfProxy.Services.LoginProtocol
import CfProxy.Services.PairText
import CfProxy.Services.Versions

set_option autoImplicit false

namespace CfProxy

open Scope Models Cache Crypto TokenPlane CredentialService TokenService AuditService Client OauthService Machine System

variable {foreignKeys : Bool} {d : Deployment} {env : Env} {userId : Str}

section Invariant

variable {s t : Store}

-- Ids and owners are in the tables only.
theorem Tenancy.of_db (inv : Tenancy foreignKeys s) (same : t.db = s.db) : Tenancy foreignKeys t := by
  constructor <;> rw [same]
  · exact inv.foreignKeys
  · exact inv.credentialIds
  · exact inv.tokenIds
  · exact inv.lookupIds
  · exact inv.tokenHashes
  · exact inv.owner
  · exact inv.rules

theorem Tenancy.delivered (inv : Tenancy foreignKeys s) (fresh : env.Fresh d s) {delivered : Delivered} {owner : Str}
    {found : Option UpstreamCredential} {db : Database}
    (written : delivered.write d.settings.collation s.db owner env.newId found = .ok db) : Tenancy foreignKeys (s.withDb db) := by
  obtain ⟨-, scopes, written⟩ | ⟨loaded, scopes, -, written⟩ := write_cases written
  next =>
    rw [insertCredential_ok written]
    exact inv.insertCredential fresh rfl
  next =>
    rw [updateCredential_ok written]
    refine KeepsOwner.tenancy ⟨?_, ?_⟩ inv
    · intro row
      split <;> rfl
    · intro row
      split <;> rfl

theorem handleCfOauthCallback_tenancy (inv : Tenancy foreignKeys s) (fresh : env.Fresh d s) (code state : Str) :
    Tenancy foreignKeys (handleCfOauthCallback d env code state s).2 := by
  obtain ⟨cache, outcome⟩ := handleCfOauthCallback_outcome d env code state s
  generalize handleCfOauthCallback d env code state s = result at outcome
  cases outcome with
  | failed raised => exact inv.of_db rfl
  | wrote _ _ _ written _ => exact (inv.delivered fresh written).of_db rfl

theorem selectById_cases {β : Type} (credentialId : Str) (next : UpstreamCredential → Operation β) (s : Store) :
    (∃ raised, (selectById credentialId >>= next) s = (.error raised, s)) ∨
      ∃ row, s.db.credential credentialId = some row ∧ (selectById credentialId >>= next) s = next row s := by
  unfold selectById
  refine (Stateful.query_cases _ next s).imp_right ?_
  rintro ⟨row, found, ran⟩
  refine ⟨row, ?_, ran⟩
  split at found
  · next own search =>
    cases found
    exact search
  · cases found

theorem resolveById_tenancy (inv : Tenancy foreignKeys s) (fresh : env.Fresh d s) (credentialId : Str) :
    Tenancy foreignKeys (resolveById d env credentialId s).2 := by
  obtain ⟨raised, failed⟩ | ⟨row, found, ran⟩ := selectById_cases credentialId (resolveUpstreamAuth d env) s
  next =>
    have stopped : resolveById d env credentialId s = (.error raised, s) := failed
    rw [stopped]
    exact inv
  next =>
    have resolved : resolveById d env credentialId s = resolveUpstreamAuth d env row s := ran
    rw [resolved]
    exact ((resolveUpstreamAuth_isolated row).keeps s inv ⟨⟨row, List.mem_of_find?_eq_some found, rfl, rfl⟩, fresh⟩).1

theorem startCfOauthLogin_db (d : Deployment) (env : Env) (drawn : Drawn) : (startCfOauthLogin d env drawn s).2.db = s.db := by
  have ran : startCfOauthLogin d env drawn s = (.ok (drawn.authorizeUrl d.oauth),
      if env.cacheWrites (oauthStateKey drawn.state) then
        { s with cache := Function.update s.cache (oauthStateKey drawn.state) (some drawn.stored) } else s) := rfl
  rw [ran]
  split <;> rfl

theorem step_tenancy {before after : Site} {label : Label} (inv : Tenancy foreignKeys before.store)
    (stepped : step d before label = some after) : Tenancy foreignKeys after.store := by
  cases label with
  | manage userId command env =>
    simp only [step, Option.ite_none_right_eq_some] at stepped
    obtain ⟨fresh, stepped⟩ := stepped
    cases stepped
    exact ((manage_isolated command).keeps before.store inv fresh).1
  | startLogin drawn env =>
    cases stepped
    exact inv.of_db (startCfOauthLogin_db d env drawn)
  | callback code state env =>
    simp only [step, Option.ite_none_right_eq_some] at stepped
    obtain ⟨fresh, stepped⟩ := stepped
    cases stepped
    exact handleCfOauthCallback_tenancy inv fresh code state
  | resolve credentialId env =>
    simp only [step, Option.ite_none_right_eq_some] at stepped
    obtain ⟨fresh, stepped⟩ := stepped
    cases stepped
    exact resolveById_tenancy inv fresh credentialId
  | audit log =>
    cases stepped
    exact inv.of_db rfl
  | account row =>
    cases stepped
    exact inv.of_db rfl
  | cache entries =>
    cases stepped
    exact inv.of_db rfl

theorem reachable_tenancy {c : Site} (reached : (site d foreignKeys).Reachable unrestricted c) :
    Tenancy foreignKeys c.store := by
  apply reached.invariant
  · rintro state rfl
    constructor <;> simp [Database.empty]
  · intro state label after inv _ stepped
    exact step_tenancy inv stepped

end Invariant

section Targets

inductive Target
  | credential (credentialId : Str)
  | token (tokenId : Str)

def Command.target : Command → Option Target
  | .verify credentialId | .deleteCredential credentialId | .listZones credentialId | .listRecords credentialId _ _
  | .mint _ credentialId _ _ => some (.credential credentialId)
  | .detail tokenId | .rotate tokenId | .revoke tokenId => some (.token tokenId)
  | _ => none

def Store.owns (s : Store) (userId : Str) : Target → Prop
  | .credential credentialId => ∃ row ∈ s.db.credentials, row.id = credentialId ∧ row.userId = userId
  | .token tokenId => ∃ token ∈ s.db.tokens, token.id = tokenId ∧ token.userId = userId

variable {s : Store}

theorem getOwnedCredential_missing {credentialId : Str} (missing : ¬ s.owns userId (.credential credentialId)) :
    getOwnedCredential userId credentialId s = (.error notFound, s) := by
  have none : s.db.ownedCredential userId credentialId = none := by
    rw [Database.ownedCredential, List.find?_eq_none]
    intro row member owned
    simp only [Bool.and_eq_true, beq_iff_eq] at owned
    exact missing ⟨row, member, owned⟩
  simp only [getOwnedCredential, Stateful.query, none]

theorem getOwnedScopedToken_missing {tokenId : Str} (missing : ¬ s.owns userId (.token tokenId)) :
    getOwnedScopedToken userId tokenId s = (.error notFound, s) := by
  have none : s.db.ownedToken userId tokenId = none := by
    rw [Database.ownedToken, List.find?_eq_none]
    intro token member owned
    simp only [Bool.and_eq_true, beq_iff_eq] at owned
    exact missing ⟨token, member, owned⟩
  simp only [getOwnedScopedToken, Stateful.query, none]

theorem manage_missing {command : Command} {target : Target} (addressed : command.target = some target)
    (missing : ¬ s.owns userId target) : manage d env userId command s = (.error notFound, s) := by
  cases command with
  | register | listCredentials | listTokens | listAuditLogs => cases addressed
  | verify | deleteCredential | listZones | listRecords | mint =>
    cases addressed
    exact Stateful.bind_error (Stateful.bind_error (getOwnedCredential_missing missing))
  | detail | rotate | revoke =>
    cases addressed
    exact Stateful.bind_error (Stateful.bind_error (getOwnedScopedToken_missing missing))

end Targets

section Reachable

theorem tenant_isolation {c : Site} (reached : (site d foreignKeys).Reachable unrestricted c)
    (fresh : env.Fresh d c.store) (userId : Str) (command : Command) :
    (∀ other, other ≠ userId →
      (manage d env userId command c.store).2.holdings other = c.store.holdings other) ∧
    (∀ t : Site, (site d foreignKeys).Reachable unrestricted t → env.Fresh d t.store → Agree userId c.store t.store →
      (manage d env userId command c.store).1 = (manage d env userId command t.store).1) ∧
    ∀ target, command.target = some target → ¬ c.store.owns userId target →
      manage d env userId command c.store = (.error notFound, c.store) := by
  have inv := reachable_tenancy reached
  have isolated : Isolated (tenant foreignKeys userId) (env.Fresh d) (manage d env userId command) anyOutcome :=
    manage_isolated command
  refine ⟨(isolated.keeps c.store inv fresh).2, ?_, fun target => manage_missing⟩
  intro t reachedT freshT agree
  exact (isolated.same c.store t.store inv (reachable_tenancy reachedT) agree fresh freshT).1

end Reachable

section Example

def plainDeployment : Deployment where
  settings := plain
  oauth := LoginPlane.aliceOauth
  fernet := LoginPlane.plainFernet
  pairJson := PairText.pairJson

def drawing (newId : Str) (generated : Generated) : Env where
  now := .utc 0
  newId
  generated
  drawn := ([], [], [])
  reply _ := .error (.valueError [])
  issuer _ := .error (.valueError [])

-- Two users register a credential each, and the first one mints a token for theirs.
def twoTenants : List Label := [
  .manage ['a'] (.register ['l'] tokenType (some ['s']) none none) (drawing ['1'] issued),
  .manage ['b'] (.register ['l'] tokenType (some ['t']) none none) (drawing ['2'] issued),
  .manage ['a'] (.mint ['n'] ['1'] order.scopeRules none) (drawing ['3'] issued)]

theorem foreign_credential_not_deleted : ∃ c : Site, (site plainDeployment false).Reachable unrestricted c ∧
    (c.store.owns ['a'] (.credential ['1']) ∧ ¬ c.store.owns ['b'] (.credential ['1'])) ∧
    (c.store.holdings ['a']).tokens.length = 1 ∧
    (manage plainDeployment (drawing ['4'] firstDraw) ['b'] (.deleteCredential ['1']) c.store).2.holdings ['a'] =
      c.store.holdings ['a'] ∧
    manage plainDeployment (drawing ['4'] firstDraw) ['b'] (.deleteCredential ['1']) c.store = (.error notFound, c.store) := by
  have ran : ((site plainDeployment false).run { store := { db := .empty false } } twoTenants).map (fun c =>
      (decide ((drawing ['4'] firstDraw).Fresh plainDeployment c.store), c.store.db.credentials.map fun row => (row.id, row.userId),
        (c.store.holdings ['a']).tokens.length)) =
        some (true, [(['1'], ['a']), (['2'], ['b'])], 1) := by
    decide +kernel
  obtain ⟨c, ran, shown⟩ := Option.map_eq_some_iff.mp ran
  simp only [Prod.mk.injEq, decide_eq_true_eq] at shown
  obtain ⟨fresh, rows, minted⟩ := shown
  have reached := Reachable.run (.start rfl) (fun _ _ _ => trivial) ran
  obtain ⟨unchanged, -, missing⟩ := tenant_isolation reached fresh ['b'] (.deleteCredential ['1'])
  have owners : ∀ userId, (∃ row ∈ c.store.db.credentials, row.id = ['1'] ∧ row.userId = userId) ↔
      (['1'], userId) ∈ [(['1'], ['a']), (['2'], ['b'])] := by
    intro userId
    rw [← rows, List.mem_map]
    simp only [Prod.mk.injEq]
  have notTheirs : ¬ c.store.owns ['b'] (.credential ['1']) := by
    intro owned
    have listed := (owners ['b']).mp owned
    simp at listed
  exact ⟨c, reached, ⟨(owners ['a']).mpr (by simp), notTheirs⟩, minted, unchanged ['a'] (by decide),
    missing _ rfl notTheirs⟩

end Example

end CfProxy
