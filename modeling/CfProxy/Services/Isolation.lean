import CfProxy.Services.Management
import CfProxy.Services.Tenancy
import CfProxy.Services.TokenInvariant

set_option autoImplicit false

namespace CfProxy

open Scope Models Cache Crypto TokenPlane CredentialService TokenService AuditService Client OauthService Machine

variable {foreignKeys : Bool} {d : Deployment} {env : Env} {userId credentialId : Str}

def anyOutcome {α : Type} : α → Store → Prop := fun _ _ => True

section Registration

variable {s : Store} {row : UpstreamCredential} {collation : Collation}

theorem insertCredential_ok {db after : Database} (inserted : db.insertCredential collation row = .ok after) :
    after = { db with credentials := db.credentials ++ [row] } := by
  unfold Database.insertCredential at inserted
  split at inserted <;> cases inserted
  rfl

theorem insertCredential_labels (mine : row.userId = userId) (fresh : ∀ other ∈ s.db.credentials, other.id ≠ row.id) :
    s.db.insertCredential collation row =
      if (s.holdings userId).credentials.any (collation.same ·.label row.label) then .error integrityError
      else .ok { s.db with credentials := s.db.credentials ++ [row] } := by
  have taken : (s.db.credentials.any fun other =>
      other.id == row.id || (other.userId == row.userId && collation.same other.label row.label)) =
        (s.holdings userId).credentials.any (collation.same ·.label row.label) := by
    rw [Bool.eq_iff_iff, List.any_eq_true, List.any_eq_true]
    constructor
    · rintro ⟨other, member, clash⟩
      simp only [Bool.or_eq_true, beq_iff_eq, fresh other member, false_or, Bool.and_eq_true, mine] at clash
      exact ⟨other, List.mem_filter.mpr ⟨member, by simpa using clash.1⟩, by simpa using clash.2⟩
    · rintro ⟨other, member, label⟩
      obtain ⟨member, owned⟩ := List.mem_filter.mp member
      exact ⟨other, member, by simp_all⟩
  simp only [Database.insertCredential, taken]

theorem Tenancy.insertCredential (inv : Tenancy foreignKeys s) (fresh : env.Fresh d s) (new : row.id = env.newId) :
    Tenancy foreignKeys (s.withDb { s.db with credentials := s.db.credentials ++ [row] }) where
  foreignKeys := inv.foreignKeys
  credentialIds := by
    simp only [Store.withDb_db, List.map_append, List.map_cons, List.map_nil]
    refine List.nodup_append.mpr ⟨inv.credentialIds, by simp, ?_⟩
    intro id held other isRow same
    obtain ⟨holder, member, rfl⟩ := List.mem_map.mp held
    have isNew : other = env.newId := by simpa [new] using isRow
    exact fresh.credentials holder member (same.trans isNew)
  tokenIds := inv.tokenIds
  lookupIds := inv.lookupIds
  tokenHashes := inv.tokenHashes
  owner := by
    intro token isToken credential member same
    rcases List.mem_append.mp member with old | added
    · exact inv.owner token isToken credential old same
    · obtain rfl := List.mem_singleton.mp added
      exact absurd (same.symm.trans new) (fresh.tokens token isToken).2
  rules := inv.rules

theorem holdings_insertCredential (s : Store) (row : UpstreamCredential) (other : Str) :
    (s.withDb { s.db with credentials := s.db.credentials ++ [row] }).holdings other =
      { s.holdings other with
        credentials := (s.holdings other).credentials ++ if row.userId = other then [row] else [] } := by
  have appended : (s.db.credentials ++ [row]).filter (·.userId == other) =
      s.db.credentials.filter (·.userId == other) ++ if row.userId = other then [row] else [] := by
    rw [List.filter_append]
    by_cases theirs : row.userId = other <;> simp [theirs]
  simp only [Store.holdings, Store.withDb_db, Store.withDb_auditLogs, appended]

theorem insertCredential_isolated (mine : row.userId = userId) (new : row.id = env.newId) :
    Isolated (tenant foreignKeys userId) (env.Fresh d) (commitDb fun db => db.insertCredential collation row)
      anyOutcome := by
  have unused : ∀ s, env.Fresh d s → ∀ other ∈ s.db.credentials, other.id ≠ row.id :=
    fun s fresh other member => new ▸ fresh.credentials other member
  apply commitDb_isolated
  · intro s db inv fresh wrote
    obtain rfl := insertCredential_ok wrote
    refine ⟨inv.insertCredential fresh new, ?_, trivial⟩
    intro other apart
    rw [holdings_insertCredential, mine, if_neg apart.symm, List.append_nil]
  · intro s t _ _ agree freshS freshT
    rw [insertCredential_labels mine (unused s freshS), insertCredential_labels mine (unused t freshT), agree.holdings]
    split
    · exact .inl ⟨_, rfl, rfl⟩
    · refine .inr ⟨_, _, rfl, rfl, ?_, ?_⟩
      · rw [holdings_insertCredential, holdings_insertCredential, agree.holdings]
      · intro other held
        rw [holdings_insertCredential, mine, if_pos rfl] at held
        rcases List.mem_append.mp held with old | added
        · exact agree.cache other old
        · obtain rfl := List.mem_singleton.mp added
          rw [new]
          obtain ⟨zonesS, oauthAtS⟩ := freshS.cache
          obtain ⟨zonesT, oauthAtT⟩ := freshT.cache
          simp_all

end Registration

section Credentials

theorem reads_isolated {α : Type} {pre : Store → Prop} {read : Store → α}
    (same : ∀ s t, Agree userId s t → read s = read t) :
    Isolated (tenant foreignKeys userId) pre (Stateful.reads read) anyOutcome :=
  .query (fun _ _ _ _ _ => trivial) fun s t _ _ agree _ _ => congrArg Except.ok (same s t agree)

theorem returns_isolated {α β : Type} {pre : Store → Prop} {x : Operation α} {post : α → Store → Prop}
    (isolated : Isolated (tenant foreignKeys userId) pre x post) (answer : α → β) :
    Isolated (tenant foreignKeys userId) pre (do return answer (← x)) anyOutcome := by
  apply Isolated.bind isolated
  intro value
  exact .pure fun _ _ => trivial

theorem registerCredential_isolated (label credType : Str) (apiToken globalKey cfAccountEmail : Option Str) :
    Isolated (tenant foreignKeys userId) (env.Fresh d)
      (registerCredential d env userId label credType apiToken globalKey cfAccountEmail) anyOutcome := by
  apply Isolated.bind (Isolated.lift fun _ _ fresh _ => fresh)
  intro secret
  have inserted : Isolated (tenant foreignKeys userId) (env.Fresh d)
      (commitDb fun db =>
        db.insertCredential d.settings.collation (registeredRow d env userId label credType cfAccountEmail secret))
      anyOutcome := insertCredential_isolated rfl rfl
  apply Isolated.bind inserted
  intro _
  exact .pure fun _ _ => trivial

theorem verifiedRow_keepsOwner (status : Str) (email : Option Str) : KeepsOwner (verifiedRow env status email) :=
  ⟨fun _ => rfl, fun _ => rfl⟩

theorem verifyCredential_isolated :
    Isolated (tenant foreignKeys userId) (env.Fresh d) (verifyCredential d env userId credentialId) anyOutcome := by
  apply Isolated.bind getOwnedCredential_isolated
  intro credential
  apply Isolated.assuming
  intro _
  apply Isolated.bind (resolveUpstreamAuth_isolated credential)
  intro authHeaders
  apply Isolated.bind (Isolated.lift fun _ _ ready _ => ready)
  intro envelope
  apply Isolated.bind (Isolated.lift fun _ _ ready _ => ready)
  rintro ⟨status, email⟩
  apply Isolated.bind (updateCredential_isolated (verifiedRow_keepsOwner status email))
  intro _
  exact selectById_isolated.weaken (fun _ ready => ready) fun _ _ _ => trivial

theorem listCredentialZones_isolated :
    Isolated (tenant foreignKeys userId) (env.Fresh d) (listCredentialZones d env userId credentialId) anyOutcome := by
  apply Isolated.bind getOwnedCredential_isolated
  intro credential
  apply Isolated.assuming
  intro _
  apply Isolated.bind (cacheGetJson_isolated .zones)
  intro cached
  split
  · apply Isolated.bind (resolveUpstreamAuth_isolated credential)
    intro authHeaders
    apply Isolated.bind (Isolated.lift fun _ _ ready _ => ready)
    intro zones
    apply Isolated.bind (cacheSetJson_isolated .zones _)
    intro _
    exact .pure fun _ _ => trivial
  · exact .pure fun _ _ => trivial

theorem listCredentialZoneRecords_isolated (zoneId : Str) (params : Option (List (Str × Json))) :
    Isolated (tenant foreignKeys userId) (env.Fresh d)
      (listCredentialZoneRecords d env userId credentialId zoneId params) anyOutcome := by
  apply Isolated.bind getOwnedCredential_isolated
  intro credential
  apply Isolated.assuming
  intro _
  apply Isolated.bind (resolveUpstreamAuth_isolated credential)
  intro authHeaders
  exact .lift fun _ _ _ _ => trivial

end Credentials

section Deletion

variable {s : Store}

theorem activeTokens_holdings (inv : Tenancy foreignKeys s) (ready : Ready d env userId credentialId s) :
    s.db.activeTokens credentialId = (s.holdings userId).tokens.filter fun token =>
      token.upstreamCredentialId == credentialId && token.status = .active := by
  obtain ⟨own, member, rfl, mine⟩ := ready.owned
  simp only [Database.activeTokens, Store.holdings, List.filter_filter]
  apply List.filter_congr
  intro token isToken
  by_cases bound : token.upstreamCredentialId = own.id
  · have theirs := inv.owner token isToken own member bound.symm
    simp [← theirs, mine]
  · simp [bound]

structure Selected (d : Deployment) (env : Env) (userId credentialId : Str) (tokens : List ScopedToken) (s : Store) :
    Prop where
  ready : Ready d env userId credentialId s
  tokens : ∀ token ∈ tokens, token ∈ s.db.tokens ∧ token.userId = userId

theorem selectTokens_isolated :
    Isolated (tenant foreignKeys userId) (Ready d env userId credentialId)
      (Stateful.reads fun s : Store => s.db.activeTokens credentialId)
      fun tokens s => Selected d env userId credentialId tokens s := by
  apply Isolated.query
  · rintro s _ inv ready ⟨⟩
    refine ⟨ready, ?_⟩
    intro token member
    dsimp only at member
    rw [activeTokens_holdings inv ready] at member
    obtain ⟨member, mine⟩ := List.mem_filter.mp (List.mem_filter.mp member).1
    exact ⟨member, by simpa using mine⟩
  · intro s t invS invT agree readyS readyT
    simp only [activeTokens_holdings invS readyS, activeTokens_holdings invT readyT, agree.holdings]

theorem del_none {entries : Entries} {key : Str} (none : (entries key).isNone) (keys : List Str) :
    (entries.del keys key).isNone := by
  unfold Entries.del
  split
  · rfl
  · exact none

theorem Ready.del (ready : Ready d env userId credentialId s) (keys : List Str) :
    Ready d env userId credentialId { s with cache := s.cache.del keys } where
  owned := ready.owned
  fresh := { ready.fresh with cache := ⟨del_none ready.fresh.cache.1 keys, del_none ready.fresh.cache.2 keys⟩ }

theorem cacheDel_isolated {pre : Store → Prop} (keys : List Str)
    (stable : ∀ s, pre s → pre { s with cache := s.cache.del keys }) :
    Isolated (tenant foreignKeys userId) pre (cacheDel env keys) fun _ => pre := by
  apply Isolated.modify
  · intro s inv before
    split
    · exact ⟨{ inv with }, fun _ _ => rfl, stable s before⟩
    · exact ⟨inv, fun _ _ => rfl, before⟩
  · intro s t _ _ agree _ _
    split
    · refine ⟨agree.holdings, ?_⟩
      intro row held
      obtain ⟨zones, oauthAt⟩ := agree.cache row held
      simp only [Entries.del, zones, oauthAt, and_self]
    · exact agree

theorem cascadeRow_keepsBinding (loaded : List ScopedToken) (now : Datetime) :
    KeepsBinding (cascadeRow loaded now) :=
  ⟨cascadeRow_id loaded now, cascadeRow_userId loaded now, cascadeRow_upstreamCredentialId loaded now⟩

theorem Selected.cascade_other {tokens : List ScopedToken} (inv : Tenancy foreignKeys s)
    (selected : Selected d env userId credentialId tokens s) {token : ScopedToken} (member : token ∈ s.db.tokens)
    (theirs : token.userId ≠ userId) (now : Datetime) : cascadeRow tokens now token = token := by
  unfold cascadeRow
  split
  · next loaded found =>
    obtain ⟨isToken, mine⟩ := selected.tokens loaded (List.mem_of_find?_eq_some found)
    have same : loaded.id = token.id := by simpa using List.find?_some found
    obtain rfl := List.inj_on_of_nodup_map inv.tokenIds isToken member same
    exact absurd mine theirs
  · rfl

theorem cascadeDelete_eq (db : Database) (credentialId : Str) (tokens : List ScopedToken) (now : Datetime) :
    cascadeDelete db credentialId tokens now =
      if db.foreignKeys && db.tokens.any (·.upstreamCredentialId == credentialId) then .error integrityError
      else .ok (dropCredential (mapTokens db (cascadeRow tokens now)) credentialId) := by
  have bound : (db.tokens.map (cascadeRow tokens now)).any (·.upstreamCredentialId == credentialId) =
      db.tokens.any (·.upstreamCredentialId == credentialId) := by
    simp only [List.any_map, Function.comp_def, (cascadeRow_keepsBinding tokens now).credential]
  simp only [cascadeDelete, Database.deleteCredential, bound]
  rfl

theorem bound_holdings (inv : Tenancy foreignKeys s) (ready : Ready d env userId credentialId s) :
    s.db.tokens.any (·.upstreamCredentialId == credentialId) =
      (s.holdings userId).tokens.any (·.upstreamCredentialId == credentialId) := by
  obtain ⟨own, member, rfl, mine⟩ := ready.owned
  rw [Bool.eq_iff_iff, List.any_eq_true, List.any_eq_true]
  constructor
  · rintro ⟨token, isToken, bound⟩
    have same : token.upstreamCredentialId = own.id := by simpa using bound
    have theirs := inv.owner token isToken own member same.symm
    exact ⟨token, List.mem_filter.mpr ⟨isToken, by simp [← theirs, mine]⟩, bound⟩
  · rintro ⟨token, held, bound⟩
    exact ⟨token, (List.mem_filter.mp held).1, bound⟩

theorem cascadeDelete_isolated (tokens : List ScopedToken) :
    Isolated (tenant foreignKeys userId) (Selected d env userId credentialId tokens)
      (commitDb fun db => cascadeDelete db credentialId tokens env.now) anyOutcome := by
  have keeps := cascadeRow_keepsBinding tokens env.now
  apply commitDb_isolated
  · intro s db inv selected wrote
    rw [cascadeDelete_eq] at wrote
    split at wrote <;> cases wrote
    have revoked : Tenancy foreignKeys (s.withDb (mapTokens s.db (cascadeRow tokens env.now))) := by
      apply keeps.tenancy inv
      · simpa [Function.comp_def] using inv.lookupIds
      · simpa [Function.comp_def] using inv.tokenHashes
    refine ⟨revoked.dropCredential credentialId, ?_, trivial⟩
    intro other apart
    rw [← keeps.holdings_other fun token member theirs =>
      selected.cascade_other inv member (theirs.trans_ne apart) env.now]
    refine @holdings_dropCredential_other (s.withDb (mapTokens s.db (cascadeRow tokens env.now))) other _ ?_
    intro row member theirs same
    exact apart (theirs.symm.trans (selected.ready.owner inv member same))
  · intro s t invS invT agree selectedS selectedT
    rw [cascadeDelete_eq, cascadeDelete_eq, bound_holdings invS selectedS.ready, bound_holdings invT selectedT.ready,
      agree.holdings, invS.foreignKeys, invT.foreignKeys]
    split
    · exact .inl ⟨_, rfl, rfl⟩
    · exact .inr ⟨_, _, rfl, rfl, (keeps.agree agree).dropCredential credentialId⟩

theorem deleteCredential_isolated :
    Isolated (tenant foreignKeys userId) (env.Fresh d)
      (CredentialService.deleteCredential env userId credentialId) anyOutcome := by
  apply Isolated.bind getOwnedCredential_isolated
  intro credential
  apply Isolated.assuming
  rintro rfl
  apply Isolated.bind selectTokens_isolated
  intro tokens
  apply Isolated.bind
  · apply Isolated.forEach
    intro keys _
    exact cacheDel_isolated keys fun s selected => ⟨selected.ready.del keys, selected.tokens⟩
  · intro _
    exact cascadeDelete_isolated tokens

end Deletion

section Tokens

variable {s : Store}

theorem resolveOnce_isolated (credential : UpstreamCredential) (known : Option Headers) :
    Isolated (tenant foreignKeys userId) (Ready d env userId credential.id) (resolveOnce d env credential known)
      fun _ => Ready d env userId credential.id := by
  cases known with
  | some authHeaders => exact .pure fun _ ready => ready
  | none => exact resolveUpstreamAuth_isolated credential

theorem validateEach_isolated (credential : UpstreamCredential) (specs : List RuleSpec) (known : Option Headers)
    (names : ZoneNames) :
    Isolated (tenant foreignKeys userId) (Ready d env userId credential.id)
      (validateEach d env credential specs known names) fun _ => Ready d env userId credential.id := by
  induction specs generalizing known names with
  | nil => exact .pure fun _ ready => ready
  | cons spec rest ih =>
    unfold validateEach
    dsimp only
    split
    · exact .raise _
    · split
      · exact ih known names
      · apply Isolated.bind (resolveOnce_isolated credential known)
        intro authHeaders
        apply Isolated.bind (Isolated.lift fun _ _ ready _ => ready)
        rintro ⟨zoneName, later⟩
        apply Isolated.bind (Isolated.lift fun _ _ ready _ => ready)
        intro _
        exact ih (some authHeaders) later

theorem validateScopeRules_isolated (credential : UpstreamCredential) (specs : List RuleSpec) :
    Isolated (tenant foreignKeys userId) (Ready d env userId credential.id)
      (TokenService.validateScopeRules d env credential specs) fun _ => Ready d env userId credential.id := by
  unfold TokenService.validateScopeRules
  split
  · exact .raise _
  · exact validateEach_isolated credential specs none []

def addToken (db : Database) (row : ScopedToken) (rules : List ScopeRule) : Database :=
  { db with tokens := db.tokens ++ [row], rules := db.rules ++ rules.map (row.id, ·) }

structure NewToken (d : Deployment) (env : Env) (userId credentialId : Str) (row : ScopedToken) : Prop where
  id : row.id = env.newId
  lookupId : row.lookupId = env.generated.lookupId
  tokenHash : row.tokenHash = env.tokenHash d
  userId : row.userId = userId
  credential : row.upstreamCredentialId = credentialId

variable {row : ScopedToken} {rules : List ScopeRule}

theorem NewToken.inserted (new : NewToken d env userId credentialId row)
    (ready : Ready d env userId credentialId s) : s.db.insertToken row rules = .ok (addToken s.db row rules) := by
  have free : (s.db.tokens.any fun other =>
      other.id == row.id || other.lookupId == row.lookupId || other.tokenHash == row.tokenHash) = false := by
    rw [List.any_eq_false]
    intro other member
    have ids := ready.fresh.tokens other member
    have drawn := ready.fresh.generated other member
    simp [new.id, new.lookupId, new.tokenHash, ids.1, drawn.1, drawn.2]
  have there : (s.db.credential row.upstreamCredentialId).isNone = false := by
    obtain ⟨own, member, same, -⟩ := ready.owned
    rw [Database.credential, Option.isNone_eq_false_iff, List.find?_isSome, new.credential]
    exact ⟨own, member, by simpa using same⟩
  simp [Database.insertToken, free, there, addToken]

theorem NewToken.tenancy (new : NewToken d env userId credentialId row) (inv : Tenancy foreignKeys s)
    (ready : Ready d env userId credentialId s) : Tenancy foreignKeys (s.withDb (addToken s.db row rules)) := by
  have apart : ∀ key : ScopedToken → Str, (∀ token ∈ s.db.tokens, key token ≠ key row) →
      (s.db.tokens.map key).Nodup → ((s.db.tokens ++ [row]).map key).Nodup := by
    intro key unused distinct
    rw [List.map_append, List.nodup_append]
    refine ⟨distinct, by simp, ?_⟩
    intro held isHeld other isRow same
    obtain ⟨token, member, rfl⟩ := List.mem_map.mp isHeld
    exact unused token member (by simpa [same] using isRow)
  constructor
  · exact inv.foreignKeys
  · exact inv.credentialIds
  · exact apart (·.id) (fun token member => new.id ▸ (ready.fresh.tokens token member).1) inv.tokenIds
  · exact apart (·.lookupId) (fun token member => new.lookupId ▸ (ready.fresh.generated token member).1) inv.lookupIds
  · exact apart (·.tokenHash) (fun token member => new.tokenHash ▸ (ready.fresh.generated token member).2)
      inv.tokenHashes
  · intro token isToken credential member same
    rcases List.mem_append.mp isToken with old | added
    · exact inv.owner token old credential member same
    · obtain rfl := List.mem_singleton.mp added
      rw [new.userId]
      exact ready.owner inv member (same.trans new.credential)
  · intro rule isRule
    rcases List.mem_append.mp isRule with old | added
    · obtain ⟨token, member, same⟩ := inv.rules rule old
      exact ⟨token, List.mem_append_left _ member, same⟩
    · obtain ⟨own, -, rfl⟩ := List.mem_map.mp added
      exact ⟨row, by simp [addToken], rfl⟩

theorem ownRule_add (tokens : List ScopedToken) (row : ScopedToken) (other : Str) (rule : Str × ScopeRule) :
    ownRule (tokens ++ [row]) other rule = (ownRule tokens other rule || (row.id == rule.1 && row.userId == other)) := by
  simp [ownRule]

theorem NewToken.unowned (new : NewToken d env userId credentialId row) (fresh : env.Fresh d s) (other : Str)
    (rule : ScopeRule) : ownRule s.db.tokens other (row.id, rule) = false := by
  rw [ownRule, List.any_eq_false]
  intro token member
  simp [new.id, (fresh.tokens token member).1]

theorem NewToken.holdings_other (new : NewToken d env userId credentialId row) (fresh : env.Fresh d s) {other : Str}
    (apart : other ≠ userId) : (s.withDb (addToken s.db row rules)).holdings other = s.holdings other := by
  have theirs : row.userId ≠ other := by
    rw [new.userId]
    exact apart.symm
  have tokens : (s.db.tokens ++ [row]).filter (·.userId == other) = s.db.tokens.filter (·.userId == other) := by
    simp [theirs]
  have owned : ownRule (s.db.tokens ++ [row]) other = ownRule s.db.tokens other := by
    funext rule
    simp [ownRule_add, theirs]
  have added : (rules.map (row.id, ·)).filter (ownRule s.db.tokens other) = [] := by
    rw [List.filter_eq_nil_iff]
    intro rule member
    obtain ⟨own, -, rfl⟩ := List.mem_map.mp member
    simp [new.unowned fresh other own]
  simp only [Store.holdings, addToken, Store.withDb_db, Store.withDb_auditLogs, tokens, owned, List.filter_append, added,
    List.append_nil]

theorem NewToken.holdings (new : NewToken d env userId credentialId row) (inv : Tenancy foreignKeys s)
    (fresh : env.Fresh d s) : (s.withDb (addToken s.db row rules)).holdings userId =
      { s.holdings userId with
        tokens := (s.holdings userId).tokens ++ [row]
        rules := (s.holdings userId).rules ++ rules.map (row.id, ·) } := by
  have tokens : (s.db.tokens ++ [row]).filter (·.userId == userId) = s.db.tokens.filter (·.userId == userId) ++ [row] := by
    simp [new.userId]
  have old : s.db.rules.filter (ownRule (s.db.tokens ++ [row]) userId) = s.db.rules.filter (ownRule s.db.tokens userId) := by
    apply List.filter_congr
    intro rule isRule
    obtain ⟨token, member, same⟩ := inv.rules rule isRule
    have apart : row.id ≠ rule.1 := by
      rw [new.id, ← same]
      exact (fresh.tokens token member).1.symm
    simp [ownRule_add, apart]
  have added : (rules.map (row.id, ·)).filter (ownRule (s.db.tokens ++ [row]) userId) = rules.map (row.id, ·) := by
    rw [List.filter_eq_self]
    intro rule member
    obtain ⟨own, -, rfl⟩ := List.mem_map.mp member
    simp [ownRule_add, new.userId]
  simp only [Store.holdings, addToken, Store.withDb_db, Store.withDb_auditLogs, tokens, List.filter_append, old, added]

theorem insertToken_isolated (new : NewToken d env userId credentialId row) :
    Isolated (tenant foreignKeys userId) (Ready d env userId credentialId)
      (commitDb fun db => db.insertToken row rules) anyOutcome := by
  apply commitDb_isolated
  · intro s db inv ready wrote
    rw [new.inserted ready] at wrote
    cases wrote
    exact ⟨new.tenancy inv ready, fun other apart => new.holdings_other ready.fresh apart, trivial⟩
  · intro s t invS invT agree readyS readyT
    refine .inr ⟨_, _, new.inserted readyS, new.inserted readyT, ?_, ?_⟩
    · rw [new.holdings invS readyS.fresh, new.holdings invT readyT.fresh, agree.holdings]
    · intro credential held
      rw [new.holdings invS readyS.fresh] at held
      exact agree.cache credential held

theorem mintScopedToken_isolated (name upstreamCredentialId : Str) (scopeRules : List RuleSpec)
    (expiresAt : Option Datetime) :
    Isolated (tenant foreignKeys userId) (env.Fresh d)
      (mintScopedToken d env { userId, name, upstreamCredentialId, scopeRules, expiresAt }) anyOutcome := by
  apply Isolated.bind getOwnedCredential_isolated
  intro credential
  apply Isolated.assuming
  rintro rfl
  apply Isolated.bind (validateScopeRules_isolated credential scopeRules)
  intro _
  let order : MintOrder := { userId, name, upstreamCredentialId := credential.id, scopeRules, expiresAt }
  have new : NewToken d env userId credential.id (order.token d.settings env.newId env.generated) :=
    ⟨rfl, rfl, rfl, rfl, rfl⟩
  apply Isolated.bind (insertToken_isolated new)
  intro _
  exact .pure fun _ _ => trivial

theorem ownedToken_holdings (s : Store) (userId tokenId : Str) :
    s.db.ownedToken userId tokenId = (s.holdings userId).tokens.find? fun row => row.id == tokenId := by
  simp only [Database.ownedToken, Store.holdings, List.find?_filter]
  congr
  funext row
  rw [Bool.eq_iff_iff]
  simp [and_comm]

structure OwnToken (d : Deployment) (env : Env) (userId : Str) (token : ScopedToken) (s : Store) : Prop where
  member : token ∈ s.db.tokens
  mine : token.userId = userId
  fresh : env.Fresh d s

theorem getOwnedScopedToken_isolated (tokenId : Str) :
    Isolated (tenant foreignKeys userId) (env.Fresh d) (getOwnedScopedToken userId tokenId)
      fun token => OwnToken d env userId token := by
  apply Isolated.query
  · intro s token _ fresh found
    split at found
    · next own search =>
      cases found
      have matched := List.find?_some search
      simp only [Bool.and_eq_true, beq_iff_eq] at matched
      exact ⟨List.mem_of_find?_eq_some search, matched.2, fresh⟩
    · cases found
  · intro s t _ _ agree _ _
    simp only [ownedToken_holdings, agree.holdings]

theorem rulesOf_holdings {token : ScopedToken} (own : OwnToken d env userId token s) :
    s.db.rulesOf token.id = ((s.holdings userId).rules.filter (·.1 == token.id)).map (·.2) := by
  simp only [Database.rulesOf, Store.holdings, List.filter_filter]
  congr 1
  apply List.filter_congr
  intro rule _
  by_cases same : rule.1 = token.id
  · have owned : ownRule s.db.tokens userId rule = true :=
      List.any_eq_true.mpr ⟨token, own.member, by simp [same, own.mine]⟩
    simp [owned]
  · simp [same]

theorem getScopedTokenDetail_isolated (tokenId : Str) :
    Isolated (tenant foreignKeys userId) (env.Fresh d) (getScopedTokenDetail userId tokenId) anyOutcome := by
  apply Isolated.bind (getOwnedScopedToken_isolated tokenId)
  intro token
  have rules : Isolated (tenant foreignKeys userId) (OwnToken d env userId token)
      (Stateful.reads fun s : Store => s.db.rulesOf token.id) anyOutcome := by
    apply Isolated.query
    · exact fun _ _ _ _ _ => trivial
    · intro s t _ _ agree ownS ownT
      simp only [rulesOf_holdings ownS, rulesOf_holdings ownT, agree.holdings]
  apply Isolated.bind rules
  intro _
  exact .pure fun _ _ => trivial

def updatedAt (tokenId : Str) (change : ScopedToken → ScopedToken) (row : ScopedToken) : ScopedToken :=
  if row.id = tokenId then change row else row

theorem KeepsBinding.updatedAt {change : ScopedToken → ScopedToken} (keeps : KeepsBinding change) (tokenId : Str) :
    KeepsBinding (updatedAt tokenId change) := by
  constructor <;> intro row <;> unfold CfProxy.updatedAt <;> split
  · exact keeps.id row
  · rfl
  · exact keeps.userId row
  · rfl
  · exact keeps.credential row
  · rfl

theorem updateToken_isolated {token : ScopedToken} {change : ScopedToken → ScopedToken} (keeps : KeepsBinding change)
    (unique : ∀ s, Tenancy foreignKeys s → OwnToken d env userId token s →
      ((s.db.tokens.map (updatedAt token.id change)).map (·.lookupId)).Nodup ∧
        ((s.db.tokens.map (updatedAt token.id change)).map (·.tokenHash)).Nodup) :
    Isolated (tenant foreignKeys userId) (OwnToken d env userId token)
      (commitDb fun db => db.updateToken token.id change) anyOutcome := by
  have updated : ∀ s, Tenancy foreignKeys s → OwnToken d env userId token s →
      s.db.updateToken token.id change = .ok (mapTokens s.db (updatedAt token.id change)) :=
    fun s inv own => if_pos (unique s inv own)
  apply commitDb_isolated
  · intro s db inv own wrote
    rw [updated s inv own] at wrote
    cases wrote
    obtain ⟨lookupIds, tokenHashes⟩ := unique s inv own
    refine ⟨(keeps.updatedAt token.id).tenancy inv lookupIds tokenHashes, ?_, trivial⟩
    intro other apart
    apply (keeps.updatedAt token.id).holdings_other
    intro row member theirs
    apply if_neg
    intro same
    obtain rfl := List.inj_on_of_nodup_map inv.tokenIds member own.member same
    exact apart (theirs.symm.trans own.mine)
  · intro s t invS invT agree ownS ownT
    exact .inr ⟨_, _, updated s invS ownS, updated t invT ownT, (keeps.updatedAt token.id).agree agree⟩

theorem updatedAt_nodup {key : ScopedToken → Str} {tokenId value : Str} {change : ScopedToken → ScopedToken}
    {tokens : List ScopedToken} (ids : (tokens.map (·.id)).Nodup) (keys : (tokens.map key).Nodup)
    (new : ∀ token ∈ tokens, key token ≠ value) (writes : ∀ token, key (change token) = value) :
    ((tokens.map (updatedAt tokenId change)).map key).Nodup := by
  rw [List.map_map]
  refine List.Nodup.map_on ?_ (List.Nodup.of_map _ ids)
  intro first memberFirst second memberSecond same
  by_cases isFirst : first.id = tokenId <;> by_cases isSecond : second.id = tokenId
  · exact List.inj_on_of_nodup_map ids memberFirst memberSecond (isFirst.trans isSecond.symm)
  · simp only [updatedAt, Function.comp_apply, isFirst, isSecond, if_true, if_false, writes] at same
    exact absurd same.symm (new second memberSecond)
  · simp only [updatedAt, Function.comp_apply, isFirst, isSecond, if_true, if_false, writes] at same
    exact absurd same (new first memberFirst)
  · simp only [updatedAt, Function.comp_apply, isFirst, isSecond, if_false] at same
    exact List.inj_on_of_nodup_map keys memberFirst memberSecond same

theorem updatedAt_kept {key : ScopedToken → Str} {tokenId : Str} {change : ScopedToken → ScopedToken}
    {tokens : List ScopedToken} (keys : (tokens.map key).Nodup) (keeps : ∀ token, key (change token) = key token) :
    ((tokens.map (updatedAt tokenId change)).map key).Nodup := by
  have same : (tokens.map (updatedAt tokenId change)).map key = tokens.map key := by
    rw [List.map_map]
    apply List.map_congr_left
    intro token _
    by_cases here : token.id = tokenId <;> simp [updatedAt, here, keeps]
  rw [same]
  exact keys

theorem uncache_isolated (keys : List Str) :
    Isolated (tenant foreignKeys userId) (anyOutcome ()) (cacheDel env keys) anyOutcome :=
  cacheDel_isolated keys fun _ _ => trivial

theorem rotateScopedToken_isolated (tokenId : Str) :
    Isolated (tenant foreignKeys userId) (env.Fresh d) (rotateScopedToken d env userId tokenId) anyOutcome := by
  apply Isolated.bind (getOwnedScopedToken_isolated tokenId)
  intro token
  apply Isolated.bind
  · apply updateToken_isolated
    · exact ⟨fun _ => rfl, fun _ => rfl, fun _ => rfl⟩
    · intro s inv own
      exact ⟨updatedAt_nodup inv.tokenIds inv.lookupIds (fun other member => (own.fresh.generated other member).1)
          fun _ => rfl,
        updatedAt_nodup inv.tokenIds inv.tokenHashes (fun other member => (own.fresh.generated other member).2)
          fun _ => rfl⟩
  · intro _
    apply Isolated.bind (uncache_isolated _)
    intro _
    exact .pure fun _ _ => trivial

theorem revokeScopedToken_isolated (tokenId : Str) :
    Isolated (tenant foreignKeys userId) (env.Fresh d) (revokeScopedToken env userId tokenId) anyOutcome := by
  apply Isolated.bind (getOwnedScopedToken_isolated tokenId)
  intro token
  apply Isolated.bind
  · apply updateToken_isolated
    · exact ⟨fun _ => rfl, fun _ => rfl, fun _ => rfl⟩
    · intro s inv own
      exact ⟨updatedAt_kept inv.lookupIds fun _ => rfl, updatedAt_kept inv.tokenHashes fun _ => rfl⟩
  · intro _
    exact uncache_isolated _

end Tokens

section Commands

theorem listAuditLogs_holdings (s : Store) (userId : Str) (query : LogQuery) :
    pageOf query (s.auditLogs.filter fun log => log.row.userId == userId && query.admits log) =
      pageOf query ((s.holdings userId).auditLogs.filter query.admits) := by
  simp only [Store.holdings, List.filter_filter, Bool.and_comm]

theorem manage_isolated (command : Command) :
    Isolated (tenant foreignKeys userId) (env.Fresh d) (manage d env userId command) anyOutcome := by
  cases command with
  | register => exact returns_isolated (registerCredential_isolated _ _ _ _ _) _
  | verify => exact returns_isolated verifyCredential_isolated _
  | listCredentials => exact returns_isolated (reads_isolated fun s t agree => congrArg Holdings.credentials agree.holdings) _
  | deleteCredential => exact returns_isolated deleteCredential_isolated _
  | listZones => exact returns_isolated listCredentialZones_isolated _
  | listRecords => exact returns_isolated (listCredentialZoneRecords_isolated _ _) _
  | mint => exact returns_isolated (mintScopedToken_isolated _ _ _ _) _
  | listTokens => exact returns_isolated (reads_isolated fun s t agree => congrArg Holdings.tokens agree.holdings) _
  | detail => exact returns_isolated (getScopedTokenDetail_isolated _) _
  | rotate => exact returns_isolated (rotateScopedToken_isolated _) _
  | revoke => exact returns_isolated (revokeScopedToken_isolated _) _
  | listAuditLogs query =>
    have logs : Isolated (tenant foreignKeys userId) (env.Fresh d) (AuditService.listAuditLogs userId query) anyOutcome := by
      apply reads_isolated
      intro s t agree
      rw [listAuditLogs_holdings, listAuditLogs_holdings, agree.holdings]
    exact returns_isolated logs _

end Commands

end CfProxy
