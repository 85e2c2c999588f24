import CfProxy.Services.Tenants

set_option autoImplicit false

namespace CfProxy.RuleHistory

open Text Scope Models Cache TokenPlane CredentialService TokenService AuditService Client OauthService Stateful Machine
  System

variable {foreignKeys : Bool} {d : Deployment} {env : Env} {userId credentialId : Str}

def binding (token : ScopedToken) : Str × Str × Str := (token.id, token.userId, token.upstreamCredentialId)

structure Bound (s after : Store) : Prop where
  tokens : after.db.tokens.map binding = s.db.tokens.map binding
  rules : after.db.rules = s.db.rules

instance : Std.Refl Bound where
  refl _ := ⟨rfl, rfl⟩

instance : IsTrans Store Bound where
  trans _ _ _ first second := ⟨second.tokens.trans first.tokens, second.rules.trans first.rules⟩

section Bound

variable {s after : Store}

theorem Bound.of_credentials {credentials : List UpstreamCredential} {db : Database}
    (same : db = { s.db with credentials }) : Bound s (s.withDb db) := by
  subst same
  exact ⟨rfl, rfl⟩

theorem Bound.of_db (same : after.db = s.db) : Bound s after := ⟨by rw [same], by rw [same]⟩

theorem Bound.of_map {change : ScopedToken → ScopedToken} (keeps : KeepsBinding change) :
    Bound s (s.withDb (mapTokens s.db change)) where
  tokens := by
    have same : binding ∘ change = binding := by
      funext token
      simp [binding, keeps.id, keeps.userId, keeps.credential]
    simp [mapTokens, same]
  rules := rfl

theorem commitDb_bound {write : Database → Except PyError Database}
    (each : ∀ (s : Store) db, write s.db = .ok db → Bound s (s.withDb db)) : Within Bound (commitDb write) := by
  apply Within.commit
  intro s after wrote
  cases written : write s.db with
  | error raised => simp [written] at wrote
  | ok db =>
    obtain rfl : s.withDb db = after := by simpa [written] using wrote
    exact each s db written

theorem updateCredential_bound (change : UpstreamCredential → UpstreamCredential) :
    Within Bound (commitDb fun db => db.updateCredential credentialId change) :=
  commitDb_bound fun _ _ updated => .of_credentials (updateCredential_ok updated)

theorem cacheSetJson_bound (key : Str) (value : Json) : Within Bound (cacheSetJson env key value) := by
  apply Within.modify
  intro s
  apply Bound.of_db
  split <;> rfl

theorem cacheDel_bound (keys : List Str) : Within Bound (cacheDel env keys) := by
  apply Within.modify
  intro s
  apply Bound.of_db
  split <;> rfl

theorem refreshUnderLock_bound (locked : UpstreamCredential) : Within Bound (refreshUnderLock d env locked) := by
  apply Within.bind (.lift _)
  intro renewal
  apply Within.bind
  · apply commitDb_bound
    rintro s _ ⟨⟩
    exact .of_credentials rfl
  · intro _
    apply Within.bind
    · unfold cacheRenewal
      split
      · exact .pure ()
      · exact cacheSetJson_bound _ _
    · intro _
      exact .pure _

theorem resolveUpstreamAuth_bound (credential : UpstreamCredential) :
    Within Bound (resolveUpstreamAuth d env credential) := by
  unfold resolveUpstreamAuth
  split
  · exact .lift _
  · refine .bind ?_ fun _ => .pure _
    unfold getValidAccessToken
    split
    · exact .lift _
    · apply Within.bind (.query _)
      intro cachedEnc
      split
      · exact .lift _
      · apply Within.bind (.query _)
        intro locked
        apply Within.bind (.lift _)
        intro valid
        split
        · exact .lift _
        · exact refreshUnderLock_bound locked

theorem updateToken_bound {change : ScopedToken → ScopedToken} (keeps : KeepsBinding change) (tokenId : Str) :
    Within Bound (commitDb fun db => db.updateToken tokenId change) := by
  apply commitDb_bound
  intro s db updated
  unfold Database.updateToken at updated
  dsimp only at updated
  split at updated <;> cases updated
  exact .of_map (keeps.updatedAt tokenId)

theorem deleteCredential_bound : Within Bound (CredentialService.deleteCredential env userId credentialId) := by
  apply Within.bind (.query _)
  intro _
  apply Within.bind (.query _)
  intro tokens
  apply Within.bind (.forEach fun keys => cacheDel_bound keys)
  intro _
  apply commitDb_bound
  intro s db deleted
  rw [cascadeDelete_eq] at deleted
  split at deleted <;> cases deleted
  have kept : Bound s (s.withDb (mapTokens s.db (cascadeRow tokens env.now))) :=
    .of_map (cascadeRow_keepsBinding tokens env.now)
  exact ⟨kept.tokens, kept.rules⟩

theorem registerCredential_bound (label credType : Str) (apiToken globalKey cfAccountEmail : Option Str) :
    Within Bound (registerCredential d env userId label credType apiToken globalKey cfAccountEmail) := by
  apply Within.bind (.lift _)
  intro secret
  apply Within.bind
  · apply commitDb_bound
    intro s db inserted
    exact .of_credentials (insertCredential_ok inserted)
  · intro _
    exact .pure _

theorem verifyCredential_bound : Within Bound (verifyCredential d env userId credentialId) := by
  apply Within.bind (.query _)
  intro credential
  apply Within.bind (resolveUpstreamAuth_bound credential)
  intro authHeaders
  apply Within.bind (.lift _)
  intro envelope
  apply Within.bind (.lift _)
  rintro ⟨status, email⟩
  apply Within.bind (updateCredential_bound _)
  intro _
  exact .query _

theorem listCredentialZones_bound : Within Bound (listCredentialZones d env userId credentialId) := by
  apply Within.bind (.query _)
  intro credential
  apply Within.bind (.query _)
  intro cached
  split
  · apply Within.bind (resolveUpstreamAuth_bound credential)
    intro authHeaders
    apply Within.bind (.lift _)
    intro zones
    apply Within.bind (cacheSetJson_bound _ _)
    intro _
    exact .pure _
  · exact .pure _

theorem listCredentialZoneRecords_bound (zoneId : Str) (params : Option (List (Str × Json))) :
    Within Bound (listCredentialZoneRecords d env userId credentialId zoneId params) := by
  apply Within.bind (.query _)
  intro credential
  apply Within.bind (resolveUpstreamAuth_bound credential)
  intro authHeaders
  exact .lift _

theorem rotateScopedToken_bound (tokenId : Str) : Within Bound (rotateScopedToken d env userId tokenId) := by
  apply Within.bind (.query _)
  intro token
  have keeps : KeepsBinding (rotateRow d.settings token env.generated) := by
    constructor <;> exact fun _ => rfl
  apply Within.bind (updateToken_bound keeps token.id)
  intro _
  apply Within.bind (cacheDel_bound _)
  intro _
  exact .pure _

theorem revokeScopedToken_bound (tokenId : Str) : Within Bound (revokeScopedToken env userId tokenId) := by
  apply Within.bind (.query _)
  intro token
  have keeps : KeepsBinding (revokeRow token env.now) := by
    constructor <;> exact fun _ => rfl
  apply Within.bind (updateToken_bound keeps token.id)
  intro _
  exact cacheDel_bound _

theorem validateEach_bound (credential : UpstreamCredential) (specs : List RuleSpec) (known : Option Headers)
    (names : ZoneNames) : Within Bound (validateEach d env credential specs known names) := by
  induction specs generalizing known names with
  | nil => exact .pure ()
  | cons spec rest ih =>
    unfold validateEach
    dsimp only
    split
    · exact .raise _
    · split
      · exact ih known names
      · apply Within.bind
        · cases known with
          | some authHeaders => exact .pure authHeaders
          | none => exact resolveUpstreamAuth_bound credential
        · intro authHeaders
          apply Within.bind (.lift _)
          rintro ⟨zoneName, later⟩
          apply Within.bind (.lift _)
          intro _
          exact ih (some authHeaders) later

theorem validateScopeRules_bound (credential : UpstreamCredential) (specs : List RuleSpec) :
    Within Bound (TokenService.validateScopeRules d env credential specs) := by
  unfold TokenService.validateScopeRules
  split
  · exact .raise _
  · exact validateEach_bound credential specs none []

end Bound

section Accepted

variable {s first : Store} {credential : UpstreamCredential}

structure Accepted (d : Deployment) (env : Env) (credential : UpstreamCredential) (s : Store) (spec : RuleSpec) :
    Prop where
  restricts : spec.namePattern.getD [] ≠ [] ∨ spec.recordIds.getD [] ≠ []
  inZone : spec.namePattern.getD [] ≠ [] → ∃ authHeaders zoneName,
    (resolveUpstreamAuth d env credential s).1 = .ok authHeaders ∧
    (readZoneName (env.world d) spec.zoneId authHeaders).result = .ok zoneName ∧
    validateNamePattern d.settings.unicode (spec.namePattern.getD []) (spec.nameMatch.getD exact) zoneName = .ok ()

-- What has been looked up is what the upstream gives, and nothing has happened before the first look-up.
structure Known (d : Deployment) (env : Env) (credential : UpstreamCredential) (first s : Store)
    (known : Option Headers) (names : ZoneNames) : Prop where
  start : known = none → s = first
  headers : ∀ authHeaders ∈ known, (resolveUpstreamAuth d env credential first).1 = .ok authHeaders
  names : ∀ zoneId name, names.lookup zoneId = some name →
    ∃ authHeaders ∈ known, (readZoneName (env.world d) zoneId authHeaders).result = .ok name

theorem Known.resolves {known : Option Headers} {names : ZoneNames} (holds : Known d env credential first s known names)
    {authHeaders : Headers} {after : Store}
    (resolved : resolveOnce d env credential known s = (.ok authHeaders, after)) :
    (resolveUpstreamAuth d env credential first).1 = .ok authHeaders ∧ ∀ found ∈ known, found = authHeaders := by
  cases known with
  | none =>
    rw [holds.start rfl] at resolved
    exact ⟨congrArg Prod.fst resolved, by simp⟩
  | some found =>
    cases resolved
    exact ⟨holds.headers _ rfl, by simp⟩

theorem Known.zoneName {known : Option Headers} {names later : ZoneNames}
    (holds : Known d env credential first s known names) {authHeaders : Headers}
    (resolved : (resolveUpstreamAuth d env credential first).1 = .ok authHeaders)
    (same : ∀ found ∈ known, found = authHeaders) {zoneId name : Str}
    (looked : resolveZoneName (env.world d) zoneId authHeaders names = .ok (name, later)) (after : Store) :
    (readZoneName (env.world d) zoneId authHeaders).result = .ok name ∧
      Known d env credential first after (some authHeaders) later := by
  have old : ∀ zoneId name, names.lookup zoneId = some name →
      (readZoneName (env.world d) zoneId authHeaders).result = .ok name := by
    intro zoneId name found
    obtain ⟨headers, given, read⟩ := holds.names zoneId name found
    rwa [same headers given] at read
  unfold resolveZoneName at looked
  split at looked
  · next found =>
    cases looked
    refine ⟨old _ _ found, by simp, by simpa using resolved, ?_⟩
    exact fun zoneId name found => ⟨authHeaders, rfl, old zoneId name found⟩
  · obtain ⟨read, isRead, looked⟩ := Except.bind_eq_ok.mp looked
    cases looked
    refine ⟨isRead, by simp, by simpa using resolved, ?_⟩
    intro other name found
    refine ⟨authHeaders, rfl, ?_⟩
    rw [List.lookup_cons] at found
    split at found
    · next here =>
      obtain rfl : other = zoneId := by simpa using here
      cases found
      exact isRead
    · exact old other name found

theorem validateEach_accepts {specs : List RuleSpec} {known : Option Headers} {names : ZoneNames}
    (holds : Known d env credential first s known names)
    (valid : (validateEach d env credential specs known names s).1 = .ok ()) :
    ∀ spec ∈ specs, Accepted d env credential first spec := by
  induction specs generalizing known names s with
  | nil => simp
  | cons spec rest ih =>
    unfold validateEach at valid
    dsimp only at valid
    split at valid
    · cases valid
    · next restricted =>
      have restricts : spec.namePattern.getD [] ≠ [] ∨ spec.recordIds.getD [] ≠ [] := by
        simpa [List.isEmpty_iff, -not_and, Classical.not_and_iff_not_or_not] using restricted
      split at valid
      · next empty =>
        refine List.forall_mem_cons.mpr ⟨⟨restricts, fun present => ?_⟩, ih holds valid⟩
        exact absurd (List.isEmpty_iff.mp empty) present
      · obtain ⟨authHeaders, after, resolved, valid⟩ := bind_returns valid
        obtain ⟨⟨zoneName, later⟩, looked, valid⟩ := lift_returns valid
        obtain ⟨⟨⟩, accepted, valid⟩ := lift_returns valid
        obtain ⟨given, same⟩ := holds.resolves resolved
        obtain ⟨read, knows⟩ := holds.zoneName given same looked after
        exact List.forall_mem_cons.mpr
          ⟨⟨restricts, fun _ => ⟨authHeaders, zoneName, given, read, accepted⟩⟩, ih knows valid⟩

theorem validateScopeRules_accepts {specs : List RuleSpec}
    (valid : (TokenService.validateScopeRules d env credential specs first).1 = .ok ()) :
    specs ≠ [] ∧ ∀ spec ∈ specs, Accepted d env credential first spec := by
  unfold TokenService.validateScopeRules at valid
  split at valid
  · cases valid
  · next present =>
    refine ⟨fun empty => present (List.isEmpty_iff.mpr empty), validateEach_accepts ⟨fun _ => rfl, ?_, ?_⟩ valid⟩
    · simp
    · simp

theorem getOwnedCredential_cases (userId credentialId : Str) (s : Store) :
    (∃ raised, getOwnedCredential userId credentialId s = (.error raised, s)) ∨
      ∃ row, s.db.ownedCredential userId credentialId = some row ∧
        getOwnedCredential userId credentialId s = (.ok row, s) := by
  cases owned : s.db.ownedCredential userId credentialId with
  | none => exact .inl ⟨notFound, by simp only [getOwnedCredential, query, owned]⟩
  | some row => exact .inr ⟨row, rfl, by simp only [getOwnedCredential, query, owned]⟩

theorem mintScopedToken_cases (d : Deployment) (env : Env) (order : MintOrder) (s : Store) :
    Bound s (mintScopedToken d env order s).2 ∨
      ∃ row between db, s.db.ownedCredential order.userId order.upstreamCredentialId = some row ∧
        order.scopeRules ≠ [] ∧ (∀ spec ∈ order.scopeRules, Accepted d env row s spec) ∧ Bound s between ∧
        between.db.insertToken (order.token d.settings env.newId env.generated)
          (order.scopeRules.map RuleSpec.rule) = .ok db ∧
        (mintScopedToken d env order s).2 = between.withDb db := by
  obtain ⟨raised, failed⟩ | ⟨row, owned, found⟩ :=
    getOwnedCredential_cases order.userId order.upstreamCredentialId s
  · rw [mintScopedToken, bind_error failed]
    exact .inl (refl_of Bound s)
  rw [mintScopedToken, bind_ok found]
  have within : Within Bound (TokenService.validateScopeRules d env row order.scopeRules) :=
    validateScopeRules_bound row order.scopeRules
  have kept := within.run s
  match validated : TokenService.validateScopeRules d env row order.scopeRules s with
  | (.error raised, between) =>
    rw [validated] at kept
    rw [bind_error validated]
    exact .inl kept
  | (.ok (), between) =>
    rw [validated] at kept
    rw [bind_ok validated]
    obtain ⟨present, accepted⟩ := validateScopeRules_accepts (congrArg Prod.fst validated)
    cases inserted : between.db.insertToken (order.token d.settings env.newId env.generated)
        (order.scopeRules.map RuleSpec.rule) with
    | error raised =>
      rw [bind_error (commitDb_error inserted)]
      exact .inl kept
    | ok db =>
      rw [bind_ok (commitDb_ok inserted)]
      exact .inr ⟨row, between, db, owned, present, accepted, kept, inserted, rfl⟩

def mintCommand (order : MintOrder) : Command :=
  .mint order.name order.upstreamCredentialId order.scopeRules order.expiresAt

theorem manage_bound (d : Deployment) (env : Env) (userId : Str) (command : Command) :
    Within Bound (manage d env userId command) ∨
      ∃ order : MintOrder, order.userId = userId ∧ mintCommand order = command := by
  cases command with
  | mint name upstreamCredentialId scopeRules expiresAt =>
    exact .inr ⟨{ userId, name, upstreamCredentialId, scopeRules, expiresAt }, rfl, rfl⟩
  | register => exact .inl (.bind (registerCredential_bound _ _ _ _ _) fun _ => .pure _)
  | verify => exact .inl (.bind verifyCredential_bound fun _ => .pure _)
  | listCredentials => exact .inl (.bind (.query _) fun _ => .pure _)
  | deleteCredential => exact .inl (.bind deleteCredential_bound fun _ => .pure _)
  | listZones => exact .inl (.bind listCredentialZones_bound fun _ => .pure _)
  | listRecords => exact .inl (.bind (listCredentialZoneRecords_bound _ _) fun _ => .pure _)
  | listTokens => exact .inl (.bind (.query _) fun _ => .pure _)
  | detail => exact .inl (.bind (.bind (.query _) fun _ => .bind (.query _) fun _ => .pure _) fun _ => .pure _)
  | rotate => exact .inl (.bind (rotateScopedToken_bound _) fun _ => .pure _)
  | revoke => exact .inl (.bind (revokeScopedToken_bound _) fun _ => .pure _)
  | listAuditLogs => exact .inl (.bind (.query _) fun _ => .pure _)

theorem handleCfOauthCallback_bound (d : Deployment) (env : Env) (code state : Str) (s : Store) :
    Bound s (handleCfOauthCallback d env code state s).2 := by
  obtain ⟨cache, outcome⟩ := handleCfOauthCallback_outcome d env code state s
  generalize handleCfOauthCallback d env code state s = result at outcome
  cases outcome with
  | failed raised => exact .of_db rfl
  | wrote _ _ _ written _ =>
    obtain ⟨-, scopes, inserted⟩ | ⟨loaded, scopes, -, updated⟩ := write_cases written
    · rw [insertCredential_ok inserted]
      exact ⟨rfl, rfl⟩
    · rw [updateCredential_ok updated]
      exact ⟨rfl, rfl⟩

theorem step_bound {before after : Site} {label : Label} (stepped : step d before label = some after) :
    Bound before.store after.store ∨
      ∃ (order : MintOrder) (env : Env), label = .manage order.userId (mintCommand order) env := by
  cases label with
  | manage userId command env =>
    obtain within | ⟨order, rfl, rfl⟩ := manage_bound d env userId command
    · simp only [step, Option.ite_none_right_eq_some] at stepped
      obtain ⟨-, stepped⟩ := stepped
      cases stepped
      exact .inl (within.run before.store)
    · exact .inr ⟨order, env, rfl⟩
  | startLogin drawn env =>
    cases stepped
    exact .inl (.of_db (startCfOauthLogin_db d env drawn))
  | callback code state env =>
    simp only [step, Option.ite_none_right_eq_some] at stepped
    obtain ⟨-, stepped⟩ := stepped
    cases stepped
    exact .inl (handleCfOauthCallback_bound d env code state before.store)
  | resolve credentialId env =>
    simp only [step, Option.ite_none_right_eq_some] at stepped
    obtain ⟨-, stepped⟩ := stepped
    cases stepped
    have within : Within Bound (resolveById d env credentialId) := .bind (.query _) resolveUpstreamAuth_bound
    exact .inl (within.run before.store)
  | audit log =>
    cases stepped
    exact .inl (.of_db rfl)
  | account row =>
    cases stepped
    exact .inl (.of_db rfl)
  | cache entries =>
    cases stepped
    exact .inl (.of_db rfl)

end Accepted

section History

variable {first : Site} {s after : Store} {token : ScopedToken}

-- A flag that is not given is off.
def Flagged (given : Option Bool) (flag : Bool) : Prop := flag = true ↔ given = some true

-- A rule as it is stored for what an owner asks.
structure Stored (spec : RuleSpec) (rule : ScopeRule) : Prop where
  zoneId : rule.zoneId = spec.zoneId
  namePattern : rule.namePattern = spec.namePattern
  nameMatch : spec.nameMatch = some rule.nameMatch ∨ spec.nameMatch = none ∧ rule.nameMatch = "exact".toList
  recordTypes : rule.recordTypes = spec.recordTypes
  recordIds : rule.recordIds = spec.recordIds
  allowRead : Flagged spec.allowRead rule.allowRead
  allowCreate : Flagged spec.allowCreate rule.allowCreate
  allowWrite : Flagged spec.allowWrite rule.allowWrite
  allowDelete : Flagged spec.allowDelete rule.allowDelete

theorem flagged_getD (given : Option Bool) : Flagged given (given.getD false) := by
  rcases given with _ | _ | _ <;> simp [Flagged]

theorem rule_stored (spec : RuleSpec) : Stored spec spec.rule where
  zoneId := rfl
  namePattern := rfl
  nameMatch := by
    cases chosen : spec.nameMatch with
    | none => exact .inr ⟨rfl, by rw [RuleSpec.rule, chosen]; rfl⟩
    | some nameMatch => exact .inl (by rw [RuleSpec.rule, chosen]; rfl)
  recordTypes := rfl
  recordIds := rfl
  allowRead := flagged_getD _
  allowCreate := flagged_getD _
  allowWrite := flagged_getD _
  allowDelete := flagged_getD _

theorem rules_stored (specs : List RuleSpec) : List.Forall₂ Stored specs (specs.map RuleSpec.rule) := by
  rw [List.forall₂_map_right_iff, List.forall₂_same]
  exact fun spec _ => rule_stored spec

def HasToken (s : Store) (tokenId : Str) : Prop := ∃ token ∈ s.db.tokens, token.id = tokenId

-- The mint of a token: where it stands among what was done, that the token is there since, and that the rules it was
-- given were accepted.
structure Mint (d : Deployment) (foreignKeys : Bool) (first : Site) (done : List Label) (token : ScopedToken)
    (rules : List ScopeRule) where
  order : MintOrder
  env : Env
  credential : UpstreamCredential
  earlier : List Label
  before : Site
  among : earlier ++ [.manage order.userId (mintCommand order) env] <+: done
  led : (site d foreignKeys).run first earlier = some before
  named : token.id = env.newId
  absent : ¬HasToken before.store token.id
  made : ∃ after, (site d foreignKeys).step before (.manage order.userId (mintCommand order) env) = some after ∧
    HasToken after.store token.id
  binds : token.userId = order.userId ∧ token.upstreamCredentialId = order.upstreamCredentialId
  owned : credential ∈ before.store.db.credentials ∧ credential.id = order.upstreamCredentialId ∧
    credential.userId = order.userId
  given : List.Forall₂ Stored order.scopeRules rules
  present : order.scopeRules ≠ []
  accepted : ∀ spec ∈ order.scopeRules, Accepted d env credential before.store spec

theorem Mint.later {done later : List Label} {rules : List ScopeRule} (mint : Mint d foreignKeys first done token rules)
    (more : done <+: later) : Nonempty (Mint d foreignKeys first later token rules) :=
  ⟨{ mint with among := mint.among.trans more }⟩

theorem Mint.rebind {done : List Label} {rules : List ScopeRule} {other : ScopedToken}
    (mint : Mint d foreignKeys first done other rules) (same : binding other = binding token) :
    Nonempty (Mint d foreignKeys first done token rules) := by
  simp only [binding, Prod.mk.injEq] at same
  obtain ⟨id, owner, credential⟩ := same
  exact ⟨{ mint with
    named := id ▸ mint.named
    absent := id ▸ mint.absent
    made := id ▸ mint.made
    binds := owner ▸ credential ▸ mint.binds }⟩

theorem Bound.old (bound : Bound s after) (member : token ∈ after.db.tokens) :
    ∃ old ∈ s.db.tokens, binding old = binding token ∧ after.db.rulesOf token.id = s.db.rulesOf old.id := by
  have listed : binding token ∈ s.db.tokens.map binding := bound.tokens ▸ List.mem_map_of_mem member
  obtain ⟨old, held, same⟩ := List.mem_map.mp listed
  have ids : old.id = token.id := congrArg Prod.fst same
  exact ⟨old, held, same, by rw [Database.rulesOf, Database.rulesOf, bound.rules, ids]⟩

theorem rulesOf_addToken (db : Database) (row : ScopedToken) (rules : List ScopeRule) (tokenId : Str) :
    (addToken db row rules).rulesOf tokenId = db.rulesOf tokenId ++ if row.id = tokenId then rules else [] := by
  have new : ((rules.map (row.id, ·)).filter (·.1 == tokenId)).map (·.2) = if row.id = tokenId then rules else [] := by
    by_cases same : row.id = tokenId <;> simp [List.filter_map, Function.comp_def, same]
  simp only [Database.rulesOf, addToken, List.filter_append, List.map_append, new]

theorem rulesOf_unused (inv : Tenancy foreignKeys s) {tokenId : Str} (unused : ∀ token ∈ s.db.tokens, token.id ≠ tokenId) :
    s.db.rulesOf tokenId = [] := by
  have none : s.db.rules.filter (·.1 == tokenId) = [] := by
    rw [List.filter_eq_nil_iff]
    intro rule member same
    obtain ⟨token, held, id⟩ := inv.rules rule member
    exact unused token held (id.trans (by simpa using same))
  rw [Database.rulesOf, none, List.map_nil]

theorem insertToken_added {db after : Database} {row : ScopedToken} {rules : List ScopeRule}
    (inserted : db.insertToken row rules = .ok after) : after = addToken db row rules := by
  unfold Database.insertToken at inserted
  split at inserted
  · cases inserted
  · split at inserted <;> cases inserted
    rfl

def AsMinted (d : Deployment) (foreignKeys : Bool) (first : Site) (done : List Label) (s : Store) : Prop :=
  ∀ token ∈ s.db.tokens, Nonempty (Mint d foreignKeys first done token (s.db.rulesOf token.id))

theorem AsMinted.bound {done : List Label} (minted : AsMinted d foreignKeys first done s) (bound : Bound s after) :
    AsMinted d foreignKeys first done after := by
  intro token member
  obtain ⟨old, held, same, rules⟩ := bound.old member
  obtain ⟨mint⟩ := minted old held
  rw [rules]
  exact mint.rebind same

theorem AsMinted.later {done later : List Label} (minted : AsMinted d foreignKeys first done s) (more : done <+: later) :
    AsMinted d foreignKeys first later s := by
  intro token member
  obtain ⟨mint⟩ := minted token member
  exact mint.later more

theorem returns_store {α β : Type} (x : Operation α) (answer : α → β) (s : Store) :
    ((do return answer (← x) : Operation β) s).2 = (x s).2 := by
  match ran : x s with
  | (.ok value, after) => rw [bind_ok ran]; rfl
  | (.error raised, after) => rw [bind_error ran]

theorem ownedCredential_some {row : UpstreamCredential} (owned : s.db.ownedCredential userId credentialId = some row) :
    row ∈ s.db.credentials ∧ row.id = credentialId ∧ row.userId = userId := by
  have matched := List.find?_some owned
  simp only [Bool.and_eq_true, beq_iff_eq] at matched
  exact ⟨List.mem_of_find?_eq_some owned, matched⟩

theorem AsMinted.mint {done : List Label} {before after : Site} {order : MintOrder}
    (ran : (site d foreignKeys).run first done = some before) (inv : Tenancy foreignKeys before.store)
    (fresh : env.Fresh d before.store)
    (stepped : (site d foreignKeys).step before (.manage order.userId (mintCommand order) env) = some after)
    (state : after.store = (mintScopedToken d env order before.store).2)
    (minted : AsMinted d foreignKeys first (done ++ [.manage order.userId (mintCommand order) env]) before.store) :
    AsMinted d foreignKeys first (done ++ [.manage order.userId (mintCommand order) env]) after.store := by
  obtain bound | ⟨row, between, db, owned, present, accepted, bound, inserted, wrote⟩ :=
    mintScopedToken_cases d env order before.store
  · rw [state]
    exact minted.bound bound
  have stored := state
  rw [wrote, insertToken_added inserted] at stored
  rw [stored]
  have apart : ∀ token ∈ between.db.tokens, (order.token d.settings env.newId env.generated).id ≠ token.id := by
    intro token member
    obtain ⟨old, held, same, -⟩ := bound.old member
    have ids : old.id = token.id := congrArg Prod.fst same
    exact ids ▸ (fresh.tokens old held).1.symm
  intro token member
  rw [Store.withDb_db, rulesOf_addToken]
  rcases List.mem_append.mp member with old | new
  · rw [if_neg (apart token old), List.append_nil]
    exact minted.bound bound token old
  · obtain rfl := List.mem_singleton.mp new
    have unruled : between.db.rulesOf env.newId = [] := by
      have none := rulesOf_unused inv fun token held => (fresh.tokens token held).1
      rwa [Database.rulesOf, ← bound.rules] at none
    have rules : between.db.rulesOf env.newId ++ order.scopeRules.map RuleSpec.rule =
        order.scopeRules.map RuleSpec.rule := by
      rw [unruled, List.nil_append]
    exact ⟨{
      order
      env
      credential := row
      earlier := done
      before
      among := List.prefix_rfl
      led := ran
      named := rfl
      absent := by
        rintro ⟨held, member, same⟩
        exact (fresh.tokens held member).1 same
      made := ⟨after, stepped, _, stored ▸ List.mem_append_right _ (List.mem_singleton_self _), rfl⟩
      binds := ⟨rfl, rfl⟩
      owned := ownedCredential_some owned
      given := by
        rw [if_pos rfl]
        exact rules.symm ▸ rules_stored order.scopeRules
      present
      accepted }⟩

theorem AsMinted.step {done : List Label} {before after : Site} {label : Label}
    (ran : (site d foreignKeys).run first done = some before) (inv : Tenancy foreignKeys before.store)
    (minted : AsMinted d foreignKeys first done before.store) (stepped : step d before label = some after) :
    AsMinted d foreignKeys first (done ++ [label]) after.store := by
  have kept := minted.later (List.prefix_append done [label])
  obtain bound | ⟨order, env, rfl⟩ := step_bound stepped
  · exact kept.bound bound
  have taken := stepped
  simp only [CfProxy.step, Option.ite_none_right_eq_some] at taken
  obtain ⟨fresh, taken⟩ := taken
  have state : after.store = (mintScopedToken d env order before.store).2 := by
    cases taken
    exact returns_store _ _ _
  exact kept.mint ran inv fresh stepped state

theorem rules_as_minted {labels : List Label} {c : Site} (initial : (site d foreignKeys).init first)
    (ran : (site d foreignKeys).run first labels = some c) {token : ScopedToken} (member : token ∈ c.store.db.tokens) :
    Nonempty (Mint d foreignKeys first labels token (c.store.db.rulesOf token.id)) := by
  have minted : AsMinted d foreignKeys first labels c.store := by
    refine System.run_history (fun done c => AsMinted d foreignKeys first done c.store) ?_ ?_ ran
    · obtain rfl := initial
      intro token member
      cases member
    · intro past state label after before held stepped
      have reached : (site d foreignKeys).Reachable unrestricted state :=
        .run (.start initial) (fun _ _ _ => trivial) before
      exact held.step before (reachable_tenancy reached) stepped
  exact minted token member

end History

section Example

def naming : Env :=
  { drawing ['3'] issued with
    reply := fun _ => .ok ⟨200, .ok (.obj [(resultKey, .obj [("name".toList, .str "a.b".toList)])])⟩ }

def wwwSpec : RuleSpec where
  zoneId := ['z']
  namePattern := some "www.a.b".toList
  nameMatch := none
  recordTypes := [['A']]
  recordIds := none
  allowRead := some true
  allowCreate := none
  allowWrite := none
  allowDelete := none

-- A token is minted and rotated, and then its credential cannot be deleted.
def mintAndRotate : List Label := [
  .manage ['a'] (.register ['l'] tokenType (some ['s']) none none) (drawing ['1'] issued),
  .manage ['a'] (.mint ['n'] ['1'] [wwwSpec] none) naming,
  .manage ['a'] (.rotate ['3']) (drawing ['4'] firstDraw),
  .manage ['a'] (.deleteCredential ['1']) (drawing ['5'] issued)]

def nothingStored : Site := { store := { db := .empty true } }

theorem rotated_as_minted : ∃ c : Site, (site plainDeployment true).run nothingStored mintAndRotate = some c ∧
    ∃ token ∈ c.store.db.tokens, token.version = 2 ∧
      Nonempty (Mint plainDeployment true nothingStored mintAndRotate token (c.store.db.rulesOf token.id)) := by
  have ran : ((site plainDeployment true).run nothingStored mintAndRotate).map (·.store.db.tokens.map (·.version)) =
      some [2] := by
    decide +kernel
  obtain ⟨c, ran, versions⟩ := Option.map_eq_some_iff.mp ran
  obtain ⟨token, member, version⟩ := List.mem_map.mp (versions ▸ List.mem_singleton_self 2)
  exact ⟨c, ran, token, member, version, rules_as_minted rfl ran member⟩

end Example

end CfProxy.RuleHistory
