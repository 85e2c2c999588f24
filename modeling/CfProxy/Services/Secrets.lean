import CfProxy.Services.Tenants

set_option autoImplicit false

namespace CfProxy

open Scope Models Cache Crypto TokenPlane CredentialService TokenService AuditService Client OauthService Stateful

variable {d : Deployment} {env : Env} {userId credentialId : Str}

structure KeepsSecret (change : UpstreamCredential → UpstreamCredential) : Prop where
  id : ∀ row, (change row).id = row.id
  userId : ∀ row, (change row).userId = row.userId
  label : ∀ row, (change row).label = row.label
  credType : ∀ row, (change row).credType = row.credType
  secretEnc : ∀ row, (change row).secretEnc = row.secretEnc

theorem KeepsSecret.unchanged : KeepsSecret fun row => row := by
  constructor <;> exact fun _ => rfl

theorem KeepsSecret.comp {first second : UpstreamCredential → UpstreamCredential} (before : KeepsSecret first)
    (after : KeepsSecret second) : KeepsSecret (second ∘ first) where
  id row := (after.id (first row)).trans (before.id row)
  userId row := (after.userId (first row)).trans (before.userId row)
  label row := (after.label (first row)).trans (before.label row)
  credType row := (after.credType (first row)).trans (before.credType row)
  secretEnc row := (after.secretEnc (first row)).trans (before.secretEnc row)

theorem KeepsSecret.only {change : UpstreamCredential → UpstreamCredential} (keeps : KeepsSecret change)
    (selected : UpstreamCredential → Prop) [DecidablePred selected] :
    KeepsSecret fun row => if selected row then change row else row := by
  constructor <;> intro row <;> split
  · exact keeps.id row
  · rfl
  · exact keeps.userId row
  · rfl
  · exact keeps.label row
  · rfl
  · exact keeps.credType row
  · rfl
  · exact keeps.secretEnc row
  · rfl

def Retains (s after : Store) : Prop :=
  ∃ change, KeepsSecret change ∧ after.db.credentials.Sublist (s.db.credentials.map change)

instance : Std.Refl Retains where
  refl s := ⟨fun row => row, .unchanged, by rw [List.map_id']⟩

instance : IsTrans Store Retains where
  trans := by
    rintro s between after ⟨first, keepsFirst, left⟩ ⟨second, keepsSecond, leftLater⟩
    refine ⟨second ∘ first, keepsFirst.comp keepsSecond, leftLater.trans ?_⟩
    rw [← List.map_map]
    exact left.map second

section Retains

variable {s after : Store}

theorem Retains.of_credentials (same : after.db.credentials = s.db.credentials) : Retains s after :=
  ⟨fun row => row, .unchanged, by rw [same, List.map_id']⟩

theorem Retains.of_map {change : UpstreamCredential → UpstreamCredential} (keeps : KeepsSecret change)
    (mapped : after.db.credentials = s.db.credentials.map change) : Retains s after :=
  ⟨change, keeps, by rw [mapped]⟩

theorem commitDb_within {write : Database → Except PyError Database}
    (each : ∀ (s : Store) db, write s.db = .ok db → Retains s (s.withDb db)) : Within Retains (commitDb write) := by
  apply Within.commit
  intro s after wrote
  cases written : write s.db with
  | error raised => simp [written] at wrote
  | ok db =>
    obtain rfl : s.withDb db = after := by simpa [written] using wrote
    exact each s db written

theorem updateCredential_within {change : UpstreamCredential → UpstreamCredential} (keeps : KeepsSecret change)
    (credentialId : Str) : Within Retains (commitDb fun db => db.updateCredential credentialId change) := by
  apply commitDb_within
  intro s db updated
  apply Retains.of_map (keeps.only fun row => row.id = credentialId)
  rw [updateCredential_ok updated]
  rfl

theorem cacheSetJson_within (key : Str) (value : Json) : Within Retains (cacheSetJson env key value) := by
  apply Within.modify
  intro s
  apply Retains.of_credentials
  split <;> rfl

theorem cacheDel_within (keys : List Str) : Within Retains (cacheDel env keys) := by
  apply Within.modify
  intro s
  apply Retains.of_credentials
  split <;> rfl

theorem storeRenewal_within (locked : UpstreamCredential) (renewal : Renewal) :
    Within Retains (storeRenewal d env locked renewal) := by
  have keeps : KeepsSecret (renewedRow d env locked renewal) := by
    constructor <;> exact fun _ => rfl
  apply commitDb_within
  rintro s _ ⟨⟩
  exact .of_map (keeps.only _) rfl

theorem refreshUnderLock_within (locked : UpstreamCredential) : Within Retains (refreshUnderLock d env locked) := by
  apply Within.bind (.lift _)
  intro renewal
  apply Within.bind (storeRenewal_within locked renewal)
  intro _
  apply Within.bind
  · unfold cacheRenewal
    split
    · exact .pure ()
    · exact cacheSetJson_within _ _
  · intro _
    exact .pure _

theorem getValidAccessToken_within (credential : UpstreamCredential) :
    Within Retains (getValidAccessToken d env credential) := by
  unfold getValidAccessToken
  split
  · exact .lift _
  · apply Within.bind (.query _)
    intro cachedEnc
    split
    · exact .lift _
    · apply Within.bind (.query _)
      intro locked
      apply Within.bind (.lift _)
      intro valid
      split
      · exact .lift _
      · exact refreshUnderLock_within locked

theorem resolveUpstreamAuth_within (credential : UpstreamCredential) :
    Within Retains (resolveUpstreamAuth d env credential) := by
  unfold resolveUpstreamAuth
  split
  · exact .lift _
  · exact .bind (getValidAccessToken_within credential) fun _ => .pure _

theorem verifyCredential_within : Within Retains (verifyCredential d env userId credentialId) := by
  apply Within.bind (.query _)
  intro credential
  apply Within.bind (resolveUpstreamAuth_within credential)
  intro authHeaders
  apply Within.bind (.lift _)
  intro envelope
  apply Within.bind (.lift _)
  rintro ⟨status, email⟩
  have keeps : KeepsSecret (verifiedRow env status email) := by
    constructor <;> exact fun _ => rfl
  apply Within.bind (updateCredential_within keeps credential.id)
  intro _
  exact .query _

theorem deleteCredential_within : Within Retains (CredentialService.deleteCredential env userId credentialId) := by
  apply Within.bind (.query _)
  intro _
  apply Within.bind (.query _)
  intro tokens
  apply Within.bind (.forEach fun keys => cacheDel_within keys)
  intro _
  apply commitDb_within
  intro s db deleted
  rw [cascadeDelete_eq] at deleted
  split at deleted <;> cases deleted
  refine ⟨fun row => row, .unchanged, ?_⟩
  rw [List.map_id']
  exact List.filter_sublist

theorem listCredentialZones_within : Within Retains (listCredentialZones d env userId credentialId) := by
  apply Within.bind (.query _)
  intro credential
  apply Within.bind (.query _)
  intro cached
  split
  · apply Within.bind (resolveUpstreamAuth_within credential)
    intro authHeaders
    apply Within.bind (.lift _)
    intro zones
    apply Within.bind (cacheSetJson_within _ _)
    intro _
    exact .pure _
  · exact .pure _

theorem listCredentialZoneRecords_within (zoneId : Str) (params : Option (List (Str × Json))) :
    Within Retains (listCredentialZoneRecords d env userId credentialId zoneId params) := by
  apply Within.bind (.query _)
  intro credential
  apply Within.bind (resolveUpstreamAuth_within credential)
  intro authHeaders
  exact .lift _

theorem validateEach_within (credential : UpstreamCredential) (specs : List RuleSpec) (known : Option Headers)
    (names : ZoneNames) : Within Retains (validateEach d env credential specs known names) := by
  induction specs generalizing known names with
  | nil => exact .pure ()
  | cons spec rest ih =>
    unfold validateEach
    dsimp only
    split
    · exact .raise _
    · split
      · exact ih known names
      · apply Within.bind
        · cases known with
          | some authHeaders => exact .pure authHeaders
          | none => exact resolveUpstreamAuth_within credential
        · intro authHeaders
          apply Within.bind (.lift _)
          rintro ⟨zoneName, later⟩
          apply Within.bind (.lift _)
          intro _
          exact ih (some authHeaders) later

theorem insertToken_ok {db after : Database} {row : ScopedToken} {rules : List ScopeRule}
    (inserted : db.insertToken row rules = .ok after) : after.credentials = db.credentials := by
  unfold Database.insertToken at inserted
  split at inserted
  · cases inserted
  · split at inserted <;> cases inserted
    rfl

theorem updateToken_ok {db after : Database} {tokenId : Str} {change : ScopedToken → ScopedToken}
    (updated : db.updateToken tokenId change = .ok after) : after.credentials = db.credentials := by
  unfold Database.updateToken at updated
  dsimp only at updated
  split at updated <;> cases updated
  rfl

theorem mintScopedToken_within (order : MintOrder) : Within Retains (mintScopedToken d env order) := by
  apply Within.bind (.query _)
  intro credential
  apply Within.bind
  · unfold TokenService.validateScopeRules
    split
    · exact .raise _
    · exact validateEach_within credential order.scopeRules none []
  · intro _
    apply Within.bind
    · apply commitDb_within
      intro s db inserted
      exact .of_credentials (insertToken_ok inserted)
    · intro _
      exact .pure _

theorem updateToken_within (tokenId : Str) (change : ScopedToken → ScopedToken) :
    Within Retains (commitDb fun db => db.updateToken tokenId change) := by
  apply commitDb_within
  intro s db updated
  exact .of_credentials (updateToken_ok updated)

theorem rotateScopedToken_within (tokenId : Str) : Within Retains (rotateScopedToken d env userId tokenId) := by
  apply Within.bind (.query _)
  intro token
  apply Within.bind (updateToken_within _ _)
  intro _
  apply Within.bind (cacheDel_within _)
  intro _
  exact .pure _

theorem revokeScopedToken_within (tokenId : Str) : Within Retains (revokeScopedToken env userId tokenId) := by
  apply Within.bind (.query _)
  intro token
  apply Within.bind (updateToken_within _ _)
  intro _
  exact cacheDel_within _

theorem returns_within {α β : Type} {x : Operation α} (within : Within Retains x) (answer : α → β) :
    Within Retains (do return answer (← x)) :=
  .bind within fun _ => .pure _

theorem manage_cases (d : Deployment) (env : Env) (userId : Str) (command : Command) :
    (command.material = none ∧ Within Retains (manage d env userId command)) ∨
      ∃ label credType apiToken globalKey email, command = .register label credType apiToken globalKey email := by
  cases command with
  | register => exact .inr ⟨_, _, _, _, _, rfl⟩
  | verify => exact .inl ⟨rfl, returns_within verifyCredential_within _⟩
  | listCredentials => exact .inl ⟨rfl, returns_within (.query _) _⟩
  | deleteCredential => exact .inl ⟨rfl, returns_within deleteCredential_within _⟩
  | listZones => exact .inl ⟨rfl, returns_within listCredentialZones_within _⟩
  | listRecords => exact .inl ⟨rfl, returns_within (listCredentialZoneRecords_within _ _) _⟩
  | mint => exact .inl ⟨rfl, returns_within (mintScopedToken_within _) _⟩
  | listTokens => exact .inl ⟨rfl, returns_within (.query _) _⟩
  | detail tokenId =>
    have detailed : Within Retains (getScopedTokenDetail userId tokenId) := by
      apply Within.bind (.query _)
      intro token
      exact .bind (.query _) fun _ => .pure _
    exact .inl ⟨rfl, returns_within detailed _⟩
  | rotate => exact .inl ⟨rfl, returns_within (rotateScopedToken_within _) _⟩
  | revoke => exact .inl ⟨rfl, returns_within (revokeScopedToken_within _) _⟩
  | listAuditLogs => exact .inl ⟨rfl, returns_within (.query _) _⟩

end Retains

section Registration

def Stores (d : Deployment) (row : UpstreamCredential) : Material → Prop
  | .token apiToken => row.credType = tokenType ∧ decryptColumn d row.secretEnc = .ok apiToken
  | .globalKey email key =>
    row.credType = globalKeyType ∧ decryptColumn d row.secretEnc = .ok (d.pairJson.dumps email key)

theorem KeepsSecret.stores {change : UpstreamCredential → UpstreamCredential} (keeps : KeepsSecret change)
    {row : UpstreamCredential} {material : Material} (stores : Stores d row material) :
    Stores d (change row) material := by
  cases material <;> simpa only [Stores, keeps.credType, keeps.secretEnc] using stores

theorem tokenType_ne_globalKeyType : tokenType ≠ globalKeyType := by decide

theorem tokenType_ne_oauthType : tokenType ≠ oauthType := by decide

theorem globalKeyType_ne_oauthType : globalKeyType ≠ oauthType := by decide

theorem Stores.not_oauth {row : UpstreamCredential} {material : Material} (stores : Stores d row material) :
    row.credType ≠ oauthType := by
  cases material with
  | token apiToken =>
    rw [stores.1]
    exact tokenType_ne_oauthType
  | globalKey email key =>
    rw [stores.1]
    exact globalKeyType_ne_oauthType

theorem readPair_stored {column : Option Str} {email key : Str}
    (decrypts : decryptColumn d column = .ok (d.pairJson.dumps email key)) :
    readPair d column = .ok [(authEmailHeader, email), (authKeyHeader, key)] := by
  have email_found : Json.item (.obj [("email".toList, .str email), ("key".toList, .str key)]) "email".toList =
      .ok (.str email) := rfl
  have key_found : Json.item (.obj [("email".toList, .str email), ("key".toList, .str key)]) "key".toList =
      .ok (.str key) := by
    simp [Json.item, List.lookup_cons]
  simp only [readPair, decrypts, Except.ok_bind, d.pairJson.roundTrip, email_found, key_found, encoded]
  rfl

theorem Stores.resolves {row : UpstreamCredential} {material : Material} (stores : Stores d row material) (env : Env)
    (s : Store) : resolveUpstreamAuth d env row s = (.ok material.headers, s) := by
  cases material with
  | token apiToken =>
    obtain ⟨isToken, decrypts⟩ := stores
    have notGlobalKey : row.credType ≠ globalKeyType := isToken ▸ tokenType_ne_globalKeyType
    have notOauth : row.credType ≠ oauthType := isToken ▸ tokenType_ne_oauthType
    rw [resolveUpstreamAuth, if_neg notGlobalKey, getValidAccessToken, if_pos notOauth, decrypts]
    rfl
  | globalKey email key =>
    obtain ⟨isGlobalKey, decrypts⟩ := stores
    rw [resolveUpstreamAuth, if_pos isGlobalKey, readPair_stored decrypts]
    rfl

theorem secretPlain_material {label credType secret : Str} {apiToken globalKey cfAccountEmail : Option Str}
    (accepted : secretPlain d credType apiToken globalKey cfAccountEmail = .ok secret) :
    ∃ material, (Command.register label credType apiToken globalKey cfAccountEmail).material = some material ∧
      Stores d (registeredRow d env userId label credType cfAccountEmail secret) material := by
  have decrypts : decryptColumn d (some (d.fernet.encryptSecret env.drawn.1 secret)) = .ok secret :=
    d.fernet.roundTrip _ _
  by_cases isToken : credType = tokenType
  next =>
    subst isToken
    cases apiToken with
    | none => simp [secretPlain] at accepted
    | some apiToken =>
      cases apiToken with
      | nil => simp [secretPlain] at accepted
      | cons c rest =>
        obtain rfl : c :: rest = secret := by simpa [secretPlain] using accepted
        exact ⟨.token (c :: rest), by simp [Command.material], rfl, decrypts⟩
  next =>
    by_cases isGlobalKey : credType = globalKeyType
    next =>
      subst isGlobalKey
      have notToken : globalKeyType ≠ tokenType := tokenType_ne_globalKeyType.symm
      match globalKey, cfAccountEmail with
      | none, _ | some [], _ => simp [secretPlain, notToken] at accepted
      | some (_ :: _), none | some (_ :: _), some [] => simp [secretPlain, notToken] at accepted
      | some (k :: key), some (e :: email) =>
        obtain rfl : d.pairJson.dumps (e :: email) (k :: key) = secret := by simpa [secretPlain, notToken] using accepted
        exact ⟨.globalKey (e :: email) (k :: key), by simp [Command.material, notToken], rfl, decrypts⟩
    next => simp [secretPlain, isToken, isGlobalKey] at accepted

end Registration

end CfProxy
