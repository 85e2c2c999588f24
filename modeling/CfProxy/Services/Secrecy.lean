import CfProxy.Services.Management
import CfProxy.Upstream.Blindness

set_option autoImplicit false

namespace CfProxy

open Scope Models Cache Crypto OauthCf OauthService Client TokenPlane CredentialService TokenService AuditService Machine

structure Twins (d : Deployment) (env : Env) (T : Str → Str → Prop) : Prop where
  refl : ∀ secret, T secret secret
  bearer : ∀ secret other, T secret other →
    Interchangeable (env.world d) (bearerHeaders secret) (bearerHeaders other)
  key : ∀ email secret other, T secret other →
    Interchangeable (env.world d) [(authEmailHeader, email), (authKeyHeader, secret)]
      [(authEmailHeader, email), (authKeyHeader, other)]
  issuer : ∀ secret other, T secret other →
    refreshAccessToken d.oauth env.issuer secret = refreshAccessToken d.oauth env.issuer other

theorem Twins.same {d : Deployment} {env : Env} {T : Str → Str → Prop} (twins : Twins d env T)
    (result : Except PyError Str) : Related T result result :=
  .reflexive twins.refl result

inductive TwinPair (T : Str → Str → Prop) : Headers → Headers → Prop
  | mk (email : Str) {secret other : Str} (twins : T secret other) :
      TwinPair T [(authEmailHeader, email), (authKeyHeader, secret)] [(authEmailHeader, email), (authKeyHeader, other)]

section Relation

variable (d : Deployment) (T : Str → Str → Prop)

structure SameRow (row other : UpstreamCredential) : Prop where
  shape : other = { row with
    secretEnc := other.secretEnc
    accessTokenEnc := other.accessTokenEnc
    refreshTokenEnc := other.refreshTokenEnc }
  secret : row.credType ≠ globalKeyType → Related T (decryptColumn d row.secretEnc) (decryptColumn d other.secretEnc)
  pair : row.credType = globalKeyType → Related (TwinPair T) (readPair d row.secretEnc) (readPair d other.secretEnc)
  accessToken : Related T (decryptColumn d row.accessTokenEnc) (decryptColumn d other.accessTokenEnc)
  refreshToken : Related T (decryptColumn d row.refreshTokenEnc) (decryptColumn d other.refreshTokenEnc)

structure SameEntry (entry other : Json) : Prop where
  truthy : entry.truthy = other.truthy
  token : entry.truthy = true →
    Related T (encoded entry >>= d.fernet.decryptSecret) (encoded other >>= d.fernet.decryptSecret)

structure SameDatabase (db other : Database) : Prop where
  foreignKeys : other.foreignKeys = db.foreignKeys
  rows : List.Forall₂ (SameRow d T) db.credentials other.credentials
  tokens : other.tokens = db.tokens
  rules : other.rules = db.rules

structure SameStore (s t : Store) : Prop where
  database : SameDatabase d T s.db t.db
  users : t.users = s.users
  auditLogs : t.auditLogs = s.auditLogs
  entries : ∀ key, (∀ credId, key ≠ oauthAtKey credId) → s.cache key = t.cache key
  tokens : ∀ credId, SameEntry d T ((s.cache (oauthAtKey credId)).getD .null) ((t.cache (oauthAtKey credId)).getD .null)

end Relation

section

variable {d : Deployment} {env : Env} {T : Str → Str → Prop} {row other : UpstreamCredential} {s t : Store}
variable {db dbT : Database}

section Fields

variable (same : SameRow d T row other)

include same

theorem SameRow.id : other.id = row.id := by rw [same.shape]
theorem SameRow.userId : other.userId = row.userId := by rw [same.shape]
theorem SameRow.label : other.label = row.label := by rw [same.shape]
theorem SameRow.credType : other.credType = row.credType := by rw [same.shape]
theorem SameRow.tokenExpiresAt : other.tokenExpiresAt = row.tokenExpiresAt := by rw [same.shape]
theorem SameRow.credVersion : other.credVersion = row.credVersion := by rw [same.shape]

end Fields

theorem SameStore.withDb (same : SameStore d T s t) (database : SameDatabase d T db dbT) :
    SameStore d T (s.withDb db) (t.withDb dbT) :=
  ⟨database, same.users, same.auditLogs, same.entries, same.tokens⟩

theorem commitDb_same {write writeT : Database → Except PyError Database}
    (writes : ∀ db dbT, SameDatabase d T db dbT → Related (SameDatabase d T) (write db) (writeT dbT)) :
    Stateful.Alike (SameStore d T) Eq (commitDb write) (commitDb writeT) :=
  .commit fun s t same => (writes s.db t.db same.database).map fun _ _ => same.withDb

section Headers

variable {userId credentialId : Str}

theorem getOwnedCredential_same :
    Stateful.Alike (SameStore d T) (SameRow d T) (getOwnedCredential userId credentialId)
      (getOwnedCredential userId credentialId) := by
  refine .query fun s t same => ?_
  have found := same.database.rows.find?_rel (p := fun row => row.id == credentialId && row.userId == userId)
    (q := fun row => row.id == credentialId && row.userId == userId) fun a b rows => by rw [rows.id, rows.userId]
  unfold Database.ownedCredential
  generalize List.find? _ s.db.credentials = left, List.find? _ t.db.credentials = right at found
  cases found with
  | some rows => exact .ok rows
  | none => exact .error notFound

theorem selectById_same :
    Stateful.Alike (SameStore d T) (SameRow d T) (selectById credentialId) (selectById credentialId) := by
  refine .query fun s t same => ?_
  have found := same.database.rows.find?_rel (p := (·.id == credentialId)) (q := (·.id == credentialId)) fun a b rows => by
    rw [rows.id]
  unfold Database.credential
  generalize List.find? _ s.db.credentials = left, List.find? _ t.db.credentials = right at found
  cases found with
  | some rows => exact .ok rows
  | none => exact .error noResultFound

theorem cacheGetJson_same {key : Str} (plain : ∀ credId, key ≠ oauthAtKey credId) :
    Stateful.Alike (SameStore d T) Eq (cacheGetJson env key) (cacheGetJson env key) :=
  .reads fun s t same => by rw [same.entries key plain]

theorem SameEntry.null : SameEntry d T .null .null := ⟨rfl, by simp [Json.truthy]⟩

theorem cacheGetToken_same {credId : Str} :
    Stateful.Alike (SameStore d T) (SameEntry d T) (cacheGetJson env (oauthAtKey credId))
      (cacheGetJson env (oauthAtKey credId)) := by
  refine .reads fun s t same => ?_
  cases env.cacheReads (oauthAtKey credId) with
  | true => exact same.tokens credId
  | false => exact .null

theorem SameStore.setEntry (same : SameStore d T s t) {key : Str} (plain : ∀ credId, key ≠ oauthAtKey credId)
    (value : Json) :
    SameStore d T { s with cache := Function.update s.cache key (some value) }
      { t with cache := Function.update t.cache key (some value) } where
  database := same.database
  users := same.users
  auditLogs := same.auditLogs
  entries other distinct := by
    by_cases here : other = key
    · simp [here]
    · simp [here, same.entries other distinct]
  tokens credId := by
    simpa [Function.update_of_ne (plain credId).symm] using same.tokens credId

theorem cacheSetJson_same {key : Str} (plain : ∀ credId, key ≠ oauthAtKey credId) (value : Json) :
    Stateful.Alike (SameStore d T) Eq (cacheSetJson env key value) (cacheSetJson env key value) := by
  refine .modify fun s t same => ?_
  cases env.cacheWrites key with
  | true => exact same.setEntry plain value
  | false => exact same

theorem SameStore.setToken (same : SameStore d T s t) (credId : Str) {value other : Json} (entry : SameEntry d T value other) :
    SameStore d T { s with cache := Function.update s.cache (oauthAtKey credId) (some value) }
      { t with cache := Function.update t.cache (oauthAtKey credId) (some other) } where
  database := same.database
  users := same.users
  auditLogs := same.auditLogs
  entries key plain := by simp [Function.update_of_ne (plain credId), same.entries key plain]
  tokens id := by
    by_cases here : id = credId
    · subst here
      simpa using entry
    · have elsewhere : oauthAtKey id ≠ oauthAtKey credId := fun clash => here (oauthAtKey_inj clash)
      simpa [Function.update_of_ne elsewhere] using same.tokens id

theorem SameStore.del (same : SameStore d T s t) (keys : List Str) :
    SameStore d T { s with cache := s.cache.del keys } { t with cache := t.cache.del keys } where
  database := same.database
  users := same.users
  auditLogs := same.auditLogs
  entries key plain := by
    unfold Entries.del
    dsimp only
    rw [same.entries key plain]
  tokens credId := by
    unfold Entries.del
    dsimp only
    split
    · exact .null
    · exact same.tokens credId

theorem cacheDel_same (keys : List Str) :
    Stateful.Alike (SameStore d T) Eq (cacheDel env keys) (cacheDel env keys) := by
  refine .modify fun s t same => ?_
  cases env.cacheDels keys with
  | true => exact same.del keys
  | false => exact same

end Headers

section Resolution

structure SameRenewal (T : Str → Str → Prop) (renewal other : Renewal) : Prop where
  accessToken : other.accessToken = renewal.accessToken
  refreshToken : T renewal.refreshToken other.refreshToken
  expiresIn : other.expiresIn = renewal.expiresIn
  tokenExpiresAt : other.tokenExpiresAt = renewal.tokenExpiresAt

theorem renew_same (twins : Twins d env T) (rows : SameRow d T row other) :
    Related (SameRenewal T) (renew d env row) (renew d env other) := by
  refine rows.refreshToken.bind fun refreshToken otherToken same => ?_
  rw [twins.issuer _ _ same]
  refine (Related.refl _).bind fun tokenData _ => ?_
  rintro rfl
  refine (Related.refl _).bind fun newAccessToken _ => ?_
  rintro rfl
  refine (Related.refl _).bind fun newRefreshToken _ => ?_
  rintro rfl
  refine (Related.refl _).bind fun expiresIn _ => ?_
  rintro rfl
  refine (Related.refl _).bind fun tokenExpiresAt _ => ?_
  rintro rfl
  refine (Related.refl _).bind fun accessToken _ => ?_
  rintro rfl
  dsimp only
  split
  · exact (twins.same _).bind fun _ _ refreshed => .ok ⟨rfl, refreshed, rfl, rfl⟩
  · exact .ok ⟨rfl, same, rfl, rfl⟩

theorem decryptColumn_encrypted (drawn plaintext : Str) :
    decryptColumn d (some (d.fernet.encryptSecret drawn plaintext)) = .ok plaintext :=
  d.fernet.roundTrip drawn plaintext

theorem SameRow.renewed (twins : Twins d env T) {locked otherLocked : UpstreamCredential}
    (rows : SameRow d T row other) (lockedRows : SameRow d T locked otherLocked) {renewal otherRenewal : Renewal}
    (same : SameRenewal T renewal otherRenewal) :
    SameRow d T (renewedRow d env locked renewal row) (renewedRow d env otherLocked otherRenewal other) where
  shape := by
    unfold renewedRow
    rw [rows.shape, same.tokenExpiresAt, lockedRows.credVersion]
  secret := rows.secret
  pair := rows.pair
  accessToken := by
    simp only [renewedRow, decryptColumn_encrypted]
    exact .ok (same.accessToken ▸ twins.refl _)
  refreshToken := by
    simp only [renewedRow, decryptColumn_encrypted]
    exact .ok same.refreshToken

theorem storeRenewal_same (twins : Twins d env T) {locked otherLocked : UpstreamCredential}
    (lockedRows : SameRow d T locked otherLocked) {renewal otherRenewal : Renewal}
    (same : SameRenewal T renewal otherRenewal) :
    Stateful.Alike (SameStore d T) Eq (storeRenewal d env locked renewal) (storeRenewal d env otherLocked otherRenewal) := by
  refine commitDb_same fun db dbT stores => .ok { stores with rows := stores.rows.map_rel fun row other rows => ?_ }
  rw [rows.id, rows.credVersion, lockedRows.id, lockedRows.credVersion]
  split
  · exact rows.renewed twins lockedRows same
  · exact rows

theorem cacheRenewal_same (twins : Twins d env T) {locked otherLocked : UpstreamCredential}
    (lockedRows : SameRow d T locked otherLocked) {renewal otherRenewal : Renewal}
    (same : SameRenewal T renewal otherRenewal) :
    Stateful.Alike (SameStore d T) Eq (cacheRenewal d env locked renewal) (cacheRenewal d env otherLocked otherRenewal) := by
  unfold cacheRenewal
  rw [same.expiresIn, same.accessToken, lockedRows.id]
  split
  · exact .pure rfl
  · refine .modify fun s t stores => ?_
    cases env.cacheWrites (oauthAtKey locked.id) with
    | true => exact stores.setToken _ ⟨rfl, fun _ => twins.same _⟩
    | false => exact stores

theorem refreshUnderLock_same (twins : Twins d env T) (rows : SameRow d T row other) :
    Stateful.Alike (SameStore d T) T (refreshUnderLock d env row) (refreshUnderLock d env other) :=
  (Stateful.Alike.lift (renew_same twins rows)).bind fun _ _ same =>
    (storeRenewal_same twins rows same).bind_eq fun _ => (cacheRenewal_same twins rows same).bind_eq fun _ =>
      .pure (same.accessToken ▸ twins.refl _)

theorem getValidAccessToken_same (twins : Twins d env T) (rows : SameRow d T row other)
    (single : row.credType ≠ globalKeyType) :
    Stateful.Alike (SameStore d T) T (getValidAccessToken d env row) (getValidAccessToken d env other) := by
  unfold getValidAccessToken
  rw [rows.credType, rows.id]
  split
  · exact .lift (rows.secret single)
  · refine cacheGetToken_same.bind fun cached otherCached entry => ?_
    rw [← entry.truthy]
    split
    · next truthy => exact .lift (entry.token truthy)
    · refine selectById_same.bind fun locked otherLocked lockedRows => ?_
      have expires : unexpired d env otherLocked.tokenExpiresAt = unexpired d env locked.tokenExpiresAt := by
        rw [lockedRows.tokenExpiresAt]
      rw [expires]
      refine (Stateful.Alike.lift (Related.refl _)).bind_eq fun fresh => ?_
      split
      · exact .lift lockedRows.accessToken
      · exact refreshUnderLock_same twins lockedRows

theorem resolveUpstreamAuth_same (twins : Twins d env T) (rows : SameRow d T row other) :
    Stateful.Alike (SameStore d T) (Interchangeable (env.world d)) (resolveUpstreamAuth d env row)
      (resolveUpstreamAuth d env other) := by
  unfold resolveUpstreamAuth
  rw [rows.credType]
  split
  · next double =>
    refine .lift ((rows.pair double).mono ?_)
    rintro _ _ ⟨email, same⟩
    exact twins.key email _ _ same
  · next single =>
    exact (getValidAccessToken_same twins rows single).bind fun _ _ same => .pure (twins.bearer _ _ same)

end Resolution

section Pages

variable {w : World} {authHeaders others : Headers}

theorem verifyUpstream_blind (alike : Interchangeable w authHeaders others) :
    Blind (verifyUpstream w authHeaders) (verifyUpstream (withAuth w w.upstreamAuth) others) :=
  (forwardRequest_blind alike).bind_eq fun _ => .lift (.refl _)

theorem credentialZonePages_blind (alike : Interchangeable w authHeaders others) {fuel page : Nat} {zones : List Json} :
    Blind (credentialZonePages w authHeaders fuel page zones)
      (credentialZonePages (withAuth w w.upstreamAuth) others fuel page zones) := by
  induction fuel generalizing page zones with
  | zero => exact .raise stillRunning
  | succ fuel ih =>
    refine (forwardRequest_blind alike).bind_eq fun response => ?_
    refine .lift_bind fun _ => .lift_bind fun _ => .lift_bind fun read => ?_
    dsimp only
    split
    · exact .pure rfl
    · exact ih

theorem readZoneName_blind (alike : Interchangeable w authHeaders others) {zoneId : Str} :
    Blind (readZoneName w zoneId authHeaders) (readZoneName (withAuth w w.upstreamAuth) zoneId others) := by
  refine (forwardRequest_blind alike).bind_eq fun response => ?_
  split
  · exact .raise _
  · exact .lift_bind fun _ => .lift_bind fun _ => .lift_bind fun _ => .lift (.refl _)

end Pages

section Commands

variable {userId credentialId : Str}

structure SameInput (T : Str → Str → Prop) (given other : Option Str) : Prop where
  missing : given.getD [] = [] ↔ other.getD [] = []
  twins : T (given.getD []) (other.getD [])

inductive SameSecret (d : Deployment) (T : Str → Str → Prop) (credType : Str) : Str → Str → Prop
  | bearer {secret other : Str} (single : credType ≠ globalKeyType) (twins : T secret other) :
      SameSecret d T credType secret other
  | pair {email secret other : Str} (double : credType = globalKeyType) (twins : T secret other) :
      SameSecret d T credType (d.pairJson.dumps email secret) (d.pairJson.dumps email other)

theorem secretPlain_same {credType : Str} {apiToken otherToken globalKey otherKey cfAccountEmail : Option Str}
    (tokens : SameInput T apiToken otherToken) (keys : SameInput T globalKey otherKey) :
    Related (SameSecret d T credType) (secretPlain d credType apiToken globalKey cfAccountEmail)
      (secretPlain d credType otherToken otherKey cfAccountEmail) := by
  unfold secretPlain
  by_cases known : credType = tokenType ∨ credType = globalKeyType
  · by_cases single : credType = tokenType
    · obtain ⟨missing, twins⟩ := tokens
      simp only [single, true_or, if_true]
      cases first : apiToken.getD [] with
      | nil =>
        rw [missing.mp first]
        exact .error _
      | cons c rest =>
        cases second : otherToken.getD [] with
        | nil => simp [first, second] at missing
        | cons c' rest' =>
          rw [first, second] at twins
          exact .ok (.bearer (by decide) twins)
    · obtain rfl : credType = globalKeyType := known.resolve_left single
      obtain ⟨missing, twins⟩ := keys
      simp only [or_true, if_true, single, if_false]
      cases first : globalKey.getD [] with
      | nil =>
        rw [missing.mp first]
        exact .error _
      | cons c rest =>
        cases second : otherKey.getD [] with
        | nil => simp [first, second] at missing
        | cons c' rest' =>
          rw [first, second] at twins
          cases cfAccountEmail.getD [] with
          | nil => exact .error _
          | cons => exact .ok (.pair rfl twins)
  · simp only [known, if_false]
    exact .error _

theorem registeredRow_same (twins : Twins d env T) {label credType secret otherSecret : Str} {cfAccountEmail : Option Str}
    (same : SameSecret d T credType secret otherSecret) :
    SameRow d T (registeredRow d env userId label credType cfAccountEmail secret)
      (registeredRow d env userId label credType cfAccountEmail otherSecret) := by
  have decrypts (plain : Str) : decryptColumn d (some (d.fernet.encryptSecret env.drawn.1 plain)) = .ok plain :=
    decryptColumn_encrypted env.drawn.1 plain
  cases same with
  | bearer single secrets =>
    refine ⟨rfl, fun _ => ?_, fun double => absurd double single, twins.same _, twins.same _⟩
    simp only [registeredRow, decrypts]
    exact .ok secrets
  | @pair email secret other double secrets =>
    refine ⟨rfl, fun single => absurd double single, fun _ => ?_, twins.same _, twins.same _⟩
    have reads (key : Str) : readPair d (some (d.fernet.encryptSecret env.drawn.1 (d.pairJson.dumps email key))) =
        .ok [(authEmailHeader, email), (authKeyHeader, key)] := by
      simp only [readPair, decrypts, Except.ok_bind, d.pairJson.roundTrip]
      rfl
    simp only [registeredRow, reads]
    exact .ok ⟨email, secrets⟩

theorem insertCredential_same {collation : Collation} (rows : SameRow d T row other) (same : SameDatabase d T db dbT) :
    Related (SameDatabase d T) (db.insertCredential collation row) (dbT.insertCredential collation other) := by
  have clashes := same.rows.any_eq
    (p := fun held => held.id == row.id || (held.userId == row.userId && collation.same held.label row.label))
    (q := fun held => held.id == other.id || (held.userId == other.userId && collation.same held.label other.label))
    fun held heldOther both => by rw [both.id, both.userId, both.label, rows.id, rows.userId, rows.label]
  unfold Database.insertCredential
  rw [clashes]
  split
  · exact .error integrityError
  · exact .ok { same with rows := List.rel_append same.rows (.cons rows .nil) }

theorem updateCredential_same {id : Str} {change changeT : UpstreamCredential → UpstreamCredential}
    (keeps : ∀ row other, SameRow d T row other → SameRow d T (change row) (changeT other))
    (same : SameDatabase d T db dbT) :
    Related (SameDatabase d T) (db.updateCredential id change) (dbT.updateCredential id changeT) := by
  have present := same.rows.any_eq (p := (·.id == id)) (q := (·.id == id)) fun held heldOther both => by rw [both.id]
  unfold Database.updateCredential
  rw [present]
  split
  · refine .ok { same with rows := same.rows.map_rel fun held heldOther both => ?_ }
    rw [both.id]
    split
    · exact keeps _ _ both
    · exact both
  · exact .error _

theorem registerCredential_same (twins : Twins d env T) {label credType : Str}
    {apiToken otherToken globalKey otherKey cfAccountEmail : Option Str} (tokens : SameInput T apiToken otherToken)
    (keys : SameInput T globalKey otherKey) :
    Stateful.Alike (SameStore d T) (SameRow d T)
      (registerCredential d env userId label credType apiToken globalKey cfAccountEmail)
      (registerCredential d env userId label credType otherToken otherKey cfAccountEmail) :=
  (Stateful.Alike.lift (secretPlain_same tokens keys)).bind fun _ _ same =>
    (commitDb_same fun _ _ => insertCredential_same (registeredRow_same twins same)).bind_eq fun _ =>
      .pure (registeredRow_same twins same)

theorem verifiedRow_same (env : Env) (status : Str) (email : Option Str) (rows : SameRow d T row other) :
    SameRow d T (verifiedRow env status email row) (verifiedRow env status email other) where
  shape := by
    unfold verifiedRow
    rw [rows.shape]
  secret := rows.secret
  pair := rows.pair
  accessToken := rows.accessToken
  refreshToken := rows.refreshToken

theorem verifyCredential_same (twins : Twins d env T) :
    Stateful.Alike (SameStore d T) (SameRow d T) (verifyCredential d env userId credentialId)
      (verifyCredential d env userId credentialId) := by
  refine getOwnedCredential_same.bind fun credential otherCredential rows => ?_
  refine (resolveUpstreamAuth_same twins rows).bind fun authHeaders others alike => ?_
  refine (Stateful.Alike.lift (verifyUpstream_blind alike).result).bind_eq fun envelope => ?_
  refine (Stateful.Alike.lift (Related.refl _)).bind_eq fun verification => ?_
  rw [rows.id]
  obtain ⟨status, email⟩ := verification
  have writes := commitDb_same (d := d) (T := T) fun _ _ =>
    @updateCredential_same _ _ _ _ credential.id _ _ fun _ _ => verifiedRow_same env status email
  exact writes.bind_eq fun _ => selectById_same

theorem listCredentials_same :
    Stateful.Alike (SameStore d T) (List.Forall₂ (SameRow d T)) (CredentialService.listCredentials userId)
      (CredentialService.listCredentials userId) :=
  .reads fun s t same => same.database.rows.filter_rel fun row other rows => by rw [rows.userId]

theorem deleteCredential_same :
    Stateful.Alike (SameStore d T) Eq (CredentialService.deleteCredential env userId credentialId)
      (CredentialService.deleteCredential env userId credentialId) := by
  refine getOwnedCredential_same.bind fun _ _ _ => ?_
  have selects : Stateful.Alike (SameStore d T) Eq (Stateful.reads fun s : Store => s.db.activeTokens credentialId)
      (.reads fun s => s.db.activeTokens credentialId) :=
    .reads fun s t same => by rw [Database.activeTokens, Database.activeTokens, same.database.tokens]
  refine selects.bind_eq fun tokens => ?_
  refine (Stateful.Alike.forEach fun keys _ => cacheDel_same keys).bind_eq fun _ => commitDb_same fun db dbT same => ?_
  unfold cascadeDelete Database.deleteCredential
  dsimp only
  rw [same.foreignKeys, same.tokens]
  split
  · exact .error integrityError
  · exact .ok ⟨rfl, same.rows.filter_rel fun row other rows => by rw [rows.id], rfl, same.rules⟩

theorem listCredentialZones_same (twins : Twins d env T) :
    Stateful.Alike (SameStore d T) Eq (listCredentialZones d env userId credentialId)
      (listCredentialZones d env userId credentialId) := by
  refine getOwnedCredential_same.bind fun credential otherCredential rows => ?_
  rw [rows.id]
  have plain : ∀ credId, zonesKey credential.id ≠ oauthAtKey credId := zonesKey_ne_oauthAtKey _
  refine (cacheGetJson_same plain).bind_eq fun cached => ?_
  split
  · refine (resolveUpstreamAuth_same twins rows).bind fun authHeaders others alike => ?_
    refine (Stateful.Alike.lift (credentialZonePages_blind alike).result).bind_eq fun zones => ?_
    exact (cacheSetJson_same plain _).bind_eq fun _ => .pure rfl
  · exact .pure rfl

theorem listCredentialZoneRecords_same (twins : Twins d env T) {zoneId : Str} {params : Option (List (Str × Json))} :
    Stateful.Alike (SameStore d T) Eq (listCredentialZoneRecords d env userId credentialId zoneId params)
      (listCredentialZoneRecords d env userId credentialId zoneId params) := by
  refine getOwnedCredential_same.bind fun credential otherCredential rows => ?_
  refine (resolveUpstreamAuth_same twins rows).bind fun authHeaders others alike => ?_
  exact .lift (listPages_blind (env.world d).upstreamAuth alike).result

theorem resolveOnce_same (twins : Twins d env T) (rows : SameRow d T row other) {known otherKnown : Option Headers}
    (alike : Option.Rel (Interchangeable (env.world d)) known otherKnown) :
    Stateful.Alike (SameStore d T) (Interchangeable (env.world d)) (resolveOnce d env row known)
      (resolveOnce d env other otherKnown) := by
  cases alike with
  | some headers => exact .pure headers
  | none => exact resolveUpstreamAuth_same twins rows

theorem resolveZoneName_same {w : World} {authHeaders others : Headers} (alike : Interchangeable w authHeaders others)
    (zoneId : Str) (names : ZoneNames) :
    Related Eq (resolveZoneName w zoneId authHeaders names) (resolveZoneName w zoneId others names) := by
  unfold resolveZoneName
  split
  · exact .refl _
  · exact (readZoneName_blind alike).result.bind fun _ _ same => by rw [same]; exact .refl _

theorem validateEach_same (twins : Twins d env T) (rows : SameRow d T row other) (specs : List RuleSpec)
    {known otherKnown : Option Headers} (alike : Option.Rel (Interchangeable (env.world d)) known otherKnown)
    (names : ZoneNames) :
    Stateful.Alike (SameStore d T) Eq (validateEach d env row specs known names)
      (validateEach d env other specs otherKnown names) := by
  induction specs generalizing known otherKnown names with
  | nil => exact .pure rfl
  | cons spec rest ih =>
    unfold validateEach
    dsimp only
    split
    · exact .raise _
    · split
      · exact ih alike names
      · refine (resolveOnce_same twins rows alike).bind fun authHeaders others headers => ?_
        refine (Stateful.Alike.lift (resolveZoneName_same headers spec.zoneId names)).bind_eq fun resolved => ?_
        exact (Stateful.Alike.lift (Related.refl _)).bind_eq fun _ => ih (.some headers) resolved.2

theorem insertToken_same (token : ScopedToken) (rules : List ScopeRule) (same : SameDatabase d T db dbT) :
    Related (SameDatabase d T) (db.insertToken token rules) (dbT.insertToken token rules) := by
  have found : (dbT.credential token.upstreamCredentialId).isNone = (db.credential token.upstreamCredentialId).isNone := by
    have search := same.rows.find?_rel (p := (·.id == token.upstreamCredentialId))
      (q := (·.id == token.upstreamCredentialId)) fun a b rows => by rw [rows.id]
    unfold Database.credential
    generalize List.find? _ db.credentials = left, List.find? _ dbT.credentials = right at search
    cases search <;> rfl
  unfold Database.insertToken
  rw [same.tokens, same.foreignKeys, found]
  split
  · exact .error integrityError
  · split
    · exact .error integrityError
    · exact .ok ⟨rfl, same.rows, rfl, by rw [same.rules]⟩

theorem mintScopedToken_same (twins : Twins d env T) (order : MintOrder) :
    Stateful.Alike (SameStore d T) Eq (mintScopedToken d env order) (mintScopedToken d env order) := by
  refine getOwnedCredential_same.bind fun credential otherCredential rows => ?_
  have validates : Stateful.Alike (SameStore d T) Eq (TokenService.validateScopeRules d env credential order.scopeRules)
      (TokenService.validateScopeRules d env otherCredential order.scopeRules) := by
    unfold TokenService.validateScopeRules
    split
    · exact .raise _
    · exact validateEach_same twins rows _ .none []
  exact validates.bind_eq fun _ => (commitDb_same fun _ _ => insertToken_same _ _).bind_eq fun _ => .pure rfl

theorem getOwnedScopedToken_same {tokenId : Str} :
    Stateful.Alike (SameStore d T) Eq (getOwnedScopedToken userId tokenId) (getOwnedScopedToken userId tokenId) :=
  .query fun s t same => by
    unfold Database.ownedToken
    rw [same.database.tokens]
    exact .refl _

theorem updateToken_same (tokenId : Str) (change : ScopedToken → ScopedToken) :
    Stateful.Alike (SameStore d T) Eq (commitDb (·.updateToken tokenId change)) (commitDb (·.updateToken tokenId change)) := by
  refine commitDb_same fun db dbT same => ?_
  unfold Database.updateToken
  rw [same.tokens]
  dsimp only
  split
  · exact .ok ⟨same.foreignKeys, same.rows, rfl, same.rules⟩
  · exact .error integrityError

end Commands

section Management

inductive SameAnswer (d : Deployment) (T : Str → Str → Prop) : Answer → Answer → Prop
  | credential {row other : UpstreamCredential} (rows : SameRow d T row other) :
      SameAnswer d T (.credential row) (.credential other)
  | credentials {rows others : List UpstreamCredential} (same : List.Forall₂ (SameRow d T) rows others) :
      SameAnswer d T (.credentials rows) (.credentials others)
  | same (answer : Answer) : SameAnswer d T answer answer

inductive TwinCommand (T : Str → Str → Prop) : Command → Command → Prop
  | register (label credType : Str) {apiToken otherToken globalKey otherKey : Option Str} (cfAccountEmail : Option Str)
      (tokens : SameInput T apiToken otherToken) (keys : SameInput T globalKey otherKey) :
      TwinCommand T (.register label credType apiToken globalKey cfAccountEmail)
        (.register label credType otherToken otherKey cfAccountEmail)
  | same (command : Command) : TwinCommand T command command

variable {userId : Str}

theorem answered_same {α : Type} {x y : Operation α} {f : α → Answer} (same : Stateful.Alike (SameStore d T) Eq x y) :
    Stateful.Alike (SameStore d T) (SameAnswer d T) (do return f (← x)) (do return f (← y)) :=
  same.bind_eq fun value => .pure (.same (f value))

theorem credential_same {x y : Operation UpstreamCredential} (same : Stateful.Alike (SameStore d T) (SameRow d T) x y) :
    Stateful.Alike (SameStore d T) (SameAnswer d T) (do return .credential (← x)) (do return .credential (← y)) :=
  same.bind fun _ _ rows => .pure (.credential rows)

theorem sameInput_refl (reflexive : ∀ secret, T secret secret) (given : Option Str) : SameInput T given given :=
  ⟨Iff.rfl, reflexive _⟩

theorem manage_same (twins : Twins d env T) {command other : Command} (commands : TwinCommand T command other) :
    Stateful.Alike (SameStore d T) (SameAnswer d T) (manage d env userId command) (manage d env userId other) := by
  cases commands with
  | register label credType cfAccountEmail tokens keys => exact credential_same (registerCredential_same twins tokens keys)
  | same =>
    cases command with
    | register label credType apiToken globalKey cfAccountEmail =>
      exact credential_same
        (registerCredential_same twins (sameInput_refl twins.refl _) (sameInput_refl twins.refl _))
    | verify credentialId => exact credential_same (verifyCredential_same twins)
    | listCredentials => exact listCredentials_same.bind fun _ _ rows => .pure (.credentials rows)
    | deleteCredential credentialId => exact deleteCredential_same.bind_eq fun _ => .pure (.same .done)
    | listZones credentialId => exact answered_same (listCredentialZones_same twins)
    | listRecords credentialId zoneId params => exact answered_same (listCredentialZoneRecords_same twins)
    | mint name upstreamCredentialId scopeRules expiresAt => exact answered_same (mintScopedToken_same twins _)
    | listTokens => exact answered_same (.reads fun s t same => by rw [same.database.tokens])
    | detail tokenId =>
      refine answered_same (getOwnedScopedToken_same.bind_eq fun token => ?_)
      have reads : Stateful.Alike (SameStore d T) Eq (Stateful.reads fun s : Store => s.db.rulesOf token.id)
          (.reads fun s => s.db.rulesOf token.id) :=
        .reads fun s t same => by rw [Database.rulesOf, Database.rulesOf, same.database.rules]
      exact reads.bind_eq fun _ => .pure rfl
    | rotate tokenId =>
      refine answered_same (getOwnedScopedToken_same.bind_eq fun token => ?_)
      exact (updateToken_same _ _).bind_eq fun _ => (cacheDel_same _).bind_eq fun _ => .pure rfl
    | revoke tokenId =>
      have revokes : Stateful.Alike (SameStore d T) Eq (revokeScopedToken env userId tokenId)
          (revokeScopedToken env userId tokenId) :=
        getOwnedScopedToken_same.bind_eq fun token => (updateToken_same _ _).bind_eq fun _ => cacheDel_same _
      exact revokes.bind_eq fun _ => .pure (.same .done)
    | listAuditLogs query => exact answered_same (.reads fun s t same => by rw [same.auditLogs])

end Management

end

end CfProxy
