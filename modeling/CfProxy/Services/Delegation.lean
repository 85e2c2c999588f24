import CfProxy.Services.Secrets

set_option autoImplicit false

namespace CfProxy

open Models Cache Crypto TokenPlane CredentialService Client OauthCf OauthService Stateful Machine System

variable {foreignKeys : Bool} {d : Deployment} {env : Env}

section Invariant

inductive Kind (d : Deployment) (registered : Str → Option Material) (row : UpstreamCredential) : Prop
  | delegated (credType : row.credType = oauthType) (label : row.label = oauthCredentialLabel)
  | registered (material : Material) (known : registered row.id = some material) (stores : Stores d row material)

structure Sound (d : Deployment) (site : Site) : Prop where
  labels : (site.store.db.credentials.map fun row => (row.userId, d.settings.collation.weights row.label)).Nodup
  kinds : ∀ row ∈ site.store.db.credentials, Kind d site.registered row

variable {before after : Site} {s : Store}

theorem KeepsSecret.kind {change : UpstreamCredential → UpstreamCredential} (keeps : KeepsSecret change)
    {registered : Str → Option Material} {row : UpstreamCredential} (kind : Kind d registered row) :
    Kind d registered (change row) := by
  cases kind with
  | delegated credType label => exact .delegated ((keeps.credType row).trans credType) ((keeps.label row).trans label)
  | registered material known stores =>
    apply Kind.registered material
    · rw [keeps.id, known]
    · exact keeps.stores stores

theorem Sound.retains (sound : Sound d before) (retains : Retains before.store s) :
    Sound d { before with store := s } := by
  obtain ⟨change, keeps, left⟩ := retains
  constructor
  · have same : (before.store.db.credentials.map change).map
          (fun row => (row.userId, d.settings.collation.weights row.label)) =
        before.store.db.credentials.map fun row => (row.userId, d.settings.collation.weights row.label) := by
      simp only [List.map_map, Function.comp_def, keeps.userId, keeps.label]
    exact (same ▸ sound.labels).sublist (left.map _)
  · intro row member
    obtain ⟨old, wasThere, rfl⟩ := List.mem_map.mp (left.subset member)
    exact keeps.kind (sound.kinds old wasThere)

theorem insertCredential_free {collation : Collation} {db db' : Database} {row : UpstreamCredential}
    (inserted : db.insertCredential collation row = .ok db') {other : UpstreamCredential} (member : other ∈ db.credentials) :
    (other.userId, collation.weights other.label) ≠ (row.userId, collation.weights row.label) := by
  unfold Database.insertCredential at inserted
  split at inserted
  · cases inserted
  · next free =>
    simp only [Bool.not_eq_true, List.any_eq_false, Bool.or_eq_false_iff] at free
    have apart := (free other member).2
    intro same
    obtain ⟨userId, label⟩ := Prod.mk.inj same
    simp [userId, Collation.same, label] at apart

theorem Sound.insert (sound : Sound d before) {row : UpstreamCredential}
    {registered : Str → Option Material} {db : Database} {users : List User} {cache : Entries}
    (inserted : before.store.db.insertCredential d.settings.collation row = .ok db) (kind : Kind d registered row)
    (others : ∀ other ∈ before.store.db.credentials, registered other.id = before.registered other.id) :
    Sound d ⟨{ before.store with db, users, cache }, registered⟩ := by
  constructor
  · rw [insertCredential_ok inserted]
    simp only [List.map_append, List.map_cons, List.map_nil]
    refine List.nodup_append.mpr ⟨sound.labels, by simp, ?_⟩
    intro pair held other isRow same
    obtain ⟨holder, member, rfl⟩ := List.mem_map.mp held
    have isNew : other = (row.userId, d.settings.collation.weights row.label) := by simpa using isRow
    exact insertCredential_free inserted member (same.trans isNew)
  · rw [insertCredential_ok inserted]
    intro other member
    rcases List.mem_append.mp member with old | added
    · cases sound.kinds other old with
      | delegated credType label => exact .delegated credType label
      | registered material known stores => exact .registered material ((others other old).trans known) stores
    · rw [List.mem_singleton.mp added]
      exact kind

theorem registerCredential_cases (d : Deployment) (env : Env) (userId label credType : Str)
    (apiToken globalKey cfAccountEmail : Option Str) (s : Store) :
    (∃ raised, registerCredential d env userId label credType apiToken globalKey cfAccountEmail s = (.error raised, s)) ∨
      ∃ secret db, secretPlain d credType apiToken globalKey cfAccountEmail = .ok secret ∧
        s.db.insertCredential d.settings.collation (registeredRow d env userId label credType cfAccountEmail secret) =
          .ok db ∧
        registerCredential d env userId label credType apiToken globalKey cfAccountEmail s =
          (.ok (registeredRow d env userId label credType cfAccountEmail secret), s.withDb db) := by
  unfold registerCredential
  obtain ⟨raised, failed⟩ | ⟨secret, accepted, ran⟩ :=
    lift_cases (secretPlain d credType apiToken globalKey cfAccountEmail) _ s
  · exact .inl ⟨raised, failed⟩
  rw [ran]
  cases inserted : s.db.insertCredential d.settings.collation (registeredRow d env userId label credType cfAccountEmail secret) with
  | error raised =>
    have failed : commitDb (fun db =>
        db.insertCredential d.settings.collation (registeredRow d env userId label credType cfAccountEmail secret)) s = (.error raised, s) := by
      simp [commitDb, Stateful.commit, inserted]
    exact .inl ⟨raised, bind_error failed⟩
  | ok db =>
    have wrote : commitDb (fun db =>
        db.insertCredential d.settings.collation (registeredRow d env userId label credType cfAccountEmail secret)) s = (.ok (), s.withDb db) := by
      simp [commitDb, Stateful.commit, inserted]
    exact .inr ⟨secret, db, accepted, inserted, bind_ok wrote⟩

theorem Sound.register (sound : Sound d before) (fresh : env.Fresh d before.store) (userId label credType : Str)
    (apiToken globalKey cfAccountEmail : Option Str)
    (stepped : step d before (.manage userId (.register label credType apiToken globalKey cfAccountEmail) env) = some after) :
    Sound d after := by
  simp only [step, if_pos fresh, Option.some.injEq] at stepped
  subst stepped
  obtain ⟨raised, failed⟩ | ⟨secret, db, accepted, inserted, ran⟩ := registerCredential_cases d env userId label credType
    apiToken globalKey cfAccountEmail before.store
  · have stopped : manage d env userId (.register label credType apiToken globalKey cfAccountEmail) before.store =
        (.error raised, before.store) := bind_error failed
    rw [stopped]
    exact sound
  · have done : manage d env userId (.register label credType apiToken globalKey cfAccountEmail) before.store =
        (.ok (.credential (registeredRow d env userId label credType cfAccountEmail secret)), before.store.withDb db) :=
      bind_ok ran
    obtain ⟨material, known, stores⟩ := @secretPlain_material d env userId label _ _ _ _ _ accepted
    rw [done]
    simp only [recordMaterial, known]
    apply sound.insert inserted
    · apply Kind.registered material ?_ stores
      exact Function.update_self _ _ _
    · intro other member
      exact Function.update_of_ne (fresh.credentials other member) _ _

theorem updated_keepsSecret (delivered : Delivered) (scopes : Option Str) (loaded : UpstreamCredential) :
    KeepsSecret (delivered.updated scopes loaded) := by
  constructor <;> exact fun _ => rfl

theorem Sound.callback (sound : Sound d before) (env : Env) (code state : Str) :
    Sound d { before with store := (handleCfOauthCallback d env code state before.store).2 } := by
  obtain ⟨cache, outcome⟩ := handleCfOauthCallback_outcome d env code state before.store
  generalize handleCfOauthCallback d env code state before.store = result at outcome
  cases outcome with
  | failed raised => exact sound.retains (.of_credentials rfl)
  | wrote _ _ _ written _ =>
    obtain ⟨-, scopes, inserted⟩ | ⟨loaded, scopes, -, updated⟩ := write_cases written
    · exact sound.insert inserted (.delegated rfl rfl) fun _ _ => rfl
    · apply sound.retains
      apply Retains.of_map ((updated_keepsSecret _ scopes loaded).only fun row => row.id = loaded.id)
      rw [updateCredential_ok updated]
      rfl

theorem step_sound {label : Label} (sound : Sound d before) (stepped : step d before label = some after) :
    Sound d after := by
  cases label with
  | manage userId command env =>
    have allowed := stepped
    simp only [step, Option.ite_none_right_eq_some] at allowed
    obtain ⟨fresh, allowed⟩ := allowed
    obtain ⟨plain, within⟩ | ⟨label, credType, apiToken, globalKey, email, rfl⟩ := manage_cases d env userId command
    · cases allowed
      have same : recordMaterial before command env (manage d env userId command before.store).1 = before.registered := by
        unfold recordMaterial
        rw [plain]
        split <;> rfl
      rw [same]
      exact sound.retains (within.run before.store)
    · exact sound.register fresh _ _ _ _ _ _ stepped
  | startLogin drawn env =>
    cases stepped
    exact sound.retains (.of_credentials (congrArg Database.credentials (startCfOauthLogin_db d env drawn)))
  | callback code state env =>
    simp only [step, Option.ite_none_right_eq_some] at stepped
    obtain ⟨-, stepped⟩ := stepped
    cases stepped
    exact sound.callback env code state
  | resolve credentialId env =>
    simp only [step, Option.ite_none_right_eq_some] at stepped
    obtain ⟨-, stepped⟩ := stepped
    cases stepped
    have within : Within Retains (resolveById d env credentialId) := .bind (.query _) resolveUpstreamAuth_within
    exact sound.retains (within.run before.store)
  | audit log =>
    cases stepped
    exact sound.retains (.of_credentials rfl)
  | account row =>
    cases stepped
    exact sound.retains (.of_credentials rfl)
  | cache entries =>
    cases stepped
    exact sound.retains (.of_credentials rfl)

theorem reachable_sound {c : Site} (reached : (site d foreignKeys).Reachable unrestricted c) : Sound d c := by
  apply reached.invariant
  · rintro state rfl
    constructor <;> simp [Database.empty]
  · intro state label after inv _ stepped
    exact step_sound inv stepped

end Invariant

section Delivery

variable {s : Store} {row : UpstreamCredential} {accessToken : Str}

-- A token that the issuer names no end for does not expire.
def Lives (d : Deployment) (env : Env) (row : UpstreamCredential) : Prop :=
  row.tokenExpiresAt = none ∨ unexpired d env row.tokenExpiresAt = .ok true

-- With no cached token, and while the stored one has not expired, the credential gives this token.
def Yields (d : Deployment) (s : Store) (row : UpstreamCredential) (accessToken : Str) : Prop :=
  ∀ (env : Env) (cache : Entries), cache (oauthAtKey row.id) = none → Lives d env row →
    (resolveUpstreamAuth d env row { s with cache }).1 = .ok [("Authorization".toList, "Bearer ".toList ++ accessToken)]

theorem getValidAccessToken_uncached (ids : (s.db.credentials.map (·.id)).Nodup) (member : row ∈ s.db.credentials)
    (delegated : row.credType = oauthType) {cache : Entries} (empty : cache (oauthAtKey row.id) = none) :
    getValidAccessToken d env row { s with cache } =
      (Stateful.lift (unexpired d env row.tokenExpiresAt) >>= fun valid =>
        if valid then .lift (decryptColumn d row.accessTokenEnc) else refreshUnderLock d env row) { s with cache } := by
  have missed : cacheGetJson env (oauthAtKey row.id) { s with cache } = (.ok .null, { s with cache }) := by
    simp only [cacheGetJson, reads, query, empty, Option.getD_none, ite_self]
  have locked : selectById row.id { s with cache } = (.ok row, { s with cache }) := by
    have found : s.db.credential row.id = some row := find?_unique ids member
    simp only [selectById, query, found]
  have notCached : ¬ Json.null.truthy = true := by decide
  rw [getValidAccessToken, if_neg (not_not.mpr delegated), bind_ok missed, if_neg notCached, bind_ok locked]

theorem resolveUpstreamAuth_oauth (delegated : row.credType = oauthType) (s : Store) :
    resolveUpstreamAuth d env row s =
      (getValidAccessToken d env row >>= fun token => Pure.pure (bearerHeaders token) : Operation Headers) s := by
  rw [resolveUpstreamAuth, if_neg (delegated ▸ globalKeyType_ne_oauthType.symm)]

theorem yields_stored (ids : (s.db.credentials.map (·.id)).Nodup) (member : row ∈ s.db.credentials)
    (delegated : row.credType = oauthType) (stored : decryptColumn d row.accessTokenEnc = .ok accessToken)
    (ends : row.tokenExpiresAt ≠ none) : Yields d s row accessToken := by
  rintro env cache empty (endless | valid)
  · exact absurd endless ends
  · have valued : getValidAccessToken d env row { s with cache } = (.ok accessToken, { s with cache }) := by
      rw [getValidAccessToken_uncached ids member delegated empty, valid, stored]
      rfl
    rw [resolveUpstreamAuth_oauth delegated, bind_ok valued]
    rfl

theorem renew_unanswered {raised : PyError} (silent : env.issuer = fun _ => .error raised) (row : UpstreamCredential) :
    ∃ raised, renew d env row = .error raised := by
  unfold renew
  cases decryptColumn d row.refreshTokenEnc with
  | error raised => exact ⟨raised, rfl⟩
  | ok refreshToken =>
    rw [silent]
    exact ⟨raised, rfl⟩

-- A stored token without an end is never taken: it is refreshed, and the issuer may not answer.
theorem not_yields_endless (ids : (s.db.credentials.map (·.id)).Nodup) (member : row ∈ s.db.credentials)
    (delegated : row.credType = oauthType) (endless : row.tokenExpiresAt = none) (env : Env) :
    ¬ Yields d s row accessToken := by
  intro yields
  obtain ⟨raised, unanswered⟩ := @renew_unanswered d { env with issuer := fun _ => .error .attributeError } _ rfl row
  have resolved := yields { env with issuer := fun _ => .error .attributeError } (fun _ => none) rfl (.inl endless)
  have failed : (getValidAccessToken d { env with issuer := fun _ => .error .attributeError } row
      { s with cache := fun _ => none }).1 = .error raised := by
    rw [getValidAccessToken_uncached ids member delegated rfl, endless]
    have refused : refreshUnderLock d { env with issuer := fun _ => .error .attributeError } row
        { s with cache := fun _ => none } = (.error raised, { s with cache := fun _ => none }) := by
      rw [refreshUnderLock, unanswered]
      rfl
    exact congrArg Prod.fst refused
  rw [resolveUpstreamAuth_oauth delegated] at resolved
  obtain ⟨token, between, ran, -⟩ := bind_returns resolved
  rw [ran] at failed
  cases failed

theorem encryptDelivered_some {fernet : Fernet} {drawn : Str} {value : Json} {column : Option Str}
    (encrypted : encryptDelivered fernet drawn value = .ok column) (truthy : value.truthy = true) :
    ∃ token, value = .str token ∧ column = some (fernet.encryptSecret drawn token) := by
  unfold encryptDelivered at encrypted
  rw [if_pos truthy] at encrypted
  split at encrypted <;> cases encrypted
  exact ⟨_, rfl, rfl⟩

theorem tokenExpiry_none {now : Datetime} {expiresIn : Json} {expiresAt : Option Datetime}
    (expires : tokenExpiry now expiresIn = .ok expiresAt) : expiresAt = none ↔ expiresIn = .null := by
  unfold tokenExpiry at expires
  cases expiresIn with
  | null =>
    cases expires
    simp
  | _ =>
    obtain ⟨seconds, -, expires⟩ := Except.bind_eq_ok.mp expires
    cases expires
    simp

theorem readDelivered_columns {fernet : Fernet} {drawn : Str × Str} {now : Datetime} {tokens value : Json}
    {delivered : Delivered} (read : readDelivered fernet drawn now tokens = .ok delivered)
    (gave : tokens.getAttr accessTokenKey = .ok value) (truthy : value.truthy = true) :
    (∃ accessToken, value = .str accessToken ∧
      delivered.accessTokenEnc = some (fernet.encryptSecret drawn.1 accessToken)) ∧
    (delivered.tokenExpiresAt = none ↔ tokens.getAttr expiresInKey = .ok .null) := by
  unfold readDelivered at read
  rw [gave, Except.ok_bind] at read
  obtain ⟨refreshToken, -, read⟩ := Except.bind_eq_ok.mp read
  obtain ⟨expiresIn, ends, read⟩ := Except.bind_eq_ok.mp read
  obtain ⟨tokenExpiresAt, expires, read⟩ := Except.bind_eq_ok.mp read
  obtain ⟨accessTokenEnc, encrypted, read⟩ := Except.bind_eq_ok.mp read
  obtain ⟨refreshTokenEnc, -, read⟩ := Except.bind_eq_ok.mp read
  obtain ⟨scope, -, read⟩ := Except.bind_eq_ok.mp read
  cases read
  refine ⟨encryptDelivered_some encrypted truthy, ?_⟩
  rw [ends, Except.ok.injEq]
  exact tokenExpiry_none expires

-- The label that callbacks look for is not on a credential of another type.
def LabelFree (collation : Collation) (s : Store) (userId : Str) : Prop :=
  ∀ row ∈ s.db.credentials, row.userId = userId → collation.same row.label oauthCredentialLabel = true →
    row.credType = oauthType

theorem selectCredential_none {collation : Collation} {db : Database} {userId : Str}
    (selected : selectCredential collation db userId = .ok none) {row : UpstreamCredential}
    (member : row ∈ db.credentials) (mine : row.userId = userId) :
    ¬ collation.same row.label oauthCredentialLabel = true := by
  intro label
  have matching : row ∈ db.credentials.filter fun row =>
      row.userId == userId && collation.same row.label oauthCredentialLabel :=
    List.mem_filter.mpr ⟨member, by simp [mine, label]⟩
  unfold selectCredential scalarOneOrNone at selected
  split at selected
  next empty =>
    rw [empty] at matching
    cases matching
  next => cases selected
  next => cases selected

theorem selectCredential_some {collation : Collation} {db : Database} {userId : Str} {loaded : UpstreamCredential}
    (selected : selectCredential collation db userId = .ok (some loaded)) :
    loaded ∈ db.credentials ∧ loaded.userId = userId ∧ collation.same loaded.label oauthCredentialLabel = true := by
  obtain ⟨member, matching⟩ := List.mem_filter.mp (scalarOneOrNone_some selected)
  simp only [Bool.and_eq_true, beq_iff_eq] at matching
  exact ⟨member, matching⟩

theorem written_row {collation : Collation} {delivered : Delivered} {db after : Database} {userId newId : Str}
    {found : Option UpstreamCredential} (selected : selectCredential collation db userId = .ok found)
    (written : delivered.write collation db userId newId found = .ok after) (free : LabelFree collation { db } userId)
    {column : Str} (present : delivered.accessTokenEnc = some column) :
    ∃ row ∈ after.credentials, row.userId = userId ∧ row.credType = oauthType ∧ row.accessTokenEnc = some column := by
  obtain ⟨-, scopes, inserted⟩ | ⟨loaded, scopes, rfl, updated⟩ := write_cases written
  next =>
    rw [insertCredential_ok inserted]
    exact ⟨delivered.inserted userId newId scopes, by simp, rfl, rfl, present⟩
  next =>
    obtain ⟨member, mine, label⟩ := selectCredential_some selected
    rw [updateCredential_ok updated]
    refine ⟨delivered.updated scopes loaded loaded, List.mem_map.mpr ⟨loaded, member, if_pos rfl⟩, mine,
      free loaded member mine label, ?_⟩
    simp [Delivered.updated, present]

theorem Sound.oauth_label {site : Site} (sound : Sound d site) {row : UpstreamCredential}
    (member : row ∈ site.store.db.credentials) (delegated : row.credType = oauthType) :
    row.label = oauthCredentialLabel := by
  cases sound.kinds row member with
  | delegated _ label => exact label
  | registered _ _ stores => exact absurd delegated stores.not_oauth

theorem Sound.label_unique {site : Site} (sound : Sound d site) {first second : UpstreamCredential}
    (memberFirst : first ∈ site.store.db.credentials) (memberSecond : second ∈ site.store.db.credentials)
    (owner : first.userId = second.userId) (alike : d.settings.collation.same first.label second.label = true) :
    first = second := by
  apply List.inj_on_of_nodup_map sound.labels memberFirst memberSecond
  simp only [Prod.mk.injEq]
  exact ⟨owner, by simpa [Collation.same] using alike⟩

theorem written_oauth {site : Site} (sound : Sound d site) {delivered : Delivered} {after : Database}
    {userId newId : Str} {found : Option UpstreamCredential}
    (selected : selectCredential d.settings.collation site.store.db userId = .ok found)
    (written : delivered.write d.settings.collation site.store.db userId newId found = .ok after)
    {row : UpstreamCredential} (member : row ∈ after.credentials) (mine : row.userId = userId)
    (delegated : row.credType = oauthType) :
    LabelFree d.settings.collation site.store userId ∧ row.tokenExpiresAt = delivered.tokenExpiresAt := by
  obtain ⟨rfl, scopes, inserted⟩ | ⟨loaded, scopes, rfl, updated⟩ := write_cases written
  next =>
    have unlabelled : ∀ other ∈ site.store.db.credentials, other.userId = userId →
        ¬ d.settings.collation.same other.label oauthCredentialLabel = true :=
      fun _ isThere theirs => selectCredential_none selected isThere theirs
    refine ⟨fun other isThere theirs label => absurd label (unlabelled other isThere theirs), ?_⟩
    rw [insertCredential_ok inserted] at member
    rcases List.mem_append.mp member with old | added
    · have label := sound.oauth_label old delegated
      exact absurd (by simp [label]) (unlabelled row old mine)
    · rw [List.mem_singleton.mp added]
      rfl
  next =>
    obtain ⟨isLoaded, theirs, label⟩ := selectCredential_some selected
    rw [updateCredential_ok updated] at member
    obtain ⟨old, wasThere, rfl⟩ := List.mem_map.mp member
    have keeps := (updated_keepsSecret delivered scopes loaded).only fun row => row.id = loaded.id
    rw [keeps.credType] at delegated
    rw [keeps.userId] at mine
    have oldLabel := sound.oauth_label wasThere delegated
    obtain rfl : loaded = old := by
      apply sound.label_unique isLoaded wasThere (theirs.trans mine.symm)
      rwa [oldLabel]
    constructor
    · intro other isThere also labelled
      obtain rfl : other = loaded := by
        apply sound.label_unique isThere wasThere (also.trans mine.symm)
        rwa [oldLabel]
      exact delegated
    · simp only [if_true, Delivered.updated, OauthService.written]
      split
      next same => exact same.symm
      next => rfl

theorem callback_delegates {c : Site} (reached : (site d foreignKeys).Reachable unrestricted c)
    (fresh : env.Fresh d c.store) {code state : Str} {user : User} {session : Session} {after : Store}
    (answered : handleCfOauthCallback d env code state c.store = (.ok (user, session), after)) {tokens value : Json}
    (gave : exchanged d env code (consumed env state c.store) = .ok tokens)
    (delivered : tokens.getAttr accessTokenKey = .ok value) (truthy : value.truthy = true) :
    ∃ accessToken, value = .str accessToken ∧
      ((∃ row ∈ after.db.credentials, row.userId = user.id ∧ row.credType = oauthType ∧
        Yields d after row accessToken) ↔
          LabelFree d.settings.collation c.store user.id ∧ tokens.getAttr expiresInKey ≠ .ok .null) := by
  have tenancy := handleCfOauthCallback_tenancy (reachable_tenancy reached) fresh code state
  obtain ⟨cache, outcome⟩ := handleCfOauthCallback_outcome d env code state c.store
  rw [answered] at outcome tenancy
  cases outcome with
  | wrote exchanged read selected written isUser =>
    obtain rfl := isUser user session rfl
    obtain rfl := Except.ok.inj (exchanged.symm.trans gave)
    obtain ⟨⟨accessToken, rfl, column⟩, endless⟩ := readDelivered_columns read delivered truthy
    have sound := reachable_sound reached
    refine ⟨accessToken, rfl, ?_, ?_⟩
    · rintro ⟨row, member, mine, delegated, yields⟩
      obtain ⟨free, expires⟩ := written_oauth sound selected written member mine delegated
      refine ⟨free, fun null => ?_⟩
      exact not_yields_endless tenancy.credentialIds member delegated (expires.trans (endless.mpr null)) env yields
    · rintro ⟨free, ends⟩
      obtain ⟨row, member, mine, delegated, stored⟩ := written_row selected written free column
      obtain ⟨-, expires⟩ := written_oauth sound selected written member mine delegated
      refine ⟨row, member, mine, delegated, yields_stored tenancy.credentialIds member delegated ?_ ?_⟩
      · rw [stored]
        exact d.fernet.roundTrip _ _
      · rw [expires]
        exact fun none => ends (endless.mp none)

theorem latest_material {c : Site} (reached : (site d foreignKeys).Reachable unrestricted c) :
    (∀ row ∈ c.store.db.credentials, row.credType = tokenType ∨ row.credType = globalKeyType →
      ∃ material, c.registered row.id = some material ∧
        ∀ env s, resolveUpstreamAuth d env row s = (.ok material.headers, s)) ∧
    ∀ (env : Env) (code state : Str) (user : User) (session : Session) (after : Store) (tokens value : Json),
      env.Fresh d c.store → handleCfOauthCallback d env code state c.store = (.ok (user, session), after) →
      exchanged d env code (consumed env state c.store) = .ok tokens →
      tokens.getAttr accessTokenKey = .ok value → value.truthy = true →
      ∃ accessToken, value = .str accessToken ∧
        ((∃ row ∈ after.db.credentials, row.userId = user.id ∧ row.credType = oauthType ∧
          Yields d after row accessToken) ↔
            LabelFree d.settings.collation c.store user.id ∧ tokens.getAttr expiresInKey ≠ .ok .null) := by
  constructor
  · intro row member registered
    cases (reachable_sound reached).kinds row member with
    | delegated credType _ =>
      obtain token | globalKey := registered
      · exact absurd (token.symm.trans credType) tokenType_ne_oauthType
      · exact absurd (globalKey.symm.trans credType) globalKeyType_ne_oauthType
    | registered material known stores => exact ⟨material, known, stores.resolves⟩
  · intro env code state user session after tokens value fresh answered gave delivered truthy
    exact callback_delegates reached fresh answered gave delivered truthy

end Delivery

section Example

-- An issuer that gives one access token, with an id_token of one subject for one nonce.
def consent (newId nonce accessToken : Str) : Env :=
  { drawing newId firstDraw with
    newUserId := ['u']
    jwks := ⟨.ok LoginPlane.keySet, .ok LoginPlane.keySet⟩
    issuer := fun _ => .ok ⟨200, .ok (.obj [(idTokenKey, LoginPlane.idTokenOf LoginPlane.aliceSub nonce),
      (accessTokenKey, .str accessToken), (expiresInKey, .num 3600)])⟩ }

structure Observation where
  accessToken : Str
  endless : Bool
  userId : Str
  kinds : List (Str × Str)
  deriving DecidableEq

def observed (env : Env) (code state : Str) (c : Site) : Option Observation := do
  let tokens ← (exchanged plainDeployment env code (consumed env state c.store)).toOption
  match tokens.getAttr accessTokenKey, tokens.getAttr expiresInKey,
    handleCfOauthCallback plainDeployment env code state c.store with
  | .ok (.str accessToken), .ok expiresIn, (.ok (user, _), after) =>
    some ⟨accessToken, expiresIn.isNull, user.id, after.db.credentials.map fun row => (row.userId, row.credType)⟩
  | _, _, _ => none

theorem observed_some {code state : Str} {c : Site} {observation : Observation}
    (seen : observed env code state c = some observation) :
    ∃ user session after tokens,
      handleCfOauthCallback plainDeployment env code state c.store = (.ok (user, session), after) ∧
      exchanged plainDeployment env code (consumed env state c.store) = .ok tokens ∧
      tokens.getAttr accessTokenKey = .ok (.str observation.accessToken) ∧
      (∃ expiresIn, tokens.getAttr expiresInKey = .ok expiresIn ∧ expiresIn.isNull = observation.endless) ∧
      user.id = observation.userId ∧
      after.db.credentials.map (fun row => (row.userId, row.credType)) = observation.kinds := by
  obtain ⟨tokens, ran, seen⟩ := Option.bind_eq_some_iff.mp seen
  have given : exchanged plainDeployment env code (consumed env state c.store) = .ok tokens := by
    cases answer : exchanged plainDeployment env code (consumed env state c.store) <;> rw [answer] at ran <;> cases ran
    rfl
  split at seen
  next gave ends answered =>
    cases seen
    exact ⟨_, _, _, tokens, answered, given, gave, ⟨_, ends, rfl⟩, rfl, rfl⟩
  next => cases seen

def login (state nonce : Str) : Label := .startLogin ⟨['v'], state, nonce⟩ (drawing [] issued)

-- A user deletes the credential of the first login and registers another one under its label.
def relabelled : List Label := [
  login ['s'] ['n'],
  .callback ['c'] ['s'] (consent ['1'] ['n'] ['a']),
  .manage ['u'] (.deleteCredential ['1']) (drawing ['2'] issued),
  .manage ['u'] (.register oauthCredentialLabel tokenType (some ['t']) none none) (drawing ['2'] issued),
  login ['r'] ['m']]

theorem label_taken : ∃ c : Site, (site plainDeployment true).Reachable unrestricted c ∧
    ∃ user session after tokens,
      handleCfOauthCallback plainDeployment (consent ['3'] ['m'] ['b']) ['c'] ['r'] c.store =
        (.ok (user, session), after) ∧
      exchanged plainDeployment (consent ['3'] ['m'] ['b']) ['c'] (consumed (consent ['3'] ['m'] ['b']) ['r'] c.store) =
        .ok tokens ∧
      tokens.getAttr accessTokenKey = .ok (.str ['b']) ∧
      ∀ row ∈ after.db.credentials, row.userId = user.id → row.credType ≠ oauthType := by
  have ran : ((site plainDeployment true).run { store := { db := .empty true } } relabelled).map
      (observed (consent ['3'] ['m'] ['b']) ['c'] ['r']) =
        some (some ⟨['b'], false, ['u'], [(['u'], tokenType)]⟩) := by
    decide +kernel
  obtain ⟨c, ran, seen⟩ := Option.map_eq_some_iff.mp ran
  obtain ⟨user, session, after, tokens, answered, gave, delivered, -, -, kinds⟩ := observed_some seen
  have reached := Reachable.run (.start rfl) (fun _ _ _ => trivial) ran
  refine ⟨c, reached, user, session, after, tokens, answered, gave, delivered, ?_⟩
  intro row member _ delegated
  have listed := List.mem_map_of_mem (f := fun row => (row.userId, row.credType)) member
  rw [kinds] at listed
  have isToken : row.credType = tokenType := congrArg Prod.snd (List.mem_singleton.mp listed)
  exact tokenType_ne_oauthType (isToken.symm.trans delegated)

-- One user has registered a global key when another one comes to log in for the first time.
def keyAndLogin : List Label := [
  .manage ['g'] (.register ['l'] globalKeyType none (some ['k']) (some ['e'])) (drawing ['1'] issued),
  login ['s'] ['n']]

theorem key_and_login_resolve : ∃ c : Site, (site plainDeployment true).Reachable unrestricted c ∧
    (∃ row ∈ c.store.db.credentials, ∀ env s,
      resolveUpstreamAuth plainDeployment env row s = (.ok [(authEmailHeader, ['e']), (authKeyHeader, ['k'])], s)) ∧
    ∃ user session after,
      handleCfOauthCallback plainDeployment (consent ['2'] ['n'] ['a']) ['c'] ['s'] c.store =
        (.ok (user, session), after) ∧
      ∃ row ∈ after.db.credentials, row.userId = user.id ∧ row.credType = oauthType ∧
        Yields plainDeployment after row ['a'] := by
  have ran : ((site plainDeployment true).run { store := { db := .empty true } } keyAndLogin).map (fun c => decide (
      (consent ['2'] ['n'] ['a']).Fresh plainDeployment c.store ∧
      (c.registered ['1']).map Material.headers = some [(authEmailHeader, ['e']), (authKeyHeader, ['k'])] ∧
      c.store.db.credentials.map (fun row => [row.id, row.userId, row.credType]) = [[['1'], ['g'], globalKeyType]] ∧
      observed (consent ['2'] ['n'] ['a']) ['c'] ['s'] c =
        some ⟨['a'], false, ['u'], [(['g'], globalKeyType), (['u'], oauthType)]⟩)) = some true := by
    decide +kernel
  obtain ⟨c, ran, seen⟩ := Option.map_eq_some_iff.mp ran
  obtain ⟨fresh, headers, rows, seen⟩ := of_decide_eq_true seen
  obtain ⟨user, session, after, tokens, answered, gave, delivered, ⟨expiresIn, ends, notNull⟩, isUser, -⟩ :=
    observed_some seen
  have reached := Reachable.run (.start rfl) (fun _ _ _ => trivial) ran
  have rowOf : ∀ row ∈ c.store.db.credentials, row.id = ['1'] ∧ row.userId = ['g'] ∧ row.credType = globalKeyType := by
    intro row member
    have listed := List.mem_map_of_mem (f := fun row => [row.id, row.userId, row.credType]) member
    rw [rows] at listed
    simpa using listed
  obtain ⟨resolves, delegates⟩ := latest_material reached
  obtain ⟨row, member⟩ : ∃ row, row ∈ c.store.db.credentials := by
    apply List.exists_mem_of_ne_nil
    intro none
    simp [none] at rows
  refine ⟨c, reached, ⟨row, member, ?_⟩, user, session, after, answered, ?_⟩
  · intro env s
    obtain ⟨id, -, isGlobalKey⟩ := rowOf row member
    obtain ⟨material, known, resolved⟩ := resolves row member (.inr isGlobalKey)
    have same : material.headers = [(authEmailHeader, ['e']), (authKeyHeader, ['k'])] := by
      simpa [← id, known] using headers
    rw [resolved env s, same]
  · obtain ⟨accessToken, same, delegated⟩ := delegates _ _ _ _ _ _ _ _ fresh answered gave delivered (by decide)
    cases same
    apply delegated.mpr
    constructor
    rotate_left
    · rintro null
      rw [ends] at null
      cases null
      cases notNull
    intro other isThere theirs
    obtain ⟨-, owner, -⟩ := rowOf other isThere
    rw [owner, isUser] at theirs
    cases theirs

end Example

end CfProxy
