import CfProxy.Services.AuditService
import CfProxy.Services.TokenService

set_option autoImplicit false

namespace CfProxy

open Scope Models Cache TokenPlane

structure Holdings where
  credentials : List UpstreamCredential
  tokens : List ScopedToken
  rules : List (Str × ScopeRule)
  auditLogs : List AuditLog

def ownRule (tokens : List ScopedToken) (userId : Str) (rule : Str × ScopeRule) : Bool :=
  tokens.any fun token => token.id == rule.1 && token.userId == userId

def Store.holdings (s : Store) (userId : Str) : Holdings where
  credentials := s.db.credentials.filter (·.userId == userId)
  tokens := s.db.tokens.filter (·.userId == userId)
  rules := s.db.rules.filter (ownRule s.db.tokens userId)
  auditLogs := s.auditLogs.filter (·.row.userId == userId)

structure Tenancy (foreignKeys : Bool) (s : Store) : Prop where
  foreignKeys : s.db.foreignKeys = foreignKeys
  credentialIds : (s.db.credentials.map (·.id)).Nodup
  tokenIds : (s.db.tokens.map (·.id)).Nodup
  lookupIds : (s.db.tokens.map (·.lookupId)).Nodup
  tokenHashes : (s.db.tokens.map (·.tokenHash)).Nodup
  owner : ∀ token ∈ s.db.tokens, ∀ row ∈ s.db.credentials,
    row.id = token.upstreamCredentialId → row.userId = token.userId
  rules : ∀ rule ∈ s.db.rules, ∃ token ∈ s.db.tokens, token.id = rule.1

structure Agree (userId : Str) (s t : Store) : Prop where
  holdings : s.holdings userId = t.holdings userId
  cache : ∀ row ∈ (s.holdings userId).credentials, s.cache (zonesKey row.id) = t.cache (zonesKey row.id) ∧
    s.cache (oauthAtKey row.id) = t.cache (oauthAtKey row.id)

def tenant (foreignKeys : Bool) (userId : Str) : Boundary Store where
  inv := Tenancy foreignKeys
  agree := Agree userId
  frame s t := ∀ other, other ≠ userId → t.holdings other = s.holdings other
  refl _ _ _ := rfl
  trans first second other apart := (second other apart).trans (first other apart)

theorem commitDb_isolated {foreignKeys : Bool} {userId : Str} {pre : Store → Prop} {post : Unit → Store → Prop}
    {write : Database → Except PyError Database}
    (keeps : ∀ s db, Tenancy foreignKeys s → pre s → write s.db = .ok db → Tenancy foreignKeys (s.withDb db) ∧
      (∀ other, other ≠ userId → (s.withDb db).holdings other = s.holdings other) ∧ post () (s.withDb db))
    (same : ∀ s t, Tenancy foreignKeys s → Tenancy foreignKeys t → Agree userId s t → pre s → pre t →
      (∃ raised, write s.db = .error raised ∧ write t.db = .error raised) ∨
        ∃ dbS dbT, write s.db = .ok dbS ∧ write t.db = .ok dbT ∧ Agree userId (s.withDb dbS) (t.withDb dbT)) :
    Isolated (tenant foreignKeys userId) pre (commitDb write) post := by
  apply Isolated.commit
  · intro s after inv before wrote
    cases written : write s.db with
    | error raised => simp [written] at wrote
    | ok db =>
      obtain rfl : s.withDb db = after := by simpa [written] using wrote
      exact keeps s db inv before written
  · intro s t invS invT agree preS preT
    obtain ⟨raised, failedS, failedT⟩ | ⟨dbS, dbT, wroteS, wroteT, agreed⟩ := same s t invS invT agree preS preT
    · exact .inl ⟨raised, by simp [failedS], by simp [failedT]⟩
    · exact .inr ⟨s.withDb dbS, t.withDb dbT, by simp [wroteS], by simp [wroteT], agreed⟩

section Lists

variable {α : Type} {rows : List α} {p : α → Bool} {change : α → α}

theorem map_same (same : ∀ row ∈ rows, change row = row) : rows.map change = rows := by
  rw [List.map_congr_left same, List.map_id']

theorem filter_map_within (keeps : ∀ row ∈ rows, p (change row) = p row) :
    (rows.map change).filter p = (rows.filter p).map change := by
  rw [List.filter_map]
  congr 1
  exact List.filter_congr keeps

end Lists

section Credentials

variable {s : Store} {userId other : Str} {change : UpstreamCredential → UpstreamCredential}

def mapCredentials (db : Database) (change : UpstreamCredential → UpstreamCredential) : Database :=
  { db with credentials := db.credentials.map change }

structure KeepsOwner (change : UpstreamCredential → UpstreamCredential) : Prop where
  id : ∀ row, (change row).id = row.id
  userId : ∀ row, (change row).userId = row.userId

theorem KeepsOwner.holdings (keeps : KeepsOwner change) :
    (s.withDb (mapCredentials s.db change)).holdings userId =
      { s.holdings userId with credentials := (s.holdings userId).credentials.map change } := by
  have mapped : (s.db.credentials.map change).filter (·.userId == userId) =
      (s.db.credentials.filter (·.userId == userId)).map change :=
    filter_map_within fun row _ => by simp [keeps.userId]
  simp only [Store.holdings, mapCredentials, Store.withDb_db, Store.withDb_auditLogs, mapped]

theorem KeepsOwner.holdings_other (keeps : KeepsOwner change)
    (apart : ∀ row ∈ s.db.credentials, row.userId = other → change row = row) :
    (s.withDb (mapCredentials s.db change)).holdings other = s.holdings other := by
  rw [keeps.holdings]
  have same : (s.holdings other).credentials.map change = (s.holdings other).credentials := by
    apply map_same
    intro row member
    obtain ⟨member, mine⟩ := List.mem_filter.mp member
    exact apart row member (by simpa using mine)
  rw [same]

theorem KeepsOwner.tenancy {foreignKeys : Bool} (keeps : KeepsOwner change) (inv : Tenancy foreignKeys s) :
    Tenancy foreignKeys (s.withDb (mapCredentials s.db change)) where
  foreignKeys := inv.foreignKeys
  credentialIds := by simpa [mapCredentials, Function.comp_def, keeps.id] using inv.credentialIds
  tokenIds := inv.tokenIds
  lookupIds := inv.lookupIds
  tokenHashes := inv.tokenHashes
  owner := by
    intro token isToken row isRow same
    obtain ⟨before, member, rfl⟩ := List.mem_map.mp isRow
    rw [keeps.userId]
    exact inv.owner token isToken before member (by rw [← same, keeps.id])
  rules := inv.rules

end Credentials

section Tokens

variable {s : Store} {userId other : Str} {change : ScopedToken → ScopedToken}

def mapTokens (db : Database) (change : ScopedToken → ScopedToken) : Database :=
  { db with tokens := db.tokens.map change }

structure KeepsBinding (change : ScopedToken → ScopedToken) : Prop where
  id : ∀ token, (change token).id = token.id
  userId : ∀ token, (change token).userId = token.userId
  credential : ∀ token, (change token).upstreamCredentialId = token.upstreamCredentialId

theorem KeepsBinding.ownRule (keeps : KeepsBinding change) (tokens : List ScopedToken) :
    ownRule (tokens.map change) userId = ownRule tokens userId := by
  funext rule
  simp only [CfProxy.ownRule, List.any_map, Function.comp_def, keeps.id, keeps.userId]

theorem KeepsBinding.holdings (keeps : KeepsBinding change) :
    (s.withDb (mapTokens s.db change)).holdings userId =
      { s.holdings userId with tokens := (s.holdings userId).tokens.map change } := by
  have mapped : (s.db.tokens.map change).filter (·.userId == userId) =
      (s.db.tokens.filter (·.userId == userId)).map change :=
    filter_map_within fun token _ => by simp [keeps.userId]
  simp only [Store.holdings, mapTokens, Store.withDb_db, Store.withDb_auditLogs, mapped, keeps.ownRule]

theorem KeepsBinding.holdings_other (keeps : KeepsBinding change)
    (apart : ∀ token ∈ s.db.tokens, token.userId = other → change token = token) :
    (s.withDb (mapTokens s.db change)).holdings other = s.holdings other := by
  rw [keeps.holdings]
  have same : (s.holdings other).tokens.map change = (s.holdings other).tokens := by
    apply map_same
    intro token member
    obtain ⟨member, mine⟩ := List.mem_filter.mp member
    exact apart token member (by simpa using mine)
  rw [same]

theorem KeepsBinding.agree {t : Store} (keeps : KeepsBinding change) (agree : Agree userId s t) :
    Agree userId (s.withDb (mapTokens s.db change)) (t.withDb (mapTokens t.db change)) where
  holdings := by rw [keeps.holdings, keeps.holdings, agree.holdings]
  cache row held := by
    rw [keeps.holdings] at held
    exact agree.cache row held

theorem KeepsBinding.tenancy {foreignKeys : Bool} (keeps : KeepsBinding change) (inv : Tenancy foreignKeys s)
    (lookupIds : ((s.db.tokens.map change).map (·.lookupId)).Nodup)
    (tokenHashes : ((s.db.tokens.map change).map (·.tokenHash)).Nodup) :
    Tenancy foreignKeys (s.withDb (mapTokens s.db change)) where
  foreignKeys := inv.foreignKeys
  credentialIds := inv.credentialIds
  tokenIds := by simpa [mapTokens, Function.comp_def, keeps.id] using inv.tokenIds
  lookupIds := lookupIds
  tokenHashes := tokenHashes
  owner := by
    intro token isToken row isRow same
    obtain ⟨before, member, rfl⟩ := List.mem_map.mp isToken
    rw [keeps.credential] at same
    rw [keeps.userId]
    exact inv.owner before member row isRow same
  rules := by
    intro rule isRule
    obtain ⟨token, member, same⟩ := inv.rules rule isRule
    exact ⟨change token, List.mem_map_of_mem member, by rw [keeps.id, same]⟩

def dropCredential (db : Database) (credentialId : Str) : Database :=
  { db with credentials := db.credentials.filter (·.id != credentialId) }

theorem holdings_dropCredential (credentialId : Str) :
    (s.withDb (dropCredential s.db credentialId)).holdings userId =
      { s.holdings userId with
        credentials := (s.holdings userId).credentials.filter (·.id != credentialId) } := by
  simp only [Store.holdings, dropCredential, Store.withDb_db, Store.withDb_auditLogs, List.filter_filter,
    Bool.and_comm]

theorem holdings_dropCredential_other {credentialId : Str}
    (apart : ∀ row ∈ s.db.credentials, row.userId = other → row.id ≠ credentialId) :
    (s.withDb (dropCredential s.db credentialId)).holdings other = s.holdings other := by
  rw [holdings_dropCredential]
  have same : (s.holdings other).credentials.filter (·.id != credentialId) = (s.holdings other).credentials := by
    rw [List.filter_eq_self]
    intro row member
    obtain ⟨member, mine⟩ := List.mem_filter.mp member
    simpa using apart row member (by simpa using mine)
  rw [same]

theorem Tenancy.dropCredential {foreignKeys : Bool} (inv : Tenancy foreignKeys s) (credentialId : Str) :
    Tenancy foreignKeys (s.withDb (dropCredential s.db credentialId)) where
  foreignKeys := inv.foreignKeys
  credentialIds := inv.credentialIds.sublist (List.filter_sublist.map _)
  tokenIds := inv.tokenIds
  lookupIds := inv.lookupIds
  tokenHashes := inv.tokenHashes
  owner token isToken row isRow := inv.owner token isToken row (List.mem_filter.mp isRow).1
  rules := inv.rules

theorem Agree.dropCredential {t : Store} (agree : Agree userId s t) (credentialId : Str) :
    Agree userId (s.withDb (dropCredential s.db credentialId)) (t.withDb (dropCredential t.db credentialId)) where
  holdings := by rw [holdings_dropCredential, holdings_dropCredential, agree.holdings]
  cache row held := by
    rw [holdings_dropCredential] at held
    exact agree.cache row (List.mem_filter.mp held).1

end Tokens

section Ready

variable {foreignKeys : Bool} {d : Deployment} {env : Env} {userId credentialId : Str}

structure Ready (d : Deployment) (env : Env) (userId credentialId : Str) (s : Store) : Prop where
  owned : ∃ row ∈ s.db.credentials, row.id = credentialId ∧ row.userId = userId
  fresh : env.Fresh d s

theorem Ready.owner {s : Store} (inv : Tenancy foreignKeys s) (ready : Ready d env userId credentialId s)
    {row : UpstreamCredential} (member : row ∈ s.db.credentials) (same : row.id = credentialId) :
    row.userId = userId := by
  obtain ⟨own, ownMember, rfl, mine⟩ := ready.owned
  rw [List.inj_on_of_nodup_map inv.credentialIds member ownMember same, mine]

theorem ownedCredential_holdings (s : Store) (userId credentialId : Str) :
    s.db.ownedCredential userId credentialId =
      (s.holdings userId).credentials.find? fun row => row.id == credentialId := by
  simp only [Database.ownedCredential, Store.holdings, List.find?_filter]
  congr
  funext row
  rw [Bool.eq_iff_iff]
  simp [and_comm]

theorem Ready.credential {s : Store} (inv : Tenancy foreignKeys s) (ready : Ready d env userId credentialId s) :
    s.db.credential credentialId = (s.holdings userId).credentials.find? fun row => row.id == credentialId := by
  obtain ⟨own, member, rfl, mine⟩ := ready.owned
  have found : s.db.credential own.id = some own := find?_unique inv.credentialIds member
  have distinct : ((s.holdings userId).credentials.map (·.id)).Nodup :=
    inv.credentialIds.sublist (List.filter_sublist.map _)
  have held : own ∈ (s.holdings userId).credentials := List.mem_filter.mpr ⟨member, by simpa using mine⟩
  rw [found]
  exact (find?_unique distinct held).symm

theorem getOwnedCredential_isolated :
    Isolated (tenant foreignKeys userId) (env.Fresh d) (CredentialService.getOwnedCredential userId credentialId)
      fun row s => row.id = credentialId ∧ Ready d env userId row.id s := by
  apply Isolated.query
  · intro s row _ fresh found
    split at found
    · next own search =>
      cases found
      have matched := List.find?_some search
      simp only [Bool.and_eq_true, beq_iff_eq] at matched
      exact ⟨matched.1, ⟨row, List.mem_of_find?_eq_some search, rfl, matched.2⟩, fresh⟩
    · cases found
  · intro s t _ _ agree _ _
    simp only [ownedCredential_holdings, agree.holdings]

theorem selectById_isolated :
    Isolated (tenant foreignKeys userId) (Ready d env userId credentialId) (Client.selectById credentialId)
      fun row s => row.id = credentialId ∧ Ready d env userId credentialId s := by
  apply Isolated.query
  · intro s row _ ready found
    split at found
    · next own search =>
      cases found
      exact ⟨by simpa using List.find?_some search, ready⟩
    · cases found
  · intro s t invS invT agree readyS readyT
    simp only [readyS.credential invS, readyT.credential invT, agree.holdings]

inductive EntryOf (credentialId : Str) : Str → Prop
  | zones : EntryOf credentialId (zonesKey credentialId)
  | oauthAt : EntryOf credentialId (oauthAtKey credentialId)

theorem Agree.entry {s t : Store} (agree : Agree userId s t) (ready : Ready d env userId credentialId s) {key : Str} (entry : EntryOf credentialId key) :
    s.cache key = t.cache key := by
  obtain ⟨own, member, rfl, mine⟩ := ready.owned
  have held : own ∈ (s.holdings userId).credentials := List.mem_filter.mpr ⟨member, by simpa using mine⟩
  cases entry with
  | zones => exact (agree.cache own held).1
  | oauthAt => exact (agree.cache own held).2

theorem cacheGetJson_isolated {key : Str} (entry : EntryOf credentialId key) :
    Isolated (tenant foreignKeys userId) (Ready d env userId credentialId) (cacheGetJson env key)
      fun _ => Ready d env userId credentialId := by
  apply Isolated.query
  · intro s value _ ready _
    exact ready
  · intro s t _ _ agree ready _
    simp only [agree.entry ready entry]

theorem EntryOf.apart {first second key : Str} (entry : EntryOf first key) (apart : second ≠ first) :
    zonesKey second ≠ key ∧ oauthAtKey second ≠ key := by
  cases entry with
  | zones => exact ⟨fun same => apart (zonesKey_inj same), (zonesKey_ne_oauthAtKey _ _).symm⟩
  | oauthAt => exact ⟨zonesKey_ne_oauthAtKey _ _, fun same => apart (oauthAtKey_inj same)⟩

theorem Agree.setEntry {s t : Store} (agree : Agree userId s t) (key : Str) (value : Json) :
    Agree userId { s with cache := Function.update s.cache key (some value) }
      { t with cache := Function.update t.cache key (some value) } where
  holdings := agree.holdings
  cache row held := by
    obtain ⟨zones, oauthAt⟩ := agree.cache row held
    simp only [Function.update_apply, zones, oauthAt, and_self]

theorem Ready.setEntry {s : Store} (ready : Ready d env userId credentialId s) {key : Str}
    (entry : EntryOf credentialId key) (value : Json) :
    Ready d env userId credentialId { s with cache := Function.update s.cache key (some value) } where
  owned := ready.owned
  fresh := by
    obtain ⟨own, member, rfl, -⟩ := ready.owned
    obtain ⟨zones, oauthAt⟩ := entry.apart (ready.fresh.credentials own member).symm
    exact { ready.fresh with
      cache := by simpa [Function.update_of_ne zones, Function.update_of_ne oauthAt] using ready.fresh.cache }

theorem cacheSetJson_isolated {key : Str} (entry : EntryOf credentialId key) (value : Json) :
    Isolated (tenant foreignKeys userId) (Ready d env userId credentialId) (cacheSetJson env key value)
      fun _ => Ready d env userId credentialId := by
  apply Isolated.modify
  · intro s inv ready
    split
    · exact ⟨{ inv with }, fun _ _ => rfl, ready.setEntry entry value⟩
    · exact ⟨inv, fun _ _ => rfl, ready⟩
  · intro s t _ _ agree _ _
    split
    · exact agree.setEntry key value
    · exact agree

theorem KeepsOwner.agree {s t : Store} {change : UpstreamCredential → UpstreamCredential} (keeps : KeepsOwner change)
    (agree : Agree userId s t) :
    Agree userId (s.withDb (mapCredentials s.db change)) (t.withDb (mapCredentials t.db change)) where
  holdings := by rw [keeps.holdings, keeps.holdings, agree.holdings]
  cache row held := by
    rw [keeps.holdings] at held
    obtain ⟨before, member, rfl⟩ := List.mem_map.mp held
    rw [keeps.id]
    exact agree.cache before member

theorem KeepsOwner.ready {s : Store} {change : UpstreamCredential → UpstreamCredential} (keeps : KeepsOwner change)
    (ready : Ready d env userId credentialId s) :
    Ready d env userId credentialId (s.withDb (mapCredentials s.db change)) := by
  obtain ⟨own, member, same, mine⟩ := ready.owned
  constructor
  · exact ⟨change own, List.mem_map_of_mem member, by rw [keeps.id, same], by rw [keeps.userId, mine]⟩
  · refine { ready.fresh with credentials := ?_ }
    intro row isRow
    obtain ⟨before, was, rfl⟩ := List.mem_map.mp isRow
    rw [keeps.id]
    exact ready.fresh.credentials before was

-- The id alone selects the rows that are written: they are the user's because ids are unique.
theorem mapCredentials_isolated {change : UpstreamCredential → UpstreamCredential} (keeps : KeepsOwner change)
    (only : ∀ row, row.id ≠ credentialId → change row = row) :
    Isolated (tenant foreignKeys userId) (Ready d env userId credentialId)
      (commitDb fun db => .ok (mapCredentials db change)) fun _ => Ready d env userId credentialId := by
  apply commitDb_isolated
  · rintro s _ inv ready ⟨⟩
    refine ⟨keeps.tenancy inv, ?_, keeps.ready ready⟩
    intro other apart
    apply keeps.holdings_other
    intro row member theirs
    apply only
    intro same
    exact apart (theirs.symm.trans (ready.owner inv member same))
  · intro s t _ _ agree _ _
    exact .inr ⟨_, _, rfl, rfl, keeps.agree agree⟩

theorem updateCredential_ok {db after : Database} {credentialId : Str}
    {change : UpstreamCredential → UpstreamCredential} (updated : db.updateCredential credentialId change = .ok after) :
    after = mapCredentials db fun row => if row.id = credentialId then change row else row := by
  unfold Database.updateCredential at updated
  split at updated <;> cases updated
  rfl

theorem updateCredential_isolated {change : UpstreamCredential → UpstreamCredential} (keeps : KeepsOwner change) :
    Isolated (tenant foreignKeys userId) (Ready d env userId credentialId)
      (commitDb fun db => db.updateCredential credentialId change) fun _ => Ready d env userId credentialId := by
  let changed (row : UpstreamCredential) : UpstreamCredential := if row.id = credentialId then change row else row
  have keepsChanged : KeepsOwner changed := by
    constructor <;> intro row <;> simp only [changed] <;> split
    · exact keeps.id row
    · rfl
    · exact keeps.userId row
    · rfl
  apply Isolated.congr (mapCredentials_isolated keepsChanged fun row apart => if_neg apart)
  intro s _ ready
  obtain ⟨own, member, same, -⟩ := ready.owned
  have there : s.db.credentials.any (·.id == credentialId) = true :=
    List.any_eq_true.mpr ⟨own, member, by simpa using same⟩
  simp [commitDb, Stateful.commit, Database.updateCredential, there, mapCredentials, changed]

theorem storeRenewal_isolated {locked : UpstreamCredential} (mine : locked.id = credentialId)
    (renewal : Client.Renewal) :
    Isolated (tenant foreignKeys userId) (Ready d env userId credentialId) (Client.storeRenewal d env locked renewal)
      fun _ => Ready d env userId credentialId := by
  refine mapCredentials_isolated ⟨?_, ?_⟩ ?_
  · intro row
    split <;> rfl
  · intro row
    split <;> rfl
  · intro row apart
    apply if_neg
    rintro ⟨same, -⟩
    exact apart (same.trans mine)

theorem cacheRenewal_isolated (locked : UpstreamCredential) (renewal : Client.Renewal) :
    Isolated (tenant foreignKeys userId) (Ready d env userId locked.id) (Client.cacheRenewal d env locked renewal)
      fun _ => Ready d env userId locked.id := by
  unfold Client.cacheRenewal
  split
  · exact .pure fun _ ready => ready
  · exact cacheSetJson_isolated .oauthAt _

theorem refreshUnderLock_isolated {locked : UpstreamCredential} (mine : locked.id = credentialId) :
    Isolated (tenant foreignKeys userId) (Ready d env userId credentialId) (Client.refreshUnderLock d env locked)
      fun _ => Ready d env userId credentialId := by
  subst mine
  apply Isolated.bind (Isolated.lift fun _ _ ready _ => ready)
  intro renewal
  apply Isolated.bind (storeRenewal_isolated rfl renewal)
  intro _
  apply Isolated.bind (cacheRenewal_isolated locked renewal)
  intro _
  exact .pure fun _ ready => ready

theorem getValidAccessToken_isolated (credential : UpstreamCredential) :
    Isolated (tenant foreignKeys userId) (Ready d env userId credential.id)
      (Client.getValidAccessToken d env credential) fun _ => Ready d env userId credential.id := by
  unfold Client.getValidAccessToken
  split
  · exact .lift fun _ _ ready _ => ready
  · apply Isolated.bind (cacheGetJson_isolated .oauthAt)
    intro cachedEnc
    split
    · exact .lift fun _ _ ready _ => ready
    · apply Isolated.bind selectById_isolated
      intro locked
      apply Isolated.assuming
      intro mine
      apply Isolated.bind (Isolated.lift fun _ _ ready _ => ready)
      intro valid
      split
      · exact .lift fun _ _ ready _ => ready
      · exact refreshUnderLock_isolated mine

theorem resolveUpstreamAuth_isolated (credential : UpstreamCredential) :
    Isolated (tenant foreignKeys userId) (Ready d env userId credential.id)
      (Client.resolveUpstreamAuth d env credential) fun _ => Ready d env userId credential.id := by
  unfold Client.resolveUpstreamAuth
  split
  · exact .lift fun _ _ ready _ => ready
  · apply Isolated.bind (getValidAccessToken_isolated credential)
    intro token
    exact .pure fun _ ready => ready

end Ready

end CfProxy
