import CfProxy.Services.Secrecy

set_option autoImplicit false

namespace CfProxy

open Models Cache Crypto OauthCf OauthService Client TokenPlane AuditService Machine

variable {d : Deployment} {env : Env} {T : Str → Str → Prop} {s t : Store} {db dbT : Database}

section Login

theorem oauthStateKey_plain (state : Str) (credId : Str) : oauthStateKey state ≠ oauthAtKey credId := by
  have left : oauthStateKey state = "oauth_".toList ++ ('s' :: ("tate:".toList ++ state)) := rfl
  have right : oauthAtKey credId = "oauth_".toList ++ ('a' :: ("t:".toList ++ credId)) := rfl
  intro same
  rw [left, right] at same
  have heads := List.append_cancel_left same
  cases heads

theorem startCfOauthLogin_same (drawn : Drawn) :
    Stateful.Alike (SameStore d T) Eq (startCfOauthLogin d env drawn) (startCfOauthLogin d env drawn) :=
  (cacheSetJson_same (oauthStateKey_plain _) _).bind_eq fun _ => .pure rfl

theorem consumeOauthState_same (state : Str) :
    Stateful.Alike (SameStore d T) Eq (consumeOauthState env state) (consumeOauthState env state) := by
  refine (cacheGetJson_same (oauthStateKey_plain state)).bind_eq fun stored => ?_
  have consumes : Stateful.Alike (SameStore d T) Eq
      (.modify fun s => if env.cacheReads (oauthStateKey state) then
        { s with cache := s.cache.del [oauthStateKey state] } else s)
      (.modify fun s => if env.cacheReads (oauthStateKey state) then
        { s with cache := s.cache.del [oauthStateKey state] } else s) := by
    refine .modify fun s t same => ?_
    split
    · exact same.del _
    · exact same
  exact consumes.bind_eq fun _ => .pure rfl

theorem readsUsers_same {α : Type} (read : List User → Except PyError α) :
    Stateful.Alike (SameStore d T) Eq (.query fun s => read s.users) (.query fun s => read s.users) :=
  .query fun s t same => by rw [same.users]; exact .refl _

theorem selectCredential_same (collation : Collation) (userId : Str) :
    Stateful.Alike (SameStore d T) (Option.Rel (SameRow d T)) 
      (.query fun s => selectCredential collation s.db userId) (.query fun s => selectCredential collation s.db userId) := by
  refine .query fun s t same => ?_
  have rows := same.database.rows.filter_rel
    (p := fun row => row.userId == userId && collation.same row.label oauthCredentialLabel)
    (q := fun row => row.userId == userId && collation.same row.label oauthCredentialLabel) fun a b both => by
      rw [both.userId, both.label]
  unfold selectCredential
  generalize s.db.credentials.filter _ = left, t.db.credentials.filter _ = right at rows
  cases rows with
  | nil => exact .ok .none
  | cons head rest =>
    cases rest with
    | nil => exact .ok (.some head)
    | cons => exact .error multipleResultsFound

section Delivery

variable {row other : UpstreamCredential} {delivered : Delivered}

theorem inserted_same (reflexive : ∀ secret, T secret secret) (userId newId : Str) (scopes : Option Str) :
    SameRow d T (delivered.inserted userId newId scopes) (delivered.inserted userId newId scopes) where
  shape := rfl
  secret _ := .reflexive reflexive _
  pair double := absurd (show oauthType = globalKeyType from double) (by decide)
  accessToken := .reflexive reflexive _
  refreshToken := .reflexive reflexive _

theorem delivered_column (reflexive : ∀ secret, T secret secret) (column : Option Str) {held heldOther : Option Str}
    (same : Related T (decryptColumn d held) (decryptColumn d heldOther)) :
    Related T (decryptColumn d (column.or held)) (decryptColumn d (column.or heldOther)) := by
  cases column with
  | none => exact same
  | some ciphertext => exact .reflexive reflexive _

theorem updated_same (reflexive : ∀ secret, T secret secret) (scopes : Option Str) {loaded otherLoaded : UpstreamCredential}
    (loadedRows : SameRow d T loaded otherLoaded) (rows : SameRow d T row other) :
    SameRow d T (delivered.updated scopes loaded row) (delivered.updated scopes otherLoaded other) where
  shape := by
    unfold Delivered.updated
    rw [rows.shape, loadedRows.shape]
  secret := rows.secret
  pair := rows.pair
  accessToken := delivered_column reflexive _ rows.accessToken
  refreshToken := delivered_column reflexive _ rows.refreshToken

theorem write_same {collation : Collation} (reflexive : ∀ secret, T secret secret) (delivered : Delivered) (userId newId : Str)
    {found otherFound : Option UpstreamCredential} (rows : Option.Rel (SameRow d T) found otherFound)
    (same : SameDatabase d T db dbT) :
    Related (SameDatabase d T) (delivered.write collation db userId newId found)
      (delivered.write collation dbT userId newId otherFound) := by
  unfold Delivered.write
  cases rows with
  | none =>
    refine (Related.refl _).bind fun scopes _ equal => ?_
    exact equal ▸ insertCredential_same (inserted_same reflexive _ _ scopes) same
  | @some loaded otherLoaded rows =>
    have kept : otherLoaded.oauthScopes = loaded.oauthScopes := by rw [rows.shape]
    dsimp only
    rw [kept, rows.id]
    split
    · refine (Related.refl _).bind fun scopes _ equal => ?_
      exact equal ▸ updateCredential_same (fun _ _ => updated_same reflexive scopes rows) same
    · exact updateCredential_same (fun _ _ => updated_same reflexive _ rows) same

end Delivery

theorem commitCallback_same {collation : Collation} (reflexive : ∀ secret, T secret secret) (delivered : Delivered) (user : UserWrite)
    {found otherFound : Option UpstreamCredential} (rows : Option.Rel (SameRow d T) found otherFound) :
    Stateful.Alike (SameStore d T) Eq (commitCallback env collation delivered user found)
      (commitCallback env collation delivered user otherFound) := by
  refine .commit fun s t same => ?_
  rw [same.users]
  refine (Related.refl _).bind fun users _ equal => equal ▸ ?_
  refine (write_same reflexive delivered user.userId env.newId rows same.database).bind fun db dbT databases => ?_
  exact .ok ⟨databases, rfl, same.auditLogs, same.entries, same.tokens⟩

theorem signIn_same (reflexive : ∀ secret, T secret secret) (code : Str) (stored : Json) :
    Stateful.Alike (SameStore d T) Eq (signIn d env code stored) (signIn d env code stored) := by
  have lifted {α : Type} (result : Except PyError α) : Stateful.Alike (SameStore d T) Eq (.lift result) (.lift result) :=
    .lift (.refl _)
  refine (lifted _).bind_eq fun verifier => (lifted _).bind_eq fun tokens => (lifted _).bind_eq fun identity => ?_
  refine (readsUsers_same fun users => selectUser d.settings.collation users identity.sub).bind_eq fun found => ?_
  refine (lifted _).bind_eq fun user => (readsUsers_same fun users => user.write d.settings.collation users).bind_eq fun _ => ?_
  refine (selectCredential_same d.settings.collation user.userId).bind fun credential otherCredential rows => ?_
  refine (lifted _).bind_eq fun delivered => (commitCallback_same reflexive delivered user rows).bind_eq fun _ => ?_
  have refreshes : Stateful.Alike (SameStore d T) Eq (refreshUser user.userId) (refreshUser user.userId) :=
    .query fun s t same => by rw [same.users]; exact .refl _
  exact refreshes.bind_eq fun row => .pure rfl

theorem handleCfOauthCallback_same (reflexive : ∀ secret, T secret secret) (code state : Str) :
    Stateful.Alike (SameStore d T) Eq (handleCfOauthCallback d env code state) (handleCfOauthCallback d env code state) := by
  refine (consumeOauthState_same state).bind_eq fun stored => ?_
  split
  · exact .raise _
  · exact signIn_same reflexive code stored

end Login

section Runs

inductive TwinLabel (d : Deployment) (T : Str → Str → Prop) : Label → Label → Prop
  | manage (userId : Str) {command other : Command} {env : Env} (twins : Twins d env T)
      (commands : TwinCommand T command other) : TwinLabel d T (.manage userId command env) (.manage userId other env)
  | startLogin (drawn : Drawn) (env : Env) : TwinLabel d T (.startLogin drawn env) (.startLogin drawn env)
  | callback (code state : Str) (env : Env) : TwinLabel d T (.callback code state env) (.callback code state env)
  | resolve (credentialId : Str) {env : Env} (twins : Twins d env T) :
      TwinLabel d T (.resolve credentialId env) (.resolve credentialId env)
  | audit (log : AuditLog) : TwinLabel d T (.audit log) (.audit log)
  | account (row : User) : TwinLabel d T (.account row) (.account row)
  | cache (entries : Entries) : TwinLabel d T (.cache entries) (.cache entries)

variable {first second firstAfter secondAfter : Site} {label other : Label}

theorem resolveById_same (twins : Twins d env T) (credentialId : Str) :
    Stateful.Alike (SameStore d T) (Interchangeable (env.world d)) (resolveById d env credentialId)
      (resolveById d env credentialId) :=
  selectById_same.bind fun _ _ rows => resolveUpstreamAuth_same twins rows

theorem writeAudit_same (log : AuditLog) :
    Stateful.Alike (SameStore d T) Eq (writeAudit log) (writeAudit log) :=
  .modify fun s t same => ⟨same.database, same.users, by rw [same.auditLogs], same.entries, same.tokens⟩

theorem step_same (reflexive : ∀ secret, T secret secret) (same : SameStore d T first.store second.store)
    (labels : TwinLabel d T label other) (stepped : step d first label = some firstAfter)
    (otherStepped : step d second other = some secondAfter) : SameStore d T firstAfter.store secondAfter.store := by
  cases labels with
  | manage userId twins commands =>
    simp only [step, Option.ite_none_right_eq_some, Option.some.injEq] at stepped otherStepped
    obtain ⟨-, rfl⟩ := stepped
    obtain ⟨-, rfl⟩ := otherStepped
    exact (manage_same twins commands _ _ same).2
  | startLogin drawn env =>
    cases stepped
    cases otherStepped
    exact (startCfOauthLogin_same drawn _ _ same).2
  | callback code state env =>
    simp only [step, Option.ite_none_right_eq_some, Option.some.injEq] at stepped otherStepped
    obtain ⟨-, rfl⟩ := stepped
    obtain ⟨-, rfl⟩ := otherStepped
    exact (handleCfOauthCallback_same reflexive code state _ _ same).2
  | resolve credentialId twins =>
    simp only [step, Option.ite_none_right_eq_some, Option.some.injEq] at stepped otherStepped
    obtain ⟨-, rfl⟩ := stepped
    obtain ⟨-, rfl⟩ := otherStepped
    exact (resolveById_same twins credentialId _ _ same).2
  | audit log =>
    cases stepped
    cases otherStepped
    exact (writeAudit_same log _ _ same).2
  | account row =>
    cases stepped
    cases otherStepped
    exact ⟨same.database, by rw [same.users], same.auditLogs, same.entries, same.tokens⟩
  | cache entries =>
    cases stepped
    cases otherStepped
    refine ⟨same.database, same.users, same.auditLogs, fun _ _ => rfl, fun credId => ⟨rfl, fun _ => ?_⟩⟩
    exact .reflexive reflexive _

theorem run_same (reflexive : ∀ secret, T secret secret) {foreignKeys : Bool} {labels others : List Label}
    (twinLabels : List.Forall₂ (TwinLabel d T) labels others) (same : SameStore d T first.store second.store)
    (ran : (site d foreignKeys).run first labels = some firstAfter)
    (otherRan : (site d foreignKeys).run second others = some secondAfter) :
    SameStore d T firstAfter.store secondAfter.store := by
  induction twinLabels generalizing first second with
  | nil =>
    obtain rfl := Option.some.inj ran
    obtain rfl := Option.some.inj otherRan
    exact same
  | cons twins _ ih =>
    obtain ⟨middle, stepped, rest⟩ := Option.bind_eq_some_iff.mp ran
    obtain ⟨otherMiddle, otherStepped, otherRest⟩ := Option.bind_eq_some_iff.mp otherRan
    exact ih (step_same reflexive same twins stepped otherStepped) rest otherRest

theorem start_same {foreignKeys : Bool} (initial : (site d foreignKeys).init first) :
    SameStore d T first.store first.store := by
  obtain rfl : first = { store := { db := .empty foreignKeys } } := initial
  exact ⟨⟨rfl, .nil, rfl, rfl⟩, rfl, rfl, fun _ _ => rfl, fun _ => .null⟩

end Runs

end CfProxy
