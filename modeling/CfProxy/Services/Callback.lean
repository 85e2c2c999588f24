import CfProxy.Services.Management

set_option autoImplicit false

namespace CfProxy.OauthService

open Models Cache Crypto OauthCf Client Stateful

variable {d : Deployment} {env : Env} {code state : Str} {stored : Json} {s : Store}

def exchanged (d : Deployment) (env : Env) (code : Str) (stored : Json) : Except PyError Json := do
  exchangeCode d.oauth env.issuer code (← stored.item verifierKey)

-- Whatever stops a callback before its transaction leaves all tables as they are.
inductive Outcome (d : Deployment) (env : Env) (code : Str) (stored : Json) (s : Store) :
    Except PyError (User × Session) × Store → Prop
  | failed (raised : PyError) : Outcome d env code stored s (.error raised, s)
  | wrote {tokens : Json} {delivered : Delivered} {found : Option UpstreamCredential} {userId : Str}
      {users : List User} {db : Database} {answer : Except PyError (User × Session)}
      (exchanged : exchanged d env code stored = .ok tokens)
      (read : readDelivered d.fernet (env.drawn.1, env.drawn.2.1) env.now tokens = .ok delivered)
      (selected : selectCredential d.settings.collation s.db userId = .ok found)
      (written : delivered.write d.settings.collation s.db userId env.newId found = .ok db)
      (answered : ∀ user session, answer = .ok (user, session) → user.id = userId) :
      Outcome d env code stored s (answer, { s with db, users })

theorem commitCallback_cases (env : Env) (collation : Collation) (delivered : Delivered) (user : UserWrite)
    (credential : Option UpstreamCredential) {β : Type} (next : Unit → Operation β) (s : Store) :
    (∃ raised, (commitCallback env collation delivered user credential >>= next) s = (.error raised, s)) ∨
      ∃ users db, delivered.write collation s.db user.userId env.newId credential = .ok db ∧
        (commitCallback env collation delivered user credential >>= next) s = next () { s with db, users } := by
  obtain ⟨raised, failed⟩ | ⟨after, wrote, ran⟩ := commit_cases
    (fun s : Store => do
      let users ← user.write collation s.users
      let db ← delivered.write collation s.db user.userId env.newId credential
      return { s with db, users }) next s
  · exact .inl ⟨raised, failed⟩
  · obtain ⟨users, -, wrote⟩ := Except.bind_eq_ok.mp wrote
    obtain ⟨db, written, wrote⟩ := Except.bind_eq_ok.mp wrote
    cases wrote
    exact .inr ⟨users, db, written, ran⟩

theorem refreshUser_cases {β : Type} (userId : Str) (next : User → Operation β) (s : Store) :
    (∃ raised, (refreshUser userId >>= next) s = (.error raised, s)) ∨
      ∃ user, user.id = userId ∧ (refreshUser userId >>= next) s = next user s := by
  unfold refreshUser
  refine (query_cases _ next s).imp_right ?_
  rintro ⟨user, found, ran⟩
  refine ⟨user, ?_, ran⟩
  split at found
  · next row search =>
    cases found
    simpa using List.find?_some search
  · cases found

theorem write_cases {collation : Collation} {delivered : Delivered} {db after : Database} {userId newId : Str}
    {found : Option UpstreamCredential} (written : delivered.write collation db userId newId found = .ok after) :
    (found = none ∧ ∃ scopes, db.insertCredential collation (delivered.inserted userId newId scopes) = .ok after) ∨
      ∃ loaded scopes, found = some loaded ∧ db.updateCredential loaded.id (delivered.updated scopes loaded) = .ok after := by
  cases found with
  | none =>
    obtain ⟨scopes, -, written⟩ := Except.bind_eq_ok.mp written
    exact .inl ⟨rfl, scopes, written⟩
  | some loaded =>
    dsimp only [Delivered.write] at written
    split at written
    all_goals
      obtain ⟨scopes, -, written⟩ := Except.bind_eq_ok.mp written
      exact .inr ⟨loaded, scopes, rfl, written⟩

theorem signIn_outcome (d : Deployment) (env : Env) (code : Str) (stored : Json) (s : Store) :
    Outcome d env code stored s (signIn d env code stored s) := by
  unfold signIn
  obtain ⟨raised, failed⟩ | ⟨verifier, hasVerifier, ran⟩ := lift_cases (stored.item verifierKey) _ s
  · exact failed ▸ .failed raised
  rw [ran]
  obtain ⟨raised, failed⟩ | ⟨tokens, gave, ran⟩ := lift_cases (exchangeCode d.oauth env.issuer code verifier) _ s
  · exact failed ▸ .failed raised
  rw [ran]
  obtain ⟨raised, failed⟩ | ⟨identity, -, ran⟩ :=
    lift_cases (identify d.oauth (seconds env.now) env.jwks stored code tokens) _ s
  · exact failed ▸ .failed raised
  rw [ran]
  obtain ⟨raised, failed⟩ | ⟨found, -, ran⟩ := query_cases (fun s : Store => selectUser d.settings.collation s.users identity.sub) _ s
  · exact failed ▸ .failed raised
  rw [ran]
  obtain ⟨raised, failed⟩ | ⟨user, -, ran⟩ := lift_cases (upsertUser found env.newUserId identity) _ s
  · exact failed ▸ .failed raised
  rw [ran]
  obtain ⟨raised, failed⟩ | ⟨flushed, -, ran⟩ := query_cases (fun s : Store => user.write d.settings.collation s.users) _ s
  · exact failed ▸ .failed raised
  rw [ran]
  obtain ⟨raised, failed⟩ | ⟨credential, selected, ran⟩ :=
    query_cases (fun s : Store => selectCredential d.settings.collation s.db user.userId) _ s
  · exact failed ▸ .failed raised
  rw [ran]
  obtain ⟨raised, failed⟩ | ⟨delivered, read, ran⟩ :=
    lift_cases (readDelivered d.fernet (env.drawn.1, env.drawn.2.1) env.now tokens) _ s
  · exact failed ▸ .failed raised
  rw [ran]
  obtain ⟨raised, failed⟩ | ⟨users, db, written, ran⟩ := commitCallback_cases env d.settings.collation delivered user credential _ s
  · exact failed ▸ .failed raised
  rw [ran]
  have gaveTokens : exchanged d env code stored = .ok tokens := by
    rw [exchanged, hasVerifier]
    exact gave
  obtain ⟨raised, failed⟩ | ⟨row, same, ran⟩ := refreshUser_cases user.userId _ { s with db, users }
  · rw [failed]
    exact .wrote gaveTokens read selected written fun _ _ answered => by cases answered
  · rw [ran]
    refine .wrote gaveTokens read selected written ?_
    rintro _ _ ⟨⟩
    exact same

def consumed (env : Env) (state : Str) (s : Store) : Json :=
  if env.cacheReads (oauthStateKey state) then (s.cache (oauthStateKey state)).getD .null else .null

theorem consumeOauthState_cases (env : Env) (state : Str) (s : Store) :
    ∃ cache, consumeOauthState env state s = (.ok (consumed env state s), { s with cache }) := by
  have ran : consumeOauthState env state s = (.ok (consumed env state s),
      if env.cacheReads (oauthStateKey state) then { s with cache := s.cache.del [oauthStateKey state] } else s) := rfl
  rw [ran]
  split
  next => exact ⟨s.cache.del [oauthStateKey state], rfl⟩
  next => exact ⟨s.cache, rfl⟩

theorem handleCfOauthCallback_outcome (d : Deployment) (env : Env) (code state : Str) (s : Store) :
    ∃ cache, Outcome d env code (consumed env state s) { s with cache } (handleCfOauthCallback d env code state s) := by
  obtain ⟨cache, ran⟩ := consumeOauthState_cases env state s
  refine ⟨cache, ?_⟩
  rw [handleCfOauthCallback, bind_ok ran]
  split
  · exact .failed _
  · exact signIn_outcome d env code _ _

end CfProxy.OauthService
