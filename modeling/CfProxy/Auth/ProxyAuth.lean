import CfProxy.Auth.Resolution
import CfProxy.Services.Tenants
import CfProxy.Shared.Performing

set_option autoImplicit false

namespace CfProxy.TokenPlane

open Scope Models Cache Crypto Machine CredentialService TokenService

-- The order in which the engine gives the rows of a statement without ORDER BY.
structure RowOrder where
  arrange : List ScopeRule → List ScopeRule
  perm : ∀ rules, (arrange rules).Perm rules

section Operations

variable (d : Deployment) (env : Env) (order : RowOrder)

-- A read that fails and one that finds nothing come to the same.
def loadRules (token : ScopedToken) : Operation (List ScopeRule) := do
  let cached ← cacheGetJson env (rulesKey token.lookupId token.version)
  if cached.isNull then
    let rules ← .reads fun s => order.arrange (s.db.rulesOf token.id)
    cacheSetJson env (rulesKey token.lookupId token.version) (rulesToCache rules)
    return rules
  else .lift (rulesFromCache cached)

-- `resolve_scoped_token` behind its check of the token.
def readCredential (token : ScopedToken) : Operation (Option ProxyAuthContext) := do
  match ← .reads fun s => s.db.credential token.upstreamCredentialId with
  | none => return none
  | some credential =>
    let rules ← loadRules env order token
    return some ⟨token, rules, credential⟩

def resolveScopedToken (fullToken : Str) : Operation (Option ProxyAuthContext) := do
  match ← .query fun s => checkToken d.settings s.db fullToken env.now with
  | none => return none
  | some token => readCredential env order token

end Operations

section Refinement

variable {ι : Type} {d : Deployment} {env : Env} {s : Store} {p : ι}

structure Mirrors (s : Store) (state : Shared × Phase) : Prop where
  db : state.1.db = s.db
  cache : state.1.cache = s.cache

def mirrored (shared : Shared) : Store where
  db := shared.db
  cache := shared.cache

def Finishes {α : Type} (result : Except PyError α) (state : Shared × Phase) : Prop :=
  state.2 = .finished (result.map fun _ => ())

def Answers (result : Except PyError (Option ProxyAuthContext)) (state : Shared × Phase) : Prop :=
  ∃ seen, state.2 = .resolved seen result

variable {shared : Shared} {phase next : Phase}

theorem Mirrors.uncache (mirrors : Mirrors s (shared, phase)) (keys : List Str) :
    Mirrors (cacheDel env keys s).2 (shared.uncache (env.cacheDels keys) keys, next) := by
  obtain ⟨db, cache⟩ := mirrors
  dsimp only at db cache
  cases works : env.cacheDels keys <;>
    constructor <;> simp [cacheDel, Stateful.modify, Stateful.commit, works, Shared.uncache, db, cache]

theorem performs_act {α : Type} {settings : Settings} {action : Action} {after : Shared} {x : Operation α}
    {ends : Except PyError α → Shared × Phase → Prop} (acted : act settings action shared phase = some (after, next))
    (rest : Performs ((plane ι settings).alone p) Mirrors ends (after, next) x s) :
    Performs ((plane ι settings).alone p) Mirrors ends (shared, phase) x s := by
  have stepped : ((plane ι settings).alone p).step (shared, phase) action = some (after, next) := acted
  exact .step stepped rest

theorem getOwnedScopedToken_some {userId tokenId : Str} {token : ScopedToken}
    (found : s.db.ownedToken userId tokenId = some token) : getOwnedScopedToken userId tokenId s = (.ok token, s) := by
  simp [getOwnedScopedToken, Stateful.query, found]

theorem getOwnedScopedToken_none {userId tokenId : Str} (missing : s.db.ownedToken userId tokenId = none) :
    getOwnedScopedToken userId tokenId s = (.error notFound, s) := by
  simp [getOwnedScopedToken, Stateful.query, missing]

theorem updateToken_performs {α : Type} {action : Action} {token : ScopedToken} {change : ScopedToken → ScopedToken}
    {entry : Change} {value : α} {rest : Operation α} (mirrors : Mirrors s (shared, phase))
    (commits : ∀ db, shared.db.updateToken token.id change = .ok db → act d.settings action shared phase =
      some ({ shared with db, history := entry :: shared.history }, .uncaching (rulesKey token.lookupId token.version)))
    (fails : ∀ raised, shared.db.updateToken token.id change = .error raised → act d.settings action shared phase =
      some (shared, .finished (.error raised)))
    (returns : ∀ s, rest s = (.ok value, (cacheDel env [rulesKey token.lookupId token.version] s).2)) :
    Performs ((plane ι d.settings).alone p) Mirrors Finishes (shared, phase)
      (commitDb (fun db => db.updateToken token.id change) >>= fun _ => rest) s := by
  obtain ⟨same, cache⟩ := mirrors
  dsimp only at same cache
  rw [same] at commits fails
  cases wrote : s.db.updateToken token.id change with
  | error raised =>
    exact performs_act (fails raised wrote) (.done (Stateful.bind_error (commitDb_error wrote)) ⟨same, cache⟩ rfl)
  | ok db =>
    refine performs_act (commits db wrote) (.congr ?_ (Stateful.bind_ok (commitDb_ok wrote)))
    have committed : Mirrors (s.withDb db) ({ shared with db, history := entry :: shared.history }, phase) := ⟨rfl, cache⟩
    have uncached : act d.settings (.uncache (env.cacheDels [rulesKey token.lookupId token.version]))
        { shared with db, history := entry :: shared.history } (.uncaching (rulesKey token.lookupId token.version)) =
        some (_, .finished (.ok ())) := rfl
    exact performs_act uncached (.done (returns _) (committed.uncache _) rfl)

theorem rotateScopedToken_performs (mirrors : Mirrors s (shared, .idle)) (userId tokenId : Str) :
    Performs ((plane ι d.settings).alone p) Mirrors Finishes (shared, .idle) (rotateScopedToken d env userId tokenId) s := by
  obtain ⟨db, cache⟩ := mirrors
  dsimp only at db cache
  cases found : s.db.ownedToken userId tokenId with
  | none =>
    have acted : act d.settings (.rotate userId tokenId) shared .idle = some (shared, .finished (.error notFound)) := by
      simp [act, db, found]
    exact performs_act acted (.done (Stateful.bind_error (getOwnedScopedToken_none found)) ⟨db, cache⟩ rfl)
  | some token =>
    have acted : act d.settings (.rotate userId tokenId) shared .idle = some (shared, .rotating token) := by
      simp [act, db, found]
    refine performs_act acted (.congr ?_ (Stateful.bind_ok (getOwnedScopedToken_some found)))
    have commits (db : Database) (updated : shared.db.updateToken token.id (rotateRow d.settings token env.generated) = .ok db) :
        act d.settings (.rotateCommit env.generated) shared (.rotating token) =
          some ({ shared with db, history := .rotated token.id env.generated :: shared.history },
            .uncaching (rulesKey token.lookupId token.version)) := by
      simp only [act, updated]
    have fails (raised : PyError)
        (updated : shared.db.updateToken token.id (rotateRow d.settings token env.generated) = .error raised) :
        act d.settings (.rotateCommit env.generated) shared (.rotating token) = some (shared, .finished (.error raised)) := by
      simp only [act, updated]
    exact updateToken_performs ⟨db, cache⟩ commits fails fun _ => rfl

theorem revokeScopedToken_performs (mirrors : Mirrors s (shared, .idle)) (userId tokenId : Str) :
    Performs ((plane ι d.settings).alone p) Mirrors Finishes (shared, .idle) (revokeScopedToken env userId tokenId) s := by
  obtain ⟨db, cache⟩ := mirrors
  dsimp only at db cache
  cases found : s.db.ownedToken userId tokenId with
  | none =>
    have acted : act d.settings (.revoke userId tokenId) shared .idle = some (shared, .finished (.error notFound)) := by
      simp [act, db, found]
    exact performs_act acted (.done (Stateful.bind_error (getOwnedScopedToken_none found)) ⟨db, cache⟩ rfl)
  | some token =>
    have acted : act d.settings (.revoke userId tokenId) shared .idle = some (shared, .revoking token) := by
      simp [act, db, found]
    refine performs_act acted (.congr ?_ (Stateful.bind_ok (getOwnedScopedToken_some found)))
    have commits (db : Database) (updated : shared.db.updateToken token.id (revokeRow token env.now) = .ok db) :
        act d.settings (.revokeCommit env.now) shared (.revoking token) =
          some ({ shared with db, history := .revoked token.id :: shared.history },
            .uncaching (rulesKey token.lookupId token.version)) := by
      simp only [act, updated]
    have fails (raised : PyError)
        (updated : shared.db.updateToken token.id (revokeRow token env.now) = .error raised) :
        act d.settings (.revokeCommit env.now) shared (.revoking token) = some (shared, .finished (.error raised)) := by
      simp only [act, updated]
    exact updateToken_performs ⟨db, cache⟩ commits fails fun _ => rfl

theorem cascade_performs {credentialId : Str} {tokens : List ScopedToken} {batches : List (List Str)}
    (mirrors : Mirrors s (shared, .cascading credentialId tokens batches)) :
    Performs ((plane ι d.settings).alone p) Mirrors Finishes (shared, .cascading credentialId tokens batches)
      (Stateful.forEach batches (cacheDel env) >>= fun _ => commitDb fun db => cascadeDelete db credentialId tokens env.now)
      s := by
  induction batches generalizing s shared with
  | nil =>
    obtain ⟨same, cache⟩ := mirrors
    dsimp only at same cache
    have last : (Stateful.forEach [] (cacheDel env) >>= fun _ =>
        commitDb fun db => cascadeDelete db credentialId tokens env.now) s =
        commitDb (fun db => cascadeDelete db credentialId tokens env.now) s := rfl
    cases cascade : cascadeDelete s.db credentialId tokens env.now with
    | error raised =>
      have acted : act d.settings (.deleteCommit env.now) shared (.cascading credentialId tokens []) =
          some (shared, .finished (.error raised)) := by
        simp only [act, same, cascade]
      exact performs_act acted (.done (last.trans (commitDb_error cascade)) ⟨same, cache⟩ rfl)
    | ok db =>
      have acted : act d.settings (.deleteCommit env.now) shared (.cascading credentialId tokens []) =
          some ({ shared with db, history := tokens.map (fun token => .revoked token.id) ++ shared.history },
            .finished (.ok ())) := by
        simp only [act, same, cascade]
      exact performs_act acted (.done (last.trans (commitDb_ok cascade)) ⟨rfl, cache⟩ rfl)
  | cons keys rest ih =>
    have acted : act d.settings (.uncache (env.cacheDels keys)) shared (.cascading credentialId tokens (keys :: rest)) =
        some (shared.uncache (env.cacheDels keys) keys, .cascading credentialId tokens rest) := rfl
    exact performs_act acted (.congr (ih (mirrors.uncache keys)) rfl)

theorem deleteCredential_performs (mirrors : Mirrors s (shared, .idle)) (userId credentialId : Str) :
    Performs ((plane ι d.settings).alone p) Mirrors Finishes (shared, .idle)
      (CredentialService.deleteCredential env userId credentialId) s := by
  obtain ⟨db, cache⟩ := mirrors
  dsimp only at db cache
  cases found : s.db.ownedCredential userId credentialId with
  | none =>
    have missing : getOwnedCredential userId credentialId s = (.error notFound, s) := by
      simp [getOwnedCredential, Stateful.query, found]
    have acted : act d.settings (.delete userId credentialId) shared .idle = some (shared, .finished (.error notFound)) := by
      simp [act, db, found]
    exact performs_act acted (.done (Stateful.bind_error missing) ⟨db, cache⟩ rfl)
  | some row =>
    have owned : getOwnedCredential userId credentialId s = (.ok row, s) := by
      simp [getOwnedCredential, Stateful.query, found]
    have acted : act d.settings (.delete userId credentialId) shared .idle = some (shared, .selecting credentialId) := by
      simp [act, db, found]
    refine performs_act acted (.congr ?_ (Stateful.bind_ok owned))
    have selected : act d.settings .selectTokens shared (.selecting credentialId) =
        some (shared, .cascading credentialId (s.db.activeTokens credentialId)
          (cascadeKeys credentialId (s.db.activeTokens credentialId))) := by
      simp only [act, db]
    exact performs_act selected (.congr (cascade_performs ⟨db, cache⟩) rfl)

theorem cacheGetJson_run (key : Str) :
    cacheGetJson env key s = (.ok (if env.cacheReads key then (s.cache key).getD .null else .null), s) := rfl

theorem missed_performs {order : RowOrder} {seen : Seen} {token : ScopedToken} {credential : UpstreamCredential}
    {rest : Operation (Option ProxyAuthContext)} (mirrors : Mirrors s (shared, .missed seen token credential))
    (returns : rest s = (.ok (some ⟨token, order.arrange (s.db.rulesOf token.id), credential⟩),
      (cacheSetJson env (rulesKey token.lookupId token.version)
        (rulesToCache (order.arrange (s.db.rulesOf token.id))) s).2)) :
    Performs ((plane ι d.settings).alone p) Mirrors Answers (shared, .missed seen token credential) rest s := by
  obtain ⟨db, cache⟩ := mirrors
  dsimp only at db cache
  have selected : act d.settings (.selectRules (order.arrange (s.db.rulesOf token.id))) shared
      (.missed seen token credential) =
      some (shared, .loaded seen ⟨token, order.arrange (s.db.rulesOf token.id), credential⟩) := by
    simp only [act, db, order.perm, if_true]
  have filled : act d.settings (.fillCache (env.cacheWrites (rulesKey token.lookupId token.version))) shared
      (.loaded seen ⟨token, order.arrange (s.db.rulesOf token.id), credential⟩) = some (_, .resolved seen _) := rfl
  refine performs_act selected (performs_act filled (.done returns ?_ ⟨seen, rfl⟩))
  cases writes : env.cacheWrites (rulesKey token.lookupId token.version) <;>
    constructor <;> simp [cacheSetJson, Stateful.modify, Stateful.commit, writes, Shared.fill, db, cache]

theorem loadRules_performs {order : RowOrder} {seen : Seen} {token : ScopedToken} {credential : UpstreamCredential}
    (mirrors : Mirrors s (shared, .authenticated seen token credential))
    (written : s.cache (rulesKey token.lookupId token.version) ≠ some .null) :
    Performs ((plane ι d.settings).alone p) Mirrors Answers (shared, .authenticated seen token credential)
      (loadRules env order token >>= fun rules => pure (some ⟨token, rules, credential⟩)) s := by
  obtain ⟨db, cache⟩ := mirrors
  dsimp only at db cache
  cases entry : if env.cacheReads (rulesKey token.lookupId token.version) then
      s.cache (rulesKey token.lookupId token.version) else none with
  | none =>
    have acted : act d.settings (.readCache (env.cacheReads (rulesKey token.lookupId token.version))) shared
        (.authenticated seen token credential) = some (shared, .missed seen token credential) := by
      simp only [act, cache, entry]
    have absent : cacheGetJson env (rulesKey token.lookupId token.version) s = (.ok .null, s) := by
      rw [cacheGetJson_run]
      split at entry <;> simp_all
    have loaded : loadRules env order token s = _ := Stateful.bind_ok absent
    exact performs_act acted (missed_performs ⟨db, cache⟩ (Stateful.bind_ok loaded))
  | some cached =>
    have acted : act d.settings (.readCache (env.cacheReads (rulesKey token.lookupId token.version))) shared
        (.authenticated seen token credential) =
        some (shared, .resolved seen ((rulesFromCache cached).map fun rules => some ⟨token, rules, credential⟩)) := by
      simp only [act, cache, entry]
    have present : cacheGetJson env (rulesKey token.lookupId token.version) s = (.ok cached, s) ∧ cached.isNull = false := by
      rw [cacheGetJson_run]
      split at entry
      · rename_i reads
        refine ⟨by simp [reads, entry], ?_⟩
        cases cached <;> simp_all [Json.isNull]
      · cases entry
    obtain ⟨found, notNull⟩ := present
    have loaded : loadRules env order token s = (rulesFromCache cached, s) := by
      rw [loadRules, Stateful.bind_ok found]
      simp [notNull, Stateful.lift, Stateful.query]
    refine performs_act acted (.done ?_ ⟨db, cache⟩ ⟨seen, rfl⟩)
    rw [Stateful.bind_run, loaded]
    cases rulesFromCache cached <;> rfl

theorem readCredential_performs {order : RowOrder} {seen : Seen} {token : ScopedToken}
    (mirrors : Mirrors s (shared, .verified seen token))
    (written : s.cache (rulesKey token.lookupId token.version) ≠ some .null) :
    Performs ((plane ι d.settings).alone p) Mirrors Answers (shared, .verified seen token)
      (readCredential env order token) s := by
  obtain ⟨db, cache⟩ := mirrors
  dsimp only at db cache
  have reads : Stateful.reads (fun s : Store => s.db.credential token.upstreamCredentialId) s =
      (.ok (s.db.credential token.upstreamCredentialId), s) := rfl
  refine .congr ?_ (Stateful.bind_ok reads)
  cases bound : s.db.credential token.upstreamCredentialId with
  | none =>
    have acted : act d.settings .readCredential shared (.verified seen token) =
        some (shared, .resolved { seen with credentials := shared.db.credentials } (.ok none)) := by
      simp only [act, db, bound]
    exact performs_act acted (.done rfl ⟨db, cache⟩ ⟨_, rfl⟩)
  | some credential =>
    have acted : act d.settings .readCredential shared (.verified seen token) =
        some (shared, .authenticated { seen with credentials := shared.db.credentials } token credential) := by
      simp only [act, db, bound]
    exact performs_act acted (loadRules_performs ⟨db, cache⟩ written)

theorem resolveScopedToken_performs {order : RowOrder} (mirrors : Mirrors s (shared, .idle))
    (written : ∀ token ∈ s.db.tokens, s.cache (rulesKey token.lookupId token.version) ≠ some .null) (fullToken : Str) :
    Performs ((plane ι d.settings).alone p) Mirrors Answers (shared, .idle) (resolveScopedToken d env order fullToken) s := by
  obtain ⟨db, cache⟩ := mirrors
  dsimp only at db cache
  have asked : act d.settings (.present fullToken) shared .idle =
      some (shared, .presented ⟨fullToken, shared.history, shared.history, []⟩) := rfl
  refine performs_act asked ?_
  match checked : checkToken d.settings s.db fullToken env.now with
  | .error raised =>
    have acted : act d.settings (.readToken env.now) shared (.presented ⟨fullToken, shared.history, shared.history, []⟩) =
        some (shared, .resolved ⟨fullToken, shared.history, shared.history, []⟩ (.error raised)) := by
      simp only [act, db, checked]
    have failed : resolveScopedToken d env order fullToken s = (.error raised, s) := by
      simp only [resolveScopedToken, Stateful.bind_run, Stateful.query, checked]
    exact performs_act acted (.done failed ⟨db, cache⟩ ⟨_, rfl⟩)
  | .ok none =>
    have acted : act d.settings (.readToken env.now) shared (.presented ⟨fullToken, shared.history, shared.history, []⟩) =
        some (shared, .resolved ⟨fullToken, shared.history, shared.history, []⟩ (.ok none)) := by
      simp only [act, db, checked]
    have refused : resolveScopedToken d env order fullToken s = (.ok none, s) := by
      simp only [resolveScopedToken, Stateful.bind_run, Stateful.query, checked]
      rfl
    exact performs_act acted (.done refused ⟨db, cache⟩ ⟨_, rfl⟩)
  | .ok (some token) =>
    have acted : act d.settings (.readToken env.now) shared (.presented ⟨fullToken, shared.history, shared.history, []⟩) =
        some (shared, .verified ⟨fullToken, shared.history, shared.history, []⟩ token) := by
      simp only [act, db, checked]
    have passed : resolveScopedToken d env order fullToken s = readCredential env order token s := by
      simp only [resolveScopedToken, Stateful.bind_run, Stateful.query, checked]
    exact performs_act acted (.congr (readCredential_performs ⟨db, cache⟩ (written token (checkToken_some checked).1)) passed)

end Refinement

section Runs

variable {ι : Type} [DecidableEq ι] {d : Deployment} {c : Config ι Shared Phase} {p : ι}

structure Served {α : Type} (ends : Except PyError α → Shared × Phase → Prop) (x : Operation α) (s : Store)
    (c after : Config ι Shared Phase) (p : ι) : Prop where
  mirrors : Mirrors (x s).2 (after.shared, after.procs p)
  ends : ends (x s).1 (after.shared, after.procs p)
  others : ∀ q, q ≠ p → after.procs q = c.procs q

def Runs {α : Type} (settings : Settings) (ends : Except PyError α → Shared × Phase → Prop) (x : Operation α) (s : Store)
    (c : Config ι Shared Phase) (p : ι) : Prop :=
  ∃ (actions : List Action) (after : Config ι Shared Phase),
    (plane ι settings).system.run c (actions.map (.own p)) = some after ∧ Served ends x s c after p

theorem runs_of_performs {α : Type} {ends : Except PyError α → Shared × Phase → Prop} {x : Operation α} {s : Store}
    (performs : Performs ((plane ι d.settings).alone p) Mirrors ends (c.shared, .idle) x s) (idle : c.procs p = .idle) :
    Runs d.settings ends x s c p := by
  obtain ⟨actions, ⟨shared, phase⟩, ran, mirrors, ended⟩ := performs
  rw [← idle] at ran
  refine ⟨actions, _, Interleaving.run_alone ran, ?_, ?_, fun q other => Function.update_of_ne other _ _⟩
  · simpa using mirrors
  · simpa using ended

theorem Consistent.notNull {settings : Settings} {shared : Shared} (inv : Consistent settings shared) {token : ScopedToken}
    (member : token ∈ shared.db.tokens) : shared.cache (rulesKey token.lookupId token.version) ≠ some .null := by
  intro entry
  obtain ⟨generated, -, lookup, -⟩ := (inv.rows token member).issued
  rw [lookup] at entry
  obtain ⟨owner, rules, -, -, written⟩ := inv.cached generated _ _ entry
  cases written

theorem operations_refine (reached : (plane ι d.settings).system.Reachable fresh c) (idle : c.procs p = .idle)
    {s : Store} (db : c.shared.db = s.db) (cache : c.shared.cache = s.cache) (env : Env) (order : RowOrder)
    (userId id fullToken : Str) :
    Runs d.settings Answers (resolveScopedToken d env order fullToken) s c p ∧
    Runs d.settings Finishes (rotateScopedToken d env userId id) s c p ∧
    Runs d.settings Finishes (revokeScopedToken env userId id) s c p ∧
    Runs d.settings Finishes (CredentialService.deleteCredential env userId id) s c p := by
  have mirrors : Mirrors s (c.shared, .idle) := ⟨db, cache⟩
  have written (token : ScopedToken) (member : token ∈ s.db.tokens) :
      s.cache (rulesKey token.lookupId token.version) ≠ some .null := by
    rw [← db] at member
    rw [← cache]
    exact (reachable_known reached).shared.notNull member
  exact ⟨runs_of_performs (resolveScopedToken_performs mirrors written fullToken) idle,
    runs_of_performs (rotateScopedToken_performs mirrors userId id) idle,
    runs_of_performs (revokeScopedToken_performs mirrors userId id) idle,
    runs_of_performs (deleteCredential_performs mirrors userId id) idle⟩

end Runs

section Example

def asGiven : RowOrder := ⟨id, fun rules => List.Perm.refl rules⟩

def isIdle : Phase → Bool
  | .idle => true
  | _ => false

-- A token that two requests have used is resolved, rotated, revoked or loses its credential.
theorem used_token_refines : ∃ c, (plane Nat plain).system.Reachable fresh c ∧
    c.shared.db.tokens.map (·.id) = [['t']] ∧
    Runs plain Answers (resolveScopedToken plainDeployment (drawing ['9'] firstDraw) asGiven (issued.full brand))
      (mirrored c.shared) c 9 ∧
    Runs plain Finishes (rotateScopedToken plainDeployment (drawing ['9'] firstDraw) ['u'] ['t']) (mirrored c.shared) c 9 := by
  have ran : ((plane Nat plain).system.run nothing wholeRun).map (fun c =>
      (isIdle (c.procs 9), c.shared.db.tokens.map (·.id))) = some (true, [['t']]) := by
    decide +kernel
  obtain ⟨c, reached, shown⟩ := wholeRun_reaches ran
  obtain ⟨idle, tokens⟩ := Prod.mk.inj shown
  have waits : c.procs 9 = .idle := by
    cases phase : c.procs 9 <;> simp_all [isIdle]
  obtain ⟨resolves, rotates, -⟩ := operations_refine (d := plainDeployment) reached waits (s := mirrored c.shared) rfl rfl
    (drawing ['9'] firstDraw) asGiven ['u'] ['t'] (issued.full brand)
  exact ⟨c, reached, tokens, resolves, rotates⟩

end Example

end CfProxy.TokenPlane
