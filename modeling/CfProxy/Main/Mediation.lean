import CfProxy.Auth.ProxyAuth
import CfProxy.Main.Bulk
import CfProxy.Routers.Mandate
import CfProxy.Upstream.Credentials

set_option autoImplicit false

namespace CfProxy.Main

open Text Envelopes Client ProxyDns Routing
open Authorizer (Method)
open ManagementApi (Failure)

-- `scheme, _, full_token = authorization.partition(" ")`.
def bearerToken (u : Unicode) (authorization : Str) : Option Str :=
  let scheme := authorization.takeWhile (· ≠ ' ')
  let fullToken := (authorization.dropWhile (· ≠ ' ')).drop 1
  if lower u scheme ≠ "bearer".toList ∨ fullToken = [] then none else some fullToken

def tokenInvalid : Nat := 1000

def invalidToken : Failure :=
  .httpException 401 (.obj [("code".toList, .num tokenInvalid), ("message".toList, .str "Invalid API Token".toList)])

-- `resolve` is what `resolve_scoped_token` comes to.
def requireScopedToken (u : Unicode) (authorization : Str)
    (resolve : Str → Except PyError (Option TokenPlane.ProxyAuthContext)) : Except Failure TokenPlane.ProxyAuthContext :=
  match bearerToken u authorization with
  | none => .error invalidToken
  | some fullToken =>
    match resolve fullToken with
    | .error raised => .error (.unhandled raised)
    | .ok none => .error invalidToken
    | .ok (some context) => .ok context

-- What the handlers use of the context.
def handed (context : TokenPlane.ProxyAuthContext) : ProxyAuthContext where
  userId := context.token.userId
  tokenId := context.token.id
  tokenPrefix := context.token.tokenPrefix
  rules := context.rules

-- What a request with the header depends on: its token, and the headers of the token's credential, as they resolve in
-- a state of the token plane.
structure Depends (d : Deployment) (env : Env) (shared : TokenPlane.Shared) (backend : Backend) (authorization : Str)
    (resolve : Str → Except PyError (Option TokenPlane.ProxyAuthContext)) : Prop where
  scopedToken : backend.scopedToken = (requireScopedToken backend.world.unicode authorization resolve).map handed
  upstreamAuth : ∀ context, requireScopedToken backend.world.unicode authorization resolve = .ok context →
    backend.world.upstreamAuth = (resolveUpstreamAuth d env context.credential (TokenPlane.mirrored shared)).1

section Respond

variable {backend : Backend} {method path : Str} {request : Request}

theorem withScopedToken_events {handler : ProxyAuthContext → Traced Event ClientResponse} {event : Event}
    (member : event ∈ (backend.withScopedToken handler).events) :
    ∃ context, backend.scopedToken = .ok context ∧ (backend.withScopedToken handler).events = (handler context).events := by
  unfold Backend.withScopedToken at member ⊢
  cases authenticated : backend.scopedToken with
  | error failure => simp [authenticated] at member
  | ok context => exact ⟨context, rfl, rfl⟩

def Endpoint.operation : Endpoint → Option ProxyDns.Operation
  | .listDnsRecords => some .list
  | .createDnsRecord => some .create
  | .getDnsRecord => some .get
  | .patchDnsRecord => some .patch
  | .putDnsRecord => some .put
  | .deleteDnsRecord => some .delete
  | _ => none

theorem handle_operation {endpoint : Endpoint} {operation : ProxyDns.Operation}
    (serves : endpoint.operation = some operation) (arguments : List Str) :
    handle backend request endpoint arguments = backend.withScopedToken fun context =>
      ProxyDns.serve backend.world backend.fuel context request (arguments.getD 0 []) (arguments.getD 1 []) operation := by
  cases endpoint <;> cases serves <;> rfl

-- A handler that sends something is registered for one method.
def ofMethod (route : Route Endpoint) : Bool :=
  match route.endpoint with
  | .listZones => route.methods == getOnly
  | endpoint => endpoint.operation.all fun operation => route.methods == [operation.method.name]

theorem routes_ofMethod : routes.all ofMethod = true := by decide +kernel

theorem handle_events {endpoint : Endpoint} (proxied : endpoint.isProxy = true) {arguments : List Str} {event : Event}
    (member : event ∈ (handle backend request endpoint arguments).events) :
    ∃ context, backend.scopedToken = .ok context ∧
      ((endpoint = .listZones ∧ (handle backend request endpoint arguments).events =
          (ProxyDns.listZones backend.world backend.fuel context request).events) ∨
        ∃ operation, endpoint.operation = some operation ∧ (handle backend request endpoint arguments).events =
          (ProxyDns.serve backend.world backend.fuel context request (arguments.getD 0 []) (arguments.getD 1 [])
            operation).events) := by
  cases serves : endpoint.operation with
  | some operation =>
    rw [handle_operation serves] at member ⊢
    obtain ⟨context, authenticated, same⟩ := withScopedToken_events member
    exact ⟨context, authenticated, .inr ⟨operation, rfl, same⟩⟩
  | none =>
    cases endpoint with
    | management | healthz | readyz => cases proxied
    | verifyToken =>
      obtain ⟨context, -, same⟩ := withScopedToken_events member
      have silent : event ∈ (pure (verifyToken context) : Traced Event ClientResponse).events := by
        rw [← same]
        exact member
      cases silent
    | listZones =>
      obtain ⟨context, authenticated, same⟩ := withScopedToken_events member
      exact ⟨context, authenticated, .inl ⟨rfl, same⟩⟩
    | blockedDnsRecordsBatch | blockedDnsRecordsImport | blockedDnsRecordsExport | catchAll => cases member
    | _ => cases serves

-- An id that a handler takes from the path.
def Names (path id : Str) : Prop := id = [] ∨ id ∈ path.splitOn '/'

theorem getD_names {arguments : List Str} (within : arguments ⊆ path.splitOn '/') (i : Nat) :
    Names path (arguments.getD i []) := by
  cases found : arguments[i]? with
  | none => exact .inl (by rw [List.getD_eq_getElem?_getD, found, Option.getD_none])
  | some id =>
    rw [List.getD_eq_getElem?_getD, found, Option.getD_some]
    exact .inr (within (List.mem_of_getElem? found))

-- What a request to a path of the proxy does is done by one of the handlers for its method, for a token that was
-- resolved.
theorem respond_events (proxy : isProxyPath path = true) {event : Event}
    (member : event ∈ (respond backend method path request).1) :
    ∃ context, backend.scopedToken = .ok context ∧
      ((method = getMethod ∧ (respond backend method path request).1 =
          (ProxyDns.listZones backend.world backend.fuel context request).events) ∨
        ∃ zoneId recordId operation, Names path zoneId ∧ Names path recordId ∧ operation.method.name = method ∧
          (respond backend method path request).1 =
            (ProxyDns.serve backend.world backend.fuel context request zoneId recordId operation).events) := by
  unfold respond at member ⊢
  rcases @dispatch_cases _ routes method path with
    ⟨endpoint, arguments, -, search, dispatched⟩ | ⟨-, dispatched | dispatched | dispatched⟩
  · rw [dispatched] at member ⊢
    obtain ⟨route, listed, handles⟩ := List.exists_of_findSome?_eq_some search
    obtain ⟨rfl, accepted, bound⟩ := handles_endpoint handles
    have proxied := proxyPath_endpoint listed (by rw [bound]; rfl) proxy
    have within := bindParts_subset bound
    have registered := List.all_eq_true.mp routes_ofMethod route listed
    unfold ofMethod at registered
    obtain ⟨context, authenticated, ⟨lists, whole⟩ | ⟨operation, serves, whole⟩⟩ := handle_events proxied member
    · rw [lists] at registered
      rw [eq_of_beq registered] at accepted
      exact ⟨context, authenticated, .inl ⟨List.mem_singleton.mp accepted, whole⟩⟩
    · have single : route.methods = [operation.method.name] := by
        cases endpoint : route.endpoint <;> simp_all [Endpoint.operation]
      rw [single] at accepted
      exact ⟨context, authenticated, .inr ⟨_, _, operation, getD_names within 0, getD_names within 1,
        (List.mem_singleton.mp accepted).symm, whole⟩⟩
  all_goals
    rw [dispatched] at member
    cases member

-- A request to the proxy changes at most one thing upstream, and after the change nothing is sent, whatever came of it.
theorem changes_once (backend : Backend) (method path : Str) (request : Request) (proxy : isProxyPath path = true) :
    (respond backend method path request).1.countP changes ≤ 1 ∧
      (respond backend method path request).1.Pairwise fun first later => changes first = true → Unsent later := by
  have last : (respond backend method path request).1.Pairwise fun first later => changes first = true → Unsent later := by
    cases events : (respond backend method path request).1 with
    | nil => exact .nil
    | cons event later =>
      have member : event ∈ (respond backend method path request).1 := by simp [events]
      obtain ⟨context, -, ⟨-, whole⟩ | ⟨zoneId, recordId, operation, -, -, -, whole⟩⟩ := respond_events proxy member
      · rw [← events, whole]
        exact ((ofReads_unchanging (w := backend.world)).listZones).settled
      · rw [← events, whole]
        exact serve_last operation
  exact ⟨Traced.Settled.marked_once unsent_unchanging last, last⟩

end Respond

open TokenPlane Models Machine

section Mediation

-- A request that is sent upstream for the holder of a token: the token verified, its credential and rules are the ones
-- it was minted with, they entitle the request, and its headers are what the credential resolves to in the state reached.
structure OnBehalf (d : Deployment) (env : Env) (shared : Shared) (seen : Seen) (backend : Backend) (method path : Str)
    (request : Request) (sent : UpstreamRequest) (context : TokenPlane.ProxyAuthContext) : Prop where
  verified : Verified d.settings seen.presented seen.atRead context.token
  bound : Bound seen context.token context.credential
  rules : MintedRules shared.history context.token.id context.rules
  credential : (resolveUpstreamAuth d env context.credential (mirrored shared)).1 = .ok sent.headers
  mediated : ∃ asked zoneId recordId, asked.name = method ∧ Names path zoneId ∧ Names path recordId ∧
    Mediated backend.world context.rules request asked zoneId recordId sent

variable {ι : Type} [DecidableEq ι] {d : Deployment} {c : Config ι Shared Phase} {p : ι} {seen : Seen}
variable {backend : Backend} {authorization method path : Str} {request : Request} {sent : UpstreamRequest}
variable {resolve : Str → Except PyError (Option TokenPlane.ProxyAuthContext)}

theorem requireScopedToken_ok {u : Unicode} {context : TokenPlane.ProxyAuthContext}
    (required : requireScopedToken u authorization resolve = .ok context) :
    ∃ fullToken, bearerToken u authorization = some fullToken ∧ resolve fullToken = .ok (some context) := by
  unfold requireScopedToken at required
  split at required
  · cases required
  · next fullToken carried =>
    split at required
    · cases required
    · cases required
    · next found =>
      obtain rfl := Except.ok.inj required
      exact ⟨fullToken, carried, found⟩

theorem sent_mediated {context : ProxyDns.ProxyAuthContext}
    (authenticated : backend.scopedToken = .ok context) (proxy : isProxyPath path = true)
    (sends : .sent sent ∈ (respond backend method path request).1) :
    ∃ asked zoneId recordId, Method.name asked = method ∧ Names path zoneId ∧ Names path recordId ∧
      Mediated backend.world context.rules request asked zoneId recordId sent := by
  obtain ⟨other, same, whole⟩ := respond_events proxy sends
  obtain rfl : other = context := Except.ok.inj (same.symm.trans authenticated)
  rcases whole with ⟨asked, whole⟩ | ⟨zoneId, recordId, operation, zone, record, asked, whole⟩
  · rw [whole] at sends
    exact ⟨.get, [], [], asked.symm, .inl rfl, .inl rfl, ofReads_mediated.listZones _ sends⟩
  · rw [whole] at sends
    exact ⟨operation.method, zoneId, recordId, asked, zone, record, serve_mediated operation _ sends⟩

-- The headers that a credential resolves to have different names, so that all of them are sent.
theorem forwardedHeaders_resolved {credential : UpstreamCredential} {env : Env} {s : Store} {u : Unicode} :
    Returns (fun authHeaders => forwardedHeaders u none authHeaders = authHeaders)
      (resolveUpstreamAuth d env credential s).1 := by
  unfold resolveUpstreamAuth
  split
  · refine .bind fun _ _ => .bind fun _ _ => .bind fun _ _ => .bind fun _ _ => ?_
    exact .bind fun email _ => .bind fun key _ => .ok rfl
  · exact Stateful.returns_bind fun accessToken _ => .ok rfl

theorem upstream_mediated (reached : (plane ι d.settings).system.Reachable fresh c)
    (ended : c.procs p = .resolved seen (resolve seen.presented))
    (carried : ∀ fullToken, bearerToken backend.world.unicode authorization = some fullToken → fullToken = seen.presented)
    {env : Env} (depends : Depends d env c.shared backend authorization resolve) (proxy : isProxyPath path = true)
    (sends : .sent sent ∈ (respond backend method path request).1) :
    ∃ context, resolve seen.presented = .ok (some context) ∧
      OnBehalf d env c.shared seen backend method path request sent context := by
  obtain ⟨_, authenticated, -⟩ := respond_events proxy sends
  rw [depends.scopedToken] at authenticated
  cases required : requireScopedToken backend.world.unicode authorization resolve with
  | error failure => simp [required, Except.map] at authenticated
  | ok context =>
    obtain ⟨fullToken, carries, found⟩ := requireScopedToken_ok required
    obtain rfl := carried fullToken carries
    have known := (reachable_known reached).procs p
    rw [ended] at known
    obtain ⟨-, answered⟩ := known
    have handedOn : backend.scopedToken = .ok (handed context) := by simp [depends.scopedToken, required, Except.map]
    have mediated := sent_mediated handedOn proxy sends
    obtain ⟨_, _, _, -, -, -, authHeaders, resolved, headers, -⟩ := id mediated
    rw [depends.upstreamAuth context required] at resolved
    have sentHeaders : sent.headers = authHeaders := headers.trans (forwardedHeaders_resolved authHeaders resolved)
    exact ⟨context, found, answered.verified context found, answered.bound context found, answered.rules context found,
      sentHeaders ▸ resolved, mediated⟩

end Mediation

section Example

-- The holder of a token for one record removes it.

def sealedCredential : UpstreamCredential :=
  { credential with secretEnc := some (plainDeployment.fernet.encryptSecret [] ['s']) }

def pinnedOrder : MintOrder :=
  { order with scopeRules := [⟨['z'], none, none, [['A']], some [['r']], none, none, none, some true⟩] }

def holder : TokenPlane.ProxyAuthContext where
  token := pinnedOrder.token plain ['t'] issued
  rules := pinnedOrder.scopeRules.map RuleSpec.rule
  credential := sealedCredential

def mintPinned : List (Move Nat Action Str) :=
  [.own 0 (.register sealedCredential), .own 1 (.mint (fun _ => .ok []) pinnedOrder)]

def usePinned : List (Move Nat Action Str) :=
  presented 2 ++ [.own 2 (.selectRules holder.rules), .own 2 (.fillCache true)]

def answerOf : Phase → Option (Str × ScopedToken × List Scope.ScopeRule × UpstreamCredential)
  | .resolved seen (.ok (some context)) => some (seen.presented, context.token, context.rules, context.credential)
  | _ => none

theorem pinned_resolved : ∃ c seen, (plane Nat plain).system.Reachable fresh c ∧ seen.presented = issued.full brand ∧
    c.procs 2 = .resolved seen (.ok (some holder)) := by
  have before : ((plane Nat plain).system.run nothing mintPinned).map (fun c => drawn c.shared.history) = some [] := by
    decide +kernel
  have whole : ((plane Nat plain).system.run nothing
      (mintPinned ++ .own 1 (.mintCommit ['t'] issued) :: usePinned)).map (fun c => answerOf (c.procs 2)) =
      some (some (issued.full brand, holder.token, holder.rules, holder.credential)) := by
    decide +kernel
  obtain ⟨early, ranEarly, undrawn⟩ := Option.map_eq_some_iff.mp before
  obtain ⟨c, ran, shown⟩ := Option.map_eq_some_iff.mp whole
  rw [System.run_append, ranEarly, Option.bind_some, System.run_cons] at ran
  obtain ⟨minted, committed, ranLate⟩ := Option.bind_eq_some_iff.mp ran
  have earlyReached : (plane Nat plain).system.Reachable fresh early :=
    nothing_reached.run (by simp [mintPinned, fresh, Action.Fresh]) ranEarly
  have mintedReached : (plane Nat plain).system.Reachable fresh minted :=
    .next earlyReached (by simp [fresh, Action.Fresh, undrawn]) committed
  have reached := mintedReached.run (by simp [usePinned, presented, fresh, Action.Fresh]) ranLate
  unfold answerOf at shown
  split at shown
  · next seen context phase =>
    obtain ⟨raw, rest⟩ := Prod.mk.inj (Option.some.inj shown)
    obtain ⟨token, rest⟩ := Prod.mk.inj rest
    obtain ⟨rules, credential⟩ := Prod.mk.inj rest
    refine ⟨c, seen, reached, raw, ?_⟩
    rw [phase]
    cases context
    cases token
    cases rules
    cases credential
    rfl
  · cases shown

def holderBackend : Backend := { Backend.ofRules [] with
  world := { World.answering (fun _ => .ok ⟨200, .ok (.obj [(resultKey, .obj [("type".toList, .str ['A'])])])⟩) with
    upstreamAuth := .ok (bearerHeaders ['s']) }
  scopedToken := .ok (handed holder) }

def removal : UpstreamRequest where
  method := deleteOnly.head!
  path := recordPath ['z'] ['r']
  headers := bearerHeaders ['s']
  params := none
  content := none

def holderHeader : Str := "Bearer ".toList ++ issued.full brand

def holderAnswer (_ : Str) : Except PyError (Option TokenPlane.ProxyAuthContext) := .ok (some holder)

theorem holderHeader_carries : bearerToken .asciiOnly holderHeader = some (issued.full brand) := by decide +kernel

theorem holderHeader_required : requireScopedToken .asciiOnly holderHeader holderAnswer = .ok holder := by
  rw [requireScopedToken, holderHeader_carries]
  rfl

def holderEnv : Env := drawing ['9'] issued

theorem holderBackend_depends (shared : Shared) :
    Depends plainDeployment holderEnv shared holderBackend holderHeader holderAnswer where
  scopedToken := congrArg (Except.map handed) holderHeader_required.symm
  upstreamAuth context same := by
    obtain rfl := Except.ok.inj (holderHeader_required.symm.trans same)
    rfl

theorem removal_sent :
    .sent removal ∈ (respond holderBackend deleteOnly.head! (recordPath ['z'] ['r']) (.ofJson .null)).1 := by
  have fifth : (respond holderBackend deleteOnly.head! (recordPath ['z'] ['r']) (.ofJson .null)).1[4]? =
      some (.sent removal) := by
    rfl
  exact List.mem_of_getElem? fifth

theorem removal_mediated : ∃ c seen, (plane Nat plain).system.Reachable fresh c ∧
    OnBehalf plainDeployment holderEnv c.shared seen holderBackend deleteOnly.head! (recordPath ['z'] ['r'])
      (.ofJson .null) removal holder := by
  obtain ⟨c, seen, reached, raw, phase⟩ := pinned_resolved
  obtain ⟨context, found, behalf⟩ := @upstream_mediated _ _ plainDeployment _ 2 _ _ _ _ _ _ _ holderAnswer reached
    phase (fun _ same => raw ▸ Option.some.inj (same.symm.trans holderHeader_carries)) holderEnv
    (holderBackend_depends c.shared) (by decide) removal_sent
  obtain rfl : holder = context := Option.some.inj (Except.ok.inj found)
  exact ⟨c, seen, reached, behalf⟩

-- The upstream is lost over the removal, and then the database before the lock is released.

def lostBackend : Backend := { holderBackend with
  world := { holderBackend.world with
    reply := fun sent => if sent.method = getMethod then holderBackend.world.reply sent else .error (.named "ReadTimeout".toList)
    releaseLock := fun _ => .error (.named "OperationalError".toList) } }

theorem lost_sent : .sent removal ∈ (respond lostBackend deleteOnly.head! (recordPath ['z'] ['r']) (.ofJson .null)).1 := by
  have fifth : (respond lostBackend deleteOnly.head! (recordPath ['z'] ['r']) (.ofJson .null)).1[4]? =
      some (.sent removal) := by
    rfl
  exact List.mem_of_getElem? fifth

theorem removal_once :
    (respond lostBackend deleteOnly.head! (recordPath ['z'] ['r']) (.ofJson .null)).1.countP changes = 1 ∧
      ∃ before after, (respond lostBackend deleteOnly.head! (recordPath ['z'] ['r']) (.ofJson .null)).1 =
        before ++ .sent removal :: after ∧ ∀ later ∈ after, Unsent later := by
  obtain ⟨atMost, last⟩ := changes_once lostBackend deleteOnly.head! (recordPath ['z'] ['r']) (.ofJson .null) (by decide)
  obtain ⟨before, after, split⟩ := List.append_of_mem lost_sent
  have atLeast : 0 < (respond lostBackend deleteOnly.head! (recordPath ['z'] ['r']) (.ofJson .null)).1.countP changes :=
    List.countP_pos_iff.mpr ⟨_, lost_sent, rfl⟩
  refine ⟨by omega, before, after, split, fun later member => ?_⟩
  rw [split] at last
  exact (List.pairwise_cons.mp (List.pairwise_append.mp last).2.1).1 later member rfl

end Example

end CfProxy.Main
