import CfProxy.Main.Dispatch
import CfProxy.Routers.Confinement

set_option autoImplicit false

namespace CfProxy.Main

open Routing Client ProxyDns Envelopes Authorizer Locks

def Segment (text : Str) : Prop := text ≠ [] ∧ '/' ∉ text

theorem recordPath_segments {zoneId segment : Str} (zone : Segment zoneId) (record : Segment segment) :
    (recordPath zoneId segment).splitOn '/' = [] :: (zoneSegments zoneId ++ [segment]) := by
  rw [recordPath_render]
  apply Uri.splitOn_render
  intro part member
  rcases List.mem_append.mp member with member | member
  · exact zoneSegments_slashFree zone.2 part member
  · rw [List.mem_singleton.mp member]
    exact record.2

theorem recordPath_proxy (zoneId segment : Str) : isProxyPath (recordPath zoneId segment) = true := by
  have shape : recordPath zoneId segment =
      proxyPathPrefix ++ ("/zones/".toList ++ (zoneId ++ (dnsRecords ++ '/' :: segment))) := by
    have front : zonesPrefix = proxyPathPrefix ++ "/zones/".toList := by decide
    simp only [recordPath, front, List.append_assoc]
  rw [shape, isProxyPath, List.isPrefixOf_iff_prefix]
  exact List.prefix_append _ _

def byIdEndpoints : List (Str × Endpoint) := [("GET".toList, .getDnsRecord), ("PATCH".toList, .patchDnsRecord),
  ("PUT".toList, .putDnsRecord), ("DELETE".toList, .deleteDnsRecord)]

section

variable {zoneId segment : Str} (zone : Segment zoneId) (record : Segment segment)

include zone record

theorem dispatch_byId {method : Str} {endpoint : Endpoint}
    (byId : (method, endpoint) ∈ byIdEndpoints) :
    dispatch routes method (recordPath zoneId segment) = .handled endpoint [zoneId, segment] := by
  have found : proxyRoutes.findSome? (·.handles method (recordPath zoneId segment)) =
      some (endpoint, [zoneId, segment]) := by
    rw [findSome?_handles (recordPath_segments zone record)]
    simp only [byIdEndpoints, List.mem_cons, Prod.mk.injEq, List.not_mem_nil, or_false] at byId
    rcases byId with ⟨rfl, rfl⟩ | ⟨rfl, rfl⟩ | ⟨rfl, rfl⟩ | ⟨rfl, rfl⟩ <;>
    simp [proxyRoutes_parsed, zoneSegments, clientParts, recordsParts, bindParts, getOnly, postOnly, patchOnly,
      putOnly, deleteOnly, zone.1, record.1]
  unfold dispatch
  rw [proxyPath_find (recordPath_proxy _ _), found]

end

def bulkSegments : List Str := ["batch".toList, "import".toList, "export".toList]

theorem bulkSegments_segment {segment : Str} (bulk : segment ∈ bulkSegments) : Segment segment := by
  have all : ∀ text ∈ bulkSegments, text ≠ [] ∧ '/' ∉ text := by decide
  exact all segment bulk

-- No proxy route for POST has this many segments, so the bulk routes come into play.
theorem dispatch_post {zoneId segment : Str} (zone : Segment zoneId) (bulk : segment ∈ bulkSegments) :
    ∃ endpoint, dispatch routes "POST".toList (recordPath zoneId segment) = .handled endpoint [zoneId] ∧
      ∀ backend request, handle backend request endpoint [zoneId] = .ofResponse blocked := by
  have reached : ∃ endpoint ∈ [Endpoint.blockedDnsRecordsBatch, .blockedDnsRecordsImport, .blockedDnsRecordsExport],
      proxyRoutes.findSome? (·.handles "POST".toList (recordPath zoneId segment)) = some (endpoint, [zoneId]) := by
    rw [findSome?_handles (recordPath_segments zone (bulkSegments_segment bulk))]
    simp only [bulkSegments, List.mem_cons, List.not_mem_nil, or_false] at bulk
    rcases bulk with rfl | rfl | rfl <;>
    simp [proxyRoutes_parsed, zoneSegments, clientParts, recordsParts, bindParts, getOnly, postOnly, patchOnly,
      putOnly, deleteOnly, bulkMethods, zone.1]
  obtain ⟨endpoint, member, found⟩ := reached
  refine ⟨endpoint, ?_, ?_⟩
  · unfold dispatch
    rw [proxyPath_find (recordPath_proxy _ _), found]
  · intro backend request
    simp only [List.mem_cons, List.not_mem_nil, or_false] at member
    rcases member with rfl | rfl | rfl <;> rfl

def Asks (body : Traced Event ClientResponse) : Prop :=
  (∃ sent, .sent sent ∈ body.events) ∨ Returns (fun response => response.status = 503) body.result

theorem Asks.bind_lift {α : Type} {result : Except PyError α} {next : α → Traced Event ClientResponse}
    (later : ∀ value, Asks (next value)) : Asks (Traced.lift result >>= next) := by
  cases result with
  | error raised => exact .inr (.error raised)
  | ok value =>
    rcases later value with ⟨sent, member⟩ | silent
    · exact .inl ⟨sent, Traced.mem_bind_next rfl member⟩
    · exact .inr silent

variable {w : World} {context : ProxyAuthContext} {request : Request}

theorem authorizeAndForward_asks (byId : Method) (supported : byId.byIdOp.isSome) (zoneId recordId : Str) (body : Json)
    (content : Option Bytes) (authHeaders : Headers) :
    ∃ sent, .sent sent ∈
      (authorizeAndForward w context byId.name zoneId recordId body content authHeaders).events := by
  obtain ⟨sent, member⟩ := authorizeByIdLive_sends w context byId supported zoneId recordId body authHeaders
  exact ⟨sent, Traced.mem_bind_first member⟩

-- Without the lock there is no fetch, and nothing that the step returns either.
theorem lockedAuthorizeAndForward_asks (byId : Method) (supported : byId.byIdOp.isSome) (zoneId recordId : Str)
    (body : Json) (content : Option Bytes) (authHeaders : Headers) :
    let attempt := lockedAuthorizeAndForward w context byId.name zoneId recordId body content authHeaders
    (∃ sent, .sent sent ∈ attempt.events) ∨ ∃ raised, attempt.result = .error raised := by
  obtain ⟨sent, member⟩ := authorizeAndForward_asks byId supported zoneId recordId body content authHeaders
  unfold lockedAuthorizeAndForward advisoryLock
  cases w.connect with
  | error raised => exact .inr ⟨raised, rfl⟩
  | ok connected =>
    cases w.getLock (mutationLockName w.sha256 zoneId recordId) with
    | error raised => exact .inr ⟨raised, rfl⟩
    | ok acquired =>
      cases acquired with
      | false => exact .inr ⟨lockUnavailable, rfl⟩
      | true =>
        refine .inl ⟨sent, Traced.mem_bind_next rfl (Traced.mem_bind_next rfl (Traced.mem_bind_next rfl ?_))⟩
        exact List.mem_append_left _ member

theorem attemptMutation_asks (byId : Method) (supported : byId.byIdOp.isSome) (zoneId recordId : Str) (body : Json)
    (content : Option Bytes) (authHeaders : Headers) :
    let attempt := attemptMutation w context byId.name zoneId recordId body content authHeaders
    (∃ sent, .sent sent ∈ attempt.events) ∨ Returns (fun outcome => outcome = none) attempt.result := by
  unfold attemptMutation
  dsimp only
  split
  · obtain ⟨sent, member⟩ := authorizeAndForward_asks byId supported zoneId recordId body content authHeaders
    exact .inl ⟨sent, Traced.mem_bind_first member⟩
  · rcases lockedAuthorizeAndForward_asks byId supported zoneId recordId body content authHeaders with
      ⟨sent, member⟩ | ⟨raised, failed⟩
    · exact .inl ⟨sent, Traced.mem_catching (Traced.mem_bind_first member)⟩
    · refine .inr (Traced.returns_catching (Traced.returns_bind fun value returned => ?_) (.ok rfl))
      rw [failed] at returned
      cases returned

theorem mutateDnsRecordById_asks (byId : Method) (supported : byId.byIdOp.isSome) (zoneId recordId : Str)
    (body : Json) (content : Option Bytes) :
    Asks (mutateDnsRecordById w context request byId.name zoneId recordId body content) := by
  apply Asks.bind_lift
  intro authHeaders
  rcases attemptMutation_asks byId supported zoneId recordId body content authHeaders with ⟨sent, member⟩ | none
  · exact .inl ⟨sent, Traced.mem_bind_first member⟩
  · refine .inr (Traced.returns_bind fun attempt attempted => ?_)
    rw [none attempt attempted]
    exact .ok rfl

theorem getDnsRecord_asks (zoneId recordId : Str) : Asks (getDnsRecord w context request zoneId recordId) := by
  apply Asks.bind_lift
  intro authHeaders
  obtain ⟨sent, member⟩ := authorizeByIdLive_sends w context .get rfl zoneId recordId .null authHeaders
  exact .inl ⟨sent, Traced.mem_bind_first member⟩

def Blocked (reply : List Event × Answer) : Prop :=
  (∃ message, reply.2 = .json (makeCfError 403 forbidden message)) ∧ ∀ sent, .sent sent ∉ reply.1

theorem asks_not_blocked {body : Traced Event ClientResponse} (asks : Asks body) (str : Json → Str) (path : Str) :
    ¬Blocked ((Outcome.ofTraced body).events, answer str path (Outcome.ofTraced body).result) := by
  rintro ⟨⟨message, refused⟩, silent⟩
  rcases asks with ⟨sent, member⟩ | late
  · exact silent sent member
  · unfold Outcome.ofTraced at refused
    rcases returned : body.result with raised | response
    · have generic : answer str path (.error (.failure (.unhandled raised))) = .json (handleGenericError path) := rfl
      simp only [returned, generic, Answer.json.injEq] at refused
      have status := congrArg ClientResponse.status refused
      unfold handleGenericError at status
      split at status <;> simp [makeCfError, makeResponse] at status
    · simp only [returned, answer, Answer.json.injEq] at refused
      have status := late response returned
      simp [refused, makeCfError] at status

theorem byId_not_blocked {backend : Backend} {zoneId segment method : Str} (zone : Segment zoneId)
    (record : Segment segment) (endpoint : Endpoint) {handler : ProxyAuthContext → Traced Event ClientResponse}
    (authenticated : backend.scopedToken = .ok context) (byId : (method, endpoint) ∈ byIdEndpoints)
    (handled : handle backend request endpoint [zoneId, segment] = backend.withScopedToken handler)
    (asks : Asks (handler context)) : ¬Blocked (respond backend method (recordPath zoneId segment) request) := by
  have granted : backend.withScopedToken handler = .ofTraced (handler context) := by
    simp [Backend.withScopedToken, authenticated]
  unfold respond
  rw [dispatch_byId zone record byId, serve, handled, granted]
  exact asks_not_blocked asks _ _

theorem get_not_blocked {backend : Backend} {zoneId segment : Str} (zone : Segment zoneId) (record : Segment segment)
    (authenticated : backend.scopedToken = .ok context) :
    ¬Blocked (respond backend "GET".toList (recordPath zoneId segment) request) := by
  refine byId_not_blocked zone record .getDnsRecord authenticated (by simp [byIdEndpoints]) rfl ?_
  exact getDnsRecord_asks zoneId segment

theorem bulk_blocked_iff (backend : Backend) (context : ProxyAuthContext) (request : Request)
    {zoneId segment method : Str} (authenticated : backend.scopedToken = .ok context)
    (zone : zoneId ≠ [] ∧ '/' ∉ zoneId) (bulk : segment ∈ bulkSegments) (supported : method ∈ bulkMethods) :
    Blocked (respond backend method (recordPath zoneId segment) request) ↔ method = "POST".toList := by
  have record := bulkSegments_segment bulk
  have passes := @byId_not_blocked context request backend zoneId segment method zone record
  simp only [bulkMethods, List.mem_cons, List.not_mem_nil, or_false] at supported
  rcases supported with rfl | rfl | rfl | rfl | rfl
  · exact iff_of_false (get_not_blocked zone record authenticated) (by decide)
  · refine iff_of_true ?_ rfl
    obtain ⟨endpoint, reached, handled⟩ := dispatch_post zone bulk
    unfold respond
    rw [reached, serve, handled]
    exact ⟨⟨_, rfl⟩, by simp [Outcome.ofResponse]⟩
  · refine iff_of_false (passes .putDnsRecord authenticated (by simp [byIdEndpoints]) rfl ?_) (by decide)
    exact Asks.bind_lift fun body => mutateDnsRecordById_asks .put rfl zoneId segment body _
  · refine iff_of_false (passes .patchDnsRecord authenticated (by simp [byIdEndpoints]) rfl ?_) (by decide)
    exact Asks.bind_lift fun body => mutateDnsRecordById_asks .patch rfl zoneId segment body _
  · refine iff_of_false (passes .deleteDnsRecord authenticated (by simp [byIdEndpoints]) rfl ?_) (by decide)
    exact mutateDnsRecordById_asks .delete rfl zoneId segment .null none

def Backend.ofRules (rules : List Scope.ScopeRule) : Backend where
  world := .answering fun _ => .ok ⟨404, .error (.valueError [])⟩
  fuel := 0
  scopedToken := .ok (.ofRules rules)
  portal := ManagementApi.unknownPortal
  checkDatabase := true
  checkRedis := true
  str _ := []

theorem post_batch_blocked :
    Blocked (respond (.ofRules [.pin ['z'] "batch".toList]) "POST".toList (recordPath ['z'] "batch".toList)
      (.ofJson .null)) :=
  (bulk_blocked_iff (.ofRules [.pin ['z'] "batch".toList]) (.ofRules [.pin ['z'] "batch".toList]) (.ofJson .null) rfl
    (by decide) (by decide) (by decide)).mpr rfl

theorem get_export_forwarded :
    ¬Blocked (respond (.ofRules [.pin ['z'] "export".toList]) "GET".toList (recordPath ['z'] "export".toList)
      (.ofJson .null)) := by
  have zone : Segment ['z'] := ⟨by decide, by decide⟩
  have record : Segment "export".toList := ⟨by decide, by decide⟩
  exact get_not_blocked zone record rfl

end CfProxy.Main
