import CfProxy.Routers.Confinement

set_option autoImplicit false

namespace CfProxy.ProxyDns

open Text Scope Authorizer Client Locks Envelopes

def auditRows : List Event → List AuditRow
  | [] => []
  | .audited row :: rest => row :: auditRows rest
  | _ :: rest => auditRows rest

structure Audited (method : Str) (events : List Event) : Prop where
  answered : ∀ request status, .received request status ∈ events → request.method = method →
    ∃ row, auditRows events = [row] ∧ row.allow = true ∧ row.upstreamStatus = some status
  denied : .decided false ∈ events → (∃ row, auditRows events = [row] ∧ row.allow = false) ∧
    ∀ request, .sent request ∈ events → request.method ≠ method
  exclusive : ∀ first ∈ auditRows events, ∀ second ∈ auditRows events, first.allow = second.allow

def significant (method : Str) : Event → Bool
  | .sent request | .received request _ => request.method == method
  | .decided _ | .audited _ => true
  | .locked _ | .released _ => false

theorem auditRows_filter (method : Str) (events : List Event) :
    auditRows (events.filter (significant method)) = auditRows events := by
  induction events with
  | nil => rfl
  | cons event rest ih =>
    cases event <;> rw [List.filter_cons] <;> split <;> simp_all [significant, auditRows]

theorem audited_only {α : Type} {method : Str} {computation : Traced Event α} :
    Audited method (computation.only (significant method)).events ↔ Audited method computation.events := by
  change Audited method (computation.events.filter (significant method)) ↔ _
  generalize computation.events = events
  constructor
  · rintro ⟨answered, denied, exclusive⟩
    rw [auditRows_filter] at answered denied exclusive
    refine ⟨fun request status member same => ?_, fun member => ?_, exclusive⟩
    · exact answered request status (List.mem_filter.mpr ⟨member, by simpa [significant] using same⟩) same
    · obtain ⟨row, nothing⟩ := denied (List.mem_filter.mpr ⟨member, rfl⟩)
      refine ⟨row, fun request sent same => ?_⟩
      exact nothing request (List.mem_filter.mpr ⟨sent, by simpa [significant] using same⟩) same
  · rintro ⟨answered, denied, exclusive⟩
    refine ⟨?_, ?_, ?_⟩ <;> rw [auditRows_filter]
    · exact fun request status member => answered request status (List.mem_filter.mp member).1
    · intro member
      obtain ⟨row, nothing⟩ := denied (List.mem_filter.mp member).1
      exact ⟨row, fun request sent => nothing request (List.mem_filter.mp sent).1⟩
    · exact exclusive

section Outlines

variable {method : Str} {request : UpstreamRequest} {status : Nat} {row : AuditRow}

theorem audited_nil : Audited method [] := by
  constructor <;> simp [auditRows]

theorem audited_denied (deny : row.allow = false) : Audited method [.decided false, .audited row] := by
  constructor <;> simp [auditRows, deny]

theorem not_audited_denied : ¬Audited method [.decided false] := by
  intro audited
  simpa [auditRows] using audited.denied (by simp)

theorem audited_allowed : Audited method [.decided true] := by
  constructor <;> simp [auditRows]

theorem audited_unanswered : Audited method [.decided true, .sent request] := by
  constructor <;> simp [auditRows]

theorem audited_answered (allow : row.allow = true) (shown : row.upstreamStatus = some status) :
    Audited method [.decided true, .sent request, .received request status, .audited row] := by
  constructor <;> simp [auditRows, allow, shown]

theorem not_audited_answered (same : request.method = method) :
    ¬Audited method [.decided true, .sent request, .received request status] := by
  intro audited
  simpa [auditRows] using audited.answered request status (by simp) same

end Outlines

def FetchEvent : Event → Prop
  | .sent request | .received request _ => request.method = Method.get.name
  | _ => False

theorem fetchCfRecord_fetches {w : World} {zoneId recordId : Str} {authHeaders : Headers} :
    Traced.Every FetchEvent (fetchCfRecord w zoneId recordId authHeaders) := by
  have forwarded {path : Str} : Traced.Every FetchEvent
      (forwardRequest w Method.get.name path none none none authHeaders) := by
    refine .bind (.emit rfl) fun _ _ => ?_
    exact .bind (.lift _) fun response _ => .bind (.emit rfl) fun _ _ => .pure response
  refine .bind forwarded fun response _ => ?_
  split
  · exact .pure _
  · exact .bind (.lift _) fun _ _ => .bind (.lift _) fun _ _ => .lift _

section ById

variable {w : World} {context : ProxyAuthContext} {method : Method} {zoneId recordId : Str} {body : Json}
variable {content : Option Bytes} {authHeaders : Headers}

theorem authorizeByIdLive_only (mutates : method.mutationOp.isSome) :
    (authorizeByIdLive w context method.name zoneId recordId body authHeaders).only (significant method.name) =
      Traced.lift (authorizeByIdLive w context method.name zoneId recordId body authHeaders).result := by
  have fetches : Traced.Every FetchEvent
      (authorizeByIdLive w context method.name zoneId recordId body authHeaders) :=
    authorizeDnsRequest_every fetchCfRecord_fetches
  have different : Method.get.name ≠ method.name := by
    cases method <;> first | decide | simp [Method.mutationOp] at mutates
  refine Traced.only_eq_lift fun event member => ?_
  have fetch := fetches event member
  cases event <;> simp_all [FetchEvent, significant]

def mutationRequest (w : World) (method zoneId recordId : Str) (content : Option Bytes) (authHeaders : Headers) :
    UpstreamRequest where
  method
  path := recordPath zoneId recordId
  headers := forwardedHeaders w.unicode none authHeaders
  params := none
  content

def course (w : World) (forwarded : UpstreamRequest) (decided : Except PyError AuthDecision) :
    Traced Event (AuthDecision × Option Response) := do
  let decision ← Traced.lift decided
  Traced.emit (.decided decision.allowed)
  if !decision.allowed then return (decision, none)
  return (decision, some (← exchange w forwarded))

theorem exchange_only (request : UpstreamRequest) :
    (exchange w request).only (significant request.method) = exchange w request := by
  refine Traced.only_eq_self (.bind (.emit ?_) fun _ _ => .bind (.lift _) fun response _ => ?_)
  · simp [significant]
  · exact .bind (.emit (by simp [significant])) fun _ _ => .pure response

theorem authorizeAndForward_only (mutates : method.mutationOp.isSome) :
    (authorizeAndForward w context method.name zoneId recordId body content authHeaders).only
        (significant method.name) =
      course w (mutationRequest w method.name zoneId recordId content authHeaders)
        (authorizeByIdLive w context method.name zoneId recordId body authHeaders).result := by
  have forward := exchange_only (w := w) (mutationRequest w method.name zoneId recordId content authHeaders)
  simp only [authorizeAndForward, course, Traced.bind_eq, Traced.only_bind, authorizeByIdLive_only mutates]
  congr 1
  funext decision
  rw [Traced.only_emit_kept rfl]
  cases decision.allowed with
  | false => rfl
  | true =>
    have forwarded : (forwardRequest w method.name (recordPath zoneId recordId) none none content authHeaders).only
        (significant method.name) = exchange w (mutationRequest w method.name zoneId recordId content authHeaders) :=
      forward
    simp only [Bool.not_true, Bool.false_eq_true, if_false, Traced.only_bind, forwarded]
    rfl

def Entered (w : World) (rules : List ScopeRule) (method zoneId recordId : Str) : Prop :=
  isLockExempt rules zoneId (.str recordId) (mutationOp w.unicode method) = true ∨
    w.connect = .ok () ∧ w.getLock (mutationLockName w.sha256 zoneId recordId) = .ok true

def Released (w : World) (rules : List ScopeRule) (method zoneId recordId : Str) : Prop :=
  isLockExempt rules zoneId (.str recordId) (mutationOp w.unicode method) = true ∨
    w.releaseLock (mutationLockName w.sha256 zoneId recordId) = .ok ()

theorem locked_not_entered (context : ProxyAuthContext) (method : Method) (body : Json) (content : Option Bytes) (authHeaders : Headers)
    (outside : ¬(w.connect = .ok () ∧ w.getLock (mutationLockName w.sha256 zoneId recordId) = .ok true)) :
    let locked := lockedAuthorizeAndForward w context method.name zoneId recordId body content authHeaders
    locked.events = [] ∧ ∀ outcome, locked.result ≠ .ok outcome := by
  unfold lockedAuthorizeAndForward advisoryLock
  cases connected : w.connect with
  | error raised => simp [Traced.lift]
  | ok =>
    cases acquired : w.getLock (mutationLockName w.sha256 zoneId recordId) with
    | error raised => simp [Traced.lift]
    | ok granted =>
      cases granted with
      | false => simp [Traced.lift, Traced.raise]
      | true => exact absurd ⟨connected, acquired⟩ outside

theorem locked_entered (context : ProxyAuthContext) (method : Method) (body : Json) (content : Option Bytes) (authHeaders : Headers)
    (connected : w.connect = .ok ())
    (acquired : w.getLock (mutationLockName w.sha256 zoneId recordId) = .ok true) :
    let inner := authorizeAndForward w context method.name zoneId recordId body content authHeaders
    let locked := lockedAuthorizeAndForward w context method.name zoneId recordId body content authHeaders
    locked.events.filter (significant method.name) = inner.events.filter (significant method.name) ∧
      ∀ outcome, locked.result = .ok outcome ↔
        inner.result = .ok outcome ∧ w.releaseLock (mutationLockName w.sha256 zoneId recordId) = .ok () := by
  unfold lockedAuthorizeAndForward advisoryLock
  generalize authorizeAndForward w context method.name zoneId recordId body content authHeaders = inner
  cases w.releaseLock (mutationLockName w.sha256 zoneId recordId) <;>
    simp [connected, acquired, Traced.lift, Traced.emit, Traced.ensuring, significant]

theorem attemptMutation_not_entered (body : Json) (content : Option Bytes) (authHeaders : Headers)
    (outside : ¬Entered w context.rules method.name zoneId recordId) :
    let attempt := attemptMutation w context method.name zoneId recordId body content authHeaders
    attempt.events = [] ∧ ∀ outcome, attempt.result ≠ .ok (some outcome) := by
  simp only [Entered, not_or] at outside
  obtain ⟨silent, failed⟩ := locked_not_entered context method body content authHeaders outside.2
  let locked := lockedAuthorizeAndForward w context method.name zoneId recordId body content authHeaders
  obtain ⟨events, result⟩ := Traced.map_some locked
  obtain ⟨caught, outcomes⟩ := Traced.catching_none (some <$> locked) lockUnavailable
  unfold attemptMutation
  rw [if_neg outside.1]
  refine ⟨(caught.trans events).trans silent, fun outcome returned => failed outcome ?_⟩
  rwa [outcomes, result] at returned

theorem attemptMutation_entered (body : Json) (content : Option Bytes) (authHeaders : Headers)
    (mutates : method.mutationOp.isSome) (inside : Entered w context.rules method.name zoneId recordId) :
    let attempt := attemptMutation w context method.name zoneId recordId body content authHeaders
    let steps := course w (mutationRequest w method.name zoneId recordId content authHeaders)
        (authorizeByIdLive w context method.name zoneId recordId body authHeaders).result
    attempt.events.filter (significant method.name) = steps.events ∧
      ∀ outcome, attempt.result = .ok (some outcome) ↔
        steps.result = .ok outcome ∧ Released w context.rules method.name zoneId recordId := by
  intro attempt steps
  let inner := authorizeAndForward w context method.name zoneId recordId body content authHeaders
  have projected : inner.only (significant method.name) = steps := authorizeAndForward_only mutates
  have events : inner.events.filter (significant method.name) = steps.events := by
    rw [← projected]
    rfl
  have result : inner.result = steps.result := by
    rw [← projected]
    rfl
  unfold attempt attemptMutation
  cases exempt : isLockExempt context.rules zoneId (.str recordId) (mutationOp w.unicode method.name) with
  | true =>
    obtain ⟨mapped, outcomes⟩ := Traced.map_some inner
    rw [if_pos rfl]
    refine ⟨mapped ▸ events, fun outcome => ?_⟩
    rw [outcomes, result]
    exact ⟨fun returned => ⟨returned, .inl exempt⟩, And.left⟩
  | false =>
    let locked := lockedAuthorizeAndForward w context method.name zoneId recordId body content authHeaders
    obtain ⟨connected, acquired⟩ := inside.resolve_left (by simp [exempt])
    obtain ⟨within, returned⟩ := locked_entered context method body content authHeaders connected acquired
    obtain ⟨mapped, outcomes⟩ := Traced.map_some locked
    obtain ⟨caught, kept⟩ := Traced.catching_none (some <$> locked) lockUnavailable
    have released : Released w context.rules method.name zoneId recordId ↔
        w.releaseLock (mutationLockName w.sha256 zoneId recordId) = .ok () := by
      simp [Released, exempt]
    rw [if_neg Bool.false_ne_true, released, ← result]
    refine ⟨?_, fun outcome => ?_⟩
    · rw [caught, mapped, within, events]
    · rw [kept, outcomes, returned]

theorem answerMutation_denied (context : ProxyAuthContext) (request : Request) (methodName zoneId recordId : Str)
    {decision : AuthDecision} (deny : decision.allowed = false) (explained : Explained decision)
    (upstream : Option Response) :
    ∃ row, row.allow = false ∧
      (answerMutation context request methodName zoneId recordId decision upstream).events = [.audited row] := by
  obtain ⟨error, stated⟩ := Option.isSome_iff_exists.mp (explained deny)
  refine ⟨denyRow context request methodName zoneId recordId decision.preImage error, rfl, ?_⟩
  simp [answerMutation, deny, deniedWith, stated, recordAudit, Traced.emit, Traced.lift]

theorem answerMutation_answered (context : ProxyAuthContext) (request : Request) (methodName zoneId recordId : Str)
    {decision : AuthDecision} (allow : decision.allowed = true) (status : Nat) (json : Json) :
    ∃ row, row.allow = true ∧ row.upstreamStatus = some status ∧
      (answerMutation context request methodName zoneId recordId decision (some ⟨status, .ok json⟩)).events =
        [.audited row] := by
  refine ⟨{ auditRow context request methodName (recordPath zoneId recordId) true zoneId with
    recordId := some recordId, recordName := fieldIfDict decision.preImage nameKey,
    recordType := fieldIfDict decision.preImage typeKey, preImage := decision.preImage,
    postImage := fieldIfDict json resultKey, upstreamStatus := some status }, rfl, rfl, ?_⟩
  simp [answerMutation, allow, recordAudit, Traced.emit, Traced.lift]

theorem answerMutation_garbled (context : ProxyAuthContext) (request : Request) (methodName zoneId recordId : Str)
    {decision : AuthDecision} (allow : decision.allowed = true) (status : Nat) (raised : PyError) :
    (answerMutation context request methodName zoneId recordId decision (some ⟨status, .error raised⟩)).events =
      [] := by
  simp [answerMutation, allow, Traced.lift]

theorem mutateDnsRecordById_events (context : ProxyAuthContext) (request : Request) (method : Method)
    (zoneId recordId : Str) (body : Json) (content : Option Bytes) (resolves : w.upstreamAuth = .ok authHeaders) :
    let attempt := attemptMutation w context method.name zoneId recordId body content authHeaders
    let events := (mutateDnsRecordById w context request method.name zoneId recordId body content).events
    (∀ decision upstream, attempt.result = .ok (some (decision, upstream)) → events = attempt.events ++
      (answerMutation context request method.name zoneId recordId decision upstream).events) ∧
    ((∀ outcome, attempt.result ≠ .ok (some outcome)) → events = attempt.events) := by
  intro attempt events
  simp only [events, mutateDnsRecordById, resolves, Traced.lift, Traced.bind_eq, Traced.bind_ok, List.nil_append]
  change (∀ decision upstream, attempt.result = _ → (attempt.bind _).events = _) ∧ (_ → (attempt.bind _).events = _)
  rcases attempt with ⟨events, raised | _ | ⟨decision, upstream⟩⟩
  · simp
  · simp
  · simp

theorem course_failed (forwarded : UpstreamRequest) (raised : PyError) :
    course w forwarded (.error raised) = ⟨[], .error raised⟩ := rfl

theorem course_denied (forwarded : UpstreamRequest) {decision : AuthDecision} (deny : decision.allowed = false) :
    course w forwarded (.ok decision) = ⟨[.decided false], .ok (decision, none)⟩ := by
  simp [course, Traced.lift, Traced.emit, deny]

theorem course_unanswered {forwarded : UpstreamRequest} {decision : AuthDecision} {raised : PyError}
    (allow : decision.allowed = true) (lost : w.reply forwarded = .error raised) :
    course w forwarded (.ok decision) = ⟨[.decided true, .sent forwarded], .error raised⟩ := by
  simp [course, exchange_lost lost, Traced.lift, Traced.emit, allow]

theorem course_answered {forwarded : UpstreamRequest} {decision : AuthDecision} {response : Response}
    (allow : decision.allowed = true) (replied : w.reply forwarded = .ok response) :
    course w forwarded (.ok decision) =
      ⟨[.decided true, .sent forwarded, .received forwarded response.status], .ok (decision, some response)⟩ := by
  simp [course, exchange_replied replied, Traced.lift, Traced.emit, allow]

def RowReached (w : World) (released : Prop) (forwarded : UpstreamRequest) (decided : Except PyError AuthDecision) :
    Prop :=
  ∀ decision, decided = .ok decision →
    (decision.allowed = false → released) ∧
    (decision.allowed = true → ∀ response, w.reply forwarded = .ok response →
      released ∧ ∃ json, response.json = .ok json)

theorem course_audited {forwarded : UpstreamRequest} {decided : Except PyError AuthDecision} {released : Prop}
    {tail : List Event} (context : ProxyAuthContext) (request : Request) (zoneId recordId : Str) (same : forwarded.method = method.name)
    (explained : Returns Explained decided)
    (goesOn : ∀ decision upstream, (course w forwarded decided).result = .ok (decision, upstream) → released →
      tail = (answerMutation context request method.name zoneId recordId decision upstream).events)
    (stops : (∀ outcome, (course w forwarded decided).result = .ok outcome → ¬released) → tail = []) :
    Audited method.name ((course w forwarded decided).events ++ tail) ↔
      RowReached w released forwarded decided := by
  cases decided with
  | error raised =>
    rw [course_failed] at stops ⊢
    rw [stops (by simp)]
    simp [RowReached, audited_nil]
  | ok decision =>
    simp only [RowReached, Except.ok.injEq, forall_eq']
    cases allowed : decision.allowed with
    | false =>
      rw [course_denied forwarded allowed] at goesOn stops ⊢
      by_cases free : released
      · obtain ⟨row, deny, written⟩ :=
          answerMutation_denied context request method.name zoneId recordId allowed (explained decision rfl) none
        rw [goesOn decision none rfl free, written]
        simp [free, audited_denied deny]
      · rw [stops fun _ _ => free]
        simp [free, not_audited_denied]
    | true =>
      cases replied : w.reply forwarded with
      | error raised =>
        rw [course_unanswered allowed replied] at stops ⊢
        rw [stops (by simp)]
        simp [audited_unanswered]
      | ok response =>
        rw [course_answered allowed replied] at goesOn stops ⊢
        by_cases free : released
        · obtain ⟨status, raised | json⟩ := response
          · rw [goesOn decision _ rfl free, answerMutation_garbled _ _ _ _ _ allowed]
            simp [not_audited_answered same]
          · obtain ⟨row, allow, shown, written⟩ :=
              answerMutation_answered context request method.name zoneId recordId allowed status json
            rw [goesOn decision _ rfl free, written]
            simp [free, audited_answered allow shown]
        · rw [stops fun _ _ => free]
          simp [free, not_audited_answered same]

theorem answerMutation_audits (context : ProxyAuthContext) (request : Request) (method : Method) (zoneId recordId : Str)
    (decision : AuthDecision) (upstream : Option Response) :
    Traced.Every (fun event => significant method.name event = true)
      (answerMutation context request method.name zoneId recordId decision upstream) := by
  unfold answerMutation
  dsimp only
  split
  · exact .bind (.lift _) fun _ _ => .bind (.emit rfl) fun _ _ => .pure _
  · split
    · exact .lift _
    · exact .bind (.lift _) fun _ _ => .bind (.emit rfl) fun _ _ => .pure _

def ByIdReached (w : World) (context : ProxyAuthContext) (method zoneId recordId : Str) (body : Json)
    (content : Option Bytes) : Prop :=
  ∀ authHeaders, w.upstreamAuth = .ok authHeaders → Entered w context.rules method zoneId recordId →
    RowReached w (Released w context.rules method zoneId recordId)
      (mutationRequest w method zoneId recordId content authHeaders)
      (authorizeByIdLive w context method zoneId recordId body authHeaders).result

theorem mutateDnsRecordById_audited (w : World) (context : ProxyAuthContext) (request : Request)
    (mutates : method.mutationOp.isSome) (zoneId recordId : Str) (body : Json) (content : Option Bytes) :
    Audited method.name (mutateDnsRecordById w context request method.name zoneId recordId body content).events ↔
      ByIdReached w context method.name zoneId recordId body content := by
  unfold ByIdReached
  rw [← audited_only]
  change Audited _ (List.filter _ _) ↔ _
  cases resolves : w.upstreamAuth with
  | error raised => simp [mutateDnsRecordById, resolves, Traced.lift, audited_nil]
  | ok authHeaders =>
    simp only [Except.ok.injEq, forall_eq']
    obtain ⟨answered, unanswered⟩ :=
      mutateDnsRecordById_events context request method zoneId recordId body content resolves
    by_cases inside : Entered w context.rules method.name zoneId recordId
    · simp only [inside, true_implies]
      obtain ⟨events, returned⟩ := attemptMutation_entered body content authHeaders mutates inside
      have explained : Returns Explained
          (authorizeByIdLive w context method.name zoneId recordId body authHeaders).result :=
        authorizeDnsRequest_explained _ _ _ _ _ _ _
      by_cases reached : ∃ outcome,
          (attemptMutation w context method.name zoneId recordId body content authHeaders).result =
            .ok (some outcome)
      · obtain ⟨⟨decision, upstream⟩, came⟩ := reached
        obtain ⟨steps, released⟩ := (returned _).mp came
        have tail := List.filter_eq_self.mpr
          (answerMutation_audits context request method zoneId recordId decision upstream)
        rw [answered decision upstream came, List.filter_append, events, tail]
        refine course_audited context request zoneId recordId rfl explained (fun other reply same _ => ?_) fun never => ?_
        · rw [steps] at same
          cases same
          rfl
        · exact absurd released (never _ steps)
      · rw [unanswered (not_exists.mp reached), events, ← List.append_nil (course w _ _).events]
        refine course_audited context request zoneId recordId rfl explained (fun decision upstream steps released => ?_) fun _ => rfl
        exact absurd ⟨_, (returned _).mpr ⟨steps, released⟩⟩ reached
    · obtain ⟨silent, never⟩ := attemptMutation_not_entered body content authHeaders inside
      rw [unanswered never, silent]
      simp [inside, audited_nil]

end ById

def creationRequest (w : World) (zoneId : Str) (content : Bytes) (authHeaders : Headers) : UpstreamRequest where
  method := Method.post.name
  path := collectionPath zoneId
  headers := forwardedHeaders w.unicode none authHeaders
  params := none
  content := some content

def CreateReached (w : World) (context : ProxyAuthContext) (request : Request) (zoneId : Str) : Prop :=
  ∀ body, request.json = .ok body →
  ∀ decision, authorizeCreate w.unicode context.rules zoneId body = .ok decision → decision.allowed = true →
  ∀ authHeaders, w.upstreamAuth = .ok authHeaders →
  ∀ response, w.reply (creationRequest w zoneId request.body authHeaders) = .ok response →
    ∃ json, response.json = .ok json

theorem createDnsRecord_audited (w : World) (context : ProxyAuthContext) (request : Request) (zoneId : Str) :
    Audited Method.post.name (createDnsRecord w context request zoneId).events ↔
      CreateReached w context request zoneId := by
  unfold createDnsRecord CreateReached authorizeDnsRequest
  simp only [Method.ofName_name, if_true]
  cases parsed : request.json with
  | error raised => simp [Traced.lift, audited_nil]
  | ok body =>
    have explained := authorizeCreate_explained w.unicode context.rules zoneId body
    cases decided : authorizeCreate w.unicode context.rules zoneId body with
    | error raised => simp [decided, Traced.lift, audited_nil]
    | ok decision =>
      cases allowed : decision.allowed with
      | false =>
        obtain ⟨error, stated⟩ := Option.isSome_iff_exists.mp (explained decision decided allowed)
        simp [decided, Traced.lift, Traced.emit, recordAudit, deniedWith, stated, allowed, audited_denied, auditRow]
      | true =>
        cases resolves : w.upstreamAuth with
        | error raised => simp [decided, Traced.lift, Traced.emit, allowed, audited_allowed]
        | ok authHeaders =>
          have forward : forwardRequest w Method.post.name (collectionPath zoneId) none none (some request.body)
              authHeaders = exchange w (creationRequest w zoneId request.body authHeaders) := rfl
          cases replied : w.reply (creationRequest w zoneId request.body authHeaders) with
          | error raised =>
            simp [decided, Traced.lift, Traced.emit, allowed, replied, forward, exchange_lost replied,
              audited_unanswered]
          | ok response =>
            obtain ⟨status, raised | json⟩ := response
            · have own : (creationRequest w zoneId request.body authHeaders).method = Method.post.name := rfl
              simp [decided, Traced.lift, Traced.emit, allowed, replied, forward, exchange_replied replied,
                not_audited_answered own]
            · simp [decided, Traced.lift, Traced.emit, allowed, replied, forward, exchange_replied replied,
                recordAudit, audited_answered, auditRow]

def Operation.mutation : Operation → Option Method
  | .create => some .post
  | .patch => some .patch
  | .put => some .put
  | .delete => some .delete
  | .list | .get => none

def AuditReached (w : World) (context : ProxyAuthContext) (request : Request) (zoneId recordId : Str) :
    Operation → Prop
  | .create => CreateReached w context request zoneId
  | .patch => ∀ body, request.json = .ok body →
      ByIdReached w context Method.patch.name zoneId recordId body (some request.body)
  | .put => ∀ body, request.json = .ok body →
      ByIdReached w context Method.put.name zoneId recordId body (some request.body)
  | .delete => ByIdReached w context Method.delete.name zoneId recordId .null none
  | .list | .get => True

theorem parsed_audited {method : Str} {request : Request} {next : Json → Traced Event ClientResponse}
    {reached : Json → Prop} (after : ∀ body, Audited method (next body).events ↔ reached body) :
    Audited method (Traced.lift request.json >>= next).events ↔ ∀ body, request.json = .ok body → reached body := by
  cases parsed : request.json with
  | error raised => simp [Traced.lift, audited_nil]
  | ok body => simpa [Traced.lift] using after body

theorem serve_audited {operation : Operation} {method : Method} (mutates : operation.mutation = some method)
    (w : World) (fuel : Nat) (context : ProxyAuthContext) (request : Request) (zoneId recordId : Str) :
    Audited method.name (serve w fuel context request zoneId recordId operation).events ↔
      AuditReached w context request zoneId recordId operation := by
  cases operation with
  | list => simp [Operation.mutation] at mutates
  | get => simp [Operation.mutation] at mutates
  | create =>
    cases mutates
    exact createDnsRecord_audited w context request zoneId
  | patch =>
    cases mutates
    exact parsed_audited fun body => mutateDnsRecordById_audited w context request rfl zoneId recordId body _
  | put =>
    cases mutates
    exact parsed_audited fun body => mutateDnsRecordById_audited w context request rfl zoneId recordId body _
  | delete =>
    cases mutates
    exact mutateDnsRecordById_audited w context request rfl zoneId recordId .null none

theorem json_reply_audited :
    let w := World.answering fun _ => .ok ⟨200, .ok (.obj [])⟩
    Audited Method.post.name
      (serve w 0 (.ofRules [zoneRule "z".toList]) (.ofJson (.obj [])) "z".toList [] .create).events := by
  refine (serve_audited rfl _ _ _ _ _ _).mpr ?_
  intro body parsed decision decided allowed authHeaders resolved response replied
  obtain rfl : response = ⟨200, .ok (.obj [])⟩ := by simpa [World.answering] using replied.symm
  exact ⟨_, rfl⟩

theorem forwarded_without_row :
    let context := ProxyAuthContext.ofRules [zoneRule "z".toList]
    let garbled := World.answering fun _ => .ok ⟨200, .error (.valueError [])⟩
    let stuck := { World.answering fun _ => .ok ⟨200, .ok (.obj [(resultKey, .obj [])])⟩ with
      releaseLock := fun _ => .error (.named "OperationalError".toList) }
    ¬Audited Method.post.name (serve garbled 0 context (.ofJson (.obj [])) "z".toList [] .create).events ∧
    ¬Audited Method.delete.name (serve stuck 0 context (.ofJson .null) "z".toList "r".toList .delete).events := by
  intro context garbled stuck
  constructor
  · intro audited
    have reached := (createDnsRecord_audited _ _ _ _).mp audited
    obtain ⟨json, parsed⟩ := reached _ rfl _ (zoneRule_creates _ _) rfl _ rfl _ rfl
    cases parsed
  · intro audited
    have reached := (mutateDnsRecordById_audited _ _ _ rfl _ _ _ _).mp audited
    have decided : (authorizeByIdLive stuck context Method.delete.name "z".toList "r".toList .null []).result =
        .ok ⟨true, true, none, .obj []⟩ := rfl
    obtain ⟨released, -⟩ := (reached [] rfl (.inr ⟨rfl, rfl⟩) _ decided).2 rfl _ rfl
    rcases released with exempt | released
    · exact absurd exempt (by decide)
    · cases released

end CfProxy.ProxyDns
