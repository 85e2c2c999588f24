import CfProxy.Main.Bulk
import CfProxy.Upstream.Blindness

set_option autoImplicit false

namespace CfProxy.ProxyDns

open Text Scope Authorizer Client Locks Envelopes

variable {w : World} {auth : Except PyError Headers} {authHeaders others : Headers} {context : ProxyAuthContext}
variable {request : Request} {method zoneId recordId : Str} {body : Json} {content : Option Bytes} {fuel : Nat}

abbrev Replaceable (w : World) (auth : Except PyError Headers) : Prop := Related (Interchangeable w) w.upstreamAuth auth

theorem zonePages_blind (alike : Interchangeable w authHeaders others) {params : List (Str × Json)} {page : Nat}
    {zones : List Json} :
    Blind (zonePages w params authHeaders fuel page zones) (zonePages (withAuth w auth) params others fuel page zones) := by
  induction fuel generalizing page zones with
  | zero => exact .raise stillRunning
  | succ fuel ih =>
    refine (forwardRequest_blind alike).bind_eq fun response => .lift_bind fun body => ?_
    split
    · exact .pure rfl
    · refine .lift_bind fun success => ?_
      split
      · exact .pure rfl
      · refine .lift_bind fun read => ?_
        dsimp only
        split
        · exact .pure rfl
        · exact ih

theorem listZones_blind (replaceable : Replaceable w auth) :
    Blind (listZones w fuel context request) (listZones (withAuth w auth) fuel context request) :=
  .lift_bind fun _ => (Traced.Alike.lift replaceable).bind fun _ _ alike =>
    (zonePages_blind alike).bind_eq fun _ => .lift_bind fun _ => .pure rfl

theorem listDnsRecords_blind (replaceable : Replaceable w auth) :
    Blind (listDnsRecords w fuel context request zoneId) (listDnsRecords (withAuth w auth) fuel context request zoneId) := by
  refine .lift_bind fun paging => ?_
  dsimp only
  split
  · exact .pure rfl
  · exact (Traced.Alike.lift replaceable).bind fun _ _ alike =>
      (listPages_blind auth alike).bind_eq fun _ => .lift_bind fun _ => .pure rfl

theorem authorizeDnsRequest_blind {u : Unicode} {rules : List ScopeRule} {id : Option Str}
    {fetchRecord other : Str → Option Str → Traced Event Json} (fetches : Blind (fetchRecord zoneId id) (other zoneId id)) :
    Blind (authorizeDnsRequest u rules method zoneId id body fetchRecord)
      (authorizeDnsRequest u rules method zoneId id body other) := by
  unfold authorizeDnsRequest
  dsimp only
  split
  · exact .lift (.refl _)
  · split
    · exact .pure rfl
    · exact fetches.bind_eq fun _ => .lift (.refl _)

theorem recordAudit_blind (row : AuditRow) : Blind (recordAudit row) (recordAudit row) := .emit (.audited row)

theorem createDnsRecord_blind (replaceable : Replaceable w auth) :
    Blind (createDnsRecord w context request zoneId) (createDnsRecord (withAuth w auth) context request zoneId) := by
  refine .lift_bind fun body => (authorizeDnsRequest_blind (.pure rfl)).bind_eq fun decision => ?_
  refine .bind_eq (.emit (.decided _)) fun _ => ?_
  split
  · exact .lift_bind fun _ => (recordAudit_blind _).bind_eq fun _ => .pure rfl
  · refine (Traced.Alike.lift replaceable).bind fun _ _ alike => (forwardRequest_blind alike).bind_eq fun response => ?_
    exact .lift_bind fun _ => (recordAudit_blind _).bind_eq fun _ => .pure rfl

theorem authorizeByIdLive_blind (alike : Interchangeable w authHeaders others) :
    Blind (authorizeByIdLive w context method zoneId recordId body authHeaders)
      (authorizeByIdLive (withAuth w auth) context method zoneId recordId body others) :=
  authorizeDnsRequest_blind (fetchCfRecord_blind alike)

theorem authorizeAndForward_blind (alike : Interchangeable w authHeaders others) :
    Blind (authorizeAndForward w context method zoneId recordId body content authHeaders)
      (authorizeAndForward (withAuth w auth) context method zoneId recordId body content others) := by
  refine (authorizeByIdLive_blind alike).bind_eq fun decision => .bind_eq (.emit (.decided _)) fun _ => ?_
  split
  · exact .pure rfl
  · exact (forwardRequest_blind alike).bind_eq fun _ => .pure rfl

theorem advisoryLock_blind {α : Type} {name : Str} {inside other : Traced Event α} (within : Blind inside other) :
    Blind (advisoryLock w name inside) (advisoryLock (withAuth w auth) name other) := by
  refine .lift_bind fun acquired => ?_
  split
  · refine .bind_eq (.emit (.locked name)) fun _ => .ensuring within ?_
    exact .lift_bind fun _ => .emit (.released name)
  · exact .raise lockUnavailable

theorem attemptMutation_blind (alike : Interchangeable w authHeaders others) :
    Blind (attemptMutation w context method zoneId recordId body content authHeaders)
      (attemptMutation (withAuth w auth) context method zoneId recordId body content others) := by
  have wrapped (left right : AuthDecision × Option Response) (same : left = right) : some left = some right := by rw [same]
  have unicode : (withAuth w auth).unicode = w.unicode := rfl
  unfold attemptMutation
  rw [unicode]
  split
  · exact (authorizeAndForward_blind alike).map wrapped
  · refine .catching (.map ?_ wrapped) (.pure rfl)
    exact .lift_bind fun _ => advisoryLock_blind (authorizeAndForward_blind alike)

theorem answerMutation_blind {decision : AuthDecision} {upstream : Option Response} :
    Blind (answerMutation context request method zoneId recordId decision upstream)
      (answerMutation context request method zoneId recordId decision upstream) := by
  unfold answerMutation
  dsimp only
  split
  · exact .lift_bind fun _ => (recordAudit_blind _).bind_eq fun _ => .pure rfl
  · split
    · exact .raise .attributeError
    · exact .lift_bind fun _ => (recordAudit_blind _).bind_eq fun _ => .pure rfl

theorem mutateDnsRecordById_blind (replaceable : Replaceable w auth) :
    Blind (mutateDnsRecordById w context request method zoneId recordId body content)
      (mutateDnsRecordById (withAuth w auth) context request method zoneId recordId body content) := by
  refine (Traced.Alike.lift replaceable).bind fun _ _ alike => (attemptMutation_blind alike).bind_eq fun outcome => ?_
  split
  · exact .pure rfl
  · exact answerMutation_blind

theorem getDnsRecord_blind (replaceable : Replaceable w auth) :
    Blind (getDnsRecord w context request zoneId recordId)
      (getDnsRecord (withAuth w auth) context request zoneId recordId) := by
  refine (Traced.Alike.lift replaceable).bind fun _ _ alike => (authorizeByIdLive_blind alike).bind_eq fun decision => ?_
  refine .bind_eq (.emit (.decided _)) fun _ => ?_
  split
  · exact .lift_bind fun _ => (recordAudit_blind _).bind_eq fun _ => .pure rfl
  · exact .pure rfl

end CfProxy.ProxyDns

namespace CfProxy.Main

open Client ProxyDns Routing

def Backend.withAuth (backend : Backend) (auth : Except PyError Headers) : Backend :=
  { backend with world := Client.withAuth backend.world auth }

structure SameOutcome (outcome other : Outcome) : Prop where
  events : List.Forall₂ SameEvent outcome.events other.events
  result : outcome.result = other.result

variable {backend : Backend} {auth : Except PyError Headers} {request : Request}

theorem SameOutcome.of_eq {outcome : Outcome} (silent : outcome.events = []) : SameOutcome outcome outcome :=
  ⟨by rw [silent]; exact .nil, rfl⟩

theorem ofTraced_same {body other : Traced Event Envelopes.ClientResponse} (blind : Blind body other) :
    SameOutcome (.ofTraced body) (.ofTraced other) := by
  refine ⟨blind.events, ?_⟩
  unfold Outcome.ofTraced
  rw [blind.result.eq]

theorem withScopedToken_same {handler other : ProxyAuthContext → Traced Event Envelopes.ClientResponse}
    (blind : ∀ context, Blind (handler context) (other context)) :
    SameOutcome (backend.withScopedToken handler) ((backend.withAuth auth).withScopedToken other) := by
  unfold Backend.withScopedToken Backend.withAuth
  dsimp only
  split
  · exact ofTraced_same (blind _)
  · exact .of_eq rfl

theorem handle_same (replaceable : Replaceable backend.world auth) (endpoint : Endpoint) (arguments : List Str) :
    SameOutcome (handle backend request endpoint arguments) (handle (backend.withAuth auth) request endpoint arguments) := by
  cases endpoint with
  | management operation => exact .of_eq rfl
  | verifyToken => exact withScopedToken_same fun _ => .pure rfl
  | listZones => exact withScopedToken_same fun _ => listZones_blind replaceable
  | listDnsRecords => exact withScopedToken_same fun _ => listDnsRecords_blind replaceable
  | createDnsRecord => exact withScopedToken_same fun _ => createDnsRecord_blind replaceable
  | getDnsRecord => exact withScopedToken_same fun _ => getDnsRecord_blind replaceable
  | patchDnsRecord =>
    exact withScopedToken_same fun _ => .lift_bind fun _ => mutateDnsRecordById_blind replaceable
  | putDnsRecord => exact withScopedToken_same fun _ => .lift_bind fun _ => mutateDnsRecordById_blind replaceable
  | deleteDnsRecord => exact withScopedToken_same fun _ => mutateDnsRecordById_blind replaceable
  | _ => exact .of_eq rfl

theorem serve_same (replaceable : Replaceable backend.world auth) (dispatched : Dispatch Endpoint) :
    SameOutcome (serve backend request dispatched) (serve (backend.withAuth auth) request dispatched) := by
  cases dispatched with
  | handled endpoint arguments => exact handle_same replaceable endpoint arguments
  | _ => exact .of_eq rfl

theorem credential_unseen (backend : Backend) (auth : Except PyError Headers) (replaceable : Replaceable backend.world auth)
    (method path : Str) (request : Request) :
    (respond (backend.withAuth auth) method path request).2 = (respond backend method path request).2 ∧
      List.Forall₂ SameEvent (respond backend method path request).1 (respond (backend.withAuth auth) method path request).1 := by
  obtain ⟨events, result⟩ := @serve_same _ _ request replaceable (dispatch routes method path)
  refine ⟨?_, events⟩
  unfold respond
  dsimp only
  rw [← result]
  rfl

section Example

-- Two tokens that the upstream knows.

def tokenHeaders (token : Str) : Headers := [("Authorization".toList, token)]

def knownTokens (request : UpstreamRequest) : Except PyError Response :=
  if request.headers = tokenHeaders ['s'] ∨ request.headers = tokenHeaders ['t'] then .ok ⟨200, .ok (.obj [])⟩
  else .ok ⟨403, .ok .null⟩

def listing : Backend := { Backend.ofRules [zoneRule ['z']] with
  world := { World.answering knownTokens with upstreamAuth := .ok (tokenHeaders ['s']) }
  fuel := 1 }

theorem knownTokens_replaceable : Replaceable listing.world (.ok (tokenHeaders ['t'])) := by
  have sent (token : Str) : forwardedHeaders .asciiOnly none (tokenHeaders token) = tokenHeaders token := rfl
  refine .ok fun request => ?_
  simp [listing, World.answering, knownTokens, sent]

theorem listing_unseen :
    (respond (listing.withAuth (.ok (tokenHeaders ['t']))) "GET".toList (collectionPath ['z']) (.ofJson .null)).2 =
      (respond listing "GET".toList (collectionPath ['z']) (.ofJson .null)).2 :=
  (credential_unseen listing _ knownTokens_replaceable "GET".toList (collectionPath ['z']) (.ofJson .null)).1

end Example

end CfProxy.Main
