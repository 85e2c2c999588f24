import CfProxy.Routers.ProxyDns
import CfProxy.Shared.Uri

set_option autoImplicit false

namespace CfProxy.ProxyDns

open Text Scope Authorizer Client Locks Envelopes

def SentTo (path : Str) : Event → Prop
  | .sent request => request.path = path
  | _ => True

variable {w : World} {context : ProxyAuthContext} {request : Request} {method path zoneId recordId : Str}
variable {body : Json} {content : Option Bytes} {authHeaders : Headers}

theorem forwardRequest_sentTo {headers : Option Headers} {params : Option (List (Str × Json))} :
    Traced.Every (SentTo path) (forwardRequest w method path headers params content authHeaders) := by
  refine .bind (.emit rfl) fun _ _ => ?_
  exact .bind (.lift _) fun response _ => .bind (.emit trivial) fun _ _ => .pure response

theorem fetchCfRecord_sentTo :
    Traced.Every (SentTo (recordPath zoneId recordId)) (fetchCfRecord w zoneId recordId authHeaders) := by
  refine .bind forwardRequest_sentTo fun response _ => ?_
  split
  · exact .pure _
  · exact .bind (.lift _) fun _ _ => .bind (.lift _) fun _ _ => .lift _

theorem listPages_sentTo {params : List (Str × Json)} {fuel page : Nat} {records : List Json} :
    Traced.Every (SentTo (collectionPath zoneId)) (listPages w zoneId params authHeaders fuel page records) := by
  induction fuel generalizing page records with
  | zero => exact .lift _
  | succ fuel ih =>
    refine .bind forwardRequest_sentTo fun response _ => ?_
    refine .bind (.lift _) fun _ _ => .bind (.lift _) fun _ _ => .bind (.lift _) fun read _ => ?_
    dsimp only
    split
    · exact .pure _
    · exact ih

theorem authorizeDnsRequest_every {ε : Type} {P : ε → Prop} {u : Unicode} {rules : List ScopeRule}
    {id : Option Str} {fetchRecord : Str → Option Str → Traced ε Json}
    (fetch : Traced.Every P (fetchRecord zoneId id)) :
    Traced.Every P (authorizeDnsRequest u rules method zoneId id body fetchRecord) := by
  unfold authorizeDnsRequest
  dsimp only
  split
  · exact .lift _
  · split
    · exact .pure _
    · exact .bind fetch fun _ _ => .lift _

theorem authorizeByIdLive_sentTo :
    Traced.Every (SentTo (recordPath zoneId recordId))
      (authorizeByIdLive w context method zoneId recordId body authHeaders) :=
  authorizeDnsRequest_every fetchCfRecord_sentTo

theorem authorizeAndForward_sentTo :
    Traced.Every (SentTo (recordPath zoneId recordId))
      (authorizeAndForward w context method zoneId recordId body content authHeaders) := by
  refine .bind authorizeByIdLive_sentTo fun decision _ => .bind (.emit trivial) fun _ _ => ?_
  split
  · exact .pure _
  · exact .bind forwardRequest_sentTo fun upstream _ => .pure _

theorem advisoryLock_sentTo {α : Type} {name : Str} {inside : Traced Event α}
    (within : Traced.Every (SentTo path) inside) : Traced.Every (SentTo path) (advisoryLock w name inside) := by
  refine .bind (.lift _) fun acquired _ => ?_
  have guarded : Traced.Every (SentTo path) (inside.ensuring do
      Traced.lift (w.releaseLock name)
      Traced.emit (.released name)) :=
    .ensuring within (.bind (.lift _) fun _ _ => .emit trivial)
  split
  · exact .bind (.emit trivial) fun _ _ => guarded
  · exact .lift _

theorem answerMutation_sentTo {decision : AuthDecision} {upstream : Option Response} :
    Traced.Every (SentTo path) (answerMutation context request method zoneId recordId decision upstream) := by
  unfold answerMutation
  dsimp only
  split
  · exact .bind (.lift _) fun _ _ => .bind (.emit trivial) fun _ _ => .pure _
  · split
    · exact .lift _
    · exact .bind (.lift _) fun _ _ => .bind (.emit trivial) fun _ _ => .pure _

theorem attemptMutation_sentTo :
    Traced.Every (SentTo (recordPath zoneId recordId))
      (attemptMutation w context method zoneId recordId body content authHeaders) := by
  unfold attemptMutation
  split
  · exact .map authorizeAndForward_sentTo
  · refine .catching (.map ?_) (.pure none)
    exact .bind (.lift _) fun _ _ => advisoryLock_sentTo authorizeAndForward_sentTo

theorem mutateDnsRecordById_sentTo :
    Traced.Every (SentTo (recordPath zoneId recordId))
      (mutateDnsRecordById w context request method zoneId recordId body content) := by
  refine .bind (.lift _) fun _ _ => .bind attemptMutation_sentTo fun outcome _ => ?_
  split
  · exact .pure _
  · exact answerMutation_sentTo

theorem getDnsRecord_sentTo :
    Traced.Every (SentTo (recordPath zoneId recordId)) (getDnsRecord w context request zoneId recordId) := by
  refine .bind (.lift _) fun _ _ => .bind authorizeByIdLive_sentTo fun decision _ => ?_
  refine .bind (.emit trivial) fun _ _ => ?_
  split
  · exact .bind (.lift _) fun _ _ => .bind (.emit trivial) fun _ _ => .pure _
  · exact .pure _

theorem createDnsRecord_sentTo :
    Traced.Every (SentTo (collectionPath zoneId)) (createDnsRecord w context request zoneId) := by
  refine .bind (.lift _) fun body _ => .bind (authorizeDnsRequest_every (.pure _)) fun decision _ => ?_
  refine .bind (.emit trivial) fun _ _ => ?_
  split
  · exact .bind (.lift _) fun _ _ => .bind (.emit trivial) fun _ _ => .pure _
  · refine .bind (.lift _) fun _ _ => .bind forwardRequest_sentTo fun response _ => ?_
    exact .bind (.lift _) fun _ _ => .bind (.emit trivial) fun _ _ => .pure _

theorem listDnsRecords_sentTo {fuel : Nat} :
    Traced.Every (SentTo (collectionPath zoneId)) (listDnsRecords w fuel context request zoneId) := by
  refine .bind (.lift _) fun paging _ => ?_
  dsimp only
  split
  · exact .pure _
  · exact .bind (.lift _) fun _ _ => .bind listPages_sentTo fun _ _ => .bind (.lift _) fun _ _ => .pure _

inductive Operation
  | list
  | create
  | get
  | patch
  | put
  | delete

def Operation.byId : Operation → Bool
  | .list | .create => false
  | _ => true

def serve (w : World) (fuel : Nat) (context : ProxyAuthContext) (request : Request) (zoneId recordId : Str) :
    Operation → Traced Event ClientResponse
  | .list => listDnsRecords w fuel context request zoneId
  | .create => createDnsRecord w context request zoneId
  | .get => getDnsRecord w context request zoneId recordId
  | .patch => patchDnsRecord w context request zoneId recordId
  | .put => putDnsRecord w context request zoneId recordId
  | .delete => deleteDnsRecord w context request zoneId recordId

def zoneSegments (zoneId : Str) : List Str :=
  ["client".toList, "v4".toList, "zones".toList, zoneId, "dns_records".toList]

def Operation.resource (operation : Operation) (zoneId recordId : Str) : List Str :=
  zoneSegments zoneId ++ if operation.byId then [recordId] else []

theorem collectionPath_render : collectionPath zoneId = Uri.render (zoneSegments zoneId) := by
  have zones : zonesPrefix = '/' :: ("client".toList ++ '/' :: ("v4".toList ++ '/' :: ("zones".toList ++ ['/']))) := by
    decide
  have records : dnsRecords = '/' :: "dns_records".toList := by
    decide
  simp only [collectionPath, zones, records, zoneSegments, Uri.render_cons, Uri.render_nil,
    List.cons_append, List.append_assoc, List.nil_append, List.append_nil]

theorem recordPath_render : recordPath zoneId recordId = Uri.render (zoneSegments zoneId ++ [recordId]) := by
  have appended : recordPath zoneId recordId = collectionPath zoneId ++ '/' :: recordId := rfl
  rw [appended, collectionPath_render, Uri.render_append, Uri.render_cons, Uri.render_nil, List.append_nil]

theorem serve_sentTo {fuel : Nat} (operation : Operation) :
    Traced.Every (SentTo (Uri.render (operation.resource zoneId recordId)))
      (serve w fuel context request zoneId recordId operation) := by
  cases operation
  all_goals simp only [Operation.resource, Operation.byId, Bool.false_eq_true, if_true, if_false,
    List.append_nil, serve, ← collectionPath_render, ← recordPath_render]
  · exact listDnsRecords_sentTo
  · exact createDnsRecord_sentTo
  · exact getDnsRecord_sentTo
  · exact .bind (.lift _) fun _ _ => mutateDnsRecordById_sentTo
  · exact .bind (.lift _) fun _ _ => mutateDnsRecordById_sentTo
  · exact mutateDnsRecordById_sentTo

def Confined (operation : Operation) (zoneId recordId : Str) : Prop :=
  ∀ (w : World) (fuel : Nat) (context : ProxyAuthContext) (request : Request) (sent : UpstreamRequest),
    .sent sent ∈ (serve w fuel context request zoneId recordId operation).events →
    Uri.resolve sent.path = operation.resource zoneId recordId ∧ Uri.queryText sent.path = none

theorem forwardRequest_sends (w : World) (method path : Str) (headers : Option Headers)
    (params : Option (List (Str × Json))) (content : Option Bytes) (authHeaders : Headers) :
    ∃ sent, .sent sent ∈ (forwardRequest w method path headers params content authHeaders).events :=
  ⟨_, Traced.mem_bind_first (List.mem_singleton_self _)⟩

theorem authorizeByIdLive_sends (w : World) (context : ProxyAuthContext) (byId : Method)
    (supported : byId.byIdOp.isSome) (zoneId recordId : Str) (body : Json) (authHeaders : Headers) :
    ∃ sent, .sent sent ∈ (authorizeByIdLive w context byId.name zoneId recordId body authHeaders).events := by
  obtain ⟨op, operates⟩ := Option.isSome_iff_exists.mp supported
  obtain ⟨sent, member⟩ :=
    forwardRequest_sends w Method.get.name (recordPath zoneId recordId) none none none authHeaders
  have notPost : byId ≠ .post := by
    rintro rfl
    simp [Method.byIdOp, Method.mutationOp] at supported
  refine ⟨sent, ?_⟩
  simp only [authorizeByIdLive, authorizeDnsRequest, Method.ofName_name, notPost, if_false, operates]
  exact Traced.mem_bind_first (Traced.mem_bind_first member)

def zoneRule (zoneId : Str) : ScopeRule where
  zoneId
  namePattern := none
  nameMatch := exact
  recordTypes := [star]
  recordIds := none
  allowRead := true
  allowCreate := true
  allowWrite := true
  allowDelete := true

theorem zoneRule_creates (u : Unicode) (zoneId : Str) :
    authorizeCreate u [zoneRule zoneId] zoneId (.obj []) = .ok { allowed := true } := by
  simp [authorizeCreate, bodyFields, Json.get, matchRules, normalizeName, Json.truthy, anyGrants,
    ScopeRule.grants, zoneRule, ScopeRule.typeAllowed, ScopeRule.idAllowed, ScopeRule.nameAllowed,
    ScopeRule.allows]

theorem mutateDnsRecordById_sends (reply : UpstreamRequest → Except PyError Response)
    (context : ProxyAuthContext) (request : Request) (byId : Method) (supported : byId.byIdOp.isSome)
    (zoneId recordId : Str) (body : Json) (content : Option Bytes) :
    ∃ sent, .sent sent ∈
      (mutateDnsRecordById (.answering reply) context request byId.name zoneId recordId body content).events := by
  obtain ⟨sent, member⟩ :=
    authorizeByIdLive_sends (.answering reply) context byId supported zoneId recordId body []
  refine ⟨sent, Traced.mem_bind_next rfl (Traced.mem_bind_first ?_)⟩
  unfold attemptMutation
  split
  · exact Traced.mem_bind_first (Traced.mem_bind_first member)
  · refine Traced.mem_catching (Traced.mem_bind_first (Traced.mem_bind_next rfl (Traced.mem_bind_next rfl ?_)))
    exact Traced.mem_bind_next rfl (List.mem_append_left _ (Traced.mem_bind_first member))

theorem serve_sends (operation : Operation) (zoneId recordId : Str) :
    ∃ (w : World) (fuel : Nat) (context : ProxyAuthContext) (request : Request) (sent : UpstreamRequest),
      .sent sent ∈ (serve w fuel context request zoneId recordId operation).events := by
  let w := World.answering fun _ => .error (.valueError [])
  let context := ProxyAuthContext.ofRules [zoneRule zoneId]
  refine ⟨w, 1, context, .ofJson (.obj []), ?_⟩
  cases operation with
  | list =>
    obtain ⟨sent, member⟩ := forwardRequest_sends w Method.get.name (collectionPath zoneId) none
      (some (pageParams [] 1)) none []
    refine ⟨sent, Traced.mem_bind_next rfl ?_⟩
    have covered : context.rules.any (·.zoneId == zoneId) = true := by
      simp [context, ProxyAuthContext.ofRules, zoneRule]
    simp only [covered]
    exact Traced.mem_bind_next rfl (Traced.mem_bind_first (Traced.mem_bind_first member))
  | create =>
    obtain ⟨sent, member⟩ := forwardRequest_sends w Method.post.name (collectionPath zoneId) none none (some []) []
    refine ⟨sent, Traced.mem_bind_next rfl (Traced.mem_bind_next (zoneRule_creates _ zoneId) ?_)⟩
    exact Traced.mem_bind_next rfl (Traced.mem_bind_next rfl (Traced.mem_bind_first member))
  | get =>
    obtain ⟨sent, member⟩ := authorizeByIdLive_sends w context .get rfl zoneId recordId .null []
    exact ⟨sent, Traced.mem_bind_next rfl (Traced.mem_bind_first member)⟩
  | patch =>
    obtain ⟨sent, member⟩ := mutateDnsRecordById_sends _ context _ .patch rfl zoneId recordId (.obj []) (some [])
    exact ⟨sent, Traced.mem_bind_next rfl member⟩
  | put =>
    obtain ⟨sent, member⟩ := mutateDnsRecordById_sends _ context _ .put rfl zoneId recordId (.obj []) (some [])
    exact ⟨sent, Traced.mem_bind_next rfl member⟩
  | delete => exact mutateDnsRecordById_sends _ context _ .delete rfl zoneId recordId .null none

theorem zoneSegments_slashFree (zoneFree : '/' ∉ zoneId) : ∀ segment ∈ zoneSegments zoneId, '/' ∉ segment := by
  simp only [zoneSegments, List.forall_mem_cons]
  exact ⟨by decide, by decide, by decide, zoneFree, by decide, by simp⟩

theorem resource_slashFree (operation : Operation) (zoneFree : '/' ∉ zoneId) (recordFree : '/' ∉ recordId) :
    ∀ segment ∈ operation.resource zoneId recordId, '/' ∉ segment := by
  have zone := zoneSegments_slashFree zoneFree
  cases byId : operation.byId <;> simp [Operation.resource, byId, or_imp, forall_and, recordFree] <;> exact zone

theorem resource_plain (operation : Operation) :
    (∀ segment ∈ operation.resource zoneId recordId, Uri.PlainSegment segment) ↔
      Uri.PlainSegment zoneId ∧ (operation.byId = true → Uri.PlainSegment recordId) := by
  have zone : (∀ segment ∈ zoneSegments zoneId, Uri.PlainSegment segment) ↔ Uri.PlainSegment zoneId := by
    simp only [zoneSegments, List.forall_mem_cons]
    constructor
    · exact fun ⟨_, _, _, plain, _⟩ => plain
    · exact fun plain => ⟨by decide, by decide, by decide, plain, by decide, by simp⟩
  cases byId : operation.byId <;> simp [Operation.resource, byId, or_imp, forall_and, zone]

theorem confined_iff (operation : Operation) (zoneId recordId : Str) (zoneFree : '/' ∉ zoneId)
    (recordFree : '/' ∉ recordId) :
    Confined operation zoneId recordId ↔
      Uri.PlainSegment zoneId ∧ (operation.byId = true → Uri.PlainSegment recordId) := by
  rw [← resource_plain operation, ← Uri.resolve_render (resource_slashFree operation zoneFree recordFree)]
  constructor
  · intro confined
    obtain ⟨w, fuel, context, request, sent, member⟩ := serve_sends operation zoneId recordId
    have addressed := confined w fuel context request sent member
    rwa [serve_sentTo operation _ member] at addressed
  · intro resolved w fuel context request sent member
    rw [serve_sentTo operation _ member]
    exact resolved

theorem plain_ids_confined : Confined .patch "z1".toList "rec1".toList :=
  (confined_iff .patch _ _ (by decide) (by decide)).mpr ⟨by decide, fun _ => by decide⟩

def mutatesAt (method path : Str) : Event → Bool
  | .sent request => request.method == method && request.path == path
  | _ => false

theorem parent_not_confined :
    let zone : Json := .obj [(nameKey, .str "example.com".toList), (typeKey, .str "full".toList)]
    let reply : UpstreamRequest → Except PyError Response := fun _ => .ok ⟨200, .ok (.obj [(resultKey, zone)])⟩
    let context := ProxyAuthContext.ofRules [.named "z".toList "example.com".toList exact star]
    let events := (serve (.answering reply) 0 context (.ofJson .null) "z".toList "..".toList .delete).events
    (events.any (mutatesAt Method.delete.name (recordPath "z".toList "..".toList)) = true ∧
      Uri.resolve (recordPath "z".toList "..".toList) =
        ["client".toList, "v4".toList, "zones".toList, "z".toList]) ∧
    ¬Confined .delete "z".toList "..".toList := by
  intro zone reply context events
  have deleted : events.any (mutatesAt Method.delete.name (recordPath "z".toList "..".toList)) = true := by
    decide +kernel
  have address : Uri.resolve (recordPath "z".toList "..".toList) =
      ["client".toList, "v4".toList, "zones".toList, "z".toList] := by
    decide
  refine ⟨⟨deleted, address⟩, fun confined => ?_⟩
  obtain ⟨event, member, mutates⟩ := List.any_eq_true.mp deleted
  cases event with
  | sent request =>
    have path : request.path = recordPath "z".toList "..".toList := by
      simp [mutatesAt] at mutates
      exact mutates.2
    have elsewhere := (confined _ _ _ _ request member).1
    rw [path, address] at elsewhere
    exact absurd elsewhere (by decide)
  | _ => simp [mutatesAt] at mutates

end CfProxy.ProxyDns
