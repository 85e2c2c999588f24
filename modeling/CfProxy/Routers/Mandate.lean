import CfProxy.Authz.Additions
import CfProxy.Routers.Audit

set_option autoImplicit false

namespace CfProxy.ProxyDns

open Text Scope Authorizer Client Locks Envelopes

-- The body that the authorization reads is the one that is forwarded, and a DELETE has none.
inductive Given (request : Request) : Method → Json → Option Bytes → Prop
  | parsed {method : Method} {body : Json} (carries : method ≠ .delete) (read : request.json = .ok body) :
      Given request method body (some request.body)
  | absent : Given request .delete .null none

def Operation.method : Operation → Method
  | .list | .get => .get
  | .create => .post
  | .patch => .patch
  | .put => .put
  | .delete => .delete

def targetPath (zoneId : Str) : Option Str → Str
  | none => collectionPath zoneId
  | some recordId => recordPath zoneId recordId

def fetched (w : World) (zoneId : Str) (authHeaders : Headers) : Option Str → Except PyError Json
  | none => .ok .null
  | some recordId => (fetchCfRecord w zoneId recordId authHeaders).result

-- What entitles a request to change something: the rules grant all that the authorization asks about the body it
-- forwards and about the record as it was fetched with the same headers.
structure Mandate (w : World) (rules : List ScopeRule) (request : Request) (authHeaders : Headers) (method : Method)
    (zoneId : Str) (recordId : Option Str) where
  body : Json
  content : Option Bytes
  asked : List Pass
  creates : method = .post ↔ recordId = none
  given : Given request method body content
  asks : passes method zoneId recordId body (fetched w zoneId authHeaders recordId) = some asked
  grants : ∀ pass ∈ asked, granted w.unicode rules zoneId pass = .ok true

section

variable {w : World} {rules : List ScopeRule} {context : ProxyAuthContext} {request : Request} {authHeaders : Headers}
variable {method : Method} {zoneId recordId : Str} {body : Json} {content : Option Bytes}

def Mandate.forwarded {target : Option Str} (mandate : Mandate w rules request authHeaders method zoneId target) :
    UpstreamRequest where
  method := method.name
  path := targetPath zoneId target
  headers := forwardedHeaders w.unicode none authHeaders
  params := none
  content := mandate.content

-- With the headers of the token's credential and nothing of the client's, a read or a change that is mandated.
def Mediated (w : World) (rules : List ScopeRule) (request : Request) (method : Method) (zoneId recordId : Str)
    (sent : UpstreamRequest) : Prop :=
  ∃ authHeaders, w.upstreamAuth = .ok authHeaders ∧ sent.headers = forwardedHeaders w.unicode none authHeaders ∧
    (sent.method = getMethod ∨ ∃ target, (target = none ∨ target = some recordId) ∧
      ∃ mandate : Mandate w rules request authHeaders method zoneId target, sent = mandate.forwarded)

def MediatedEvent (w : World) (rules : List ScopeRule) (request : Request) (method : Method) (zoneId recordId : Str) :
    Event → Prop
  | .sent sent => Mediated w rules request method zoneId recordId sent
  | _ => True

def Unsent : Event → Prop
  | .sent _ => False
  | _ => True

-- True of all events but requests, and of the reads with the credential's headers.
structure OfReads (w : World) (P : Event → Prop) : Prop where
  quiet : ∀ event, Unsent event → P event
  read : ∀ authHeaders, w.upstreamAuth = .ok authHeaders → ∀ sent : UpstreamRequest, sent.method = getMethod →
    sent.headers = forwardedHeaders w.unicode none authHeaders → P (.sent sent)

theorem ofReads_mediated : OfReads w (MediatedEvent w rules request method zoneId recordId) where
  quiet event unsent := by
    cases event with
    | sent sent => exact unsent.elim
    | _ => trivial
  read authHeaders resolved sent get headers := ⟨authHeaders, resolved, headers, .inl get⟩

section Reads

variable {P : Event → Prop} (reads : OfReads w P)

include reads

theorem OfReads.exchange {sent : UpstreamRequest} (holds : P (.sent sent)) : Traced.Every P (exchange w sent) :=
  .bind (.emit holds) fun _ _ => .bind (.lift _) fun response _ =>
    .bind (.emit (reads.quiet _ trivial)) fun _ _ => .pure response

theorem OfReads.forward (resolved : w.upstreamAuth = .ok authHeaders) {path : Str}
    {params : Option (List (Str × Json))} :
    Traced.Every P (forwardRequest w getMethod path none params none authHeaders) :=
  reads.exchange (reads.read authHeaders resolved _ rfl rfl)

theorem OfReads.fetchCfRecord (resolved : w.upstreamAuth = .ok authHeaders) :
    Traced.Every P (fetchCfRecord w zoneId recordId authHeaders) := by
  refine .bind (reads.forward resolved) fun response _ => ?_
  split
  · exact .pure _
  · exact .bind (.lift _) fun _ _ => .bind (.lift _) fun _ _ => .lift _

theorem OfReads.listPages (resolved : w.upstreamAuth = .ok authHeaders) {params : List (Str × Json)} {fuel page : Nat}
    {records : List Json} : Traced.Every P (listPages w zoneId params authHeaders fuel page records) := by
  induction fuel generalizing page records with
  | zero => exact .lift _
  | succ fuel ih =>
    refine .bind (reads.forward resolved) fun response _ => ?_
    refine .bind (.lift _) fun _ _ => .bind (.lift _) fun _ _ => .bind (.lift _) fun read _ => ?_
    dsimp only
    split
    · exact .pure _
    · exact ih

theorem OfReads.zonePages (resolved : w.upstreamAuth = .ok authHeaders) {params : List (Str × Json)} {fuel page : Nat}
    {zones : List Json} : Traced.Every P (zonePages w params authHeaders fuel page zones) := by
  induction fuel generalizing page zones with
  | zero => exact .lift _
  | succ fuel ih =>
    refine .bind (reads.forward resolved) fun response _ => .bind (.lift _) fun _ _ => ?_
    split
    · exact .pure _
    · refine .bind (.lift _) fun success _ => ?_
      split
      · exact .pure _
      · refine .bind (.lift _) fun read _ => ?_
        dsimp only
        split
        · exact .pure _
        · exact ih

theorem OfReads.listZones {fuel : Nat} : Traced.Every P (listZones w fuel context request) := by
  refine .bind (.lift _) fun paging _ => .bind (.lift _) fun authHeaders resolved => ?_
  exact .bind (reads.zonePages resolved) fun _ _ => .bind (.lift _) fun _ _ => .pure _

theorem OfReads.listDnsRecords {fuel : Nat} : Traced.Every P (listDnsRecords w fuel context request zoneId) := by
  refine .bind (.lift _) fun paging _ => ?_
  dsimp only
  split
  · exact .pure _
  · refine .bind (.lift _) fun authHeaders resolved => ?_
    exact .bind (reads.listPages resolved) fun _ _ => .bind (.lift _) fun _ _ => .pure _

theorem OfReads.authorizeByIdLive (resolved : w.upstreamAuth = .ok authHeaders) {methodName : Str} :
    Traced.Every P (authorizeByIdLive w context methodName zoneId recordId body authHeaders) :=
  authorizeDnsRequest_every (reads.fetchCfRecord resolved)

theorem OfReads.recordAudit (row : AuditRow) : Traced.Every P (recordAudit row) :=
  .emit (reads.quiet _ trivial)

theorem OfReads.getDnsRecord : Traced.Every P (getDnsRecord w context request zoneId recordId) := by
  refine .bind (.lift _) fun authHeaders resolved => .bind (reads.authorizeByIdLive resolved) fun decision _ => ?_
  refine .bind (.emit (reads.quiet _ trivial)) fun _ _ => ?_
  split
  · exact .bind (.lift _) fun _ _ => .bind (reads.recordAudit _) fun _ _ => .pure _
  · exact .pure _

theorem OfReads.advisoryLock {α : Type} {name : Str} {inside : Traced Event α} (within : Traced.Every P inside) :
    Traced.Every P (advisoryLock w name inside) := by
  refine .bind (.lift _) fun acquired _ => ?_
  split
  · refine .bind (.emit (reads.quiet _ trivial)) fun _ _ => .ensuring within ?_
    exact .bind (.lift _) fun _ _ => .emit (reads.quiet _ trivial)
  · exact .lift _

theorem OfReads.answerMutation {methodName : Str} {decision : AuthDecision} {upstream : Option Response} :
    Traced.Every P (answerMutation context request methodName zoneId recordId decision upstream) := by
  unfold ProxyDns.answerMutation
  dsimp only
  split
  · exact .bind (.lift _) fun _ _ => .bind (reads.recordAudit _) fun _ _ => .pure _
  · split
    · exact .lift _
    · exact .bind (.lift _) fun _ _ => .bind (reads.recordAudit _) fun _ _ => .pure _

end Reads

-- The decision on an existing record rests on what was fetched of it.
theorem authorizeByIdLive_mandates {decision : AuthDecision} (byId : method ≠ .post)
    (given : Given request method body content)
    (decided : (authorizeByIdLive w context method.name zoneId recordId body authHeaders).result = .ok decision)
    (allowed : decision.allowed = true) :
    ∃ mandate : Mandate w context.rules request authHeaders method zoneId (some recordId), mandate.forwarded =
      mutationRequest w method.name zoneId recordId content authHeaders := by
  have passed : Allowed (authorizeByIdLive w context method.name zoneId recordId body authHeaders).result := by
    simp [Allowed, decided, allowed]
  obtain ⟨asked, asks, grants⟩ := authorizeDnsRequest_allowed.mp passed
  rw [Method.ofName_name] at asks
  exact ⟨⟨body, content, asked, by simp [byId], given, asks, grants⟩, rfl⟩

theorem authorizeCreate_mandates {decision : AuthDecision} (read : request.json = .ok body)
    (decided : (authorizeDnsRequest (ε := Event) w.unicode context.rules Method.post.name zoneId none body
      fun _ _ => pure .null).result = .ok decision)
    (allowed : decision.allowed = true) (authHeaders : Headers) :
    ∃ mandate : Mandate w context.rules request authHeaders .post zoneId none, mandate.forwarded =
      ⟨Method.post.name, collectionPath zoneId, forwardedHeaders w.unicode none authHeaders, none, some request.body⟩ := by
  have passed : Allowed (authorizeDnsRequest (ε := Event) w.unicode context.rules Method.post.name zoneId none body
      fun _ _ => pure .null).result := by
    rw [Allowed, decided, ← allowed]
    rfl
  obtain ⟨asked, asks, grants⟩ := authorizeDnsRequest_allowed.mp passed
  rw [Method.ofName_name] at asks
  exact ⟨⟨body, some request.body, asked, by simp, .parsed (by decide) read, asks, grants⟩, rfl⟩

-- A change by id is only mandated for a record that is shown.
theorem Mandate.asks_image (mandate : Mandate w rules request authHeaders method zoneId (some recordId)) {image : Json.Dict}
    (shows : Returns (fun found => found = .null ∨ found = .obj image)
      (fetchCfRecord w zoneId recordId authHeaders).result) :
    passes method zoneId (some recordId) mandate.body (.ok (.obj image)) = some mandate.asked := by
  have asks := mandate.asks
  have byId : method ≠ .post := by simp [mandate.creates]
  unfold passes at asks ⊢
  cases op : method.byIdOp with
  | none => cases method <;> simp_all
  | some op =>
    cases found : fetched w zoneId authHeaders (some recordId) with
    | error raised => simp [op, found] at asks
    | ok value =>
      rcases shows value found with rfl | rfl
      · simp [op, found] at asks
      · simpa [op, found] using asks

section Changes

theorem Mandate.mediated (resolved : w.upstreamAuth = .ok authHeaders) {target : Option Str}
    (among : target = none ∨ target = some recordId)
    (mandate : Mandate w rules request authHeaders method zoneId target) :
    Traced.Every (MediatedEvent w rules request method zoneId recordId) (exchange w mandate.forwarded) :=
  ofReads_mediated.exchange ⟨authHeaders, resolved, rfl, .inr ⟨target, among, mandate, rfl⟩⟩

theorem authorizeAndForward_mediated (resolved : w.upstreamAuth = .ok authHeaders) (byId : method ≠ .post)
    (given : Given request method body content) :
    Traced.Every (MediatedEvent w context.rules request method zoneId recordId)
      (authorizeAndForward w context method.name zoneId recordId body content authHeaders) := by
  refine .bind (ofReads_mediated.authorizeByIdLive resolved) fun decision decided => .bind (.emit trivial) fun _ _ => ?_
  split
  · exact .pure _
  · next allowed =>
    obtain ⟨mandate, same⟩ := authorizeByIdLive_mandates byId given decided (by simpa using allowed)
    have mediated := mandate.mediated resolved (.inr rfl)
    rw [same] at mediated
    exact .bind mediated fun _ _ => .pure _

theorem attemptMutation_mediated (resolved : w.upstreamAuth = .ok authHeaders) (byId : method ≠ .post)
    (given : Given request method body content) :
    Traced.Every (MediatedEvent w context.rules request method zoneId recordId)
      (attemptMutation w context method.name zoneId recordId body content authHeaders) := by
  have forwards : Traced.Every (MediatedEvent w context.rules request method zoneId recordId)
      (authorizeAndForward w context method.name zoneId recordId body content authHeaders) :=
    authorizeAndForward_mediated resolved byId given
  unfold attemptMutation
  split
  · exact .map forwards
  · refine .catching (.map ?_) (.pure none)
    exact .bind (.lift _) fun _ _ => ofReads_mediated.advisoryLock forwards

theorem mutateDnsRecordById_mediated (byId : method ≠ .post) (given : Given request method body content) :
    Traced.Every (MediatedEvent w context.rules request method zoneId recordId)
      (mutateDnsRecordById w context request method.name zoneId recordId body content) := by
  refine .bind (.lift _) fun authHeaders resolved => ?_
  refine .bind (attemptMutation_mediated resolved byId given) fun outcome _ => ?_
  split
  · exact .pure _
  · exact ofReads_mediated.answerMutation

theorem createDnsRecord_mediated :
    Traced.Every (MediatedEvent w context.rules request .post zoneId recordId) (createDnsRecord w context request zoneId) := by
  refine .bind (.lift _) fun body read => .bind (authorizeDnsRequest_every (.pure _)) fun decision decided => ?_
  refine .bind (.emit trivial) fun _ _ => ?_
  split
  · exact .bind (.lift _) fun _ _ => .bind (.emit trivial) fun _ _ => .pure _
  · next allowed =>
    refine .bind (.lift _) fun authHeaders resolved => ?_
    obtain ⟨mandate, same⟩ := authorizeCreate_mandates read decided (by simpa using allowed) authHeaders
    have mediated : Traced.Every (MediatedEvent w context.rules request .post zoneId recordId)
        (exchange w mandate.forwarded) :=
      mandate.mediated resolved (.inl rfl)
    rw [same] at mediated
    refine .bind mediated fun response _ => ?_
    exact .bind (.lift _) fun _ _ => .bind (.emit trivial) fun _ _ => .pure _

theorem serve_mediated {fuel : Nat} (operation : Operation) :
    Traced.Every (MediatedEvent w context.rules request operation.method zoneId recordId)
      (serve w fuel context request zoneId recordId operation) := by
  cases operation with
  | list => exact ofReads_mediated.listDnsRecords
  | create => exact createDnsRecord_mediated
  | get => exact ofReads_mediated.getDnsRecord
  | patch => exact .bind (.lift _) fun _ read => mutateDnsRecordById_mediated (by decide) (.parsed (by decide) read)
  | put => exact .bind (.lift _) fun _ read => mutateDnsRecordById_mediated (by decide) (.parsed (by decide) read)
  | delete => exact mutateDnsRecordById_mediated (by decide) Given.absent

end Changes

def changes : Event → Bool
  | .sent sent => sent.method != getMethod
  | _ => false

section Once

theorem unsent_unchanging (event : Event) (unsent : Unsent event) : changes event = false := by
  cases event with
  | sent sent => exact unsent.elim
  | _ => rfl

theorem ofReads_unchanging : OfReads w (changes · = false) where
  quiet := unsent_unchanging
  read authHeaders resolved sent get headers := by simp [changes, get]

-- After a change nothing is sent any more.
def ChangesLast {α : Type} (computation : Traced Event α) : Prop := computation.Settled changes Unsent

theorem ChangesLast.bind {α β : Type} {first : Traced Event α} {next : α → Traced Event β} (last : ChangesLast first)
    (unsent : ∀ value, first.result = .ok value → Traced.Every Unsent (next value)) : ChangesLast (first >>= next) :=
  Traced.Settled.bind unsent_unchanging last unsent

theorem exchange_last (sent : UpstreamRequest) : ChangesLast (exchange w sent) :=
  .bind (.emit _) fun _ _ => .bind (.lift _) fun response _ => .bind (.emit trivial) fun _ _ => .pure response

theorem authorizeAndForward_last {methodName : Str} (resolved : w.upstreamAuth = .ok authHeaders) :
    ChangesLast (authorizeAndForward w context methodName zoneId recordId body content authHeaders) := by
  refine .after (ofReads_unchanging.authorizeByIdLive resolved) fun decision _ => .after (.emit rfl) fun _ _ => ?_
  split
  · exact (Traced.Every.pure _).settled
  · exact (exchange_last _).bind fun _ _ => .pure _

theorem advisoryLock_last {α : Type} {name : Str} {inside : Traced Event α} (within : ChangesLast inside) :
    ChangesLast (advisoryLock w name inside) := by
  refine .after (.lift _) fun acquired _ => ?_
  split
  · refine .after (.emit rfl) fun _ _ => .ensuring unsent_unchanging within ?_
    exact .bind (.lift _) fun _ _ => .emit trivial
  · exact (Traced.Every.lift _).settled

theorem answerMutation_unsent {methodName : Str} {decision : AuthDecision} {upstream : Option Response} :
    Traced.Every Unsent (answerMutation context request methodName zoneId recordId decision upstream) := by
  unfold ProxyDns.answerMutation
  dsimp only
  split
  · exact .bind (.lift _) fun _ _ => .bind (.emit trivial) fun _ _ => .pure _
  · split
    · exact .lift _
    · exact .bind (.lift _) fun _ _ => .bind (.emit trivial) fun _ _ => .pure _

theorem attemptMutation_last {methodName : Str} (resolved : w.upstreamAuth = .ok authHeaders) :
    ChangesLast (attemptMutation w context methodName zoneId recordId body content authHeaders) := by
  have forwards : ChangesLast (authorizeAndForward w context methodName zoneId recordId body content authHeaders) :=
    authorizeAndForward_last resolved
  unfold attemptMutation
  split
  · exact forwards.bind fun _ _ => .pure _
  · refine .catching unsent_unchanging (ChangesLast.bind ?_ fun _ _ => .pure _) (.pure none)
    exact .after (.lift _) fun _ _ => advisoryLock_last forwards

theorem mutateDnsRecordById_last {methodName : Str} :
    ChangesLast (mutateDnsRecordById w context request methodName zoneId recordId body content) := by
  refine .after (.lift _) fun authHeaders resolved => (attemptMutation_last resolved).bind fun outcome _ => ?_
  split
  · exact .pure _
  · exact answerMutation_unsent

theorem createDnsRecord_last : ChangesLast (createDnsRecord w context request zoneId) := by
  refine .after (.lift _) fun body _ => .after (authorizeDnsRequest_every (.pure _)) fun decision _ => ?_
  refine .after (.emit rfl) fun _ _ => ?_
  split
  · exact .after (.lift _) fun _ _ => (Traced.Settled.emit _).bind unsent_unchanging fun _ _ => .pure _
  · refine .after (.lift _) fun authHeaders _ => (exchange_last _).bind fun response _ => ?_
    exact .bind (.lift _) fun _ _ => .bind (.emit trivial) fun _ _ => .pure _

theorem serve_last {fuel : Nat} (operation : Operation) :
    ChangesLast (serve w fuel context request zoneId recordId operation) := by
  cases operation with
  | list => exact ((ofReads_unchanging (w := w)).listDnsRecords).settled
  | create => exact createDnsRecord_last
  | get => exact ((ofReads_unchanging (w := w)).getDnsRecord).settled
  | patch => exact .after (.lift _) fun _ _ => mutateDnsRecordById_last
  | put => exact .after (.lift _) fun _ _ => mutateDnsRecordById_last
  | delete => exact mutateDnsRecordById_last

end Once

end

end CfProxy.ProxyDns
