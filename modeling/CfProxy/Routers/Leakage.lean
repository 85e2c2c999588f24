import CfProxy.Authz.Visibility
import CfProxy.Routers.ProxyDns

set_option autoImplicit false

namespace CfProxy.ProxyDns

open Text Scope Authorizer Client ListFilter Envelopes

structure ZoneState where
  records : List Json.Dict
  byId : Str → Option Json.Dict

-- The upstream answers from the zone's state: it fetches by id, and lists, in any pages, what the filters of a list
-- request select record by record.
structure Serves (w : World) (zoneId : Str) (selects : List (Str × Json) → Json.Dict → Bool)
    (state : ZoneState) : Prop where
  fetch : ∀ recordId authHeaders, ∃ response,
    w.reply (fetchRequest w zoneId recordId authHeaders) = .ok response ∧
      FetchReply response (state.byId recordId)
  list : ∀ params authHeaders, ∃ totalPages pages,
    PagesFrom w zoneId params authHeaders totalPages 1 pages ∧
      pages.flatten = (state.records.filter (selects params)).map .obj

structure Named (u : Unicode) (state : ZoneState) : Prop where
  records : ∀ record ∈ state.records, Canonicalisable u (Json.get record nameKey)
  byId : ∀ recordId image, state.byId recordId = some image → Canonicalisable u (Json.get image nameKey)

def Readable (u : Unicode) (rules : List ScopeRule) (zoneId : Str) (record : Json.Dict) : Prop :=
  Covers u rules zoneId (Json.get record nameKey) (Json.get record typeKey) (Json.get record idKey) .read

open Classical in
noncomputable def readableRecords (u : Unicode) (rules : List ScopeRule) (zoneId : Str)
    (records : List Json.Dict) : List Json.Dict :=
  records.filter fun record => decide (Readable u rules zoneId record)

theorem readableRecords_filter (u : Unicode) (rules : List ScopeRule) (zoneId : Str) (records : List Json.Dict)
    (p : Json.Dict → Bool) :
    readableRecords u rules zoneId (records.filter p) = (readableRecords u rules zoneId records).filter p := by
  simp only [readableRecords, List.filter_filter, Bool.and_comm]

theorem filterRecords_readable {u : Unicode} {rules : List ScopeRule} {zoneId : Str} {records : List Json.Dict}
    (patterns : CanonicalPatterns u rules)
    (named : ∀ record ∈ records, Canonicalisable u (Json.get record nameKey)) :
    filterRecords u rules zoneId (records.map .obj) =
      .ok ((readableRecords u rules zoneId records).map .obj) := by
  classical
  apply filterRecords_filter
  intro record member
  have matched : readable u rules zoneId (.obj record) = matchRules u rules zoneId (Json.get record nameKey)
      (Json.get record typeKey) (Json.get record idKey) .read := rfl
  rw [matched]
  rcases (matchRules_covers patterns (named record member) zoneId (Json.get record typeKey)
    (Json.get record idKey) .read).cases with ⟨covered, computed⟩ | ⟨uncovered, computed⟩
  · have kept : Readable u rules zoneId record := covered
    simp [computed, kept]
  · have dropped : ¬Readable u rules zoneId record := uncovered
    simp [computed, dropped]

section

variable {w : World} {zoneId : Str} {selects : List (Str × Json) → Json.Dict → Bool} {state : ZoneState}

theorem Serves.listed (serves : Serves w zoneId selects state) (params : List (Str × Json))
    (authHeaders : Headers) :
    ∃ enough, ∀ fuel, enough ≤ fuel →
      (listAllRecords w zoneId (some params) authHeaders fuel).result =
        .ok ((state.records.filter (selects params)).map .obj) := by
  obtain ⟨totalPages, pages, split, whole⟩ := serves.list params authHeaders
  refine ⟨pages.length, fun fuel enough => ?_⟩
  have collected := listPages_collects split fuel enough []
  rwa [List.nil_append, whole] at collected

theorem authorizeByIdLive_result (context : ProxyAuthContext) {method : Method} {op : Need}
    (byId : method.byIdOp = some op) (serves : Serves w zoneId selects state) (recordId : Str) (body : Json)
    (authHeaders : Headers) :
    (authorizeByIdLive w context method.name zoneId recordId body authHeaders).result =
      authorizeImage w.unicode context.rules method op
        (method.mutationOp.isSome && !isLockExempt context.rules zoneId (.str recordId) op) zoneId (some recordId)
        body ((state.byId recordId).elim .null .obj) := by
  obtain ⟨response, replied, reply⟩ := serves.fetch recordId authHeaders
  rw [authorizeByIdLive_shows byId replied reply]

def respond (decision : AuthDecision) : Except PyError ClientResponse :=
  if decision.allowed then .ok (makeCfResponse decision.preImage none)
  else (deniedWith decision).map fun error => makeCfError error.status error.code error.message

theorem getDnsRecord_result (context : ProxyAuthContext) (request : Request) (recordId : Str) :
    (getDnsRecord w context request zoneId recordId).result =
      w.upstreamAuth >>= fun authHeaders =>
        (authorizeByIdLive w context Method.get.name zoneId recordId .null authHeaders).result.map
          AuthDecision.shown >>= respond := by
  unfold getDnsRecord
  cases w.upstreamAuth with
  | error raised => rfl
  | ok authHeaders =>
    simp only [Except.ok_bind, Traced.bind_eq, Traced.lift, Traced.bind_ok]
    generalize authorizeByIdLive w context Method.get.name zoneId recordId .null authHeaders = decided
    rcases decided with ⟨events, raised | decision⟩
    · rfl
    · cases allowed : decision.allowed with
      | true => simp [Traced.emit, allowed, respond, AuthDecision.shown]
      | false =>
        cases stated : decision.error <;>
          simp [Traced.emit, allowed, respond, AuthDecision.shown, deniedWith, stated, recordAudit]

end

theorem authorizeByIdLive_same {w other : World} {zoneId recordId : Str}
    {selects : List (Str × Json) → Json.Dict → Bool} {left right : ZoneState} {context : ProxyAuthContext}
    {method : Method} {op : Need} (byId : method.byIdOp = some op) (leftServes : Serves w zoneId selects left)
    (rightServes : Serves other zoneId selects right) (unicode : other.unicode = w.unicode)
    (patterns : CanonicalPatterns w.unicode context.rules)
    (leftNamed : Named w.unicode left) (rightNamed : Named w.unicode right)
    (same : SameVisible w.unicode context.rules zoneId (some recordId) op (left.byId recordId) (right.byId recordId))
    (body : Json) (authHeaders : Headers) :
    (authorizeByIdLive w context method.name zoneId recordId body authHeaders).result.map AuthDecision.shown =
      (authorizeByIdLive other context method.name zoneId recordId body authHeaders).result.map
        AuthDecision.shown := by
  rw [authorizeByIdLive_result context byId leftServes, authorizeByIdLive_result context byId rightServes, unicode]
  exact authorizeImage_same patterns (leftNamed.byId recordId) (rightNamed.byId recordId) method op _ zoneId
    (some recordId) body same

def listAnswer (u : Unicode) (upstreamAuth : Except PyError Headers) (context : ProxyAuthContext)
    (request : Request) (zoneId : Str) (selects : List (Str × Json) → Json.Dict → Bool)
    (readable : List Json.Dict) : Except PyError ClientResponse := do
  let (page, perPage, params) ← popPagination u request.queryParams
  if !context.rules.any (·.zoneId == zoneId) then
    return makeCfResponse (.arr []) (some (paginateAndResultInfo [] page perPage).2)
  let _ ← upstreamAuth
  let (pageRecords, resultInfo) := paginateAndResultInfo ((readable.filter (selects params)).map .obj) page perPage
  return makeCfResponse (.arr pageRecords) (some resultInfo)

theorem listDnsRecords_result {w : World} {zoneId : Str} {selects : List (Str × Json) → Json.Dict → Bool}
    {state : ZoneState} {context : ProxyAuthContext} (serves : Serves w zoneId selects state)
    (patterns : CanonicalPatterns w.unicode context.rules) (named : Named w.unicode state) (request : Request) :
    ∃ enough, ∀ fuel, enough ≤ fuel → (listDnsRecords w fuel context request zoneId).result =
      listAnswer w.unicode w.upstreamAuth context request zoneId selects
        (readableRecords w.unicode context.rules zoneId state.records) := by
  unfold listDnsRecords listAnswer
  cases popPagination w.unicode request.queryParams with
  | error raised => exact ⟨0, fun _ _ => rfl⟩
  | ok paging =>
    obtain ⟨page, perPage, params⟩ := paging
    cases w.upstreamAuth with
    | error raised =>
      refine ⟨0, fun fuel _ => ?_⟩
      cases context.rules.any (·.zoneId == zoneId) <;> rfl
    | ok authHeaders =>
      obtain ⟨enough, collects⟩ := serves.listed params authHeaders
      refine ⟨enough, fun fuel bound => ?_⟩
      cases context.rules.any (·.zoneId == zoneId) with
      | false => rfl
      | true =>
        have selected : filterRecords w.unicode context.rules zoneId
            ((state.records.filter (selects params)).map .obj) =
              .ok (((readableRecords w.unicode context.rules zoneId state.records).filter (selects params)).map .obj) := by
          rw [← readableRecords_filter]
          exact filterRecords_readable patterns fun record member =>
            named.records record (List.mem_filter.mp member).1
        have collected := collects fuel bound
        rcases listing : listAllRecords w zoneId (some params) authHeaders fuel with ⟨events, result⟩
        rw [listing] at collected
        simp only at collected
        simp [Traced.lift, listing, collected, selected]

-- What two states show of a zone to a token that asks for one operation.
structure SameShown (u : Unicode) (rules : List ScopeRule) (zoneId : Str) (op : Need) (left right : ZoneState) :
    Prop where
  listed : op = .read → readableRecords u rules zoneId left.records = readableRecords u rules zoneId right.records
  fetched : ∀ recordId, SameVisible u rules zoneId (some recordId) op (left.byId recordId) (right.byId recordId)

def onePage (records : List Json.Dict) : Response where
  status := 200
  json := .ok (.obj [(resultKey, .arr (records.map .obj)), (resultInfoKey, .obj [(totalPagesKey, .num 1)])])

def foundById (image : Json.Dict) : Response where
  status := 200
  json := .ok (.obj [(resultKey, .obj image)])

-- An upstream that answers from the state of one zone: by id below the collection, and with a
-- single page that ignores all filters.
def replyFrom (zoneId : Str) (state : ZoneState) (request : UpstreamRequest) : Except PyError Response :=
  match request.params with
  | some _ => .ok (onePage state.records)
  | none => .ok ((state.byId (request.path.drop (recordPath zoneId []).length)).elim ⟨404, .ok .null⟩ foundById)

theorem onePage_listed (records : List Json.Dict) : ListReply (onePage records) (records.map .obj) 1 where
  success := ⟨by simp [onePage], by simp [onePage]⟩
  body := by
    have apart : (resultInfoKey == resultKey) = false := by decide
    refine ⟨[(resultKey, .arr (records.map .obj)), (resultInfoKey, .obj [(totalPagesKey, .num 1)])],
      [(totalPagesKey, .num 1)], rfl, ?_, ?_, ?_⟩
    · simp [Json.get]
    · simp [Json.get, List.lookup_cons, apart]
    · simp

theorem replyFrom_serves (w : World) (zoneId : Str) (state : ZoneState) :
    Serves (w.repliedBy (replyFrom zoneId state)) zoneId (fun _ _ => true) state where
  fetch recordId authHeaders := by
    have path : (recordPath zoneId recordId).drop (recordPath zoneId []).length = recordId := by
      have whole : recordPath zoneId recordId = recordPath zoneId [] ++ recordId := by simp [recordPath]
      rw [whole, List.drop_left]
    refine ⟨_, rfl, ?_, ?_⟩
    · intro missing
      simp [fetchRequest, path, missing]
    · intro image found
      have replied : (state.byId ((recordPath zoneId recordId).drop (recordPath zoneId []).length)).elim
          ⟨404, .ok .null⟩ foundById = foundById image := by
        rw [path, found]
        rfl
      simp only [fetchRequest, replied]
      exact ⟨by simp [foundById], by simp [foundById], _, rfl, by simp⟩
  list params authHeaders := by
    refine ⟨1, [state.records.map .obj], ?_, by simp⟩
    exact .last rfl (onePage_listed state.records) (le_refl 1)

def addressRecord (recordId name : Str) : Json.Dict :=
  [(idKey, .str recordId), (nameKey, .str name), (typeKey, .str ['A'])]

@[simp] theorem addressRecord_name (recordId name : Str) :
    Json.get (addressRecord recordId name) nameKey = .str name := by
  have apart : (nameKey == idKey) = false := by decide
  simp [addressRecord, Json.get, List.lookup_cons, apart]

def zoneOf (records : List (Str × Str)) : ZoneState where
  records := records.map fun record => addressRecord record.1 record.2
  byId recordId := (records.find? (·.1 == recordId)).map fun record => addressRecord record.1 record.2

theorem zoneOf_named {u : Unicode} {records : List (Str × Str)}
    (plain : ∀ record ∈ records, Canonicalisable u (.str record.2)) : Named u (zoneOf records) where
  records record member := by
    obtain ⟨listed, inside, rfl⟩ := List.mem_map.mp member
    simpa using plain listed inside
  byId recordId image found := by
    obtain ⟨listed, first, rfl⟩ := Option.map_eq_some_iff.mp found
    simpa using plain listed (List.mem_of_find?_eq_some first)

def ownName : Str := "a.example.com".toList
def otherName : Str := "b.example.com".toList

def ownRules : List ScopeRule := [.named ['z'] ownName exact ['A']]

theorem other_hidden (zoneId : Str) (rtype recordId : Json) (op : Need) :
    ¬Covers .asciiOnly ownRules zoneId (.str otherName) rtype recordId op := by
  rintro ⟨rule, member, covers⟩
  obtain rfl : rule = .named ['z'] ownName exact ['A'] := by simpa [ownRules] using member
  obtain ⟨labels, named, covered⟩ := covers.name ownName rfl
  have apart : canonicalNameLabels .asciiOnly (.str otherName) ≠ some (canonicalLabels .asciiOnly ownName) := by
    decide +kernel
  rcases covered with ⟨-, same⟩ | ⟨kind, -⟩
  · exact apart (by rw [named, ← same])
  · exact exact_ne_wildcard kind

theorem ownRules_canonical : CanonicalPatterns .asciiOnly ownRules := by
  intro rule member pattern present
  obtain rfl : rule = .named ['z'] ownName exact ['A'] := by simpa [ownRules] using member
  obtain rfl : ownName = pattern := by simpa [ScopeRule.named] using present
  exact ⟨_, normalizeFqdn_plain _ (by decide +kernel)⟩

def ownZone : ZoneState := zoneOf [(['1'], ownName)]
def sharedZone : ZoneState := zoneOf [(['1'], ownName), (['2'], otherName)]

theorem names_canonicalisable (name : Str) (named : name = ownName ∨ name = otherName) :
    Canonicalisable .asciiOnly (.str name) := by
  have plain : PlainName ownName ∧ PlainName otherName := by decide +kernel
  have fine : PlainName name := by rcases named with rfl | rfl <;> simp [plain]
  exact (canonicalisable_ascii (List.all_eq_true.mpr fine.ascii)).mpr ⟨_, normalizeFqdn_plain _ fine⟩

theorem sharedZone_shows (op : Need) : SameShown .asciiOnly ownRules ['z'] op sharedZone ownZone where
  listed _ := by
    have hidden : ¬Readable .asciiOnly ownRules ['z'] (addressRecord ['2'] otherName) := by
      simpa [Readable] using other_hidden ['z'] _ _ .read
    simp [sharedZone, ownZone, zoneOf, readableRecords, List.filter_cons, hidden]
  fetched recordId image visible := by
    have shown : image ≠ addressRecord ['2'] otherName := by
      rintro rfl
      exact other_hidden ['z'] _ _ op (by simpa using visible.2)
    by_cases first : recordId = ['1']
    · simp [sharedZone, ownZone, zoneOf, first]
    · by_cases second : recordId = ['2']
      · simp [sharedZone, ownZone, zoneOf, second, shown.symm]
      · simp [sharedZone, ownZone, zoneOf, Ne.symm first, Ne.symm second]

theorem existence_not_leaked (w : World) (leftReply rightReply : UpstreamRequest → Except PyError Response)
    (context : ProxyAuthContext) (zoneId : Str) (selects : List (Str × Json) → Json.Dict → Bool)
    (left right : ZoneState) (patterns : CanonicalPatterns w.unicode context.rules)
    (leftNamed : Named w.unicode left) (rightNamed : Named w.unicode right)
    (leftServes : Serves (w.repliedBy leftReply) zoneId selects left)
    (rightServes : Serves (w.repliedBy rightReply) zoneId selects right) :
    (SameShown w.unicode context.rules zoneId .read left right →
      (∀ request, ∃ enough, ∀ leftFuel rightFuel, enough ≤ leftFuel → enough ≤ rightFuel →
        (listDnsRecords (w.repliedBy leftReply) leftFuel context request zoneId).result =
          (listDnsRecords (w.repliedBy rightReply) rightFuel context request zoneId).result) ∧
      ∀ request recordId,
        (getDnsRecord (w.repliedBy leftReply) context request zoneId recordId).result =
          (getDnsRecord (w.repliedBy rightReply) context request zoneId recordId).result) ∧
    ∀ (method : Method) (op : Need), method.mutationOp = some op →
      SameShown w.unicode context.rules zoneId op left right → ∀ recordId body authHeaders,
        (authorizeByIdLive (w.repliedBy leftReply) context method.name zoneId recordId body
            authHeaders).result.map AuthDecision.shown =
          (authorizeByIdLive (w.repliedBy rightReply) context method.name zoneId recordId body
            authHeaders).result.map AuthDecision.shown := by
  refine ⟨fun same => ⟨fun request => ?_, fun request recordId => ?_⟩, ?_⟩
  · obtain ⟨leftEnough, leftLists⟩ := listDnsRecords_result leftServes patterns leftNamed request
    obtain ⟨rightEnough, rightLists⟩ := listDnsRecords_result rightServes patterns rightNamed request
    refine ⟨max leftEnough rightEnough, fun leftFuel rightFuel leftBound rightBound => ?_⟩
    rw [leftLists leftFuel (le_of_max_le_left leftBound), rightLists rightFuel (le_of_max_le_right rightBound)]
    simp only [World.repliedBy_unicode, World.repliedBy_upstreamAuth, same.listed rfl]
  · rw [getDnsRecord_result, getDnsRecord_result]
    refine congrArg (w.upstreamAuth >>= ·) (funext fun authHeaders => ?_)
    rw [authorizeByIdLive_same rfl leftServes rightServes rfl patterns leftNamed rightNamed (same.fetched recordId)]
  · intro method op mutates same recordId body authHeaders
    have byId : method.byIdOp = some op := by
      cases method <;> simp_all [Method.byIdOp, Method.mutationOp]
    exact authorizeByIdLive_same byId leftServes rightServes rfl patterns leftNamed rightNamed
      (same.fetched recordId) body authHeaders

theorem other_record_not_leaked :
    (getDnsRecord ((World.answering (replyFrom ['z'] ownZone)).repliedBy (replyFrom ['z'] sharedZone)) (.ofRules ownRules)
        (.ofJson .null) ['z'] ['2']).result =
      (getDnsRecord ((World.answering (replyFrom ['z'] ownZone)).repliedBy (replyFrom ['z'] ownZone)) (.ofRules ownRules)
        (.ofJson .null) ['z'] ['2']).result := by
  have sharedNamed : Named .asciiOnly sharedZone :=
    zoneOf_named fun record member => names_canonicalisable record.2 (by
      simp only [List.mem_cons, List.not_mem_nil, or_false] at member
      rcases member with rfl | rfl <;> simp)
  have ownNamed : Named .asciiOnly ownZone :=
    zoneOf_named fun record member => names_canonicalisable record.2 (.inl (by simp_all))
  have reads := (existence_not_leaked (World.answering (replyFrom ['z'] ownZone)) (replyFrom ['z'] sharedZone)
    (replyFrom ['z'] ownZone) (.ofRules ownRules) ['z'] (fun _ _ => true) sharedZone ownZone ownRules_canonical sharedNamed ownNamed
    (replyFrom_serves _ ['z'] sharedZone) (replyFrom_serves _ ['z'] ownZone)).1 (sharedZone_shows .read)
  exact reads.2 (.ofJson .null) ['2']

end CfProxy.ProxyDns
