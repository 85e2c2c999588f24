import CfProxy.Db.Models
import CfProxy.Routers.Leakage
import CfProxy.Shared.Paging

set_option autoImplicit false

namespace CfProxy.ProxyDns

open Text Scope Authorizer Client ListFilter Envelopes

def getAllowed (w : World) (context : ProxyAuthContext) (request : Request) (zoneId recordId : Str) : Bool :=
  (getDnsRecord w context request zoneId recordId).events.any fun
    | .decided allowed => allowed
    | _ => false

def readsById (w : World) (context : ProxyAuthContext) (request : Request) (zoneId : Str) (record : Json.Dict) :
    Bool :=
  match Json.get record idKey with
  | .str recordId => getAllowed w context request zoneId recordId
  | _ => false

def resultItems : Except PyError ClientResponse → List Json
  | .ok ⟨_, .obj fields⟩ => match Json.get fields resultKey with
    | .arr items => items
    | _ => []
  | _ => []

def resultInfo (key : Str) : Except PyError ClientResponse → Json
  | .ok ⟨_, .obj fields⟩ => match Json.get fields resultInfoKey with
    | .obj info => Json.get info key
    | _ => .null
  | _ => .null

structure Shown (w : World) (zoneId : Str) (authHeaders : Headers) (record : Json.Dict) : Prop where
  named : Canonicalisable w.unicode (Json.get record nameKey)
  located : InZone record zoneId
  byId : ∃ recordId response, Json.get record idKey = .str recordId ∧
    w.reply (fetchRequest w zoneId recordId authHeaders) = .ok response ∧ FetchReply response (some record)

structure Listed (w : World) (zoneId : Str) (params : List (Str × Json)) (authHeaders : Headers)
    (records : List Json.Dict) : Prop where
  shown : ∀ record ∈ records, Shown w zoneId authHeaders record
  distinct : (records.map (Json.get · idKey)).Nodup
  split : ∃ totalPages pages, PagesFrom w zoneId params authHeaders totalPages 1 pages ∧
    pages.flatten = records.map .obj

variable {w : World} {context : ProxyAuthContext} {zoneId : Str} {authHeaders : Headers}

theorem readable_byId {record : Json.Dict} (resolved : w.upstreamAuth = .ok authHeaders)
    (patterns : CanonicalPatterns w.unicode context.rules) (shown : Shown w zoneId authHeaders record)
    (request : Request) :
    readable w.unicode context.rules zoneId (.obj record) = .ok (readsById w context request zoneId record) := by
  obtain ⟨recordId, response, identified, replied, reply⟩ := shown.byId
  have here : inZone record zoneId = true := (inZone_iff record zoneId).mpr shown.located
  have covers := matchRules_covers patterns shown.named zoneId (Json.get record typeKey) (.str recordId) .read
  have asked : readable w.unicode context.rules zoneId (.obj record) =
      matchRules w.unicode context.rules zoneId (Json.get record nameKey) (Json.get record typeKey)
        (.str recordId) .read := by
    rw [← identified]
    rfl
  obtain ⟨verdict, matched, -⟩ := covers
  rw [asked, matched]
  have decided : authorizeByIdLive w context Method.get.name zoneId recordId .null authHeaders =
      ⟨[.sent (fetchRequest w zoneId recordId authHeaders),
          .received (fetchRequest w zoneId recordId authHeaders) response.status],
        .ok (if verdict then { allowed := true, preImage := .obj record } else
          { allowed := false, error := some recordMissing, preImage := .obj record })⟩ := by
    rw [authorizeByIdLive_shows rfl replied reply]
    cases verdict <;> simp [authorizeImage, here, matched, Json.ofOption, Method.mutationOp, Method.renames]
  unfold readsById getAllowed getDnsRecord
  rw [identified, resolved]
  cases verdict <;> simp [decided, Traced.lift, Traced.emit, deniedWith, recordAudit]

theorem readsById_zone {record : Json.Dict} (resolved : w.upstreamAuth = .ok authHeaders)
    (patterns : CanonicalPatterns w.unicode context.rules) (shown : Shown w zoneId authHeaders record)
    (request : Request) (reads : readsById w context request zoneId record = true) :
    context.rules.any (·.zoneId == zoneId) = true := by
  have computed := readable_byId resolved patterns shown request
  have covers := matchRules_covers patterns shown.named zoneId (Json.get record typeKey) (Json.get record idKey) .read
  rw [reads] at computed
  obtain ⟨rule, member, covered⟩ := covers.ok_true.mp computed
  exact List.any_eq_true.mpr ⟨rule, member, by simpa using covered.zone⟩

theorem listDnsRecords_readsById {params : List (Str × Json)} {records : List Json.Dict}
    (resolved : w.upstreamAuth = .ok authHeaders) (patterns : CanonicalPatterns w.unicode context.rules)
    (listed : Listed w zoneId params authHeaders records) (get : Request) :
    ∃ enough, ∀ fuel, enough ≤ fuel → ∀ (request : Request) (page perPage : Int),
      popPagination w.unicode request.queryParams = .ok (page, perPage, params) →
      let readable := (records.filter (readsById w context get zoneId)).map Json.obj
      (listDnsRecords w fuel context request zoneId).result =
        .ok (makeCfResponse (.arr (paginateAndResultInfo readable page perPage).1)
          (some (paginateAndResultInfo readable page perPage).2)) := by
  obtain ⟨totalPages, pages, split, whole⟩ := listed.split
  refine ⟨pages.length, fun fuel enough request page perPage asked => ?_⟩
  have collected := listPages_collects split fuel enough []
  have filtered : filterRecords w.unicode context.rules zoneId (records.map .obj) =
      .ok ((records.filter (readsById w context get zoneId)).map .obj) :=
    filterRecords_filter fun record member => readable_byId resolved patterns (listed.shown record member) get
  rw [List.nil_append, whole] at collected
  have listing : (listAllRecords w zoneId (some params) authHeaders fuel).result = .ok (records.map .obj) := collected
  unfold listDnsRecords
  rw [asked]
  cases inScope : context.rules.any (·.zoneId == zoneId) with
  | true =>
    rcases answered : listAllRecords w zoneId (some params) authHeaders fuel with ⟨events, result⟩
    rw [answered] at listing
    simp only at listing
    simp [Traced.lift, resolved, answered, listing, filtered]
  | false =>
    have hidden : records.filter (readsById w context get zoneId) = [] := by
      rw [List.filter_eq_nil_iff]
      intro record member reads
      have granted := readsById_zone resolved patterns (listed.shown record member) get reads
      simp [inScope] at granted
    simp [Traced.lift, hidden, paginateAndResultInfo, slice]

-- A parameter of the query as the client writes it, or leaves it out.
inductive Spelled (default : Nat) : Option Str → Nat → Prop
  | absent : Spelled default none default
  | empty : Spelled default (some []) default
  | written {text : Str} {value : Nat} (decimal : Decimal text value) : Spelled default (some text) value

-- A list request for a page, with the parameters that are passed on to the upstream.
structure Asks (page perPage : Nat) (filters : List (Str × Str)) (request : Request) : Prop where
  page : Spelled 1 (request.queryParams.lookup "page".toList) page
  perPage : Spelled 20 (request.queryParams.lookup "per_page".toList) perPage
  filters : request.queryParams.filter (fun param => param.1 ≠ "page".toList ∧ param.1 ≠ "per_page".toList) = filters

def passedOn (filters : List (Str × Str)) : List (Str × Json) := filters.map fun param => (param.1, .str param.2)

theorem pagingParam_spelled {u : Unicode} {queryParams : List (Str × Str)} {key : Str} {default value : Nat}
    (spelled : Spelled default (queryParams.lookup key) value) :
    pagingParam u queryParams key default = .ok (value : Int) := by
  unfold pagingParam
  generalize queryParams.lookup key = given at spelled
  cases spelled with
  | absent => rfl
  | empty => rfl
  | @written text value decimal =>
    obtain ⟨first, rest, rfl⟩ := List.exists_cons_of_ne_nil decimal.written
    simp only [parseInt_decimal u decimal]

theorem popPagination_asks {u : Unicode} {page perPage : Nat} {filters : List (Str × Str)} {request : Request}
    (asks : Asks page perPage filters request) :
    popPagination u request.queryParams = .ok ((page : Int), (perPage : Int), passedOn filters) := by
  unfold popPagination
  have first : pagingParam u request.queryParams "page".toList 1 = .ok (page : Int) := pagingParam_spelled asks.page
  have size : pagingParam u request.queryParams "per_page".toList 20 = .ok (perPage : Int) :=
    pagingParam_spelled asks.perPage
  rw [first, size, asks.filters]
  rfl

theorem paginate_page (records : List Json) {size : Nat} (positive : 0 < size) :
    ∃ totalPages : Nat, IsLeast {pages : Nat | records.length ≤ pages * size} totalPages ∧ ∀ index : Nat,
      let items := Paging.page size records index
      paginateAndResultInfo records (index + 1) size =
        (items, .obj [("page".toList, .num (index + 1)), ("per_page".toList, .num size),
          ("count".toList, .num items.length), ("total_count".toList, .num records.length),
          ("total_pages".toList, .num totalPages)]) := by
  obtain ⟨totalPages, rounded, least⟩ := Paging.ceiling_least records.length positive
  refine ⟨totalPages, least, fun index => ?_⟩
  have paged : (0 : Int) < size := by omega
  simp only [paginateAndResultInfo, Paging.slice_page, paged, if_true, rounded]
  simp

theorem resultItems_page (items : List Json) (info : Option Json) :
    resultItems (.ok (makeCfResponse (.arr items) info)) = items := by
  cases info <;> rfl

theorem resultInfo_page (items : List Json) (info : Json.Dict) (key : Str) :
    resultInfo key (.ok (makeCfResponse (.arr items) (some (.obj info)))) = Json.get info key := rfl

-- The pages of a list are the records that can be read one by one, in the order of the upstream.
theorem list_agrees_with_get (w : World) (context : ProxyAuthContext) (zoneId : Str) (authHeaders : Headers)
    (filters : List (Str × Str)) (records : List Json.Dict) (get : Request) (perPage : Nat)
    (resolved : w.upstreamAuth = .ok authHeaders) (patterns : CanonicalPatterns w.unicode context.rules)
    (listed : Listed w zoneId (passedOn filters) authHeaders records) (positive : 1 ≤ perPage) :
    let allowed := records.filter (readsById w context get zoneId)
    (allowed.map (Json.get · idKey)).Nodup ∧
    ∃ enough totalPages : Nat, IsLeast {pages : Nat | allowed.length ≤ pages * perPage} totalPages ∧
      ∀ fuel, enough ≤ fuel →
        let answer := fun request => (listDnsRecords w fuel context request zoneId).result
        (∀ (request : Request) (page : Nat), 1 ≤ page → Asks page perPage filters request →
          (∃ response, answer request = .ok response ∧ response.status = 200) ∧
          resultInfo "total_pages".toList (answer request) = .num totalPages ∧
          resultInfo "count".toList (answer request) = .num (resultItems (answer request)).length ∧
          (resultItems (answer request)).length ≤ perPage ∧
          resultInfo "total_count".toList (answer request) = .num allowed.length) ∧
        ∀ ask : Nat → Request, (∀ page, 1 ≤ page → page ≤ totalPages → Asks page perPage filters (ask page)) →
          (List.range totalPages).flatMap (fun index => resultItems (answer (ask (index + 1)))) =
            allowed.map .obj := by
  intro allowed
  have unrepeated : (allowed.map (Json.get · idKey)).Nodup :=
    listed.distinct.sublist (List.filter_sublist.map _)
  obtain ⟨enough, answers⟩ := listDnsRecords_readsById resolved patterns listed get
  obtain ⟨totalPages, least, paged⟩ := paginate_page (allowed.map .obj) (by omega : 0 < perPage)
  have total : (allowed.map Json.obj).length = allowed.length := List.length_map _
  refine ⟨unrepeated, enough, totalPages, total ▸ least, fun fuel bound => ?_⟩
  intro answer
  -- One page, with the index that Python counts from one.
  have answered : ∀ (request : Request) (index : Nat), Asks (index + 1) perPage filters request →
      answer request = .ok (makeCfResponse (.arr (paginateAndResultInfo (allowed.map .obj) (index + 1) perPage).1)
        (some (paginateAndResultInfo (allowed.map .obj) (index + 1) perPage).2)) :=
    fun request index asks => answers fuel bound request (index + 1) perPage (popPagination_asks asks)
  constructor
  · intro request page first asks
    obtain ⟨index, rfl⟩ : ∃ index : Nat, page = index + 1 := ⟨page - 1, by omega⟩
    rw [answered request index asks, paged index]
    refine ⟨⟨_, rfl, rfl⟩, ?_, ?_, ?_, ?_⟩
    · rw [resultInfo_page]
      rfl
    · rw [resultInfo_page, resultItems_page]
      rfl
    · rw [resultItems_page]
      exact Paging.page_length_le perPage _ index
    · rw [resultInfo_page, ← total]
      rfl
  · intro ask asks
    have pages : ∀ index ∈ List.range totalPages,
        resultItems (answer (ask (index + 1))) = Paging.page perPage (allowed.map .obj) index := by
      intro index member
      have asked := asks (index + 1) (by omega) (List.mem_range.mp member)
      rw [answered (ask (index + 1)) index asked, paged index, resultItems_page]
    rw [List.flatMap_congr pages, Paging.pages_whole least.1]

theorem zoneOf_listed {records : List (Str × Str)} (zoneId : Str) (params : List (Str × Json)) (authHeaders : Headers)
    (named : ∀ record ∈ records, Canonicalisable .asciiOnly (.str record.2))
    (distinct : (records.map (·.1)).Nodup) :
    Listed (World.answering (replyFrom zoneId (zoneOf records))) zoneId params authHeaders (zoneOf records).records := by
  have serves : Serves (World.answering (replyFrom zoneId (zoneOf records))) zoneId (fun _ _ => true)
      (zoneOf records) := replyFrom_serves (World.answering (replyFrom zoneId (zoneOf records))) zoneId _
  constructor
  · intro record member
    obtain ⟨⟨recordId, name⟩, inside, rfl⟩ := List.mem_map.mp member
    obtain ⟨response, replied, reply⟩ := serves.fetch recordId authHeaders
    have found : records.find? (·.1 == recordId) = some (recordId, name) := Models.find?_unique distinct inside
    refine ⟨?_, .inl rfl, recordId, response, rfl, replied, ?_⟩
    · rw [addressRecord_name]
      exact named (recordId, name) inside
    · simpa [zoneOf, found] using reply
  · have ids : (zoneOf records).records.map (Json.get · idKey) = (records.map (·.1)).map .str := by
      simp [zoneOf, addressRecord, Json.get]
    rw [ids]
    exact distinct.map fun _ _ same => Json.str.inj same
  · simpa using serves.list params authHeaders

-- Two records, asked for one by one with a filter.

def bothRules : List ScopeRule := [.named ['z'] ownName exact ['A'], .named ['z'] otherName exact ['A']]

theorem bothRules_canonical : CanonicalPatterns .asciiOnly bothRules := by
  have plain : PlainName ownName ∧ PlainName otherName := by decide +kernel
  intro rule member pattern present
  have named : pattern = ownName ∨ pattern = otherName := by
    simp only [bothRules, List.mem_cons, List.not_mem_nil, or_false] at member
    rcases member with rfl | rfl
    · exact .inl (by simpa [ScopeRule.named] using present.symm)
    · exact .inr (by simpa [ScopeRule.named] using present.symm)
  have fine : PlainName pattern := by rcases named with rfl | rfl <;> simp [plain]
  exact ⟨_, normalizeFqdn_plain _ fine⟩

def addressFilter : List (Str × Str) := [("type".toList, ['A'])]

def askedPage (page : Nat) : Request := { Request.ofJson .null with
  queryParams := [("page".toList, Nat.toDigits 10 page), ("type".toList, ['A']), ("per_page".toList, ['1'])] }

theorem askedPage_asks {page : Nat} (among : page = 1 ∨ page = 2) : Asks page 1 addressFilter (askedPage page) := by
  rcases among with rfl | rfl <;>
    exact ⟨.written ⟨by decide, by decide, by decide, by decide⟩, .written ⟨by decide, by decide, by decide, by decide⟩, rfl⟩

theorem two_pages_whole :
    let w := World.answering (replyFrom ['z'] sharedZone)
    ∃ enough, ∀ fuel, enough ≤ fuel →
      let page := fun index => resultItems (listDnsRecords w fuel (.ofRules bothRules) (askedPage index) ['z']).result
      (page 1).length = 1 ∧ (page 2).length = 1 ∧ page 1 ++ page 2 = sharedZone.records.map .obj := by
  intro w
  have listed : Listed w ['z'] (passedOn addressFilter) [] sharedZone.records :=
    zoneOf_listed ['z'] _ [] (fun record member => names_canonicalisable record.2 (by
      simp only [List.mem_cons, List.not_mem_nil, or_false] at member
      rcases member with rfl | rfl <;> simp)) (by decide)
  obtain ⟨-, enough, totalPages, least, pages⟩ := list_agrees_with_get w (.ofRules bothRules) ['z'] [] addressFilter
    sharedZone.records (.ofJson .null) 1 rfl bothRules_canonical listed (le_refl 1)
  have both : sharedZone.records.filter (readsById w (.ofRules bothRules) (.ofJson .null) ['z']) = sharedZone.records := by
    rw [List.filter_eq_self]
    decide +kernel
  rw [both] at least pages
  have two : sharedZone.records.length = 2 := by decide
  obtain rfl : totalPages = 2 := by
    rw [two] at least
    exact least.unique ⟨by decide, fun other holds => by simpa using holds⟩
  have halves (first second : List Json) (firstShort : first.length ≤ 1) (secondShort : second.length ≤ 1)
      (joined : first ++ second = sharedZone.records.map .obj) :
      first.length = 1 ∧ second.length = 1 ∧ first ++ second = sharedZone.records.map .obj := by
    have lengths := congrArg List.length joined
    rw [List.length_append, List.length_map, two] at lengths
    exact ⟨by omega, by omega, joined⟩
  refine ⟨enough, fun fuel bound => ?_⟩
  obtain ⟨each, whole⟩ := pages fuel bound
  obtain ⟨-, -, -, first, -⟩ := each (askedPage 1) 1 le_rfl (askedPage_asks (.inl rfl))
  obtain ⟨-, -, -, second, -⟩ := each (askedPage 2) 2 (by decide) (askedPage_asks (.inr rfl))
  have joined := whole askedPage fun page least most => askedPage_asks (by omega)
  exact halves _ _ first second (by simpa [List.range_succ] using joined)

end CfProxy.ProxyDns
