import Mathlib.Algebra.Order.Ring.Rat
import Mathlib.Data.Int.Cast.Lemmas
import Mathlib.Algebra.Order.Ring.Cast
import CfProxy.Routers.ProxyDns
import CfProxy.Services.Tenants
import CfProxy.Shared.PageLoop
import CfProxy.Upstream.Replies

set_option autoImplicit false

namespace CfProxy.Truncation

open Models Cache Client Envelopes ListFilter ProxyDns CredentialService

def zoneRequest (w : World) (params : List (Str × Json)) (authHeaders : Headers) (page : Nat) : UpstreamRequest where
  method := getMethod
  path := zonesPath
  headers := forwardedHeaders w.unicode none authHeaders
  params := some (zonePageParams params page)
  content := none

def credentialZoneRequest (w : World) (authHeaders : Headers) (page : Nat) : UpstreamRequest where
  method := getMethod
  path := zonesPath
  headers := forwardedHeaders w.unicode none authHeaders
  params := some (credentialZoneParams page)
  content := none

def successKey : Str := "success".toList

abbrev Read := Response → Nat → Except PyError (Option (List Json × Bool))

def zonesRead : Read := fun response page => do
  let body ← response.json
  if 400 ≤ response.status then return none
  let success ← body.getAttr successKey
  if !success.truthy then return none
  return some (← readPage body page)

def strictRead : Read := fun response page => do
  raiseForStatus response
  let body ← response.json
  return some (← readPage body page)

def fetchPage (w : World) (request : Nat → UpstreamRequest) (read : Read) (page : Nat) :
    Traced Event (Option (List Json × Bool)) := do
  let response ← exchange w (request page)
  Traced.lift (read response page)

abbrev pageLoop (w : World) (request : Nat → UpstreamRequest) (read : Read) :
    Nat → Nat → List Json → Traced Event (List Json) :=
  PageLoop.collect stillRunning (fetchPage w request read)

theorem zonePages_pageLoop (w : World) (params : List (Str × Json)) (authHeaders : Headers) (fuel page : Nat)
    (zones : List Json) :
    zonePages w params authHeaders fuel page zones =
      pageLoop w (zoneRequest w params authHeaders) zonesRead fuel page zones := by
  induction fuel generalizing page zones with
  | zero => rfl
  | succ fuel ih =>
    have exchanged : forwardRequest w getMethod zonesPath none (some (zonePageParams params page)) none authHeaders =
        exchange w (zoneRequest w params authHeaders page) := rfl
    have key : "success".toList = successKey := rfl
    rw [zonePages, exchanged, key, pageLoop, PageLoop.collect, fetchPage]
    rcases exchange w (zoneRequest w params authHeaders page) with ⟨events, raised | response⟩
    · rfl
    cases parsed : response.json with
    | error raised => simp [zonesRead, parsed, Traced.lift]
    | ok body =>
      by_cases refused : 400 ≤ response.status
      · simp [zonesRead, parsed, refused, Traced.lift]
      cases asked : body.getAttr successKey with
      | error raised => simp [zonesRead, parsed, refused, asked, Traced.lift]
      | ok success =>
        cases claimed : success.truthy with
        | false => simp [zonesRead, parsed, refused, asked, claimed, Traced.lift]
        | true =>
          rcases read : readPage body page with raised | ⟨items, isLast⟩
          · simp [zonesRead, parsed, refused, asked, claimed, read, Traced.lift]
          · simp [zonesRead, parsed, refused, asked, claimed, read, Traced.lift, ih]

-- Both loops that raise for an error status are of this shape.
theorem strict_collects {w : World} {request : Nat → UpstreamRequest}
    {loop : Nat → Nat → List Json → Traced Event (List Json)}
    (stuck : ∀ page found, loop 0 page found = Traced.raise stillRunning)
    (round : ∀ fuel page found, loop (fuel + 1) page found = do
      let response ← exchange w (request page)
      Traced.lift (raiseForStatus response)
      let body ← Traced.lift response.json
      let (items, isLast) ← Traced.lift (readPage body page)
      if isLast then return found ++ items
      loop fuel (page + 1) (found ++ items)) (fuel page : Nat) (found : List Json) :
    loop fuel page found = pageLoop w request strictRead fuel page found := by
  induction fuel generalizing page found with
  | zero => rw [stuck, pageLoop, PageLoop.collect]
  | succ fuel ih =>
    rw [round, pageLoop, PageLoop.collect, fetchPage]
    rcases exchange w (request page) with ⟨events, raised | response⟩
    · rfl
    rcases accepted : raiseForStatus response with raised | ⟨⟩
    · simp [strictRead, accepted, Traced.lift]
    rcases parsed : response.json with raised | body
    · simp [strictRead, accepted, parsed, Traced.lift]
    rcases read : readPage body page with raised | ⟨items, isLast⟩
    · simp [strictRead, accepted, parsed, read, Traced.lift]
    · simp [strictRead, accepted, parsed, read, Traced.lift, ih]

theorem credentialZonePages_pageLoop (w : World) (authHeaders : Headers) (fuel page : Nat) (zones : List Json) :
    credentialZonePages w authHeaders fuel page zones =
      pageLoop w (credentialZoneRequest w authHeaders) strictRead fuel page zones :=
  strict_collects (fun _ _ => rfl) (fun _ _ _ => rfl) fuel page zones

theorem listPages_pageLoop (w : World) (zoneId : Str) (params : List (Str × Json)) (authHeaders : Headers)
    (fuel page : Nat) (records : List Json) :
    listPages w zoneId params authHeaders fuel page records =
      pageLoop w (pageRequest w zoneId params authHeaders) strictRead fuel page records :=
  strict_collects (fun _ _ => rfl) (fun _ _ _ => rfl) fuel page records

structure GoodPage (response : Response) (items : List Json) (totalPages : Int) : Prop where
  status : 200 ≤ response.status ∧ response.status ≤ 299
  body : ∃ fields info, response.json = .ok (.obj fields) ∧ Json.get fields successKey = .bool true ∧
    Json.get fields resultKey = .arr items ∧ Json.get fields resultInfoKey = .obj info ∧
    info.lookup totalPagesKey = some (.num totalPages)

def FailedPage (response : Response) : Prop :=
  400 ≤ response.status ∨ ∃ fields, response.json = .ok (.obj fields) ∧ Json.get fields successKey = .bool false

def Unreadable (response : Response) : Prop := 400 ≤ response.status ∧ ∃ raised, response.json = .error raised

-- What the two ways of reading a page have in common.
structure Reads (read : Read) : Prop where
  good : ∀ {response items totalPages}, GoodPage response items totalPages → ∀ page : Nat,
    read response page = .ok (some (items, decide (totalPages ≤ page)))
  unreadable : ∀ {response}, Unreadable response → ∀ page, ∃ raised, read response page = .error raised

theorem GoodPage.readPage {response : Response} {items : List Json} {totalPages : Int}
    (good : GoodPage response items totalPages) (page : Nat) :
    ∃ fields, response.json = .ok (.obj fields) ∧ Json.get fields successKey = .bool true ∧
      Client.readPage (.obj fields) page = .ok (items, decide (totalPages ≤ page)) := by
  obtain ⟨fields, info, parsed, success, result, resultInfo, total⟩ := good.body
  refine ⟨fields, parsed, success, ?_⟩
  have nonempty : info ≠ [] := by
    intro empty
    simp [empty] at total
  have whole : ((totalPages : Rat) ≤ (page : Rat)) ↔ totalPages ≤ (page : Int) := by exact_mod_cast Iff.rfl
  simp [Client.readPage, Json.getAttr, result, resultInfo, iterate_arr, nonempty, Json.getD, total, Json.number, whole]

theorem zonesRead_reads : Reads zonesRead where
  good := by
    intro response items totalPages good page
    obtain ⟨fields, parsed, success, read⟩ := good.readPage page
    have below : response.status ≤ 299 := good.status.2
    have accepted : ¬400 ≤ response.status := by omega
    have asked : (Json.obj fields).getAttr successKey = .ok (.bool true) := by
      rw [← success]
      rfl
    simp [zonesRead, parsed, accepted, asked, read, Json.truthy]
  unreadable := by
    rintro response ⟨-, raised, parsed⟩ page
    exact ⟨raised, by simp [zonesRead, parsed]⟩

theorem strictRead_reads : Reads strictRead where
  good := by
    intro response items totalPages good page
    obtain ⟨fields, parsed, -, read⟩ := good.readPage page
    simp [strictRead, raiseForStatus, good.status, parsed, read]
  unreadable := by
    rintro response ⟨refused, -⟩ page
    have rejected : raiseForStatus response = .error httpStatusError := if_neg (by omega)
    exact ⟨httpStatusError, by simp [strictRead, rejected]⟩

theorem zonesRead_failed {response : Response} (failed : FailedPage response) (readable : ¬Unreadable response)
    (page : Nat) : zonesRead response page = .ok none := by
  rcases parsed : response.json with raised | body
  · rcases failed with refused | ⟨fields, decoded, -⟩
    · exact absurd ⟨refused, raised, parsed⟩ readable
    · rw [parsed] at decoded
      cases decoded
  by_cases refused : 400 ≤ response.status
  · simp [zonesRead, parsed, refused]
  obtain ⟨fields, decoded, success⟩ := failed.resolve_left refused
  obtain rfl : body = .obj fields := by
    rw [parsed] at decoded
    exact Except.ok.inj decoded
  have asked : (Json.obj fields).getAttr successKey = .ok (.bool false) := by
    rw [← success]
    rfl
  simp [zonesRead, parsed, refused, asked, Json.truthy]

theorem GoodPage.not_failed {response : Response} {items : List Json} {totalPages : Int}
    (good : GoodPage response items totalPages) : ¬FailedPage response := by
  obtain ⟨fields, parsed, success, -⟩ := good.readPage 0
  have below : response.status ≤ 299 := good.status.2
  rintro (refused | ⟨others, decoded, failure⟩)
  · omega
  · rw [parsed] at decoded
    cases decoded
    simp [success] at failure

-- `max(1, total_pages)`.
def pageCount (totalPages : Int) : Nat := (max 1 totalPages).toNat

theorem pageCount_le_iff (totalPages : Int) {page : Nat} (numbered : 1 ≤ page) :
    pageCount totalPages ≤ page ↔ totalPages ≤ page := by
  unfold pageCount
  omega

def Served (w : World) (request : Nat → UpstreamRequest) (replies : Nat → Response) (count : Nat) : Prop :=
  ∀ page, 1 ≤ page → page ≤ count → w.reply (request page) = .ok (replies page)

def GoodPages (replies : Nat → Response) (totalPages : Int) (pages : List (List Json)) : Prop :=
  ∀ index, ∀ inside : index < pages.length, GoodPage (replies (index + 1)) pages[index] totalPages

theorem GoodPages.not_failed {replies : Nat → Response} {totalPages : Int} {pages : List (List Json)}
    (good : GoodPages replies totalPages pages) {page : Nat} (low : 1 ≤ page) (high : page ≤ pages.length) :
    ¬FailedPage (replies page) := by
  obtain ⟨index, rfl⟩ := Nat.exists_eq_add_of_le' low
  exact (good index (by omega)).not_failed

def exchanged (request : Nat → UpstreamRequest) (replies : Nat → Response) (page : Nat) : List Event :=
  [.sent (request page), .received (request page) (replies page).status]

def asked (events : List Event) : List UpstreamRequest :=
  events.filterMap fun
    | .sent request => some request
    | _ => none

theorem asked_exchanged (request : Nat → UpstreamRequest) (replies : Nat → Response) (pages : List Nat) :
    asked (pages.flatMap (exchanged request replies)) = pages.map request := by
  induction pages with
  | nil => rfl
  | cons page rest ih => simpa [asked, exchanged] using ih

section

variable {w : World} {request : Nat → UpstreamRequest} {replies : Nat → Response} {read : Read} {totalPages : Int}
variable {pages : List (List Json)} {fuel : Nat}

theorem fetchPage_served (served : Served w request replies (pageCount totalPages)) {page : Nat}
    (numbered : 1 ≤ page) (within : page ≤ pageCount totalPages) :
    fetchPage w request read page = ⟨exchanged request replies page, read (replies page) page⟩ := by
  rw [fetchPage, exchange_replied (served page numbered within)]
  simp [Traced.lift, exchanged]

theorem pageLoop_reaches (reads : Reads read) (served : Served w request replies (pageCount totalPages))
    (good : GoodPages replies totalPages pages) (within : pages.length < pageCount totalPages)
    (enough : pageCount totalPages ≤ fuel) :
    ∃ rounds, pageLoop w request read fuel 1 [] =
      ⟨(List.range' 1 pages.length).flatMap (exchanged request replies) ++
          (pageLoop w request read (rounds + 1) (pages.length + 1) pages.flatten).events,
        (pageLoop w request read (rounds + 1) (pages.length + 1) pages.flatten).result⟩ := by
  have further : ∀ index, ∀ inside : index < pages.length, fetchPage w request read (1 + index) =
      ⟨exchanged request replies (1 + index), .ok (some (pages[index], false))⟩ := by
    intro index inside
    have more : ¬totalPages ≤ (index + 1 : Nat) := by
      rw [← pageCount_le_iff totalPages (by omega)]
      omega
    rw [fetchPage_served served (by omega) (by omega), Nat.add_comm 1, reads.good (good index inside),
      decide_eq_false more]
  obtain ⟨rounds, rfl⟩ : ∃ rounds, fuel = rounds + 1 + pages.length :=
    ⟨fuel - pages.length - 1, by omega⟩
  refine ⟨rounds, ?_⟩
  rw [pageLoop, PageLoop.collect_after further, List.nil_append, Nat.add_comm 1 pages.length]

theorem pageLoop_complete (reads : Reads read) (served : Served w request replies (pageCount totalPages))
    (good : GoodPages replies totalPages pages) (whole : pages.length = pageCount totalPages)
    (enough : pageCount totalPages ≤ fuel) :
    (pageLoop w request read fuel 1 []).result = .ok pages.flatten ∧
      asked (pageLoop w request read fuel 1 []).events = (List.range' 1 (pageCount totalPages)).map request := by
  have count : 1 ≤ pageCount totalPages := by
    unfold pageCount
    omega
  obtain ⟨earlier, items, rfl⟩ : ∃ earlier items, pages = earlier ++ [items] :=
    ⟨pages.dropLast, pages.getLast (List.ne_nil_of_length_pos (by omega)), (List.dropLast_append_getLast _).symm⟩
  have length : pageCount totalPages = earlier.length + 1 := by simpa using whole.symm
  have before : GoodPages replies totalPages earlier := by
    intro index inside
    have page := good index (by simp; omega)
    rwa [List.getElem_append_left inside] at page
  have last : GoodPage (replies (earlier.length + 1)) items totalPages := by
    simpa using good earlier.length (by simp)
  obtain ⟨rounds, reached⟩ := pageLoop_reaches reads served before (by omega) enough
  have finished : totalPages ≤ (earlier.length + 1 : Nat) := by
    rw [← pageCount_le_iff totalPages (by omega)]
    omega
  have ended : pageLoop w request read (rounds + 1) (earlier.length + 1) earlier.flatten =
      ⟨exchanged request replies (earlier.length + 1), .ok (earlier.flatten ++ items)⟩ := by
    apply PageLoop.collect_last
    rw [fetchPage_served served (by omega) (by omega), reads.good last, decide_eq_true finished]
  rw [reached, ended, length]
  constructor
  · simp
  · have requests := asked_exchanged request replies (List.range' 1 (earlier.length + 1))
    simpa [List.range'_1_concat, Nat.add_comm 1] using requests

theorem pageLoop_decided (reads : Reads read) (served : Served w request replies (pageCount totalPages))
    (good : GoodPages replies totalPages pages) (within : pages.length < pageCount totalPages)
    (enough : pageCount totalPages ≤ fuel) :
    (∀ raised, read (replies (pages.length + 1)) (pages.length + 1) = .error raised →
        (pageLoop w request read fuel 1 []).result = .error raised) ∧
      (read (replies (pages.length + 1)) (pages.length + 1) = .ok none →
        (pageLoop w request read fuel 1 []).result = .ok pages.flatten) := by
  obtain ⟨rounds, reached⟩ := pageLoop_reaches reads served good within enough
  have fetched := @fetchPage_served w request replies read totalPages served (pages.length + 1) (by omega) (by omega)
  rw [reached]
  constructor
  · intro raised failed
    rw [failed] at fetched
    simp [pageLoop, PageLoop.collect_raises rounds pages.flatten fetched]
  · intro stopped
    rw [stopped] at fetched
    simp [pageLoop, PageLoop.collect_stops rounds pages.flatten fetched]

end

theorem graded_prefix {replies : Nat → Response} {totalPages : Int} (count : Nat)
    (graded : ∀ page, 1 ≤ page → page ≤ count →
      (∃ items, GoodPage (replies page) items totalPages) ∨ FailedPage (replies page)) :
    ∃ pages, GoodPages replies totalPages pages ∧
      (pages.length = count ∨ pages.length < count ∧ FailedPage (replies (pages.length + 1))) := by
  induction count with
  | zero => exact ⟨[], fun index inside => by simp at inside, .inl rfl⟩
  | succ count ih =>
    obtain ⟨pages, good, all | ⟨within, failed⟩⟩ := ih fun page low high => graded page low (by omega)
    · rcases graded (pages.length + 1) (by omega) (by omega) with ⟨items, next⟩ | failed
      · refine ⟨pages ++ [items], ?_, .inl (by simp [all])⟩
        intro index inside
        rcases Nat.lt_or_ge index pages.length with earlier | later
        · rw [List.getElem_append_left earlier]
          exact good index earlier
        · obtain rfl : index = pages.length := by
            simp at inside
            omega
          simpa using next
      · exact ⟨pages, good, .inr ⟨by omega, failed⟩⟩
    · exact ⟨pages, good, .inr ⟨by omega, failed⟩⟩

-- The three lists, asked of one upstream. `between` is the store once the credential's headers are resolved.
structure Listings where
  w : World
  d : Deployment
  env : Env
  fuel : Nat
  s : Store
  between : Store
  userId : Str
  credential : UpstreamCredential
  authHeaders : Headers
  zoneId : Str
  zoneParams : List (Str × Json)
  recordParams : List (Str × Json)

namespace Listings

def zones (l : Listings) : Traced Event (List Json) := fetchAllZones l.w l.fuel l.authHeaders l.zoneParams

def credentialZones (l : Listings) : Traced Event (List Json) :=
  credentialZonePages (l.env.world l.d) l.authHeaders l.env.fuel 1 []

def records (l : Listings) : Traced Event (List Json) :=
  listAllRecords l.w l.zoneId (some l.recordParams) l.authHeaders l.fuel

structure Answered (l : Listings) (replies : Nat → Response) (totalPages : Int) : Prop where
  owned : l.s.db.ownedCredential l.userId l.credential.id = some l.credential
  uncached : l.s.cache (zonesKey l.credential.id) = none
  resolved : resolveUpstreamAuth l.d l.env l.credential l.s = (.ok l.authHeaders, l.between)
  zones : Served l.w (zoneRequest l.w l.zoneParams l.authHeaders) replies (pageCount totalPages)
  credentialZones : Served (l.env.world l.d) (credentialZoneRequest (l.env.world l.d) l.authHeaders) replies
    (pageCount totalPages)
  records : Served l.w (pageRequest l.w l.zoneId l.recordParams l.authHeaders) replies (pageCount totalPages)
  graded : ∀ page, 1 ≤ page → page ≤ pageCount totalPages →
    (∃ items, GoodPage (replies page) items totalPages) ∨ FailedPage (replies page)
  enough : pageCount totalPages ≤ l.fuel ∧ pageCount totalPages ≤ l.env.fuel

structure Collected (loop : Traced Event (List Json)) (request : Nat → UpstreamRequest) (totalPages : Int)
    (items : List Json) : Prop where
  result : loop.result = .ok items
  requests : asked loop.events = (List.range' 1 (pageCount totalPages)).map request

structure Agree (l : Listings) (replies : Nat → Response) (totalPages : Int) : Prop where
  whole : ∀ pages, pages.length = pageCount totalPages → GoodPages replies totalPages pages →
    Collected l.zones (zoneRequest l.w l.zoneParams l.authHeaders) totalPages pages.flatten ∧
    Collected l.credentialZones (credentialZoneRequest (l.env.world l.d) l.authHeaders) totalPages pages.flatten ∧
    Collected l.records (pageRequest l.w l.zoneId l.recordParams l.authHeaders) totalPages pages.flatten ∧
    (listCredentialZones l.d l.env l.userId l.credential.id l.s).1 = .ok (.arr pages.flatten)
  broken : ∀ page, 1 ≤ page → page ≤ pageCount totalPages → FailedPage (replies page) →
    (∀ items, l.zones.result ≠ .ok items) ∧
    (∀ context request shown perPage answer,
      popPagination l.w.unicode request.queryParams = .ok (shown, perPage, l.zoneParams) →
      l.w.upstreamAuth = .ok l.authHeaders → (listZones l.w l.fuel context request).result ≠ .ok answer) ∧
    (∀ items, l.records.result ≠ .ok items) ∧
    (∀ answer, (listCredentialZones l.d l.env l.userId l.credential.id l.s).1 ≠ .ok answer) ∧
    (listCredentialZones l.d l.env l.userId l.credential.id l.s).2 = l.between

def FirstFailure (replies : Nat → Response) (totalPages : Int) (page : Nat) : Prop :=
  1 ≤ page ∧ page ≤ pageCount totalPages ∧ FailedPage (replies page) ∧
    ∀ earlier, 1 ≤ earlier → earlier < page → ¬FailedPage (replies earlier)

variable {l : Listings} {replies : Nat → Response} {totalPages : Int}

theorem listCredentialZones_uncached (answered : l.Answered replies totalPages) :
    listCredentialZones l.d l.env l.userId l.credential.id l.s =
      match l.credentialZones.result with
      | .ok zones => (.ok (.arr zones),
          (cacheSetJson l.env (zonesKey l.credential.id) (.arr zones) l.between).2)
      | .error raised => (.error raised, l.between) := by
  have owned : getOwnedCredential l.userId l.credential.id l.s = (.ok l.credential, l.s) := by
    simp [getOwnedCredential, Stateful.query, answered.owned]
  have missed : cacheGetJson l.env (zonesKey l.credential.id) l.s = (.ok .null, l.s) := by
    simp [cacheGetJson, Stateful.reads, Stateful.query, answered.uncached]
  have absent : Json.null.isNull = true := rfl
  unfold listCredentialZones
  rw [Stateful.bind_ok owned, Stateful.bind_ok missed, if_pos absent, Stateful.bind_ok answered.resolved]
  rw [← credentialZones]
  rcases l.credentialZones.result with raised | zones
  · rfl
  · rfl

theorem listZones_fails {w : World} {fuel : Nat} {context : ProxyAuthContext} {request : Request} {page perPage : Int}
    {params : List (Str × Json)} {authHeaders : Headers} {raised : PyError}
    (asked : popPagination w.unicode request.queryParams = .ok (page, perPage, params))
    (resolved : w.upstreamAuth = .ok authHeaders)
    (failed : (fetchAllZones w fuel authHeaders params).result = .error raised) :
    (listZones w fuel context request).result = .error raised := by
  rcases fetched : fetchAllZones w fuel authHeaders params with ⟨events, result⟩
  obtain rfl : result = .error raised := by simpa [fetched] using failed
  simp [listZones, asked, resolved, fetched, Traced.lift]

theorem agree_whole (answered : l.Answered replies totalPages) {pages : List (List Json)}
    (whole : pages.length = pageCount totalPages) (good : GoodPages replies totalPages pages) :
    l.Agree replies totalPages := by
  refine ⟨fun others length goods => ?_, fun page low high failed => ?_⟩
  · have zones := pageLoop_complete zonesRead_reads answered.zones goods length answered.enough.1
    have credentialZones := pageLoop_complete strictRead_reads answered.credentialZones goods length answered.enough.2
    have records := pageLoop_complete strictRead_reads answered.records goods length answered.enough.1
    rw [← zonePages_pageLoop] at zones
    rw [← credentialZonePages_pageLoop] at credentialZones
    rw [← listPages_pageLoop] at records
    refine ⟨⟨zones.1, zones.2⟩, ⟨credentialZones.1, credentialZones.2⟩, ⟨records.1, records.2⟩, ?_⟩
    have listed : l.credentialZones.result = .ok others.flatten := credentialZones.1
    rw [listCredentialZones_uncached answered, listed]
  · exact absurd failed (good.not_failed low (by omega))

section Failing

variable {pages : List (List Json)} (answered : l.Answered replies totalPages)
  (good : GoodPages replies totalPages pages) (within : pages.length < pageCount totalPages)
include answered good within

theorem agree_unreadable (unreadable : Unreadable (replies (pages.length + 1))) : l.Agree replies totalPages := by
  refine ⟨fun others length goods => ?_, fun page _ _ _ => ?_⟩
  · exact absurd (.inl unreadable.1) (goods.not_failed (by omega) (by omega))
  obtain ⟨zonesRaised, zonesFailed⟩ := zonesRead_reads.unreadable unreadable (pages.length + 1)
  obtain ⟨raised, failed⟩ := strictRead_reads.unreadable unreadable (pages.length + 1)
  have zones := (pageLoop_decided zonesRead_reads answered.zones good within answered.enough.1).1 _ zonesFailed
  have credentialZones :=
    (pageLoop_decided strictRead_reads answered.credentialZones good within answered.enough.2).1 _ failed
  have records := (pageLoop_decided strictRead_reads answered.records good within answered.enough.1).1 _ failed
  rw [← zonePages_pageLoop] at zones
  rw [← credentialZonePages_pageLoop] at credentialZones
  rw [← listPages_pageLoop] at records
  have fetched : (fetchAllZones l.w l.fuel l.authHeaders l.zoneParams).result = .error zonesRaised := zones
  have collected : l.records.result = .error raised := records
  have listed : l.credentialZones.result = .error raised := credentialZones
  have unlisted := listCredentialZones_uncached answered
  rw [listed] at unlisted
  refine ⟨?_, ?_, ?_, ?_, ?_⟩
  · simp [Listings.zones, fetched]
  · intro context request shown perPage answer asked resolved
    simp [listZones_fails asked resolved fetched]
  · simp [collected]
  · simp [unlisted]
  · rw [unlisted]

theorem agree_readable (failed : FailedPage (replies (pages.length + 1)))
    (readable : ¬Unreadable (replies (pages.length + 1))) : ¬l.Agree replies totalPages := by
  intro agree
  have stopped := zonesRead_failed failed readable (pages.length + 1)
  have zones := (pageLoop_decided zonesRead_reads answered.zones good within answered.enough.1).2 stopped
  rw [← zonePages_pageLoop] at zones
  exact (agree.broken (pages.length + 1) (by omega) (by omega) failed).1 _ zones

end Failing

end Listings

theorem listings_agree_iff (l : Listings) (replies : Nat → Response) (totalPages : Int)
    (answered : l.Answered replies totalPages) :
    l.Agree replies totalPages ↔
      ∀ page, Listings.FirstFailure replies totalPages page → Unreadable (replies page) := by
  obtain ⟨pages, good, all | ⟨within, failed⟩⟩ := graded_prefix (pageCount totalPages) answered.graded
  · have agree := Listings.agree_whole answered all good
    refine ⟨fun _ page first => ?_, fun _ => agree⟩
    exact absurd first.2.2.1 (good.not_failed first.1 (all ▸ first.2.1))
  · have earliest : Listings.FirstFailure replies totalPages (pages.length + 1) :=
      ⟨by omega, by omega, failed, fun earlier low high => good.not_failed low (by omega)⟩
    constructor
    · intro agree page first
      have same : page = pages.length + 1 := by
        rcases Nat.lt_trichotomy page (pages.length + 1) with before | rfl | after
        · exact absurd first.2.2.1 (earliest.2.2.2 page first.1 before)
        · rfl
        · exact absurd failed (first.2.2.2 _ (by omega) after)
      subst same
      by_contra readable
      exact Listings.agree_readable answered good within failed readable agree
    · intro unreadable
      exact Listings.agree_unreadable answered good within (unreadable _ earliest)

section Example

def pagedReply (replies : Nat → Response) (request : UpstreamRequest) : Except PyError Response :=
  match (request.params.getD []).lookup "page".toList with
  | some (.num page) => .ok (replies page.num.toNat)
  | _ => .error (.valueError [])

def someZone : Json := .obj [(Scope.idKey, .str ['z'])]

-- One zone on the first of two pages.
def firstPage : Response :=
  ⟨200, .ok (.obj [(successKey, .bool true), (resultKey, .arr [someZone]),
    (resultInfoKey, .obj [(totalPagesKey, .num 2)])])⟩

def twoPages (second : Response) (page : Nat) : Response := if page = 1 then firstPage else second

def ownCredential : UpstreamCredential := { TokenPlane.credential with secretEnc := some ['s'] }

def ownStore : Store where
  db := { Database.empty false with credentials := [ownCredential] }

def twoPageListings (second : Response) : Listings where
  w := { World.answering (pagedReply (twoPages second)) with upstreamAuth := .ok (bearerHeaders ['s']) }
  d := plainDeployment
  env := { drawing ['n'] TokenPlane.issued with reply := pagedReply (twoPages second) }
  fuel := 2
  s := ownStore
  between := ownStore
  userId := ['u']
  credential := ownCredential
  authHeaders := bearerHeaders ['s']
  zoneId := ['z']
  zoneParams := []
  recordParams := []

theorem firstPage_good : GoodPage firstPage [someZone] 2 where
  status := by decide
  body := ⟨_, [(totalPagesKey, .num 2)], rfl, rfl, rfl, rfl, rfl⟩

theorem twoPageListings_answered {second : Response} (failed : FailedPage second) :
    (twoPageListings second).Answered (twoPages second) 2 where
  owned := rfl
  uncached := rfl
  resolved := rfl
  zones := fun page _ _ => by
    simp [twoPageListings, World.answering, pagedReply, zoneRequest, zonePageParams, setItem, setDefault]
  credentialZones := fun page _ _ => by
    simp [twoPageListings, Env.world, World.answering, pagedReply, credentialZoneRequest, credentialZoneParams]
  records := fun page _ _ => by
    simp [twoPageListings, World.answering, pagedReply, pageRequest, pageParams, setItem, setDefault]
  graded := by
    intro page low _
    by_cases first : page = 1
    · exact .inl ⟨[someZone], by simpa [twoPages, first] using firstPage_good⟩
    · exact .inr (by simpa [twoPages, first] using failed)
  enough := ⟨(by decide : pageCount 2 ≤ 2), (by decide : pageCount 2 ≤ 100)⟩

-- An error page of the gateway in front of the upstream.
def gatewayPage : Response := ⟨502, .error (.valueError [])⟩

theorem gateway_page_agrees : (twoPageListings gatewayPage).Agree (twoPages gatewayPage) 2 := by
  refine (listings_agree_iff _ _ _ (twoPageListings_answered (.inl (by decide)))).mpr ?_
  rintro page ⟨low, high, failed, -⟩
  by_cases first : page = 1
  · subst first
    exact absurd failed firstPage_good.not_failed
  · simp only [twoPages, first, if_false]
    exact ⟨by decide, _, rfl⟩

def refusedPage : Response := ⟨200, .ok (.obj [(successKey, .bool false), (resultKey, .null)])⟩

theorem refused_page_truncates :
    let l := twoPageListings refusedPage
    l.Answered (twoPages refusedPage) 2 ∧ ¬l.Agree (twoPages refusedPage) 2 ∧
    l.zones.result = .ok [someZone] ∧ l.records.result = .ok [someZone] ∧
    (listZones l.w l.fuel (.ofRules [TokenPlane.oneRule]) (.ofJson .null)).result =
      .ok (makeCfResponse (.arr [someZone]) (some (paginateAndResultInfo [someZone] 1 20).2)) ∧
    (listCredentialZones l.d l.env l.userId l.credential.id l.s).1 = .ok (.arr [someZone]) ∧
    (listCredentialZones l.d l.env l.userId l.credential.id l.s).2.cache (zonesKey l.credential.id) =
      some (.arr [someZone]) := by
  have failed : FailedPage refusedPage := .inr ⟨_, rfl, rfl⟩
  have zones : (twoPageListings refusedPage).zones.result = .ok [someZone] := by rfl
  have records : (twoPageListings refusedPage).records.result = .ok [someZone] := by rfl
  refine ⟨twoPageListings_answered failed, ?_, zones, records, by rfl, by rfl, by rfl⟩
  intro agree
  exact (agree.broken 2 (by decide) (by decide) failed).1 _ zones

end Example

end CfProxy.Truncation
