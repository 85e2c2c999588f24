import CfProxy.Core.World

set_option autoImplicit false

namespace CfProxy.Client

open Text

def resultKey : Str := "result".toList
def resultInfoKey : Str := "result_info".toList
def totalPagesKey : Str := "total_pages".toList

-- `_STRIPPED_AUTH_HEADERS`.
def strippedAuthHeaders : List Str :=
  ["authorization".toList, "x-auth-email".toList, "x-auth-key".toList, "x-auth-user-service-key".toList]

def forwardedHeaders (u : Unicode) (headers : Option Headers) (authHeaders : Headers) : Headers :=
  authHeaders.foldl (fun forwarded header => setItem forwarded header.1 header.2)
    ((headers.getD []).filter fun header => !strippedAuthHeaders.contains (lower u header.1))

def exchange (w : World) (request : UpstreamRequest) : Traced Event Response := do
  Traced.emit (.sent request)
  let response ← Traced.lift (w.reply request)
  Traced.emit (.received request response.status)
  return response

theorem exchange_lost {w : World} {request : UpstreamRequest} {raised : PyError}
    (lost : w.reply request = .error raised) : exchange w request = ⟨[.sent request], .error raised⟩ := by
  simp [exchange, Traced.emit, Traced.lift, lost]

theorem exchange_replied {w : World} {request : UpstreamRequest} {response : Response}
    (replied : w.reply request = .ok response) :
    exchange w request = ⟨[.sent request, .received request response.status], .ok response⟩ := by
  simp [exchange, Traced.emit, Traced.lift, replied]

def forwardRequest (w : World) (method path : Str) (headers : Option Headers)
    (params : Option (List (Str × Json))) (content : Option Bytes) (authHeaders : Headers) :
    Traced Event Response :=
  exchange w { method, path, headers := forwardedHeaders w.unicode headers authHeaders, params, content }

def getMethod : Str := "GET".toList

def httpStatusError : PyError := .named "HTTPStatusError".toList

def raiseForStatus (response : Response) : Except PyError Unit :=
  if 200 ≤ response.status ∧ response.status ≤ 299 then .ok () else .error httpStatusError

def zonesPrefix : Str := "/client/v4/zones/".toList
def dnsRecords : Str := "/dns_records".toList

def collectionPath (zoneId : Str) : Str := zonesPrefix ++ zoneId ++ dnsRecords

def recordPath (zoneId recordId : Str) : Str := zonesPrefix ++ zoneId ++ dnsRecords ++ '/' :: recordId

def fetchCfRecord (w : World) (zoneId recordId : Str) (authHeaders : Headers) : Traced Event Json := do
  let response ← forwardRequest w getMethod (recordPath zoneId recordId) none none none authHeaders
  if response.status = 404 then return .null
  Traced.lift (raiseForStatus response)
  let body ← Traced.lift response.json
  Traced.lift (body.item resultKey)

def pageParams (params : List (Str × Json)) (page : Nat) : List (Str × Json) :=
  setDefault (setItem params "page".toList (.num page)) "per_page".toList (.num 100)

def readPage (body : Json) (page : Nat) : Except PyError (List Json × Bool) := do
  let items ← Json.iterate (← body.getAttr resultKey)
  let resultInfo ← body.getAttr resultInfoKey
  let info := if resultInfo.truthy then resultInfo else .obj []
  match info with
  | .obj fields =>
    let totalPages ← (Json.getD fields totalPagesKey (.num 1)).number
    return (items, decide (totalPages ≤ page))
  | _ => throw .attributeError

-- Stands for a loop that has not ended within the rounds given to it.
def stillRunning : PyError := .named "StillRunning".toList

def listPages (w : World) (zoneId : Str) (params : List (Str × Json)) (authHeaders : Headers) :
    Nat → Nat → List Json → Traced Event (List Json)
  | 0, _, _ => Traced.raise stillRunning
  | fuel + 1, page, records => do
    let response ← forwardRequest w getMethod (collectionPath zoneId) none (some (pageParams params page))
      none authHeaders
    Traced.lift (raiseForStatus response)
    let body ← Traced.lift response.json
    let (items, isLast) ← Traced.lift (readPage body page)
    if isLast then return records ++ items
    listPages w zoneId params authHeaders fuel (page + 1) (records ++ items)

def listAllRecords (w : World) (zoneId : Str) (params : Option (List (Str × Json))) (authHeaders : Headers)
    (fuel : Nat) : Traced Event (List Json) :=
  listPages w zoneId (params.getD []) authHeaders fuel 1 []

end CfProxy.Client
