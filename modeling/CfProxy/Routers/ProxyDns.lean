import CfProxy.Authz.Authorizer
import CfProxy.Db.Locks
import CfProxy.Filtering.ListFilter
import CfProxy.Upstream.Replies

set_option autoImplicit false

namespace CfProxy.ProxyDns

open Text Scope Authorizer Envelopes Client Locks ListFilter

structure ProxyAuthContext where
  userId : Str
  tokenId : Str
  tokenPrefix : Str
  rules : List ScopeRule

-- The incoming request: `json` is what parsing its body gives or raises.
structure Request where
  clientIp : Option Str
  queryParams : List (Str × Str)
  json : Except PyError Json
  body : Bytes

def ProxyAuthContext.ofRules (rules : List ScopeRule) : ProxyAuthContext := ⟨[], [], [], rules⟩

def Request.ofJson (json : Json) : Request := ⟨none, [], .ok json, []⟩

-- The row that `_record_audit` writes; fields not given are null.
def auditRow (context : ProxyAuthContext) (request : Request) (method path : Str) (allow : Bool)
    (zoneId : Str) : AuditRow where
  userId := context.userId
  scopedTokenId := context.tokenId
  tokenPrefix := context.tokenPrefix
  method
  path
  allow
  zoneId
  recordId := none
  recordName := .null
  recordType := .null
  preImage := .null
  postImage := .null
  denyReason := none
  upstreamStatus := none
  clientIp := request.clientIp

-- `write_audit` is taken to succeed; the handlers would swallow its errors.
def recordAudit (row : AuditRow) : Traced Event Unit := Traced.emit (.audited row)

-- `value.get(key) if isinstance(value, dict) else None`.
def fieldIfDict (value : Json) (key : Str) : Json :=
  match value with
  | .obj fields => Json.get fields key
  | _ => .null

-- `status, code, message = decision.error`.
def deniedWith (decision : AuthDecision) : Except PyError AuthError :=
  match decision.error with
  | some error => .ok error
  | none => .error .typeError

def denyReason (error : AuthError) : Str := (toString error.code).toList ++ ": ".toList ++ error.message

-- `int(params.pop(key, default) or default)`.
def pagingParam (u : Unicode) (queryParams : List (Str × Str)) (key : Str) (default : Int) : Except PyError Int :=
  match queryParams.lookup key with
  | none | some [] => .ok default
  | some text => match parseInt u text with
    | some value => .ok value
    | none => .error (.valueError (u.intError text))

def popPagination (u : Unicode) (queryParams : List (Str × Str)) :
    Except PyError (Int × Int × List (Str × Json)) := do
  let page ← pagingParam u queryParams "page".toList 1
  let perPage ← pagingParam u queryParams "per_page".toList 20
  let remaining := queryParams.filter fun param => param.1 ≠ "page".toList ∧ param.1 ≠ "per_page".toList
  return (page, perPage, remaining.map fun param => (param.1, .str param.2))

def zonesPath : Str := "/client/v4/zones".toList

def zonePageParams (params : List (Str × Json)) (page : Nat) : List (Str × Json) :=
  setDefault (setItem params "page".toList (.num page)) "per_page".toList (.num 50)

-- The zones fetched so far are the answer as soon as a page does not succeed.
def zonePages (w : World) (params : List (Str × Json)) (authHeaders : Headers) :
    Nat → Nat → List Json → Traced Event (List Json)
  | 0, _, _ => Traced.raise stillRunning
  | fuel + 1, page, zones => do
    let response ← forwardRequest w getMethod zonesPath none (some (zonePageParams params page)) none authHeaders
    let body ← Traced.lift response.json
    if 400 ≤ response.status then return zones
    let success ← Traced.lift (body.getAttr "success".toList)
    if !success.truthy then return zones
    let (items, isLast) ← Traced.lift (readPage body page)
    if isLast then return zones ++ items
    zonePages w params authHeaders fuel (page + 1) (zones ++ items)

def fetchAllZones (w : World) (fuel : Nat) (authHeaders : Headers) (params : List (Str × Json)) :
    Traced Event (List Json) :=
  zonePages w params authHeaders fuel 1 []

-- `zone.get("id") in in_scope_zone_ids`: a set is asked only for what can be hashed.
def zoneInScope (rules : List ScopeRule) (zone : Json) : Except PyError Bool := do
  match ← zone.getAttr idKey with
  | .str zoneId => return rules.any (·.zoneId == zoneId)
  | .arr _ | .obj _ => throw .typeError
  | _ => return false

def listZones (w : World) (fuel : Nat) (context : ProxyAuthContext) (request : Request) :
    Traced Event ClientResponse := do
  let (page, perPage, remainingParams) ← Traced.lift (popPagination w.unicode request.queryParams)
  let authHeaders ← Traced.lift w.upstreamAuth
  let allZones ← fetchAllZones w fuel authHeaders remainingParams
  let zones ← Traced.lift (allZones.filterM (zoneInScope context.rules))
  let (pageZones, resultInfo) := paginateAndResultInfo zones page perPage
  return makeCfResponse (.arr pageZones) (some resultInfo)

def listDnsRecords (w : World) (fuel : Nat) (context : ProxyAuthContext) (request : Request) (zoneId : Str) :
    Traced Event ClientResponse := do
  let (page, perPage, remainingParams) ← Traced.lift (popPagination w.unicode request.queryParams)
  if !context.rules.any (·.zoneId == zoneId) then
    return makeCfResponse (.arr []) (some (paginateAndResultInfo [] page perPage).2)
  let authHeaders ← Traced.lift w.upstreamAuth
  let allRecords ← listAllRecords w zoneId (some remainingParams) authHeaders fuel
  let authorized ← Traced.lift (filterRecords w.unicode context.rules zoneId allRecords)
  let (pageRecords, resultInfo) := paginateAndResultInfo authorized page perPage
  return makeCfResponse (.arr pageRecords) (some resultInfo)

def createDnsRecord (w : World) (context : ProxyAuthContext) (request : Request) (zoneId : Str) :
    Traced Event ClientResponse := do
  let body ← Traced.lift request.json
  let path := collectionPath zoneId
  let recordName := fieldIfDict body nameKey
  let recordType := fieldIfDict body typeKey
  let decision ← authorizeDnsRequest w.unicode context.rules Method.post.name zoneId none body fun _ _ => pure .null
  Traced.emit (.decided decision.allowed)
  if !decision.allowed then
    let error ← Traced.lift (deniedWith decision)
    recordAudit { auditRow context request Method.post.name path false zoneId with
      recordName, recordType, denyReason := some (denyReason error) }
    return makeCfError error.status error.code error.message
  let authHeaders ← Traced.lift w.upstreamAuth
  let response ← forwardRequest w Method.post.name path none none (some request.body) authHeaders
  let responseBody ← Traced.lift response.json
  recordAudit { auditRow context request Method.post.name path true zoneId with
    recordName, recordType, postImage := fieldIfDict responseBody resultKey,
    upstreamStatus := some response.status }
  return ⟨response.status, responseBody⟩

def authorizeByIdLive (w : World) (context : ProxyAuthContext) (method zoneId recordId : Str) (body : Json)
    (authHeaders : Headers) : Traced Event AuthDecision :=
  authorizeDnsRequest w.unicode context.rules method zoneId (some recordId) body fun fetchZoneId fetchRecordId =>
    fetchCfRecord w fetchZoneId (fetchRecordId.getD "None".toList) authHeaders

def denyRow (context : ProxyAuthContext) (request : Request) (method zoneId recordId : Str)
    (preImage : Json) (error : AuthError) : AuditRow :=
  { auditRow context request method (recordPath zoneId recordId) false zoneId with
    recordId := some recordId, recordName := fieldIfDict preImage nameKey,
    recordType := fieldIfDict preImage typeKey, preImage, denyReason := some (denyReason error) }

def authorizeAndForward (w : World) (context : ProxyAuthContext) (method zoneId recordId : Str) (body : Json)
    (content : Option Bytes) (authHeaders : Headers) : Traced Event (AuthDecision × Option Response) := do
  let decision ← authorizeByIdLive w context method zoneId recordId body authHeaders
  Traced.emit (.decided decision.allowed)
  if !decision.allowed then return (decision, none)
  let upstream ← forwardRequest w method (recordPath zoneId recordId) none none content authHeaders
  return (decision, some upstream)

def lockedAuthorizeAndForward (w : World) (context : ProxyAuthContext) (method zoneId recordId : Str)
    (body : Json) (content : Option Bytes) (authHeaders : Headers) :
    Traced Event (AuthDecision × Option Response) := do
  Traced.lift w.connect
  advisoryLock w (mutationLockName w.sha256 zoneId recordId)
    (authorizeAndForward w context method zoneId recordId body content authHeaders)

def lockUnavailableMessage : Str := "Could not acquire the record mutation lock, please retry.".toList

def answerMutation (context : ProxyAuthContext) (request : Request) (method zoneId recordId : Str)
    (decision : AuthDecision) (upstream : Option Response) : Traced Event ClientResponse := do
  let preImage := decision.preImage
  if !decision.allowed then
    let error ← Traced.lift (deniedWith decision)
    recordAudit (denyRow context request method zoneId recordId preImage error)
    return makeCfError error.status error.code error.message
  match upstream with
  | none => Traced.raise .attributeError
  | some response =>
    let bodyJson ← Traced.lift response.json
    recordAudit { auditRow context request method (recordPath zoneId recordId) true zoneId with
      recordId := some recordId, recordName := fieldIfDict preImage nameKey,
      recordType := fieldIfDict preImage typeKey, preImage,
      postImage := fieldIfDict bodyJson resultKey, upstreamStatus := some response.status }
    return ⟨response.status, bodyJson⟩

def mutationOp (u : Unicode) (method : Str) : Need :=
  if upper u method = Method.delete.name then .delete else .write

-- No value stands for the `LockUnavailable` that the handler answers with 503.
def attemptMutation (w : World) (context : ProxyAuthContext) (method zoneId recordId : Str) (body : Json)
    (content : Option Bytes) (authHeaders : Headers) : Traced Event (Option (AuthDecision × Option Response)) :=
  if isLockExempt context.rules zoneId (.str recordId) (mutationOp w.unicode method) then
    some <$> authorizeAndForward w context method zoneId recordId body content authHeaders
  else
    (some <$> lockedAuthorizeAndForward w context method zoneId recordId body content authHeaders).catching
      lockUnavailable (pure none)

def mutateDnsRecordById (w : World) (context : ProxyAuthContext) (request : Request)
    (method zoneId recordId : Str) (body : Json) (content : Option Bytes) : Traced Event ClientResponse := do
  let authHeaders ← Traced.lift w.upstreamAuth
  match ← attemptMutation w context method zoneId recordId body content authHeaders with
  | none => return makeCfError 503 internal lockUnavailableMessage
  | some (decision, upstream) => answerMutation context request method zoneId recordId decision upstream

def getDnsRecord (w : World) (context : ProxyAuthContext) (request : Request) (zoneId recordId : Str) :
    Traced Event ClientResponse := do
  let authHeaders ← Traced.lift w.upstreamAuth
  let decision ← authorizeByIdLive w context Method.get.name zoneId recordId .null authHeaders
  Traced.emit (.decided decision.allowed)
  if !decision.allowed then
    let error ← Traced.lift (deniedWith decision)
    recordAudit (denyRow context request Method.get.name zoneId recordId decision.preImage error)
    return makeCfError error.status error.code error.message
  return makeCfResponse decision.preImage none

def patchDnsRecord (w : World) (context : ProxyAuthContext) (request : Request) (zoneId recordId : Str) :
    Traced Event ClientResponse := do
  let body ← Traced.lift request.json
  mutateDnsRecordById w context request Method.patch.name zoneId recordId body (some request.body)

def putDnsRecord (w : World) (context : ProxyAuthContext) (request : Request) (zoneId recordId : Str) :
    Traced Event ClientResponse := do
  let body ← Traced.lift request.json
  mutateDnsRecordById w context request Method.put.name zoneId recordId body (some request.body)

def deleteDnsRecord (w : World) (context : ProxyAuthContext) (request : Request) (zoneId recordId : Str) :
    Traced Event ClientResponse :=
  mutateDnsRecordById w context request Method.delete.name zoneId recordId .null none

theorem authorizeByIdLive_shows {w : World} {context : ProxyAuthContext} {method : Method} {op : Need}
    (byId : method.byIdOp = some op) {zoneId recordId : Str} {authHeaders : Headers} {response : Response}
    {found : Option Json.Dict} (replied : w.reply (fetchRequest w zoneId recordId authHeaders) = .ok response)
    (reply : FetchReply response found) (body : Json) :
    authorizeByIdLive w context method.name zoneId recordId body authHeaders =
      ⟨[.sent (fetchRequest w zoneId recordId authHeaders),
          .received (fetchRequest w zoneId recordId authHeaders) response.status],
        authorizeImage w.unicode context.rules method op
          (method.mutationOp.isSome && !isLockExempt context.rules zoneId (.str recordId) op) zoneId
          (some recordId) body (found.elim .null .obj)⟩ := by
  have notPost : method ≠ .post := by
    rintro rfl
    simp [Method.byIdOp, Method.mutationOp] at byId
  unfold authorizeByIdLive authorizeDnsRequest authorizeById
  simp [notPost, byId, fetchCfRecord_shows replied reply, Json.ofOption, Traced.lift]

end CfProxy.ProxyDns
