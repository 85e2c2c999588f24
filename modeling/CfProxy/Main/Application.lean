import CfProxy.Routers.Management
import CfProxy.Routers.ProxyDns
import CfProxy.Shared.Routing
import CfProxy.Shared.Uri
import CfProxy.Shared.UrlSplit

set_option autoImplicit false

namespace CfProxy.Main

open Envelopes ProxyDns Routing
open ManagementApi (Failure Portal Reply)

inductive Management
  | register
  | login
  | readMe
  | cfLogin
  | cfCallback
  | createCredential
  | listCredentials
  | deleteCredential
  | verifyCredential
  | listZones
  | listZoneRecords
  | mintScopedToken
  | listScopedTokens
  | getScopedToken
  | rotateScopedToken
  | revokeScopedToken
  | getAuditLogs
  deriving DecidableEq

inductive Endpoint
  | management (operation : Management)
  | verifyToken
  | listZones
  | listDnsRecords
  | createDnsRecord
  | getDnsRecord
  | patchDnsRecord
  | putDnsRecord
  | deleteDnsRecord
  | blockedDnsRecordsBatch
  | blockedDnsRecordsImport
  | blockedDnsRecordsExport
  | catchAll
  | healthz
  | readyz
  deriving DecidableEq

def getOnly : List Str := ["GET".toList]
def postOnly : List Str := ["POST".toList]
def patchOnly : List Str := ["PATCH".toList]
def putOnly : List Str := ["PUT".toList]
def deleteOnly : List Str := ["DELETE".toList]

-- `_BULK_METHODS`.
def bulkMethods : List Str := ["GET".toList, "POST".toList, "PUT".toList, "PATCH".toList, "DELETE".toList]

def route (methods : List Str) (path : String) (endpoint : Endpoint) : Route Endpoint :=
  ⟨methods, compilePath path.toList, endpoint⟩

def managed (methods : List Str) (path : String) (operation : Management) : Route Endpoint :=
  route methods path (.management operation)

def authRouter : List (Route Endpoint) := [
  managed postOnly "/api/v1/auth/register" .register,
  managed postOnly "/api/v1/auth/login" .login,
  managed getOnly "/api/v1/auth/me" .readMe,
  managed getOnly "/api/v1/auth/cf/login" .cfLogin,
  managed getOnly "/api/v1/auth/cf/callback" .cfCallback]

def credentialsRouter : List (Route Endpoint) := [
  managed postOnly "/api/v1/upstream-credentials" .createCredential,
  managed getOnly "/api/v1/upstream-credentials" .listCredentials,
  managed deleteOnly "/api/v1/upstream-credentials/{credential_id}" .deleteCredential,
  managed postOnly "/api/v1/upstream-credentials/{credential_id}/verify" .verifyCredential,
  managed getOnly "/api/v1/upstream-credentials/{credential_id}/zones" .listZones,
  managed getOnly "/api/v1/upstream-credentials/{credential_id}/zones/{zone_id}/records" .listZoneRecords]

def tokensRouter : List (Route Endpoint) := [
  managed postOnly "/api/v1/scoped-tokens" .mintScopedToken,
  managed getOnly "/api/v1/scoped-tokens" .listScopedTokens,
  managed getOnly "/api/v1/scoped-tokens/{token_id}" .getScopedToken,
  managed postOnly "/api/v1/scoped-tokens/{token_id}/rotate" .rotateScopedToken,
  managed deleteOnly "/api/v1/scoped-tokens/{token_id}" .revokeScopedToken]

def auditRouter : List (Route Endpoint) := [managed getOnly "/api/v1/audit-logs" .getAuditLogs]

def proxyVerifyRouter : List (Route Endpoint) := [route getOnly "/client/v4/user/tokens/verify" .verifyToken]

def proxyDnsRouter : List (Route Endpoint) := [
  route getOnly "/client/v4/zones" .listZones,
  route getOnly "/client/v4/zones/{zone_id}/dns_records" .listDnsRecords,
  route postOnly "/client/v4/zones/{zone_id}/dns_records" .createDnsRecord,
  route getOnly "/client/v4/zones/{zone_id}/dns_records/{record_id}" .getDnsRecord,
  route patchOnly "/client/v4/zones/{zone_id}/dns_records/{record_id}" .patchDnsRecord,
  route putOnly "/client/v4/zones/{zone_id}/dns_records/{record_id}" .putDnsRecord,
  route deleteOnly "/client/v4/zones/{zone_id}/dns_records/{record_id}" .deleteDnsRecord]

def proxyBlockedRouter : List (Route Endpoint) := [
  route bulkMethods "/client/v4/zones/{zone_id}/dns_records/batch" .blockedDnsRecordsBatch,
  route bulkMethods "/client/v4/zones/{zone_id}/dns_records/import" .blockedDnsRecordsImport,
  route bulkMethods "/client/v4/zones/{zone_id}/dns_records/export" .blockedDnsRecordsExport,
  route bulkMethods "/client/v4/{path:path}" .catchAll]

-- The order of `include_router` in `create_app`; the probes come after the routers.
def routes : List (Route Endpoint) :=
  authRouter ++ credentialsRouter ++ tokensRouter ++ auditRouter ++ proxyVerifyRouter ++ proxyDnsRouter ++
    proxyBlockedRouter ++ [route getOnly "/healthz" .healthz, route getOnly "/readyz" .readyz]

-- What the application raises: the router's exceptions are of Starlette's class.
inductive Raised
  | failure (failure : Failure)
  | routerException (status : Nat) (detail : Json)

inductive Answer
  | json (response : ClientResponse)
  | redirect (url : Str)

structure Backend where
  world : World
  fuel : Nat
  scopedToken : Except Failure ProxyAuthContext
  portal : Portal
  checkDatabase : Bool
  checkRedis : Bool
  str : Json → Str

-- The events are those of the proxy's handlers.
structure Outcome where
  events : List Event
  result : Except Raised Answer

def Outcome.ofTraced (body : Traced Event ClientResponse) : Outcome where
  events := body.events
  result := match body.result with
    | .ok response => .ok (.json response)
    | .error raised => .error (.failure (.unhandled raised))

def Outcome.ofResponse (response : ClientResponse) : Outcome := ⟨[], .ok (.json response)⟩

def Outcome.ofReply (result : Except Failure Reply) : Outcome where
  events := []
  result := match result with
    | .ok (.response response) => .ok (.json response)
    | .ok (.redirect url) => .ok (.redirect url)
    | .error failure => .error (.failure failure)

def Backend.withScopedToken (backend : Backend) (handler : ProxyAuthContext → Traced Event ClientResponse) : Outcome :=
  match backend.scopedToken with
  | .ok context => .ofTraced (handler context)
  | .error failure => ⟨[], .error (.failure failure)⟩

def verifyToken (context : ProxyAuthContext) : ClientResponse :=
  makeCfResponseWith
    [.obj [("code".toList, .num tokenValid), ("message".toList, .str "This API Token is valid and active".toList)]]
    (.obj [("id".toList, .str context.tokenId), ("status".toList, .str "active".toList)]) none

def blocked : ClientResponse := makeCfError 403 forbidden "Authorization error: insufficient scope".toList

def blockedDnsRecordsBatch : ClientResponse := blocked
def blockedDnsRecordsImport : ClientResponse := blocked
def blockedDnsRecordsExport : ClientResponse := blocked

def catchAll : ClientResponse := makeCfError 404 routeNotFound "Not found.".toList

def healthz : ClientResponse := ⟨200, .obj [("status".toList, .str "ok".toList)]⟩

def readyz (checkDatabase checkRedis : Bool) : ClientResponse :=
  if !checkDatabase then
    ⟨503, .obj [("status".toList, .str "unavailable".toList), ("db".toList, .str "down".toList)]⟩
  else if !checkRedis then
    ⟨200, .obj [("status".toList, .str "ok".toList), ("redis".toList, .str "degraded".toList)]⟩
  else ⟨200, .obj [("status".toList, .str "ok".toList), ("redis".toList, .str "ok".toList)]⟩

def manage (portal : Portal) (operation : Management) (arguments : List Str) : Except Failure Reply :=
  let first := arguments.getD 0 []
  match operation with
  | .register => ManagementApi.register portal
  | .login => ManagementApi.login portal
  | .readMe => ManagementApi.readMe portal
  | .cfLogin => ManagementApi.cfLogin portal
  | .cfCallback => ManagementApi.cfCallback portal
  | .createCredential => ManagementApi.createCredential portal
  | .listCredentials => ManagementApi.listCredentials portal
  | .deleteCredential => ManagementApi.deleteCredential portal first
  | .verifyCredential => ManagementApi.verifyCredential portal first
  | .listZones => ManagementApi.listZones portal first
  | .listZoneRecords => ManagementApi.listZoneRecords portal first (arguments.getD 1 [])
  | .mintScopedToken => ManagementApi.mintScopedToken portal
  | .listScopedTokens => ManagementApi.listScopedTokens portal
  | .getScopedToken => ManagementApi.getScopedToken portal first
  | .rotateScopedToken => ManagementApi.rotateScopedToken portal first
  | .revokeScopedToken => ManagementApi.revokeScopedToken portal first
  | .getAuditLogs => ManagementApi.getAuditLogs portal

def handle (backend : Backend) (request : Request) (endpoint : Endpoint) (arguments : List Str) : Outcome :=
  let zoneId := arguments.getD 0 []
  let recordId := arguments.getD 1 []
  match endpoint with
  | .management operation => .ofReply (manage backend.portal operation arguments)
  | .verifyToken => backend.withScopedToken fun context => pure (verifyToken context)
  | .listZones => backend.withScopedToken fun context =>
      ProxyDns.listZones backend.world backend.fuel context request
  | .listDnsRecords => backend.withScopedToken fun context =>
      ProxyDns.listDnsRecords backend.world backend.fuel context request zoneId
  | .createDnsRecord => backend.withScopedToken fun context =>
      ProxyDns.createDnsRecord backend.world context request zoneId
  | .getDnsRecord => backend.withScopedToken fun context =>
      ProxyDns.getDnsRecord backend.world context request zoneId recordId
  | .patchDnsRecord => backend.withScopedToken fun context =>
      ProxyDns.patchDnsRecord backend.world context request zoneId recordId
  | .putDnsRecord => backend.withScopedToken fun context =>
      ProxyDns.putDnsRecord backend.world context request zoneId recordId
  | .deleteDnsRecord => backend.withScopedToken fun context =>
      ProxyDns.deleteDnsRecord backend.world context request zoneId recordId
  | .blockedDnsRecordsBatch => .ofResponse blockedDnsRecordsBatch
  | .blockedDnsRecordsImport => .ofResponse blockedDnsRecordsImport
  | .blockedDnsRecordsExport => .ofResponse blockedDnsRecordsExport
  | .catchAll => .ofResponse catchAll
  | .healthz => .ofResponse healthz
  | .readyz => .ofResponse (readyz backend.checkDatabase backend.checkRedis)

def starletteHttpException : Str := "starlette.exceptions.HTTPException".toList
def fastapiHttpException : Str := "fastapi.exceptions.HTTPException".toList
def requestValidationError : Str := "fastapi.exceptions.RequestValidationError".toList
def baseException : Str := "Exception".toList

-- The classes of the exception that handlers can be registered for, most derived first.
def Raised.mro : Raised → List Str
  | .failure (.httpException ..) => [fastapiHttpException, starletteHttpException, baseException]
  | .failure (.validationError _) => [requestValidationError, baseException]
  | .failure (.unhandled _) => [baseException]
  | .routerException .. => [starletteHttpException, baseException]

inductive Handler
  | handleHttpException
  | handleValidationError
  | handleGenericError
  | frameworkDetail
  deriving DecidableEq

-- FastAPI's own handlers, then what `create_app` registers.
def exceptionHandlers : List (Str × Handler) :=
  let preregistered := [(starletteHttpException, Handler.frameworkDetail), (requestValidationError, .frameworkDetail)]
  let withHttp := setItem preregistered fastapiHttpException .handleHttpException
  let withValidation := setItem withHttp requestValidationError .handleValidationError
  setItem withValidation baseException .handleGenericError

def handlerFor (raised : Raised) : Handler :=
  (raised.mro.findSome? fun name => exceptionHandlers.lookup name).getD .handleGenericError

def proxyPathPrefix : Str := "/client/v4".toList

def isProxyPath (path : Str) : Bool := proxyPathPrefix.isPrefixOf path

-- `request.url.path`: the URL is put together from the Host header, which is taken for an authority, and the path as
-- it was decoded, and is split again.
def urlPath (path : Str) : Str :=
  Uri.pathText ((path.filter (!Uri.isRemoved ·)).dropWhile (!Uri.endsNetloc ·))

def httpExceptionToCfResponse (str : Json → Str) (status : Nat) (detail : Json) : ClientResponse :=
  match detail with
  | .obj fields => match fields.lookup "code".toList with
    | some code => makeCfErrorOf status code (str (Json.getD fields "message".toList (.str [])))
    | none => makeCfError status internal (str detail)
  | _ => makeCfError status internal (str detail)

-- FastAPI's own validation handler answers with 422.
def Raised.status : Raised → Nat
  | .failure (.httpException status _) | .routerException status _ => status
  | .failure (.validationError _) => 422
  | .failure (.unhandled _) => 500

def Raised.detail : Raised → Json
  | .failure (.httpException _ detail) | .routerException _ detail => detail
  | .failure (.validationError errors) => errors
  | .failure (.unhandled _) => .null

def handleHttpException (str : Json → Str) (path : Str) (raised : Raised) : ClientResponse :=
  if isProxyPath path then httpExceptionToCfResponse str raised.status raised.detail
  else makeResponse raised.status (str raised.detail) .null

def handleValidationError (path : Str) (raised : Raised) : ClientResponse :=
  if isProxyPath path then makeCfError 400 internal "Invalid request".toList
  else makeResponse 422 "Validation error".toList raised.detail

def handleGenericError (path : Str) : ClientResponse :=
  if isProxyPath path then makeCfError 500 internal "Internal server error".toList
  else makeResponse 500 "Internal server error".toList .null

def frameworkDetail (raised : Raised) : ClientResponse := ⟨raised.status, .obj [("detail".toList, raised.detail)]⟩

def handleException (str : Json → Str) (path : Str) (raised : Raised) : ClientResponse :=
  match handlerFor raised with
  | .handleHttpException => handleHttpException str path raised
  | .handleValidationError => handleValidationError path raised
  | .handleGenericError => handleGenericError path
  | .frameworkDetail => frameworkDetail raised

def serve (backend : Backend) (request : Request) : Dispatch Endpoint → Outcome
  | .handled endpoint arguments => handle backend request endpoint arguments
  | .methodNotAllowed => ⟨[], .error (.routerException 405 (.str "Method Not Allowed".toList))⟩
  -- The path of the URL; its scheme and host are those of the request.
  | .redirected path => ⟨[], .ok (.redirect path)⟩
  | .notFound => ⟨[], .error (.routerException 404 (.str "Not Found".toList))⟩

def answer (str : Json → Str) (path : Str) : Except Raised Answer → Answer
  | .ok answer => answer
  | .error raised => .json (handleException str path raised)

def respond (backend : Backend) (method path : Str) (request : Request) : List Event × Answer :=
  let outcome := serve backend request (dispatch routes method path)
  (outcome.events, answer backend.str (urlPath path) outcome.result)

end CfProxy.Main
