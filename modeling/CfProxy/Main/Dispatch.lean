import CfProxy.Main.Application

set_option autoImplicit false

namespace CfProxy.Main

open Routing

def Endpoint.isManagement : Endpoint → Bool
  | .management _ => true
  | _ => false

def Endpoint.isProxy : Endpoint → Bool
  | .management _ | .healthz | .readyz => false
  | _ => true

def managementPathPrefix : Str := "/api/v1".toList

def isManagementPath (path : Str) : Bool := managementPathPrefix.isPrefixOf path

-- What the table says about where each kind of endpoint lies, checked route by route.
def placed (route : Route Endpoint) : Bool :=
  match route.parts with
  | .literal [] :: .literal root :: .literal version :: _ :: _ =>
    if root = "client".toList then
      version == "v4".toList && route.endpoint.isProxy && route.methods.all fun method => bulkMethods.contains method
    else root == "api".toList && version == "v1".toList && route.endpoint.isManagement
  | [.literal [], .literal _] => true
  | _ => false

theorem routes_placed : routes.all placed = true := by decide +kernel

inductive Place (endpoint : Endpoint) (methods : List Str) : Str → Prop
  | proxy (isProxy : endpoint.isProxy = true) (bulk : ∀ method ∈ methods, method ∈ bulkMethods) (tail : Str) :
      Place endpoint methods (proxyPathPrefix ++ '/' :: tail)
  | management (isManagement : endpoint.isManagement = true) (tail : Str) :
      Place endpoint methods (managementPathPrefix ++ '/' :: tail)
  | probe {tail : Str} (last : '/' ∉ tail) : Place endpoint methods ('/' :: tail)

theorem path_under {path root version : Str} {rest : List Str}
    (split : path.splitOn '/' = [] :: root :: version :: rest) (more : rest ≠ []) :
    path = '/' :: root ++ '/' :: version ++ '/' :: ['/'].intercalate rest := by
  obtain ⟨head, tail, rfl⟩ := List.exists_cons_of_ne_nil more
  have joined : ['/'].intercalate (path.splitOn '/') = path := List.intercalate_splitOn '/'
  rw [← joined, split]
  simp [List.intercalate]

theorem path_probe {path probe : Str} (split : path.splitOn '/' = [[], probe]) : path = '/' :: probe ∧ '/' ∉ probe := by
  have joined : ['/'].intercalate (path.splitOn '/') = path := List.intercalate_splitOn '/'
  rw [split] at joined
  obtain rfl : path = '/' :: probe := by
    rw [← joined]
    simp [List.intercalate]
  refine ⟨rfl, ?_⟩
  have count := Uri.length_splitOn ('/' :: probe) '/'
  rw [split] at count
  rw [← List.count_eq_zero]
  simpa using count.symm

theorem route_place {route : Route Endpoint} (member : route ∈ routes) {path : Str}
    (taken : (route.arguments path).isSome = true) : Place route.endpoint route.methods path := by
  have place := List.all_eq_true.mp routes_placed route member
  unfold Route.arguments at taken
  unfold placed at place
  split at place
  next root version part parts shape =>
    rw [shape] at taken
    obtain ⟨_, split, first⟩ := bindParts_literal taken
    obtain ⟨_, rfl, second⟩ := bindParts_literal first
    obtain ⟨rest, rfl, bound⟩ := bindParts_literal second
    have under := path_under split (bindParts_nonempty bound)
    split at place
    next client =>
      simp only [Bool.and_eq_true, beq_iff_eq, List.all_eq_true, List.contains_iff_mem] at place
      obtain ⟨⟨isVersion, proxy⟩, methods⟩ := place
      subst client isVersion under
      exact .proxy proxy methods _
    next =>
      simp only [Bool.and_eq_true, beq_iff_eq] at place
      obtain ⟨⟨isRoot, isVersion⟩, management⟩ := place
      subst isRoot isVersion under
      exact .management management _
  next probe shape =>
    rw [shape] at taken
    obtain ⟨_, split, first⟩ := bindParts_literal taken
    rcases bindParts_last first with rfl | rfl
    all_goals
      obtain ⟨rfl, last⟩ := path_probe split
      exact .probe last
  next => cases place

theorem isProxyPath_starts (tail : Str) : isProxyPath (proxyPathPrefix ++ tail) = true :=
  List.isPrefixOf_iff_prefix.mpr (List.prefix_append _ _)

theorem isManagementPath_starts (tail : Str) : isManagementPath (managementPathPrefix ++ tail) = true :=
  List.isPrefixOf_iff_prefix.mpr (List.prefix_append _ _)

theorem isProxyPath_management {path : Str} (management : isManagementPath path = true) : isProxyPath path = false := by
  obtain ⟨tail, rfl⟩ := List.isPrefixOf_iff_prefix.mp management
  rfl

theorem not_surface {tail : Str} (last : '/' ∉ tail) :
    isProxyPath ('/' :: tail) = false ∧ isManagementPath ('/' :: tail) = false := by
  have inside : ∀ text, '/' ∈ text → ('/' :: text).isPrefixOf ('/' :: tail) = false := by
    intro text slashed
    rw [← Bool.not_eq_true, List.isPrefixOf_iff_prefix]
    intro surface
    have within : text <+: tail := (List.cons_prefix_cons.mp surface).2
    exact last (within.subset slashed)
  exact ⟨inside "client/v4".toList (by decide), inside "api/v1".toList (by decide)⟩

section Urls

def stays (c : Char) : Bool := !Uri.isRemoved c && !Uri.endsPath c

def urlTail (tail : Str) : Str := Uri.pathText (tail.filter (!Uri.isRemoved ·))

theorem urlPath_slash (tail : Str) : urlPath ('/' :: tail) = '/' :: urlTail tail := by
  have removed : Uri.isRemoved '/' = false := by decide
  have ends : Uri.endsNetloc '/' = true := by decide
  have path : Uri.endsPath '/' = false := by decide
  simp [urlPath, urlTail, Uri.pathText, removed, ends, path]

theorem urlTail_stays {text : Str} (plain : text.all stays = true) (tail : Str) :
    urlTail (text ++ tail) = text ++ urlTail tail := by
  induction text with
  | nil => rfl
  | cons c text ih =>
    simp only [List.all_cons, Bool.and_eq_true] at plain
    obtain ⟨kept, plain⟩ := plain
    simp only [stays, Bool.and_eq_true, Bool.not_eq_true'] at kept
    have later := ih plain
    simp only [urlTail, Uri.pathText] at later ⊢
    rw [List.cons_append, List.filter_cons_of_pos (by simp [kept.1]), List.takeWhile_cons_of_pos (by simp [kept.2]), later]
    rfl

theorem urlTail_slashFree {tail : Str} (last : '/' ∉ tail) : '/' ∉ urlTail tail := by
  intro slash
  exact last (List.mem_of_mem_filter ((List.takeWhile_sublist _).subset slash))

-- Where a route takes a path, the URL is of the surface that the path is of.
theorem Place.url {endpoint : Endpoint} {methods : List Str} {path : Str} (place : Place endpoint methods path) :
    isProxyPath (urlPath path) = isProxyPath path ∧ isManagementPath (urlPath path) = isManagementPath path := by
  cases place with
  | proxy _ _ tail =>
    have shape : proxyPathPrefix ++ '/' :: tail = '/' :: ("client/v4".toList ++ '/' :: tail) := rfl
    rw [shape, urlPath_slash, urlTail_stays (by decide)]
    exact ⟨rfl, rfl⟩
  | management _ tail =>
    have shape : managementPathPrefix ++ '/' :: tail = '/' :: ("api/v1".toList ++ '/' :: tail) := rfl
    rw [shape, urlPath_slash, urlTail_stays (by decide)]
    exact ⟨rfl, rfl⟩
  | probe last =>
    rw [urlPath_slash]
    have raw := not_surface last
    have url := not_surface (urlTail_slashFree last)
    exact ⟨url.1.trans raw.1.symm, url.2.trans raw.2.symm⟩

end Urls

theorem Place.proxied {endpoint : Endpoint} {methods : List Str} {path : Str} (place : Place endpoint methods path)
    (proxy : isProxyPath path = true) :
    endpoint.isProxy = true ∧ (∀ method ∈ methods, method ∈ bulkMethods) ∧ ∃ tail, path = proxyPathPrefix ++ '/' :: tail := by
  cases place with
  | proxy isProxy bulk tail => exact ⟨isProxy, bulk, tail, rfl⟩
  | management _ tail =>
    rw [isProxyPath_management (isManagementPath_starts _)] at proxy
    cases proxy
  | probe last =>
    rw [(not_surface last).1] at proxy
    cases proxy

theorem Place.managed {endpoint : Endpoint} {methods : List Str} {path : Str} (place : Place endpoint methods path)
    (management : isManagementPath path = true) : endpoint.isManagement = true := by
  cases place with
  | proxy _ _ tail =>
    have proxy := isProxyPath_starts ('/' :: tail)
    rw [isProxyPath_management management] at proxy
    cases proxy
  | management isManagement => exact isManagement
  | probe last =>
    rw [(not_surface last).2] at management
    cases management

theorem proxyPath_endpoint {route : Route Endpoint} (member : route ∈ routes) {path : Str}
    (taken : (route.arguments path).isSome = true) (proxy : isProxyPath path = true) :
    route.endpoint.isProxy = true :=
  ((route_place member taken).proxied proxy).1

def proxyRoutes : List (Route Endpoint) := proxyVerifyRouter ++ proxyDnsRouter ++ proxyBlockedRouter

def managementRoutes : List (Route Endpoint) := authRouter ++ credentialsRouter ++ tokensRouter ++ auditRouter

theorem managementRoutes_endpoints : managementRoutes.all (·.endpoint.isManagement) = true := by decide

-- Only the proxy's routes can take a path of the proxy.
theorem proxyPath_find {path : Str} (proxy : isProxyPath path = true) (method : Str) :
    routes.findSome? (·.handles method path) = proxyRoutes.findSome? (·.handles method path) := by
  have missed {route : Route Endpoint} (member : route ∈ routes) (other : route.endpoint.isProxy = false) :
      route.handles method path = none := by
    rw [← Option.not_isSome_iff_eq_none, handles_isSome]
    rintro ⟨-, taken⟩
    have endpoint := proxyPath_endpoint member taken proxy
    rw [other] at endpoint
    cases endpoint
  have table : routes = managementRoutes ++ proxyRoutes ++
      [route getOnly "/healthz" .healthz, route getOnly "/readyz" .readyz] := by
    simp [routes, managementRoutes, proxyRoutes]
  have before : managementRoutes.findSome? (·.handles method path) = none := by
    rw [List.findSome?_eq_none_iff]
    intro route member
    have management := List.all_eq_true.mp managementRoutes_endpoints route member
    apply missed (by rw [table]; simp [member])
    cases operation : route.endpoint <;> simp_all [Endpoint.isManagement, Endpoint.isProxy]
  have probes : [route getOnly "/healthz" .healthz, route getOnly "/readyz" .readyz].findSome?
      (·.handles method path) = none := by
    rw [List.findSome?_eq_none_iff]
    intro probe member
    apply missed (by rw [table]; simp [member])
    rcases List.mem_pair.mp member with rfl | rfl <;> rfl
  rw [table, List.findSome?_append, List.findSome?_append, before, probes]
  simp

def clientParts (rest : List Part) : List Part :=
  .literal [] :: .literal "client".toList :: .literal "v4".toList :: rest

def recordsParts (rest : List Part) : List Part :=
  clientParts (.literal "zones".toList :: .parameter :: .literal "dns_records".toList :: rest)

theorem proxyRoutes_parsed : proxyRoutes = [
    ⟨getOnly, clientParts [.literal "user".toList, .literal "tokens".toList, .literal "verify".toList], .verifyToken⟩,
    ⟨getOnly, clientParts [.literal "zones".toList], .listZones⟩,
    ⟨getOnly, recordsParts [], .listDnsRecords⟩,
    ⟨postOnly, recordsParts [], .createDnsRecord⟩,
    ⟨getOnly, recordsParts [.parameter], .getDnsRecord⟩,
    ⟨patchOnly, recordsParts [.parameter], .patchDnsRecord⟩,
    ⟨putOnly, recordsParts [.parameter], .putDnsRecord⟩,
    ⟨deleteOnly, recordsParts [.parameter], .deleteDnsRecord⟩,
    ⟨bulkMethods, recordsParts [.literal "batch".toList], .blockedDnsRecordsBatch⟩,
    ⟨bulkMethods, recordsParts [.literal "import".toList], .blockedDnsRecordsImport⟩,
    ⟨bulkMethods, recordsParts [.literal "export".toList], .blockedDnsRecordsExport⟩,
    ⟨bulkMethods, clientParts [.remainder], .catchAll⟩] := by decide +kernel

end CfProxy.Main
