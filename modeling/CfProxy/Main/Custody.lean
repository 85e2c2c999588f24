import CfProxy.Main.Mediation
import CfProxy.Shared.Labels
import CfProxy.Shared.Machine

set_option autoImplicit false

namespace CfProxy.Main

open Client ProxyDns Scope Authorizer Machine

-- What the upstream keeps of the zones' records, how it replies, and what a request does to them.
structure Upstream (σ : Type) where
  record : σ → Str → Str → Option Json.Dict
  reply : σ → UpstreamRequest → Except PyError Response
  apply : σ → UpstreamRequest → σ

-- An id that a path can carry as it is.
structure PlainId (id : Str) : Prop where
  segment : Uri.PlainSegment id
  whole : '/' ∉ id

def PlainPath (path : Str) : Prop := ∀ segment ∈ path.splitOn '/', Uri.PlainSegment segment

theorem Names.plain {path id : Str} (names : Names path id) (plain : PlainPath path) : PlainId id := by
  rcases names with rfl | member
  · exact ⟨by decide, by simp⟩
  · exact ⟨plain id member, fun inside => (Labels.mem_of_mem_splitOn member '/' inside).2 rfl⟩

section

variable {σ : Type} (upstream : Upstream σ)

-- The API as its documentation has it, on the requests that the proxy makes.
structure Documented : Prop where
  reads : ∀ s sent, sent.method = getMethod → upstream.apply s sent = s
  creates : ∀ s sent zoneId, PlainId zoneId → sent.method = Method.post.name → sent.path = collectionPath zoneId →
    ∀ zone id, upstream.record (upstream.apply s sent) zone id ≠ upstream.record s zone id →
      zone = zoneId ∧ upstream.record s zone id = none
  changes : ∀ s sent zoneId recordId, PlainId zoneId → PlainId recordId → sent.path = recordPath zoneId recordId →
    ∀ zone id, upstream.record (upstream.apply s sent) zone id ≠ upstream.record s zone id →
      zone = zoneId ∧ id = recordId ∧ upstream.record s zone id ≠ none
  shows : ∀ s sent zoneId recordId image, PlainId zoneId → PlainId recordId → sent.method = getMethod →
    sent.path = recordPath zoneId recordId → upstream.record s zoneId recordId = some image →
    ∀ response body found, upstream.reply s sent = .ok response → raiseForStatus response = .ok () →
      response.json = .ok body → body.item resultKey = .ok found → found = .obj image

def Upstream.receive : System σ Event where
  init _ := True
  step s
    | .sent sent => some (upstream.apply s sent)
    | _ => some s

-- A request of a client's, with all that its outcome depends on beside the upstream.
structure Visit where
  backend : Backend
  method : Str
  path : Str
  request : Request

def Visit.replied (visit : Visit) (reply : UpstreamRequest → Except PyError Response) : Backend :=
  { visit.backend with world := visit.backend.world.repliedBy reply }

def Visit.events (visit : Visit) (reply : UpstreamRequest → Except PyError Response) : List Event :=
  (respond (visit.replied reply) visit.method visit.path visit.request).1

-- Clients' requests, served one after the other; `visit_finds` says why all replies are from the state that a visit finds.
def Upstream.visited : System σ Visit where
  init _ := True
  step s visit := upstream.receive.run s (visit.events (upstream.reply s))

end

-- `body or {}`.
inductive Fields : Json → Json.Dict → Prop
  | object (fields : Json.Dict) : Fields (.obj fields) fields
  | nothing {body : Json} (falsy : body.truthy = false) : Fields body []

-- What the rules grant of a request by which a record comes to differ, which was like this before.
inductive Entitled (u : Text.Unicode) (rules : List ScopeRule) (request : Request) (zoneId recordId : Str) :
    Str → Option Json.Dict → Prop
  | overlaid {method : Str} {image fields : Json.Dict} {body name rtype : Json}
      (overlays : method = "PATCH".toList ∨ method = "PUT".toList) (here : InZone image zoneId)
      (grants : matchRules u rules zoneId (Json.get image nameKey) (Json.get image typeKey) (.str recordId) .write = .ok true)
      (read : request.json = .ok body) (given : Fields body fields) (leavesName : Leaves image fields nameKey name)
      (leavesType : Leaves image fields typeKey rtype)
      (still : matchRules u rules zoneId name rtype (.str recordId) .write = .ok true) :
      Entitled u rules request zoneId recordId method (some image)
  | removed {image : Json.Dict} (here : InZone image zoneId)
      (grants : matchRules u rules zoneId (Json.get image nameKey) (Json.get image typeKey) (.str recordId) .delete =
        .ok true) :
      Entitled u rules request zoneId recordId "DELETE".toList (some image)
  | added {fields : Json.Dict} {body : Json} (read : request.json = .ok body) (given : Fields body fields)
      (grants : matchRules u rules zoneId (Json.get fields nameKey) (Json.get fields typeKey) .null .create = .ok true) :
      Entitled u rules request zoneId recordId "POST".toList none

theorem Entitled.overlays {u : Text.Unicode} {rules : List ScopeRule} {request : Request} {zoneId recordId method : Str}
    {image : Json.Dict} (entitled : Entitled u rules request zoneId recordId method (some image))
    (remains : method ≠ "DELETE".toList) :
    matchRules u rules zoneId (Json.get image nameKey) (Json.get image typeKey) (.str recordId) .write = .ok true := by
  cases entitled with
  | overlaid _ _ grants => exact grants
  | removed => exact absurd rfl remains

section Asked

variable {u : Text.Unicode} {rules : List ScopeRule} {request : Request} {method : Method} {zoneId recordId : Str}
variable {body : Json} {content : Option Bytes} {image fields : Json.Dict} {asked : List Pass}

theorem bodyFields_given (computed : bodyFields body = .ok fields) : Fields body fields := by
  unfold bodyFields at computed
  split at computed
  · split at computed
    · obtain rfl := Except.ok.inj computed
      exact .object _
    · cases computed
  · next falsy =>
    obtain rfl := Except.ok.inj computed
    exact .nothing (by simpa using falsy)

theorem overlay_entitled (overlays : method = .patch ∨ method = .put) (here : inZone image zoneId = true)
    (read : request.json = .ok body) (asks : imagePasses method .write (some recordId) image body = some asked)
    (grants : ∀ pass ∈ asked, granted u rules zoneId pass = .ok true) :
    Entitled u rules request zoneId recordId method.name (some image) := by
  have renames : method.renames = true := by rcases overlays with rfl | rfl <;> rfl
  have named : method.name = "PATCH".toList ∨ method.name = "PUT".toList := by
    rcases overlays with rfl | rfl
    · exact .inl rfl
    · exact .inr rfl
  unfold imagePasses at asks
  simp only [renames, if_true] at asks
  split at asks
  · next fields given =>
    obtain rfl := Option.some.inj asks
    have first : matchRules u rules zoneId (Json.get image nameKey) (Json.get image typeKey) (.str recordId) .write =
        .ok true := grants _ List.mem_cons_self
    refine .overlaid named ((inZone_iff image zoneId).mp here) first read (bodyFields_given given) (leaves_getD.mpr rfl)
      (leaves_getD.mpr rfl) ?_
    by_cases same : unchanged image fields = true
    · simp only [unchanged, Bool.and_eq_true] at same
      rw [← first]
      exact matchRules_congr same.1 same.2
    · exact grants ⟨(mergePatchImage image fields).1, (mergePatchImage image fields).2, .str recordId, .write⟩
        (by simp [same, Json.ofOption])
  · cases asks

theorem passes_entitled (byId : method ≠ .post) (writes : method ≠ .get) (given : Given request method body content)
    (asks : passes method zoneId (some recordId) body (.ok (.obj image)) = some asked)
    (grants : ∀ pass ∈ asked, granted u rules zoneId pass = .ok true) :
    Entitled u rules request zoneId recordId method.name (some image) := by
  cases method with
  | post => exact absurd rfl byId
  | get => exact absurd rfl writes
  | unsupported => simp [passes, Method.byIdOp, Method.mutationOp] at asks
  | patch | put =>
    obtain ⟨here, asks⟩ : inZone image zoneId = true ∧ imagePasses _ .write (some recordId) image body = some asked := by
      simpa [passes, Method.byIdOp, Method.mutationOp] using asks
    cases given with
    | parsed _ read => exact overlay_entitled (by simp) here read asks grants
  | delete =>
    obtain ⟨here, rfl⟩ : inZone image zoneId = true ∧
        [⟨Json.get image nameKey, Json.get image typeKey, .str recordId, .delete⟩] = asked := by
      simpa [passes, Method.byIdOp, Method.mutationOp, imagePasses, Method.renames, Json.ofOption] using asks
    exact .removed ((inZone_iff image zoneId).mp here) (grants _ List.mem_cons_self)

theorem creation_entitled (given : Given request .post body content)
    (asks : passes .post zoneId none body (.ok .null) = some asked)
    (grants : ∀ pass ∈ asked, granted u rules zoneId pass = .ok true) :
    Entitled u rules request zoneId recordId Method.post.name none := by
  cases computed : bodyFields body with
  | error raised => simp [passes, Method.byIdOp, Method.mutationOp, computed] at asks
  | ok fields =>
    obtain rfl : [⟨Json.get fields nameKey, Json.get fields typeKey, .null, .create⟩] = asked := by
      simpa [passes, Method.byIdOp, Method.mutationOp, computed] using asks
    cases given with
    | parsed _ read => exact .added read (bodyFields_given computed) (grants _ List.mem_cons_self)

end Asked

section

variable {σ : Type} {upstream : Upstream σ} {s : σ} {w : World} {zoneId recordId zone id : Str}

theorem forwardRequest_reply {path : Str} {authHeaders : Headers} :
    Returns (fun response => w.reply ⟨getMethod, path, forwardedHeaders w.unicode none authHeaders, none, none⟩ =
      .ok response) (forwardRequest w getMethod path none none none authHeaders).result :=
  Traced.returns_bind fun _ _ => Traced.returns_bind fun _ replied => Traced.returns_bind fun _ _ => .ok replied

theorem fetchCfRecord_shows (documented : Documented upstream) (replies : w.reply = upstream.reply s)
    (zonePlain : PlainId zoneId) (recordPlain : PlainId recordId) {image : Json.Dict}
    (there : upstream.record s zoneId recordId = some image) {authHeaders : Headers} :
    Returns (fun found => found = .null ∨ found = .obj image) (fetchCfRecord w zoneId recordId authHeaders).result := by
  refine Traced.returns_bind fun response replied => ?_
  split
  · exact .ok (.inl rfl)
  · refine Traced.returns_bind fun _ success => Traced.returns_bind fun body read => fun found result => ?_
    have answered := replies ▸ forwardRequest_reply response replied
    exact .inr (documented.shows s _ zoneId recordId image zonePlain recordPlain rfl rfl there response body found
      answered success read result)

theorem mediated_entitled (documented : Documented upstream) (replies : w.reply = upstream.reply s) {path : Str}
    (plain : PlainPath path) (zoneNamed : Names path zoneId) (recordNamed : Names path recordId)
    {rules : List ScopeRule} {request : Request} {method : Method} {sent : UpstreamRequest}
    (mediated : Mediated w rules request method zoneId recordId sent)
    (differs : upstream.record (upstream.apply s sent) zone id ≠ upstream.record s zone id) :
    Entitled w.unicode rules request zone id method.name (upstream.record s zone id) := by
  obtain ⟨authHeaders, -, -, reads | ⟨target, rfl | rfl, mandate, rfl⟩⟩ := mediated
  · exact absurd (by rw [documented.reads s sent reads]) differs
  · obtain rfl : method = .post := mandate.creates.mpr rfl
    obtain ⟨rfl, nothing⟩ := documented.creates s _ zoneId (zoneNamed.plain plain) rfl rfl zone id differs
    rw [nothing]
    exact creation_entitled mandate.given mandate.asks mandate.grants
  · have zonePlain := zoneNamed.plain plain
    have recordPlain := recordNamed.plain plain
    obtain ⟨rfl, rfl, something⟩ := documented.changes s _ zoneId recordId zonePlain recordPlain rfl zone id differs
    obtain ⟨image, there⟩ := Option.ne_none_iff_exists'.mp something
    rw [there]
    have byId : method ≠ .post := by simp [mandate.creates]
    have writes : method ≠ .get := by
      intro reads
      exact differs (by rw [documented.reads s _ (congrArg Method.name reads)])
    exact passes_entitled byId writes mandate.given
      (mandate.asks_image (fetchCfRecord_shows documented replies zonePlain recordPlain there)) mandate.grants

-- Up to anything that a visit sends, the upstream is as the visit found it: what was sent before are reads.
theorem visit_finds (documented : Documented upstream) {visit : Visit} (proxy : isProxyPath visit.path = true)
    {reply : UpstreamRequest → Except PyError Response} {before after : List Event} {sent : UpstreamRequest}
    (split : visit.events reply = before ++ .sent sent :: after) : upstream.receive.run s before = some s := by
  have last := (changes_once (visit.replied reply) visit.method visit.path visit.request proxy).2
  have whole : (respond (visit.replied reply) visit.method visit.path visit.request).1 = before ++ .sent sent :: after := split
  rw [whole] at last
  have unchanging : ∀ event ∈ before, changes event = false := by
    intro event member
    by_contra change
    exact (List.pairwise_append.mp last).2.2 event member _ List.mem_cons_self (by simpa using change)
  clear split whole last
  induction before with
  | nil => rfl
  | cons event rest ih =>
    have stays : upstream.receive.step s event = some s := by
      have quiet := unchanging event List.mem_cons_self
      cases event with
      | sent read => exact congrArg some (documented.reads s read (by simpa [changes] using quiet))
      | _ => rfl
    rw [System.run_cons, stays]
    exact ih fun later member => unchanging later (List.mem_cons_of_mem _ member)

theorem visit_entitled (documented : Documented upstream) {visit : Visit} (proxy : isProxyPath visit.path = true)
    (plain : PlainPath visit.path) {after : σ} (stepped : upstream.visited.step s visit = some after)
    (differs : upstream.record after zone id ≠ upstream.record s zone id) :
    ∃ context, visit.backend.scopedToken = .ok context ∧
      Entitled visit.backend.world.unicode context.rules visit.request zone id visit.method (upstream.record s zone id) := by
  obtain ⟨past, event, rest, now, next, split, ran, received, kept, differs⟩ :=
    System.run_changes (upstream.record · zone id) stepped differs
  have member : event ∈ visit.events (upstream.reply s) := by
    rw [split]
    simp
  cases event with
  | sent sent =>
    obtain rfl : s = now := Option.some.inj ((visit_finds documented proxy split).symm.trans ran)
    cases received
    obtain ⟨context, authenticated, -⟩ := respond_events proxy member
    obtain ⟨asked, zoneId, recordId, named, zoneNamed, recordNamed, mediated⟩ := sent_mediated authenticated proxy member
    have replies : (visit.replied (upstream.reply s)).world.reply = upstream.reply s := rfl
    have entitled := mediated_entitled documented replies plain zoneNamed recordNamed mediated differs
    exact ⟨context, authenticated, named ▸ entitled⟩
  | _ =>
    cases received
    exact absurd kept differs

-- However many requests are served, with whatever tokens, a record that comes to differ does so by a request whose
-- token's rules grant what its method does to the record as it was before.
theorem differences_entitled (documented : Documented upstream) {visits : List Visit}
    (proxied : ∀ visit ∈ visits, isProxyPath visit.path = true ∧ PlainPath visit.path) {before after : σ}
    (ran : upstream.visited.run before visits = some after)
    (differs : upstream.record after zone id ≠ upstream.record before zone id) :
    ∃ visit ∈ visits, ∃ context, visit.backend.scopedToken = .ok context ∧
      Entitled visit.backend.world.unicode context.rules visit.request zone id visit.method
        (upstream.record before zone id) := by
  obtain ⟨past, visit, rest, now, next, rfl, -, stepped, kept, changes⟩ :=
    System.run_changes (upstream.record · zone id) ran differs
  have member : visit ∈ past ++ visit :: rest := by simp
  obtain ⟨proxy, plain⟩ := proxied visit member
  obtain ⟨context, authenticated, entitled⟩ := visit_entitled documented proxy plain stepped (kept ▸ changes)
  exact ⟨visit, member, context, authenticated, kept ▸ entitled⟩

end

section Example

theorem recordPath_split {zoneId recordId : Str} (zonePlain : PlainId zoneId) (recordPlain : PlainId recordId) :
    (recordPath zoneId recordId).splitOn '/' = [] :: (zoneSegments zoneId ++ [recordId]) := by
  rw [recordPath_render]
  apply Uri.splitOn_render
  intro part member
  rcases List.mem_append.mp member with member | member
  · exact zoneSegments_slashFree zonePlain.whole part member
  · rw [List.mem_singleton.mp member]
    exact recordPlain.whole

-- An upstream of one record, which only a removal changes.

def onlyPath : Str := recordPath ['z'] ['r']

def oneRecord : Upstream (Option Json.Dict) where
  record s zone id := if zone = ['z'] ∧ id = ['r'] then s else none
  reply s _ := match s with
    | some image => .ok ⟨200, .ok (.obj [(resultKey, .obj image)])⟩
    | none => .ok ⟨404, .ok (.obj [])⟩
  apply s sent := if sent.method = Method.delete.name ∧ sent.path = onlyPath then none else s

theorem recordPath_only {zoneId recordId : Str} (zonePlain : PlainId zoneId) (recordPlain : PlainId recordId)
    (same : recordPath zoneId recordId = onlyPath) : zoneId = ['z'] ∧ recordId = ['r'] := by
  have parts := congrArg (List.splitOn '/') same
  have only : onlyPath.splitOn '/' = [] :: (zoneSegments ['z'] ++ [['r']]) := by decide
  rw [recordPath_split zonePlain recordPlain, only] at parts
  simpa [zoneSegments] using parts

theorem oneRecord_documented : Documented oneRecord where
  reads _ _ reads := if_neg fun removes => absurd (reads.symm.trans removes.1) (by decide)
  creates s sent zoneId _ creates _ zone id differs := by simp [oneRecord, creates, Method.name] at differs
  changes s sent zoneId recordId zonePlain recordPlain path zone id differs := by
    simp only [oneRecord] at differs ⊢
    split at differs
    · rename_i place
      obtain ⟨rfl, rfl⟩ := place
      split at differs
      · rename_i removes
        obtain ⟨rfl, rfl⟩ := recordPath_only zonePlain recordPlain (path.symm.trans removes.2)
        exact ⟨rfl, rfl, by simpa using Ne.symm differs⟩
      · exact absurd rfl differs
    · exact absurd rfl differs
  shows s sent zoneId recordId image _ _ _ _ there response body found replied _ read result := by
    simp only [oneRecord, Option.ite_none_right_eq_some] at there replied
    obtain ⟨-, rfl⟩ := there
    cases replied
    cases read
    cases result
    rfl

def onlyVisit (method : Str) : Visit := ⟨holderBackend, method, onlyPath, .ofJson .null⟩

def onlyImage : Json.Dict := [("type".toList, .str ['A'])]

-- The holder reads and overlays the record in vain, and then removes it.
def threeVisits : List Visit := [onlyVisit "GET".toList, onlyVisit "PATCH".toList, onlyVisit "DELETE".toList]

theorem removal_ran : oneRecord.visited.run (some onlyImage) threeVisits = some none := by rfl

theorem holder_onlyDeletes :
    matchRules .asciiOnly (handed holder).rules ['z'] (Json.get onlyImage nameKey) (Json.get onlyImage typeKey)
      (.str ['r']) .write = .ok false := by
  decide +kernel

theorem removal_entitled :
    ∃ visit ∈ threeVisits, visit.method = "DELETE".toList ∧
      Entitled .asciiOnly (handed holder).rules (.ofJson .null) ['z'] ['r'] "DELETE".toList (some onlyImage) := by
  have proxied : ∀ visit ∈ threeVisits, isProxyPath visit.path = true ∧ PlainPath visit.path := by
    have plain : isProxyPath onlyPath = true ∧ PlainPath onlyPath := ⟨by decide, by unfold PlainPath; decide⟩
    simp only [threeVisits, List.forall_mem_cons, List.not_mem_nil, false_imp_iff, implies_true, and_true]
    exact ⟨plain, plain, plain⟩
  have differs : oneRecord.record none ['z'] ['r'] ≠ oneRecord.record (some onlyImage) ['z'] ['r'] := by
    simp [oneRecord]
  obtain ⟨visit, member, context, authenticated, entitled⟩ :=
    differences_entitled oneRecord_documented proxied removal_ran differs
  refine ⟨visit, member, ?_⟩
  simp only [threeVisits, List.mem_cons, List.not_mem_nil, or_false] at member
  obtain ⟨rfl, isUnicode, isRequest⟩ : handed holder = context ∧ visit.backend.world.unicode = .asciiOnly ∧
      visit.request = .ofJson .null := by
    rcases member with rfl | rfl | rfl <;> exact ⟨Except.ok.inj authenticated, rfl, rfl⟩
  rw [isUnicode, isRequest] at entitled
  by_cases removes : visit.method = "DELETE".toList
  · exact ⟨removes, removes ▸ entitled⟩
  · have grants := entitled.overlays removes
    rw [holder_onlyDeletes] at grants
    cases grants

end Example

end CfProxy.Main
