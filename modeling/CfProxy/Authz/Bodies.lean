import CfProxy.Authz.Additions

set_option autoImplicit false

namespace CfProxy.Authorizer

open Text Scope

universe v

variable {u : Unicode} {rules : List ScopeRule} {rule : ScopeRule} {zoneId : Str} {recordId : Option Str} {pass : Pass}
  {normalized : Option Str}

structure Stumbles (u : Unicode) (rule : ScopeRule) (zoneId : Str) (normalized : Option Str) (pass : Pass) : Prop where
  zone : rule.zoneId = zoneId
  type : rule.typeAllowed pass.rtype = true
  id : rule.idAllowed pass.recordId = true
  unread : ∃ pattern name, rule.namePattern = some pattern ∧ normalized = some name ∧
    ((∀ canonical, normalizeFqdn u pattern ≠ .ok canonical) ∨ ∀ canonical, normalizeFqdn u name ≠ .ok canonical)

def Answered (u : Unicode) (rules : List ScopeRule) (zoneId : Str) (pass : Pass) : Prop :=
  ∃ normalized, normalizeName u pass.name = .ok normalized ∧
    ∀ before rule after, rules = before ++ rule :: after → Stumbles u rule zoneId normalized pass →
      ∃ earlier ∈ before, earlier.grants u zoneId normalized pass.rtype pass.recordId pass.need = .ok true

theorem ok_or_none (result : Except PyError Str) : (∃ text, result = .ok text) ∨ ∀ text, result ≠ .ok text := by
  cases result with
  | ok text => exact .inl ⟨text, rfl⟩
  | error raised => simp

theorem nameMatches_ok {pattern name canonicalPattern canonical : Str} (nameMatch : Str)
    (patternOk : normalizeFqdn u pattern = .ok canonicalPattern) (nameOk : normalizeFqdn u name = .ok canonical) :
    ∃ verdict, nameMatches u pattern nameMatch name = .ok verdict := by
  obtain ⟨verdict, computed, -⟩ := nameMatches_decides nameMatch patternOk nameOk
  exact ⟨verdict, computed⟩

theorem Stumbles.raises (stumbles : Stumbles u rule zoneId normalized pass) :
    ∃ raised, rule.grants u zoneId normalized pass.rtype pass.recordId pass.need = .error raised := by
  obtain ⟨pattern, name, present, rfl, unread⟩ := stumbles.unread
  obtain ⟨raised, failed⟩ : ∃ raised, nameMatches u pattern rule.nameMatch name = .error raised := by
    unfold nameMatches
    cases patternOk : normalizeFqdn u pattern with
    | error raised => exact ⟨raised, rfl⟩
    | ok canonical =>
      cases nameOk : normalizeFqdn u name with
      | error raised => exact ⟨raised, rfl⟩
      | ok other =>
        rcases unread with none | none
        · exact absurd patternOk (none canonical)
        · exact absurd nameOk (none other)
  exact ⟨raised, by simp [ScopeRule.grants, ScopeRule.nameAllowed, stumbles.zone, stumbles.type, stumbles.id, present,
    failed]⟩

theorem grants_steady (steady : ¬Stumbles u rule zoneId normalized pass) :
    ∃ verdict, rule.grants u zoneId normalized pass.rtype pass.recordId pass.need = .ok verdict := by
  by_cases zone : rule.zoneId = zoneId
  · cases type : rule.typeAllowed pass.rtype with
    | false => exact ⟨false, by simp [ScopeRule.grants, zone, type]⟩
    | true =>
      cases id : rule.idAllowed pass.recordId with
      | false => exact ⟨false, by simp [ScopeRule.grants, zone, type, id]⟩
      | true =>
        obtain ⟨named, computed⟩ : ∃ named, rule.nameAllowed u normalized = .ok named := by
          unfold ScopeRule.nameAllowed
          split
          · exact ⟨true, rfl⟩
          · exact ⟨false, rfl⟩
          · next pattern name present =>
            rcases ok_or_none (normalizeFqdn u pattern) with ⟨canonical, patternOk⟩ | none
            · rcases ok_or_none (normalizeFqdn u name) with ⟨other, nameOk⟩ | none
              · exact nameMatches_ok _ patternOk nameOk
              · exact absurd ⟨zone, type, id, pattern, name, present, rfl, .inr none⟩ steady
            · exact absurd ⟨zone, type, id, pattern, name, present, rfl, .inl none⟩ steady
        exact ⟨named && rule.allows pass.need, by cases named <;> simp [ScopeRule.grants, zone, type, id, computed]⟩
  · exact ⟨false, by simp [ScopeRule.grants, zone]⟩

theorem anyGrants_answers :
    (∃ verdict, anyGrants u zoneId normalized pass.rtype pass.recordId pass.need rules = .ok verdict) ↔
      ∀ before rule after, rules = before ++ rule :: after → Stumbles u rule zoneId normalized pass →
        ∃ earlier ∈ before, earlier.grants u zoneId normalized pass.rtype pass.recordId pass.need = .ok true := by
  induction rules with
  | nil => simp [anyGrants]
  | cons first rest ih =>
    by_cases stumbles : Stumbles u first zoneId normalized pass
    · obtain ⟨raised, answer⟩ := stumbles.raises
      constructor
      · rintro ⟨verdict, answered⟩
        simp [anyGrants, answer] at answered
      · intro guarded
        obtain ⟨earlier, none, -⟩ := guarded [] first rest rfl stumbles
        simp at none
    · obtain ⟨verdict, answer⟩ := grants_steady stumbles
      have split {before after : List ScopeRule} {rule : ScopeRule} (whole : first :: rest = before ++ rule :: after)
          (falls : Stumbles u rule zoneId normalized pass) : ∃ early, before = first :: early ∧ rest = early ++ rule :: after := by
        cases before with
        | nil =>
          obtain ⟨rfl, -⟩ : first = rule ∧ rest = after := by simpa using whole
          exact absurd falls stumbles
        | cons head early =>
          obtain ⟨rfl, tail⟩ : first = head ∧ rest = early ++ rule :: after := by simpa using whole
          exact ⟨early, rfl, tail⟩
      cases verdict with
      | true =>
        have answered : ∃ verdict, anyGrants u zoneId normalized pass.rtype pass.recordId pass.need (first :: rest) =
            .ok verdict := ⟨true, by simp [anyGrants, answer]⟩
        refine ⟨fun _ before rule after whole falls => ?_, fun _ => answered⟩
        obtain ⟨early, rfl, -⟩ := split whole falls
        exact ⟨first, by simp, answer⟩
      | false =>
        have same : anyGrants u zoneId normalized pass.rtype pass.recordId pass.need (first :: rest) =
            anyGrants u zoneId normalized pass.rtype pass.recordId pass.need rest := by simp [anyGrants, answer]
        rw [same, ih]
        constructor
        · intro guarded before rule after whole falls
          obtain ⟨early, rfl, tail⟩ := split whole falls
          obtain ⟨earlier, member, grants⟩ := guarded early rule after tail falls
          exact ⟨earlier, by simp [member], grants⟩
        · rintro guarded before rule after rfl falls
          obtain ⟨earlier, member, grants⟩ := guarded (first :: before) rule after rfl falls
          rcases List.mem_cons.mp member with rfl | member
          · simp [answer] at grants
          · exact ⟨earlier, member, grants⟩

theorem answered_iff : Answered u rules zoneId pass ↔ ∃ verdict, granted u rules zoneId pass = .ok verdict := by
  unfold Answered
  cases computed : normalizeName u pass.name with
  | error raised => simp [granted, matchRules, computed]
  | ok normalized => simp [granted_eq computed, ← anyGrants_answers]

-- What a body asks for: `null` and everything empty ask for nothing.
def Answerable (u : Unicode) (rules : List ScopeRule) (method : Method) (zoneId : Str) (recordId : Option Str)
    (image : Json.Dict) (body : Json) : Prop :=
  match method.byIdOp with
  | none => ∃ fields, bodyFields body = .ok fields ∧
      Answered u rules zoneId ⟨Json.get fields nameKey, Json.get fields typeKey, .null, .create⟩
  | some op => inZone image zoneId = true →
      Answered u rules zoneId ⟨Json.get image nameKey, Json.get image typeKey, Json.ofOption recordId, op⟩ ∧
      (granted u rules zoneId ⟨Json.get image nameKey, Json.get image typeKey, Json.ofOption recordId, op⟩ = .ok true →
        ∃ fields, bodyFields body = .ok fields ∧ (unchanged image fields = false →
          Answered u rules zoneId
            ⟨(mergePatchImage image fields).1, (mergePatchImage image fields).2, Json.ofOption recordId, op⟩))

theorem authorizeCreate_returns {body : Json} :
    (∃ decision, authorizeCreate u rules zoneId body = .ok decision) ↔
      ∃ fields, bodyFields body = .ok fields ∧
        Answered u rules zoneId ⟨Json.get fields nameKey, Json.get fields typeKey, .null, .create⟩ := by
  simp only [answered_iff]
  unfold authorizeCreate granted
  cases bodyFields body with
  | error raised => simp
  | ok fields =>
    cases answer : matchRules u rules zoneId (Json.get fields nameKey) (Json.get fields typeKey) .null .create with
    | error raised => simp [answer]
    | ok verdict => cases verdict <;> simp [answer]

theorem authorizeImage_returns {method : Method} {op : Need} (needsLock : Bool) {image : Json.Dict} {body : Json}
    (byId : method.byIdOp = some op) (renames : method.renames = true) :
    (∃ decision, authorizeImage u rules method op needsLock zoneId recordId body (.obj image) = .ok decision) ↔
      Answerable u rules method zoneId recordId image body := by
  unfold Answerable
  rw [byId]
  simp only [answered_iff]
  unfold authorizeImage granted
  cases here : inZone image zoneId with
  | false => simp [here]
  | true =>
    cases old : matchRules u rules zoneId (Json.get image nameKey) (Json.get image typeKey) (Json.ofOption recordId) op with
    | error raised => simp [here, old]
    | ok covered =>
      cases covered with
      | false => simp [here, old]
      | true =>
        cases bodyFields body with
        | error raised => simp [here, old, renames]
        | ok fields =>
          by_cases same : Json.pyEq (mergePatchImage image fields).1 (Json.get image nameKey) = true ∧
              Json.pyEq (mergePatchImage image fields).2 (Json.get image typeKey) = true
          · simp [unchanged, here, old, renames, same]
          · have renamed : unchanged image fields = false := by simpa [unchanged] using same
            cases new : matchRules u rules zoneId (mergePatchImage image fields).1 (mergePatchImage image fields).2
                (Json.ofOption recordId) op with
            | error raised => simp [renamed, here, old, renames, same, new]
            | ok kept => cases kept <;> simp [renamed, here, old, renames, same, new]

-- A create whose body is no object, or whose name is no string with a canonical form.
def Malformed (u : Unicode) (body : Json) : Prop :=
  ¬∃ fields name canonical, body = .obj fields ∧ Json.get fields nameKey = .str name ∧
    normalizeFqdn u name = .ok canonical

theorem AcceptedRule.scoped {zoneName : Str → Str} (accepted : AcceptedRule u zoneName rule) :
    rule.namePattern ≠ none ∨ ∃ id ids, rule.recordIds = some (id :: ids) := by
  obtain ⟨spec, rfl, valid⟩ := accepted
  by_contra unscoped
  push Not at unscoped
  obtain ⟨unnamed, unpinned⟩ := unscoped
  have named : spec.namePattern = none := unnamed
  have pinned : spec.recordIds.getD [] = [] := by
    cases ids : spec.recordIds with
    | none => rfl
    | some ids' =>
      cases ids' with
      | nil => rfl
      | cons id rest => exact absurd ids (unpinned id rest)
  simp [TokenPlane.validateScopeRules, named, pinned] at valid

-- Without a name and an id, no accepted rule applies.
theorem nameless_denied {zoneName : Str → Str} (accepted : ∀ rule ∈ rules, AcceptedRule u zoneName rule) (rtype : Json)
    (need : Need) : anyGrants u zoneId none rtype .null need rules = .ok false := by
  induction rules with
  | nil => rfl
  | cons rule rest ih =>
    have later := ih fun other member => accepted other (List.mem_cons_of_mem _ member)
    have skipped : rule.grants u zoneId none rtype .null need = .ok false := by
      unfold ScopeRule.grants
      rcases (accepted rule (by simp)).scoped with named | ⟨id, ids, pinned⟩
      · obtain ⟨pattern, present⟩ := Option.ne_none_iff_exists'.mp named
        have unnamed : rule.nameAllowed u none = .ok false := by simp [ScopeRule.nameAllowed, present]
        by_cases zone : rule.zoneId = zoneId <;> cases rule.typeAllowed rtype <;> cases rule.idAllowed .null <;>
          simp [zone, unnamed]
      · have unpinned : rule.idAllowed .null = false := by simp [ScopeRule.idAllowed, pinned, Json.isIn]
        by_cases zone : rule.zoneId = zoneId <;> cases rule.typeAllowed rtype <;> simp [zone, unpinned]
    simp [anyGrants, skipped, later]

theorem malformed_nameless {fields : Json.Dict} {body : Json} (malformed : Malformed u body)
    (given : bodyFields body = .ok fields) {normalized : Option Str}
    (computed : normalizeName u (Json.get fields nameKey) = .ok normalized) : normalized = none := by
  unfold normalizeName at computed
  split at computed
  · split at computed
    · next present name named =>
      cases canonical : normalizeFqdn u name with
      | error raised => simp [canonical, Functor.map] at computed
      | ok text =>
        have nonempty : fields ≠ [] := by
          rintro rfl
          simp [Json.get] at named
        have object : body = .obj fields := by
          unfold bodyFields at given
          split at given
          · split at given
            · rw [Except.ok.inj given]
            · simp at given
          · exact absurd (Except.ok.inj given).symm nonempty
        exact absurd ⟨fields, name, text, object, named, canonical⟩ malformed
    · simp at computed
  · simpa using computed.symm

theorem malformed_denied {zoneName : Str → Str} (accepted : ∀ rule ∈ rules, AcceptedRule u zoneName rule) {body : Json}
    (malformed : Malformed u body) : Returns (·.allowed = false) (authorizeCreate u rules zoneId body) := by
  unfold authorizeCreate
  refine .bind fun fields given => .bind fun verdict answer => ?_
  unfold matchRules at answer
  obtain ⟨normalized, computed, answer⟩ := Except.bind_eq_ok.mp answer
  rw [malformed_nameless malformed given computed, nameless_denied accepted] at answer
  obtain rfl := Except.ok.inj answer
  exact .ok rfl

theorem body_decided_iff {ε : Type v} {zoneName : Str → Str} (accepted : ∀ rule ∈ rules, AcceptedRule u zoneName rule)
    {methodName : Str} (writes : Method.ofName u methodName = .post ∨ (Method.ofName u methodName).renames = true)
    {image : Json.Dict} {fetchRecord : Str → Option Str → Traced ε Json}
    (fetched : (fetchRecord zoneId recordId).result = .ok (.obj image)) (body : Json) :
    (∃ decision, (authorizeDnsRequest u rules methodName zoneId recordId body fetchRecord).result = .ok decision ∧
      (Method.ofName u methodName = .post → Malformed u body → decision.allowed = false)) ↔
      Answerable u rules (Method.ofName u methodName) zoneId recordId image body := by
  unfold authorizeDnsRequest
  generalize Method.ofName u methodName = method at writes
  rcases writes with rfl | renames
  · have answerable : Answerable u rules .post zoneId recordId image body ↔
        ∃ decision, authorizeCreate u rules zoneId body = .ok decision := authorizeCreate_returns.symm
    rw [answerable]
    simp only [if_true, Traced.lift_result, forall_const]
    constructor
    · rintro ⟨decision, returned, -⟩
      exact ⟨decision, returned⟩
    · rintro ⟨decision, returned⟩
      exact ⟨decision, returned, fun malformed => malformed_denied accepted malformed decision returned⟩
  · obtain ⟨notPost, op, byId⟩ : method ≠ .post ∧ ∃ op, method.byIdOp = some op := by
      cases method <;> simp_all [Method.renames, Method.byIdOp, Method.mutationOp]
    rw [← authorizeImage_returns (method.mutationOp.isSome && !isLockExempt rules zoneId (Json.ofOption recordId) op)
      byId renames]
    rcases fetching : fetchRecord zoneId recordId with ⟨events, result⟩
    obtain rfl : result = .ok (.obj image) := by simpa [fetching] using fetched
    simp [notPost, byId, authorizeById, fetching]

section Example

def createOwn (body : Json) : Except PyError AuthDecision :=
  (authorizeDnsRequest .asciiOnly [ownRule] Method.post.name ['z'] none body
    (fun _ _ => (pure (.obj []) : Traced Empty Json))).result

theorem ownRule_accepted : ∀ rule ∈ [ownRule], AcceptedRule .asciiOnly (fun _ => zoneName) rule := by
  intro rule member
  obtain rfl := List.mem_singleton.mp member
  exact ⟨specOf ownName exact, rfl, by decide +kernel⟩

theorem list_body_raises : (∀ rule ∈ [ownRule], AcceptedRule .asciiOnly (fun _ => zoneName) rule) ∧
    ¬∃ decision, createOwn (.arr [.num 1]) = .ok decision := by
  refine ⟨ownRule_accepted, ?_⟩
  have raised : createOwn (.arr [.num 1]) = .error .attributeError := rfl
  simp [raised]

theorem null_body_decided : ∃ decision, createOwn .null = .ok decision ∧
    (Method.ofName .asciiOnly Method.post.name = .post → Malformed .asciiOnly .null → decision.allowed = false) := by
  refine (body_decided_iff ownRule_accepted (.inl rfl) rfl .null).mpr ⟨[], rfl, none, rfl, ?_⟩
  rintro before rule after - ⟨-, -, -, pattern, name, -, ⟨⟩, -⟩

end Example

end CfProxy.Authorizer
