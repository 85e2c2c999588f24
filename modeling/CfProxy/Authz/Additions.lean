import CfProxy.Authz.Decisions
import CfProxy.Services.TokenPlane

set_option autoImplicit false

namespace CfProxy.Authorizer

open Text Scope

universe v

structure Pass where
  name : Json
  rtype : Json
  recordId : Json
  need : Need

def granted (u : Unicode) (rules : List ScopeRule) (zoneId : Str) (pass : Pass) : Except PyError Bool :=
  matchRules u rules zoneId pass.name pass.rtype pass.recordId pass.need

theorem normalizeName_congr {u : Unicode} {name other : Json} (same : Json.pyEq name other = true) :
    normalizeName u name = normalizeName u other := by
  have truthy := Json.truthy_congr same
  cases name with
  | str text => rw [Json.str_pyEq same]
  | _ => cases other <;> simp_all [normalizeName, Json.pyEq]

-- The rules do not tell values apart that Python takes for equal.
theorem matchRules_congr {u : Unicode} {rules : List ScopeRule} {zoneId : Str} {name otherName rtype otherType recordId : Json}
    {need : Need} (sameName : Json.pyEq name otherName = true) (sameType : Json.pyEq rtype otherType = true) :
    matchRules u rules zoneId name rtype recordId need = matchRules u rules zoneId otherName otherType recordId need := by
  have typed (rule : ScopeRule) : rule.typeAllowed rtype = rule.typeAllowed otherType := by
    simp only [ScopeRule.typeAllowed, Json.isIn_congr sameType]
  have searched (normalized : Option Str) : anyGrants u zoneId normalized rtype recordId need rules =
      anyGrants u zoneId normalized otherType recordId need rules := by
    induction rules with
    | nil => rfl
    | cons rule rest ih => simp only [anyGrants, ScopeRule.grants, typed, ih]
  simp only [matchRules, normalizeName_congr sameName, searched]

-- The rule is asked about the name, but its pattern cannot be canonicalised.
structure Chokes (u : Unicode) (rule : ScopeRule) (zoneId : Str) (pass : Pass) : Prop where
  zone : rule.zoneId = zoneId
  type : rule.typeAllowed pass.rtype = true
  id : rule.idAllowed pass.recordId = true
  name : pass.name ≠ .null
  pattern : ∃ pattern, rule.namePattern = some pattern ∧ ∀ canonical, normalizeFqdn u pattern ≠ .ok canonical

def Shadowed (u : Unicode) (rules : List ScopeRule) (zoneId : Str) (pass : Pass) : Prop :=
  ∃ before rule after, rules = before ++ rule :: after ∧ Chokes u rule zoneId pass ∧
    ∀ earlier ∈ before, granted u [earlier] zoneId pass ≠ .ok true

def unchanged (image body : Json.Dict) : Bool :=
  Json.pyEq (mergePatchImage image body).1 (Json.get image nameKey) &&
    Json.pyEq (mergePatchImage image body).2 (Json.get image typeKey)

def imagePasses (method : Method) (op : Need) (recordId : Option Str) (image : Json.Dict) (body : Json) :
    Option (List Pass) :=
  let first : Pass := ⟨Json.get image nameKey, Json.get image typeKey, Json.ofOption recordId, op⟩
  if method.renames then
    match bodyFields body with
    | .ok fields =>
      let (postName, postType) := mergePatchImage image fields
      some (first :: if unchanged image fields then [] else [⟨postName, postType, Json.ofOption recordId, op⟩])
    | .error _ => none
  else some [first]

def passes (method : Method) (zoneId : Str) (recordId : Option Str) (body : Json) (fetched : Except PyError Json) :
    Option (List Pass) :=
  match method.byIdOp with
  | none =>
    match method, bodyFields body with
    | .post, .ok fields => some [⟨Json.get fields nameKey, Json.get fields typeKey, .null, .create⟩]
    | _, _ => none
  | some op =>
    match fetched with
    | .ok (.obj image) => if inZone image zoneId then imagePasses method op recordId image body else none
    | _ => none

def Allowed (result : Except PyError AuthDecision) : Prop := result.map (·.allowed) = .ok true

theorem PlainField.canonical {u : Unicode} {name : Json} {normalized : Option Str} (plain : PlainField name)
    (present : name ≠ .null) (computed : normalizeName u name = .ok normalized) :
    ∃ text canonical, normalized = some text ∧ normalizeFqdn u text = .ok canonical := by
  obtain ⟨again, computedAgain, read⟩ := plain.read u
  obtain rfl : again = normalized := Except.ok.inj (computedAgain.symm.trans computed)
  cases plain with
  | absent => exact absurd rfl present
  | named plainText =>
    cases labelled : nameLabels (.str _) with
    | none => simp [nameLabels] at labelled
    | some labels =>
      rw [labelled] at read
      cases read with
      | named canonical => exact ⟨_, _, rfl, canonical⟩

section Search

variable {u : Unicode} {rules : List ScopeRule} {rule : ScopeRule} {zoneId : Str} {pass : Pass}
  {normalized : Option Str}

theorem granted_eq (computed : normalizeName u pass.name = .ok normalized) :
    granted u rules zoneId pass = anyGrants u zoneId normalized pass.rtype pass.recordId pass.need rules := by
  simp [granted, matchRules, computed]

theorem granted_single (computed : normalizeName u pass.name = .ok normalized) :
    granted u [rule] zoneId pass = .ok true ↔
      rule.grants u zoneId normalized pass.rtype pass.recordId pass.need = .ok true := by
  rw [granted_eq computed]
  cases answer : rule.grants u zoneId normalized pass.rtype pass.recordId pass.need with
  | error raised => simp [anyGrants, answer]
  | ok verdict => cases verdict <;> simp [anyGrants, answer]

theorem Chokes.raises (chokes : Chokes u rule zoneId pass) (plain : PlainField pass.name)
    (computed : normalizeName u pass.name = .ok normalized) :
    ∃ raised, rule.grants u zoneId normalized pass.rtype pass.recordId pass.need = .error raised := by
  obtain ⟨pattern, present, unreadable⟩ := chokes.pattern
  obtain ⟨raised, failed⟩ : ∃ raised, normalizeFqdn u pattern = .error raised := by
    cases canonical : normalizeFqdn u pattern with
    | ok text => exact absurd canonical (unreadable text)
    | error raised => exact ⟨raised, rfl⟩
  obtain ⟨text, canonical, rfl, -⟩ := plain.canonical chokes.name computed
  exact ⟨raised, by simp [ScopeRule.grants, ScopeRule.nameAllowed, chokes.zone, chokes.type, chokes.id, present,
    nameMatches, failed]⟩

theorem nameAllowed_ok
    (quiet : ¬(pass.name ≠ .null ∧ ∃ pattern, rule.namePattern = some pattern ∧
      ∀ canonical, normalizeFqdn u pattern ≠ .ok canonical))
    (plain : PlainField pass.name) (computed : normalizeName u pass.name = .ok normalized) :
    ∃ named, rule.nameAllowed u normalized = .ok named := by
  cases present : rule.namePattern with
  | none => exact ⟨true, by simp [ScopeRule.nameAllowed, present]⟩
  | some pattern =>
    by_cases nameless : pass.name = .null
    · obtain rfl : none = normalized := by simpa [nameless, normalizeName, Json.truthy] using computed
      exact ⟨false, by simp [ScopeRule.nameAllowed, present]⟩
    · obtain ⟨text, canonical, rfl, textOk⟩ := plain.canonical nameless computed
      obtain ⟨canonicalPattern, patternOk⟩ : ∃ canonical, normalizeFqdn u pattern = .ok canonical := by
        by_contra unreadable
        exact quiet ⟨nameless, pattern, present, fun canonical read => unreadable ⟨canonical, read⟩⟩
      obtain ⟨verdict, matched, -⟩ := nameMatches_decides rule.nameMatch patternOk textOk
      exact ⟨verdict, by simp [ScopeRule.nameAllowed, present, matched]⟩

theorem grants_ok (quiet : ¬Chokes u rule zoneId pass) (plain : PlainField pass.name)
    (computed : normalizeName u pass.name = .ok normalized) :
    ∃ verdict, rule.grants u zoneId normalized pass.rtype pass.recordId pass.need = .ok verdict := by
  by_cases zone : rule.zoneId = zoneId
  · cases type : rule.typeAllowed pass.rtype with
    | false => exact ⟨false, by simp [ScopeRule.grants, zone, type]⟩
    | true =>
      cases id : rule.idAllowed pass.recordId with
      | false => exact ⟨false, by simp [ScopeRule.grants, zone, type, id]⟩
      | true =>
        obtain ⟨named, computedName⟩ := nameAllowed_ok (fun choke => quiet ⟨zone, type, id, choke.1, choke.2⟩) plain computed
        exact ⟨named && rule.allows pass.need, by cases named <;> simp [ScopeRule.grants, zone, type, id, computedName]⟩
  · exact ⟨false, by simp [ScopeRule.grants, zone]⟩

theorem anyGrants_true (plain : PlainField pass.name) (computed : normalizeName u pass.name = .ok normalized)
    (grants : ∃ rule ∈ rules, rule.grants u zoneId normalized pass.rtype pass.recordId pass.need = .ok true) :
    anyGrants u zoneId normalized pass.rtype pass.recordId pass.need rules = .ok true ↔
      ¬Shadowed u rules zoneId pass := by
  induction rules with
  | nil => simp at grants
  | cons first rest ih =>
    by_cases chokes : Chokes u first zoneId pass
    · obtain ⟨raised, answer⟩ := chokes.raises plain computed
      have shadowed : Shadowed u (first :: rest) zoneId pass := ⟨[], first, rest, rfl, chokes, by simp⟩
      simp [anyGrants, answer, shadowed]
    · obtain ⟨verdict, answer⟩ := grants_ok chokes plain computed
      cases verdict with
      | true =>
        have clear : ¬Shadowed u (first :: rest) zoneId pass := by
          rintro ⟨before, rule, after, whole, choking, none⟩
          cases before with
          | nil =>
            obtain ⟨rfl, -⟩ : first = rule ∧ rest = after := by simpa using whole
            exact chokes choking
          | cons earlier before =>
            obtain ⟨rfl, -⟩ : first = earlier ∧ rest = before ++ rule :: after := by simpa using whole
            exact none first (by simp) ((granted_single computed).mpr answer)
        simp [anyGrants, answer, clear]
      | false =>
        have later : ∃ rule ∈ rest, rule.grants u zoneId normalized pass.rtype pass.recordId pass.need = .ok true := by
          obtain ⟨rule, member, granting⟩ := grants
          rcases List.mem_cons.mp member with rfl | member
          · simp [answer] at granting
          · exact ⟨rule, member, granting⟩
        have shadow : Shadowed u (first :: rest) zoneId pass ↔ Shadowed u rest zoneId pass := by
          constructor
          · rintro ⟨before, rule, after, whole, choking, none⟩
            cases before with
            | nil =>
              obtain ⟨rfl, -⟩ : first = rule ∧ rest = after := by simpa using whole
              exact absurd choking chokes
            | cons earlier before =>
              obtain ⟨rfl, rfl⟩ : first = earlier ∧ rest = before ++ rule :: after := by simpa using whole
              exact ⟨before, rule, after, rfl, choking, fun other member => none other (by simp [member])⟩
          · rintro ⟨before, rule, after, rfl, choking, none⟩
            refine ⟨first :: before, rule, after, rfl, choking, fun earlier member => ?_⟩
            rcases List.mem_cons.mp member with rfl | member
            · simp [granted_single computed, answer]
            · exact none earlier member
        simpa [anyGrants, answer, shadow] using ih later

theorem granting_member (granting : anyGrants u zoneId normalized pass.rtype pass.recordId pass.need rules = .ok true) :
    ∃ rule ∈ rules, rule.grants u zoneId normalized pass.rtype pass.recordId pass.need = .ok true := by
  induction rules with
  | nil => simp [anyGrants] at granting
  | cons rule rest ih =>
    cases answer : rule.grants u zoneId normalized pass.rtype pass.recordId pass.need with
    | error raised => simp [anyGrants, answer] at granting
    | ok verdict =>
      cases verdict with
      | true => exact ⟨rule, by simp, answer⟩
      | false =>
        obtain ⟨other, member, grants⟩ := ih (by simpa [anyGrants, answer] using granting)
        exact ⟨other, by simp [member], grants⟩

theorem granted_among {more : List ScopeRule} (plain : PlainField pass.name) (sub : ∀ rule ∈ rules, rule ∈ more)
    (grants : granted u rules zoneId pass = .ok true) :
    granted u more zoneId pass = .ok true ↔ ¬Shadowed u more zoneId pass := by
  obtain ⟨normalized, computed, -⟩ := plain.read u
  rw [granted_eq computed] at grants ⊢
  obtain ⟨rule, member, granting⟩ := granting_member grants
  exact anyGrants_true plain computed ⟨rule, sub rule member, granting⟩

end Search

section Decision

variable {u : Unicode} {rules more : List ScopeRule} {zoneId : Str} {recordId : Option Str}

theorem authorizeCreate_allowed {body : Json} :
    Allowed (authorizeCreate u rules zoneId body) ↔
      ∃ fields, bodyFields body = .ok fields ∧
        granted u rules zoneId ⟨Json.get fields nameKey, Json.get fields typeKey, .null, .create⟩ = .ok true := by
  unfold authorizeCreate Allowed granted
  cases bodyFields body with
  | error raised => simp
  | ok fields =>
    cases answer : matchRules u rules zoneId (Json.get fields nameKey) (Json.get fields typeKey) .null .create with
    | error raised => simp [answer]
    | ok verdict => cases verdict <;> simp [answer]

theorem authorizeImage_allowed {method : Method} {op : Need} {needsLock : Bool} {body pre : Json} :
    Allowed (authorizeImage u rules method op needsLock zoneId recordId body pre) ↔
      ∃ image asked, pre = .obj image ∧ inZone image zoneId = true ∧
        imagePasses method op recordId image body = some asked ∧
          ∀ pass ∈ asked, granted u rules zoneId pass = .ok true := by
  cases pre with
  | obj image =>
    unfold authorizeImage Allowed imagePasses granted
    cases here : inZone image zoneId with
    | false => simp [here]
    | true =>
      cases old : matchRules u rules zoneId (Json.get image nameKey) (Json.get image typeKey)
          (Json.ofOption recordId) op with
      | error raised =>
        cases method.renames <;> cases bodyFields body <;> simp [here, old]
      | ok covered =>
        cases covered with
        | false => cases method.renames <;> cases bodyFields body <;> simp [here, old]
        | true =>
          cases method.renames with
          | false => simp [here, old]
          | true =>
            cases bodyFields body with
            | error raised => simp [here, old]
            | ok fields =>
              by_cases same : Json.pyEq (mergePatchImage image fields).1 (Json.get image nameKey) = true ∧
                  Json.pyEq (mergePatchImage image fields).2 (Json.get image typeKey) = true
              · simp [unchanged, here, old, same]
              · have renamed : unchanged image fields = false := by simpa [unchanged] using same
                cases new : matchRules u rules zoneId (mergePatchImage image fields).1 (mergePatchImage image fields).2
                    (Json.ofOption recordId) op with
                | error raised => simp [renamed, here, old, same, new]
                | ok kept => cases kept <;> simp [renamed, here, old, same, new]
  | null => simp [authorizeImage, Allowed]
  | _ => simp [authorizeImage, Allowed]

theorem authorizeDnsRequest_allowed {ε : Type v} {methodName : Str} {body : Json}
    {fetchRecord : Str → Option Str → Traced ε Json} :
    Allowed (authorizeDnsRequest u rules methodName zoneId recordId body fetchRecord).result ↔
      ∃ asked, passes (Method.ofName u methodName) zoneId recordId body (fetchRecord zoneId recordId).result =
        some asked ∧ ∀ pass ∈ asked, granted u rules zoneId pass = .ok true := by
  unfold authorizeDnsRequest
  generalize Method.ofName u methodName = method
  cases byId : method.byIdOp with
  | some op =>
    have byIdOnly : method ≠ .post := by
      rintro rfl
      simp [Method.byIdOp, Method.mutationOp] at byId
    rcases fetching : fetchRecord zoneId recordId with ⟨events, raised | pre⟩
    · simp [byId, byIdOnly, authorizeById, fetching, passes, Allowed]
    · have decides : (authorizeById u rules method op zoneId recordId body fetchRecord).result =
          authorizeImage u rules method op
            (method.mutationOp.isSome && !isLockExempt rules zoneId (Json.ofOption recordId) op) zoneId recordId body
            pre := by
        simp [authorizeById, fetching]
      simp only [byIdOnly, if_false, byId]
      rw [decides, authorizeImage_allowed]
      unfold passes
      cases pre with
      | obj image => cases here : inZone image zoneId <;> simp [byId, here]
      | _ => simp [byId]
  | none =>
    cases method with
    | post =>
      simp only [if_true, Traced.lift_result]
      rw [authorizeCreate_allowed]
      unfold passes
      cases bodyFields body <;> simp [byId]
    | unsupported => simp [passes, Allowed, byId]
    | _ => simp [Method.byIdOp, Method.mutationOp] at byId

def PlainRequest (body : Json) (fetched : Except PyError Json) : Prop :=
  (∀ image, fetched = .ok (.obj image) → PlainField (Json.get image nameKey)) ∧
    ∀ fields, bodyFields body = .ok fields → PlainField (Json.get fields nameKey)

theorem PlainRequest.asked {method : Method} {body : Json} {fetched : Except PyError Json} {asked : List Pass}
    (plain : PlainRequest body fetched) (found : passes method zoneId recordId body fetched = some asked) {pass : Pass}
    (member : pass ∈ asked) : PlainField pass.name := by
  unfold passes at found
  split at found
  · split at found
    · next fields read _ =>
      obtain rfl := Option.some.inj found
      obtain rfl := List.mem_singleton.mp member
      exact plain.2 fields read
    · simp at found
  · split at found
    · next op image =>
      split at found
      · unfold imagePasses at found
        dsimp only at found
        split at found
        · split at found
          · next fields read =>
            obtain rfl := Option.some.inj found
            rcases List.mem_cons.mp member with rfl | later
            · exact plain.1 image rfl
            · split at later
              · simp at later
              · obtain rfl := List.mem_singleton.mp later
                exact (plain.1 image rfl).merged (plain.2 fields read)
          · simp at found
        · obtain rfl := Option.some.inj found
          obtain rfl := List.mem_singleton.mp member
          exact plain.1 image rfl
      · simp at found
    · simp at found

theorem added_rules_allow_iff {ε : Type v} (u : Unicode) (methodName : Str) {body : Json}
    {fetchRecord : Str → Option Str → Traced ε Json} (sub : ∀ rule ∈ rules, rule ∈ more)
    (plain : PlainRequest body (fetchRecord zoneId recordId).result)
    (allowed : Allowed (authorizeDnsRequest u rules methodName zoneId recordId body fetchRecord).result) :
    Allowed (authorizeDnsRequest u more methodName zoneId recordId body fetchRecord).result ↔
      ∀ asked, passes (Method.ofName u methodName) zoneId recordId body (fetchRecord zoneId recordId).result =
        some asked → ∀ pass ∈ asked, ¬Shadowed u more zoneId pass := by
  rw [authorizeDnsRequest_allowed] at allowed ⊢
  obtain ⟨asked, found, grants⟩ := allowed
  have each : ∀ pass ∈ asked, granted u more zoneId pass = .ok true ↔ ¬Shadowed u more zoneId pass :=
    fun pass member => granted_among (plain.asked found member) sub (grants pass member)
  constructor
  · rintro ⟨others, same, still⟩ again foundAgain pass member
    obtain rfl : asked = again := Option.some.inj (found.symm.trans foundAgain)
    obtain rfl : asked = others := Option.some.inj (found.symm.trans same)
    exact (each pass member).mp (still pass member)
  · intro clear
    exact ⟨asked, found, fun pass member => (each pass member).mpr (clear asked found pass member)⟩

end Decision

section Example

-- A rule as `_validate_scope_rules` accepts it.
def AcceptedRule (u : Unicode) (zoneName : Str → Str) (rule : ScopeRule) : Prop :=
  ∃ spec : TokenPlane.RuleSpec, spec.rule = rule ∧
    TokenPlane.validateScopeRules u (fun zone => .ok (zoneName zone)) [spec] = .ok ()

def specOf (pattern nameMatch : Str) : TokenPlane.RuleSpec where
  zoneId := ['z']
  namePattern := some pattern
  nameMatch := some nameMatch
  recordTypes := [['A']]
  recordIds := none
  allowRead := some true
  allowCreate := some true
  allowWrite := some true
  allowDelete := some true

def zoneName : Str := "example.com".toList
def ownName : Str := "a.example.com".toList
def anyName : Str := "*.example.com".toList
def dottedName : Str := "example.com..*".toList

def ownRule : ScopeRule := (specOf ownName exact).rule
def anyRule : ScopeRule := (specOf anyName wildcard).rule
def dottedRule : ScopeRule := (specOf dottedName wildcard).rule

def ownRecord : Json.Dict := [(nameKey, .str ownName), (typeKey, .str ['A'])]

def ownRead (rules : List ScopeRule) : Except PyError AuthDecision :=
  (authorizeDnsRequest .asciiOnly rules Method.get.name ['z'] (some ['r']) .null
    (fun _ _ => (pure (.obj ownRecord) : Traced Empty Json))).result

theorem ownRead_plain : PlainRequest .null (pure (.obj ownRecord) : Traced Empty Json).result := by
  constructor
  · rintro _ ⟨⟩
    exact .named (by decide +kernel)
  · rintro _ ⟨⟩
    exact .absent

theorem ownRead_allowed : Allowed (ownRead [ownRule]) := by
  unfold Allowed
  decide +kernel

theorem quiet_rules (pass : Pass) : ∀ rule ∈ [anyRule, ownRule], ¬Chokes .asciiOnly rule ['z'] pass := by
  intro rule member chokes
  obtain ⟨pattern, present, unreadable⟩ := chokes.pattern
  have plain : PlainName pattern := by
    have both : PlainName anyName ∧ PlainName ownName := by decide +kernel
    simp only [List.mem_cons, List.not_mem_nil, or_false] at member
    rcases member with rfl | rfl <;> obtain rfl := Option.some.inj present
    · exact both.1
    · exact both.2
  exact unreadable _ (normalizeFqdn_plain _ plain)

theorem wildcard_added : Allowed (ownRead [anyRule, ownRule]) := by
  have sub : ∀ rule ∈ [ownRule], rule ∈ [anyRule, ownRule] := by simp
  refine (added_rules_allow_iff .asciiOnly Method.get.name sub ownRead_plain ownRead_allowed).mpr ?_
  rintro asked - pass - ⟨before, rule, after, whole, chokes, -⟩
  exact quiet_rules pass rule (whole ▸ by simp) chokes

theorem dotted_rule_takes_away :
    ¬∀ (u : Unicode) (zoneNames : Str → Str) (rules more : List ScopeRule) (methodName zoneId : Str)
      (recordId : Option Str) (body : Json) (fetchRecord : Str → Option Str → Traced Empty Json),
      (∀ rule ∈ more, AcceptedRule u zoneNames rule) → (∀ rule ∈ rules, rule ∈ more) →
      (∀ rule ∈ more, ∀ pattern, rule.namePattern = some pattern → ascii pattern = true) →
      PlainRequest body (fetchRecord zoneId recordId).result →
      Allowed (authorizeDnsRequest u rules methodName zoneId recordId body fetchRecord).result →
      Allowed (authorizeDnsRequest u more methodName zoneId recordId body fetchRecord).result := by
  intro always
  have accepted (pattern nameMatch : Str)
      (valid : TokenPlane.validateScopeRules .asciiOnly (fun _ => .ok zoneName) [specOf pattern nameMatch] = .ok ()) :
      AcceptedRule .asciiOnly (fun _ => zoneName) (specOf pattern nameMatch).rule :=
    ⟨_, rfl, valid⟩
  have allowed : Allowed (ownRead [dottedRule, ownRule]) := by
    refine always .asciiOnly (fun _ => zoneName) [ownRule] [dottedRule, ownRule] _ _ _ _ _ ?_ (by simp) ?_ ownRead_plain ?_
    · simp only [List.mem_cons, List.not_mem_nil, or_false]
      rintro rule (rfl | rfl)
      · exact accepted dottedName wildcard (by decide +kernel)
      · exact accepted ownName exact (by decide +kernel)
    · simp only [List.mem_cons, List.not_mem_nil, or_false]
      rintro rule (rfl | rfl) pattern ⟨⟩ <;> decide +kernel
    · exact ownRead_allowed
  revert allowed
  unfold Allowed
  decide +kernel

end Example

end CfProxy.Authorizer
