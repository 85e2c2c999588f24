import CfProxy.Authz.Visibility

set_option autoImplicit false

namespace CfProxy.Authorizer

open Text Scope

universe v

def ReadableRules (u : Unicode) (rules : List ScopeRule) : Prop :=
  ∀ rule ∈ rules, ∀ pattern, rule.namePattern = some pattern → ∃ canonical, normalizeFqdn u pattern = .ok canonical

inductive ReadableName (u : Unicode) : Json → Prop
  | absent : ReadableName u .null
  | named {name canonical : Str} (plain : ascii name = true) (ok : normalizeFqdn u name = .ok canonical) :
      ReadableName u (.str name)

variable {u : Unicode} {rules : List ScopeRule} {zoneId : Str} {recordId : Option Str} {op : Need}

theorem ReadableRules.read (readable : ReadableRules u rules) : PatternsRead u (canonicalLabels u) rules := by
  intro rule member pattern present
  obtain ⟨canonical, ok⟩ := readable rule member pattern present
  exact ⟨canonical, ok, by rw [canonicalLabels, ok]⟩

theorem ReadableName.read {name : Json} (readable : ReadableName u name) :
    ∃ normalized labels, normalizeName u name = .ok normalized ∧ NameRead u normalized labels := by
  cases readable with
  | absent => exact ⟨none, none, rfl, .absent⟩
  | @named name canonical plain ok =>
    by_cases empty : name = []
    · exact ⟨none, none, by simp [normalizeName, Json.truthy, empty], .absent⟩
    · -- Matching canonicalises the canonical form once more.
      obtain ⟨again, againOk⟩ := normalizeFqdn_again plain ok
      exact ⟨some canonical, some (again.splitOn '.'),
        by simp [normalizeName, Json.truthy, empty, ok, Functor.map], .named againOk⟩

theorem ReadableName.merged {image body : Json.Dict} (old : ReadableName u (Json.get image nameKey))
    (new : ReadableName u (Json.get body nameKey)) : ReadableName u (mergePatchImage image body).1 := by
  unfold mergePatchImage Json.getD
  unfold Json.get at new
  cases given : body.lookup nameKey with
  | none => simpa using old
  | some name => simpa [given] using new

theorem exempts_covers {rule : ScopeRule} {recordId : Json} (exempts : rule.exempts zoneId recordId op = true)
    (patternLabels : Str → List Str) (labels : Option (List Str)) (rtype : Json) :
    CoversLabels patternLabels rule zoneId labels rtype recordId op := by
  unfold ScopeRule.exempts at exempts
  simp only [Bool.and_eq_true, beq_iff_eq, Option.isNone_iff_eq_none] at exempts
  obtain ⟨⟨⟨⟨zone, unnamed⟩, anyType⟩, pinned⟩, flag⟩ := exempts
  constructor
  · exact zone
  · simp [anyType]
  · intro ids present _
    rw [present] at pinned
    cases ids with
    | nil => simp at pinned
    | cons => exact Json.isIn_iff.mp pinned
  · simp [unnamed]
  · exact (flagged_iff rule op).mpr flag

theorem exempt_grants (readable : ReadableRules u rules) {recordId : Json}
    (exempt : isLockExempt rules zoneId recordId op = true) {name : Json} (nameReadable : ReadableName u name)
    (rtype : Json) : matchRules u rules zoneId name rtype recordId op = .ok true := by
  obtain ⟨normalized, labels, computed, read⟩ := nameReadable.read
  obtain ⟨rule, member, exempts⟩ := List.any_eq_true.mp exempt
  exact (matchRules_decides readable.read computed read zoneId rtype recordId op).ok_true.mpr
    ⟨rule, member, exempts_covers exempts _ labels rtype⟩

theorem authorizeImage_lock (u : Unicode) (rules : List ScopeRule) (method : Method) (op : Need) (needsLock : Bool)
    (zoneId : Str) (recordId : Option Str) (body pre : Json) :
    Returns (·.needsLock = needsLock) (authorizeImage u rules method op needsLock zoneId recordId body pre) := by
  unfold authorizeImage
  dsimp only
  split
  · exact .ok rfl
  · split
    · refine .bind fun granted _ => ?_
      split
      · split
        · refine .bind fun fields _ => ?_
          split
          · exact .ok rfl
          · refine .bind fun kept _ => ?_
            split <;> exact .ok rfl
        · exact .ok rfl
      · exact .ok rfl
    · exact .ok rfl
  · exact .error _

theorem authorizeImage_exempt (readable : ReadableRules u rules)
    (exempt : isLockExempt rules zoneId (Json.ofOption recordId) op = true) {image fields : Json.Dict} {body : Json}
    (here : InZone image zoneId) (given : bodyFields body = .ok fields) (old : ReadableName u (Json.get image nameKey))
    (new : ReadableName u (Json.get fields nameKey)) (method : Method) (needsLock : Bool) :
    authorizeImage u rules method op needsLock zoneId recordId body (.obj image) =
      .ok { allowed := true, needsLock, preImage := .obj image } := by
  have grants {name : Json} (readableName : ReadableName u name) (rtype : Json) :
      matchRules u rules zoneId name rtype (Json.ofOption recordId) op = .ok true :=
    exempt_grants readable exempt readableName rtype
  rw [← inZone_iff] at here
  unfold authorizeImage
  cases method.renames with
  | false => simp [here, grants old]
  | true =>
    by_cases unchanged : Json.pyEq (mergePatchImage image fields).1 (Json.get image nameKey) = true ∧
        Json.pyEq (mergePatchImage image fields).2 (Json.get image typeKey) = true
    · simp [here, grants old, given, unchanged]
    · simp [here, grants old, given, unchanged, grants (old.merged new)]

theorem byIdOp_of_mutationOp {method : Method} (mutation : method.mutationOp = some op) :
    method.byIdOp = some op ∧ method ≠ .post := by
  cases method <;> simp_all [Method.mutationOp, Method.byIdOp]

theorem authorizeDnsRequest_mutation {ε : Type v} {methodName : Str}
    (mutation : (Method.ofName u methodName).mutationOp = some op) (body : Json)
    (fetchRecord : Str → Option Str → Traced ε Json) :
    (authorizeDnsRequest u rules methodName zoneId recordId body fetchRecord).result =
      (fetchRecord zoneId recordId).result >>= authorizeImage u rules (Method.ofName u methodName) op
        (!isLockExempt rules zoneId (Json.ofOption recordId) op) zoneId recordId body := by
  obtain ⟨byId, notPost⟩ := byIdOp_of_mutationOp mutation
  unfold authorizeDnsRequest authorizeById
  rcases fetchRecord zoneId recordId with ⟨events, raised | pre⟩ <;> simp [byId, notPost, mutation]

theorem lock_exemption_exact {ε : Type v} (u : Unicode) (rules : List ScopeRule) (methodName zoneId : Str)
    (recordId : Option Str) (op : Need) (readable : ReadableRules u rules)
    (mutation : (Method.ofName u methodName).mutationOp = some op) :
    (isLockExempt rules zoneId (Json.ofOption recordId) op = true →
      ∀ (image fields : Json.Dict) (body : Json) (fetchRecord : Str → Option Str → Traced ε Json),
        (fetchRecord zoneId recordId).result = .ok (.obj image) → InZone image zoneId →
        bodyFields body = .ok fields → ReadableName u (Json.get image nameKey) →
        ReadableName u (Json.get fields nameKey) →
        (authorizeDnsRequest u rules methodName zoneId recordId body fetchRecord).result =
          .ok { allowed := true, needsLock := false, preImage := .obj image }) ∧
    (isLockExempt rules zoneId (Json.ofOption recordId) op = false →
      ∀ (body : Json) (fetchRecord : Str → Option Str → Traced ε Json),
        Returns (·.needsLock = true)
          (authorizeDnsRequest u rules methodName zoneId recordId body fetchRecord).result) := by
  constructor
  · intro exempt image fields body fetchRecord fetched here given old new
    rw [authorizeDnsRequest_mutation mutation, fetched, exempt]
    exact authorizeImage_exempt readable exempt here given old new _ false
  · intro bound body fetchRecord
    rw [authorizeDnsRequest_mutation mutation, bound]
    exact .bind fun pre _ => authorizeImage_lock u rules _ op true zoneId recordId body pre

section Example

-- A pinned record, behind a rule on names that does not cover it.
def pinnedRules : List ScopeRule :=
  [.named ['z'] "b.example.com".toList exact ['A'], .pin ['z'] ['r']]

def pinnedRecord : Json.Dict := [(nameKey, .str "a.example.com".toList), (typeKey, .str ['A'])]

theorem pinnedRules_readable : ReadableRules .asciiOnly pinnedRules := by
  intro rule member pattern present
  simp only [pinnedRules, List.mem_cons, List.not_mem_nil, or_false] at member
  rcases member with rfl | rfl
  · obtain rfl := Option.some.inj present
    exact ⟨"b.example.com".toList, by decide +kernel⟩
  · simp [ScopeRule.pin] at present

theorem pinned_rename_allowed :
    (authorizeDnsRequest .asciiOnly pinnedRules Method.patch.name ['z'] (some ['r'])
        (.obj [(nameKey, .str "c.example.com".toList)])
        (fun _ _ => (pure (.obj pinnedRecord) : Traced Empty Json))).result =
      .ok { allowed := true, needsLock := false, preImage := .obj pinnedRecord } := by
  have named (name : Str) (plain : PlainName name) : ReadableName .asciiOnly (.str name) :=
    .named (List.all_eq_true.mpr plain.ascii) (normalizeFqdn_plain _ plain)
  exact (lock_exemption_exact .asciiOnly pinnedRules Method.patch.name ['z'] (some ['r']) .write pinnedRules_readable
    rfl).1 (by decide +kernel) pinnedRecord _ _ _ rfl (.inl rfl) (bodyFields_obj _)
    (named "a.example.com".toList (by decide +kernel)) (named "c.example.com".toList (by decide +kernel))

end Example

end CfProxy.Authorizer
