import CfProxy.Authz.Authorizer

set_option autoImplicit false

namespace CfProxy.Authorizer

open Text Scope

universe v

def nameLabels : Json → Option (List Str)
  | .str name => some (labels name)
  | _ => none

def Covered (rules : List ScopeRule) (zoneId : Str) (name rtype recordId : Json) (need : Need) : Prop :=
  ∃ rule ∈ rules, CoversLabels labels rule zoneId (nameLabels name) rtype recordId need

inductive PlainField : Json → Prop
  | absent : PlainField .null
  | named {name : Str} (plain : PlainName name) : PlainField (.str name)

def PlainRules (rules : List ScopeRule) : Prop :=
  ∀ rule ∈ rules, ∀ pattern, rule.namePattern = some pattern → PlainName pattern

theorem PlainRules.read {rules : List ScopeRule} (plain : PlainRules rules) (u : Unicode) :
    PatternsRead u labels rules := by
  intro rule member pattern present
  have plainPattern := plain rule member pattern present
  exact ⟨_, normalizeFqdn_plain u plainPattern, plainPattern.canonical_labels⟩

theorem PlainField.read {name : Json} (plain : PlainField name) (u : Unicode) :
    ∃ normalized, normalizeName u name = .ok normalized ∧ NameRead u normalized (nameLabels name) := by
  cases plain with
  | absent => exact ⟨none, rfl, .absent⟩
  | @named name plain =>
    have nonempty : name ≠ [] := by
      rintro rfl
      exact plain.nonempty rfl
    refine ⟨some ((rstripDots name).map Char.toLower), ?_, ?_⟩
    · simp [normalizeName, Json.truthy, nonempty, normalizeFqdn_plain u plain, Functor.map, Except.map]
    · rw [nameLabels, plain.canonical_labels]
      exact .named (normalizeFqdn_canonical u plain)

theorem matchRules_covered {rules : List ScopeRule} {name : Json} (u : Unicode) (plainRules : PlainRules rules)
    (plainName : PlainField name) (zoneId : Str) (rtype recordId : Json) (need : Need) :
    Decides (matchRules u rules zoneId name rtype recordId need)
      (Covered rules zoneId name rtype recordId need) := by
  obtain ⟨normalized, computed, read⟩ := plainName.read u
  exact matchRules_decides (plainRules.read u) computed read zoneId rtype recordId need

theorem Covered.congr {rules : List ScopeRule} {zoneId : Str} {name other rtype otherType recordId : Json}
    {need : Need} (plainOther : PlainField other) (sameName : Json.pyEq name other = true)
    (sameType : Json.pyEq rtype otherType = true)
    (covered : Covered rules zoneId other otherType recordId need) :
    Covered rules zoneId name rtype recordId need := by
  obtain rfl : name = other := by
    cases plainOther with
    | absent => exact Json.pyEq_null sameName
    | named => exact Json.pyEq_str sameName
  obtain ⟨rule, member, covers⟩ := covered
  refine ⟨rule, member, { covers with type := ?_ }⟩
  have type := covers.type
  rwa [← Json.isIn_iff, ← Json.isIn_congr sameType, Json.isIn_iff] at type

def InZone (image : Json.Dict) (zoneId : Str) : Prop :=
  Json.get image zoneIdKey = .null ∨ Json.get image zoneIdKey = .str zoneId

theorem inZone_iff (image : Json.Dict) (zoneId : Str) : inZone image zoneId = true ↔ InZone image zoneId := by
  unfold inZone InZone
  generalize Json.get image zoneIdKey = stated
  cases stated <;> simp

def ImageCovered (rules : List ScopeRule) (zoneId : Str) (recordId : Option Str) (op : Need)
    (image : Json.Dict) : Prop :=
  InZone image zoneId ∧ Covered rules zoneId (Json.get image nameKey) (Json.get image typeKey) (Json.ofOption recordId) op

-- A field of the record that a PATCH or PUT leaves: the body's where the body has the key, else the image's.
inductive Leaves (image body : Json.Dict) (key : Str) : Json → Prop
  | given {value : Json} (present : body.lookup key = some value) : Leaves image body key value
  | kept (absent : body.lookup key = none) : Leaves image body key (Json.get image key)

-- What each method may do, independently of how the decision is computed.
inductive Permitted (rules : List ScopeRule) (zoneId : Str) (recordId : Option Str) (body : Json.Dict)
    (fetched : Option Json.Dict) : Str → Prop
  | post (covered : Covered rules zoneId (Json.get body nameKey) (Json.get body typeKey) .null .create) :
      Permitted rules zoneId recordId body fetched "POST".toList
  | get {image : Json.Dict} (found : fetched = some image) (covered : ImageCovered rules zoneId recordId .read image) :
      Permitted rules zoneId recordId body fetched "GET".toList
  | delete {image : Json.Dict} (found : fetched = some image)
      (covered : ImageCovered rules zoneId recordId .delete image) :
      Permitted rules zoneId recordId body fetched "DELETE".toList
  | overlay {image : Json.Dict} {name rtype : Json} {method : Str}
      (overlays : method = "PATCH".toList ∨ method = "PUT".toList) (found : fetched = some image)
      (covered : ImageCovered rules zoneId recordId .write image) (leavesName : Leaves image body nameKey name)
      (leavesType : Leaves image body typeKey rtype)
      (stillCovered : Covered rules zoneId name rtype (Json.ofOption recordId) .write) :
      Permitted rules zoneId recordId body fetched method

theorem leaves_getD {image body : Json.Dict} {key : Str} {value : Json} :
    Leaves image body key value ↔ value = Json.getD body key (Json.get image key) := by
  unfold Json.getD
  constructor
  · rintro (⟨present⟩ | ⟨absent⟩)
    · rw [present, Option.getD_some]
    · rw [absent, Option.getD_none]
  · rintro rfl
    cases found : body.lookup key with
    | some value => exact .given found
    | none => exact .kept found

def PermittedBy (rules : List ScopeRule) (zoneId : Str) (recordId : Option Str) (body : Json.Dict)
    (fetched : Option Json.Dict) : Method → Prop
  | .post => Covered rules zoneId (Json.get body nameKey) (Json.get body typeKey) .null .create
  | .get => ∃ image, fetched = some image ∧ ImageCovered rules zoneId recordId .read image
  | .delete => ∃ image, fetched = some image ∧ ImageCovered rules zoneId recordId .delete image
  | .patch | .put => ∃ image, fetched = some image ∧ ImageCovered rules zoneId recordId .write image ∧
      Covered rules zoneId (mergePatchImage image body).1 (mergePatchImage image body).2
        (Json.ofOption recordId) .write
  | .unsupported => False

theorem bodyFields_obj (body : Json.Dict) : bodyFields (.obj body) = .ok body := by
  cases body <;> simp [bodyFields]

theorem PlainField.merged {image body : Json.Dict} (plainImage : PlainField (Json.get image nameKey))
    (plainBody : PlainField (Json.get body nameKey)) : PlainField (mergePatchImage image body).1 := by
  unfold mergePatchImage Json.getD
  unfold Json.get at plainBody
  cases given : body.lookup nameKey with
  | none => simpa using plainImage
  | some name => simpa [given] using plainBody

theorem authorizeCreate_decides {rules : List ScopeRule} {body : Json.Dict} (u : Unicode)
    (plainRules : PlainRules rules) (plainBody : PlainField (Json.get body nameKey)) (zoneId : Str) :
    Decides ((authorizeCreate u rules zoneId (.obj body)).map (·.allowed))
      (Covered rules zoneId (Json.get body nameKey) (Json.get body typeKey) .null .create) := by
  unfold authorizeCreate
  rw [bodyFields_obj]
  rcases (matchRules_covered u plainRules plainBody zoneId (Json.get body typeKey) .null .create).cases with
    ⟨covered, computed⟩ | ⟨uncovered, computed⟩
  · exact ⟨true, by simp [computed], by simpa⟩
  · exact ⟨false, by simp [computed], by simpa⟩

theorem authorizeImage_decides {rules : List ScopeRule} {image body : Json.Dict} (u : Unicode)
    (plainRules : PlainRules rules) (plainImage : PlainField (Json.get image nameKey))
    (plainBody : PlainField (Json.get body nameKey)) (method : Method) (op : Need) (needsLock : Bool)
    (zoneId : Str) (recordId : Option Str) :
    Decides ((authorizeImage u rules method op needsLock zoneId recordId (.obj body) (.obj image)).map (·.allowed))
      (ImageCovered rules zoneId recordId op image ∧ (method.renames = true →
        Covered rules zoneId (mergePatchImage image body).1 (mergePatchImage image body).2
          (Json.ofOption recordId) op)) := by
  unfold authorizeImage ImageCovered
  rw [← inZone_iff, bodyFields_obj]
  cases here : inZone image zoneId with
  | false => exact ⟨false, by simp [here], by simp⟩
  | true =>
    rcases (matchRules_covered u plainRules plainImage zoneId (Json.get image typeKey)
      (Json.ofOption recordId) op).cases with ⟨covered, old⟩ | ⟨uncovered, old⟩
    · cases renames : method.renames with
      | false => exact ⟨true, by simp [here, old], by simpa using covered⟩
      | true =>
        have plainMerged := plainImage.merged plainBody
        by_cases unchanged : Json.pyEq (mergePatchImage image body).1 (Json.get image nameKey) = true ∧
            Json.pyEq (mergePatchImage image body).2 (Json.get image typeKey) = true
        · have still := covered.congr plainImage unchanged.1 unchanged.2
          exact ⟨true, by simp [here, old, unchanged], by simpa using ⟨covered, still⟩⟩
        · rcases (matchRules_covered u plainRules plainMerged zoneId (mergePatchImage image body).2
            (Json.ofOption recordId) op).cases with ⟨kept, new⟩ | ⟨escapes, new⟩
          · exact ⟨true, by simp [here, old, unchanged, new], by simpa using ⟨covered, kept⟩⟩
          · exact ⟨false, by simp [here, old, unchanged, new], by simp [escapes]⟩
    · exact ⟨false, by simp [here, old], by simp [uncovered]⟩

theorem permitted_byId {method : Method} {op : Need} (byId : method.byIdOp = some op) (rules : List ScopeRule)
    (zoneId : Str) (recordId : Option Str) (body : Json.Dict) (fetched : Option Json.Dict) :
    PermittedBy rules zoneId recordId body fetched method ↔
      ∃ image, fetched = some image ∧ ImageCovered rules zoneId recordId op image ∧
        (method.renames = true →
          Covered rules zoneId (mergePatchImage image body).1 (mergePatchImage image body).2
            (Json.ofOption recordId) op) := by
  cases method <;> simp only [Method.byIdOp, Method.mutationOp, Option.some.injEq, reduceCtorEq] at byId <;>
    subst byId <;> simp [PermittedBy, Method.renames]

theorem authorizeById_decides {ε : Type v} {rules : List ScopeRule} {zoneId : Str} {recordId : Option Str}
    {body : Json.Dict} {fetched : Option Json.Dict} {fetchRecord : Str → Option Str → Traced ε Json}
    {method : Method} {op : Need} (u : Unicode) (byId : method.byIdOp = some op)
    (fetches : (fetchRecord zoneId recordId).result = .ok (fetched.elim .null .obj))
    (plainRules : PlainRules rules) (plainBody : PlainField (Json.get body nameKey))
    (plainImage : ∀ image, fetched = some image → PlainField (Json.get image nameKey)) :
    Decides ((authorizeById u rules method op zoneId recordId (.obj body) fetchRecord).result.map (·.allowed))
      (PermittedBy rules zoneId recordId body fetched method) := by
  unfold authorizeById
  rw [permitted_byId byId]
  rcases fetching : fetchRecord zoneId recordId with ⟨events, result⟩
  obtain rfl : result = .ok (fetched.elim .null .obj) := by simpa [fetching] using fetches
  cases fetched with
  | none => exact ⟨false, by simp [Traced.lift, authorizeImage], by simp⟩
  | some image =>
    have decided := authorizeImage_decides u plainRules (plainImage image rfl) plainBody method op
      (method.mutationOp.isSome && !isLockExempt rules zoneId (Json.ofOption recordId) op) zoneId recordId
    exact decided.congr (by simp)

theorem PermittedBy.named {rules : List ScopeRule} {zoneId : Str} {recordId : Option Str} {body : Json.Dict}
    {fetched : Option Json.Dict} {method : Method} (permitted : PermittedBy rules zoneId recordId body fetched method) :
    Permitted rules zoneId recordId body fetched method.name := by
  cases method with
  | post => exact .post permitted
  | get =>
    obtain ⟨image, found, covered⟩ := permitted
    exact .get found covered
  | delete =>
    obtain ⟨image, found, covered⟩ := permitted
    exact .delete found covered
  | patch =>
    obtain ⟨image, found, covered, still⟩ := permitted
    exact .overlay (.inl rfl) found covered (leaves_getD.mpr rfl) (leaves_getD.mpr rfl) still
  | put =>
    obtain ⟨image, found, covered, still⟩ := permitted
    exact .overlay (.inr rfl) found covered (leaves_getD.mpr rfl) (leaves_getD.mpr rfl) still
  | unsupported => exact permitted.elim

theorem permittedBy_ofName {u : Unicode} {methodName zoneId : Str} {rules : List ScopeRule} {recordId : Option Str}
    {body : Json.Dict} {fetched : Option Json.Dict} :
    PermittedBy rules zoneId recordId body fetched (Method.ofName u methodName) ↔
      Permitted rules zoneId recordId body fetched (upper u methodName) := by
  constructor
  · intro permitted
    rcases Method.upper_ofName u methodName with unsupported | named
    · rw [unsupported] at permitted
      exact permitted.elim
    · rw [named]
      exact permitted.named
  · generalize same : upper u methodName = name
    rintro (covered | ⟨found, covered⟩ | ⟨found, covered⟩ | ⟨overlays, found, covered, leavesName, leavesType, still⟩)
    · rw [Method.ofName_eq .post same]
      exact covered
    · rw [Method.ofName_eq .get same]
      exact ⟨_, found, covered⟩
    · rw [Method.ofName_eq .delete same]
      exact ⟨_, found, covered⟩
    · obtain rfl := leaves_getD.mp leavesName
      obtain rfl := leaves_getD.mp leavesType
      rcases overlays with rfl | rfl
      · rw [Method.ofName_eq .patch same]
        exact ⟨_, found, covered, still⟩
      · rw [Method.ofName_eq .put same]
        exact ⟨_, found, covered, still⟩

-- No scope escape and no lost grant: the decision is to allow exactly what the rules permit.
theorem authorizeDnsRequest_permitted {ε : Type v} (u : Unicode) (rules : List ScopeRule)
    (methodName zoneId : Str) (recordId : Option Str) (body : Json.Dict) (fetched : Option Json.Dict)
    (fetchRecord : Str → Option Str → Traced ε Json)
    (fetches : (fetchRecord zoneId recordId).result = .ok (fetched.elim .null .obj))
    (plainRules : PlainRules rules) (plainBody : PlainField (Json.get body nameKey))
    (plainImage : ∀ image, fetched = some image → PlainField (Json.get image nameKey)) :
    Decides
      ((authorizeDnsRequest u rules methodName zoneId recordId (.obj body) fetchRecord).result.map (·.allowed))
      (Permitted rules zoneId recordId body fetched (upper u methodName)) := by
  rw [← permittedBy_ofName]
  unfold authorizeDnsRequest
  generalize Method.ofName u methodName = method
  cases byId : method.byIdOp with
  | some op =>
    have byIdOnly : method ≠ .post := by
      rintro rfl
      simp [Method.byIdOp, Method.mutationOp] at byId
    simpa [byIdOnly, byId] using authorizeById_decides u byId fetches plainRules plainBody plainImage
  | none =>
    cases method with
    | post => simpa [PermittedBy] using authorizeCreate_decides u plainRules plainBody zoneId
    | unsupported => exact ⟨false, by simp [byId], by simp [PermittedBy]⟩
    | _ => simp [Method.byIdOp, Method.mutationOp] at byId

section Example

-- One record, which may keep its name or be given another one in the same place, but not a name elsewhere.

def wildRules : List ScopeRule := [.named "z".toList "*.example.com".toList wildcard "A".toList]

def wildImage : Json.Dict := [(nameKey, .str "a.example.com".toList), (typeKey, .str "A".toList)]

def renameTo (name : Str) : Json.Dict := [(nameKey, .str name)]

def renamed (name : Str) : Except PyError AuthDecision :=
  (authorizeDnsRequest Unicode.asciiOnly wildRules "patch".toList "z".toList (some "r".toList) (.obj (renameTo name))
    (fun _ _ => (pure (.obj wildImage) : Traced Empty Json))).result

theorem wildRules_plain : PlainRules wildRules := by
  rintro rule member pattern present
  obtain rfl := List.mem_singleton.mp member
  obtain rfl := Option.some.inj present
  decide

theorem rename_permitted :
    ((renamed "B.example.com.".toList).map (·.allowed) = .ok true ∧ Permitted wildRules "z".toList (some "r".toList)
      (renameTo "B.example.com.".toList) (some wildImage) "PATCH".toList) ∧
    (renamed "b.example.org".toList).map (·.allowed) = .ok false ∧ ¬Permitted wildRules "z".toList (some "r".toList)
      (renameTo "b.example.org".toList) (some wildImage) "PATCH".toList := by
  have decides (name : Str) (plain : PlainName name) := authorizeDnsRequest_permitted Unicode.asciiOnly wildRules
    "patch".toList "z".toList (some "r".toList) (renameTo name) (some wildImage)
    (fun _ _ => (pure (.obj wildImage) : Traced Empty Json)) rfl wildRules_plain (.named plain) (by
      rintro image ⟨⟩
      exact .named (by decide))
  have stays : (renamed "B.example.com.".toList).map (·.allowed) = .ok true := by decide +kernel
  have leaves : (renamed "b.example.org".toList).map (·.allowed) = .ok false := by decide +kernel
  exact ⟨⟨stays, (decides _ (by decide)).ok_true.mp stays⟩, leaves, (decides _ (by decide)).ok_false.mp leaves⟩

end Example

end CfProxy.Authorizer
