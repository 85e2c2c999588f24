import CfProxy.Shared.Traced
import CfProxy.Core.Envelopes
import CfProxy.Authz.Coverage

set_option autoImplicit false

namespace CfProxy.Authorizer

open Text Scope Envelopes

universe v

inductive Method
  | post
  | get
  | patch
  | put
  | delete
  | unsupported
  deriving DecidableEq, Repr

def Method.name : Method → Str
  | .post => "POST".toList
  | .get => "GET".toList
  | .patch => "PATCH".toList
  | .put => "PUT".toList
  | .delete => "DELETE".toList
  | .unsupported => []

def Method.ofName (u : Unicode) (method : Str) : Method :=
  let methodUpper := upper u method
  if methodUpper = Method.post.name then .post
  else if methodUpper = Method.get.name then .get
  else if methodUpper = Method.patch.name then .patch
  else if methodUpper = Method.put.name then .put
  else if methodUpper = Method.delete.name then .delete
  else .unsupported

@[simp] theorem Method.upper_name (u : Unicode) (method : Method) : upper u method.name = method.name := by
  cases method <;> rfl

theorem Method.ofName_eq {u : Unicode} {methodName : Str} (method : Method) (same : upper u methodName = method.name) :
    Method.ofName u methodName = method := by
  unfold Method.ofName
  rw [same]
  cases method <;> rfl

theorem Method.upper_ofName (u : Unicode) (methodName : Str) :
    Method.ofName u methodName = .unsupported ∨ upper u methodName = (Method.ofName u methodName).name := by
  unfold Method.ofName
  dsimp only
  split_ifs <;> simp [*]

@[simp] theorem Method.ofName_name (u : Unicode) (method : Method) : Method.ofName u method.name = method :=
  Method.ofName_eq method (Method.upper_name u method)

-- `_MUTATION_OPS`.
def Method.mutationOp : Method → Option Need
  | .patch | .put => some .write
  | .delete => some .delete
  | _ => none

def Method.byIdOp : Method → Option Need
  | .get => some .read
  | method => method.mutationOp

-- `_RENAME_METHODS`.
def Method.renames : Method → Bool
  | .patch | .put => true
  | _ => false

structure AuthError where
  status : Nat
  code : Nat
  message : Str
  deriving DecidableEq

def insufficientScope : AuthError := ⟨403, forbidden, "Authorization error: insufficient scope".toList⟩
def unsupportedMethod : AuthError := ⟨403, forbidden, "Authorization error: unsupported method".toList⟩
def recordMissing : AuthError := ⟨404, recordNotFound, "Record does not exist.".toList⟩

structure AuthDecision where
  allowed : Bool
  needsLock : Bool := false
  error : Option AuthError := none
  preImage : Json := .null

-- `(body or {})`, as far as `.get` goes: only dicts have it.
def bodyFields (body : Json) : Except PyError Json.Dict :=
  if body.truthy then
    match body with
    | .obj fields => .ok fields
    | _ => .error .attributeError
  else .ok []

def authorizeCreate (u : Unicode) (rules : List ScopeRule) (zoneId : Str) (body : Json) :
    Except PyError AuthDecision := do
  let fields ← bodyFields body
  if ← matchRules u rules zoneId (Json.get fields nameKey) (Json.get fields typeKey)
      .null .create then
    return { allowed := true }
  return { allowed := false, error := some insufficientScope }

-- `pre.get("zone_id") in (None, zone_id)`.
def inZone (pre : Json.Dict) (zoneId : Str) : Bool :=
  match Json.get pre zoneIdKey with
  | .null => true
  | .str found => found == zoneId
  | _ => false

def authorizeImage (u : Unicode) (rules : List ScopeRule) (method : Method) (op : Need)
    (needsLock : Bool) (zoneId : Str) (recordId : Option Str) (body pre : Json) :
    Except PyError AuthDecision := do
  let missing : AuthDecision := { allowed := false, needsLock, error := some recordMissing }
  match pre with
  | .null => return missing
  | .obj image =>
    unless inZone image zoneId do return missing
    let preName := Json.get image nameKey
    let preType := Json.get image typeKey
    unless ← matchRules u rules zoneId preName preType (Json.ofOption recordId) op do
      return { missing with preImage := pre }
    if method.renames then
      let (postName, postType) := mergePatchImage image (← bodyFields body)
      unless Json.pyEq postName preName && Json.pyEq postType preType do
        unless ← matchRules u rules zoneId postName postType (Json.ofOption recordId) op do
          return { allowed := false, needsLock, error := some insufficientScope, preImage := pre }
    return { allowed := true, needsLock, preImage := pre }
  | _ => throw .attributeError

def authorizeById {ε : Type v} (u : Unicode) (rules : List ScopeRule) (method : Method) (op : Need)
    (zoneId : Str) (recordId : Option Str) (body : Json) (fetchRecord : Str → Option Str → Traced ε Json) :
    Traced ε AuthDecision := do
  let needsLock := method.mutationOp.isSome && !isLockExempt rules zoneId (Json.ofOption recordId) op
  let pre ← fetchRecord zoneId recordId
  Traced.lift (authorizeImage u rules method op needsLock zoneId recordId body pre)

def authorizeDnsRequest {ε : Type v} (u : Unicode) (rules : List ScopeRule) (methodName zoneId : Str)
    (recordId : Option Str) (body : Json) (fetchRecord : Str → Option Str → Traced ε Json) :
    Traced ε AuthDecision :=
  let method := Method.ofName u methodName
  if method = .post then Traced.lift (authorizeCreate u rules zoneId body)
  else match method.byIdOp with
    | none => pure { allowed := false, error := some unsupportedMethod }
    | some op => authorizeById u rules method op zoneId recordId body fetchRecord

def Explained (decision : AuthDecision) : Prop := decision.allowed = false → decision.error.isSome

theorem explained_allowed {decision : AuthDecision} (allowed : decision.allowed = true) : Explained decision := by
  simp [Explained, allowed]

theorem authorizeCreate_explained (u : Unicode) (rules : List ScopeRule) (zoneId : Str) (body : Json) :
    Returns Explained (authorizeCreate u rules zoneId body) := by
  refine .bind fun fields _ => .bind fun granted _ => ?_
  split
  · exact .ok (explained_allowed rfl)
  · exact .ok fun _ => rfl

theorem authorizeImage_explained (u : Unicode) (rules : List ScopeRule) (method : Method) (op : Need)
    (needsLock : Bool) (zoneId : Str) (recordId : Option Str) (body pre : Json) :
    Returns Explained (authorizeImage u rules method op needsLock zoneId recordId body pre) := by
  unfold authorizeImage
  dsimp only
  split
  · exact .ok fun _ => rfl
  · split
    · refine .bind fun granted _ => ?_
      split
      · split
        · refine .bind fun fields _ => ?_
          split
          · exact .ok (explained_allowed rfl)
          · refine .bind fun kept _ => ?_
            split
            · exact .ok (explained_allowed rfl)
            · exact .ok fun _ => rfl
        · exact .ok (explained_allowed rfl)
      · exact .ok fun _ => rfl
    · exact .ok fun _ => rfl
  · exact .error _

theorem authorizeDnsRequest_explained {ε : Type} (u : Unicode) (rules : List ScopeRule) (method zoneId : Str)
    (recordId : Option Str) (body : Json) (fetchRecord : Str → Option Str → Traced ε Json) :
    Returns Explained (authorizeDnsRequest u rules method zoneId recordId body fetchRecord).result := by
  unfold authorizeDnsRequest
  dsimp only
  split
  · exact authorizeCreate_explained u rules zoneId body
  · split
    · exact .ok fun _ => rfl
    · unfold authorizeById
      rcases fetchRecord zoneId recordId with ⟨events, raised | pre⟩
      · exact .error raised
      · exact authorizeImage_explained _ _ _ _ _ _ _ _ _

end CfProxy.Authorizer
