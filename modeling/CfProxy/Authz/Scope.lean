import CfProxy.Shared.Text

set_option autoImplicit false

namespace CfProxy.Scope

open Text

inductive Need
  | read
  | create
  | write
  | delete
  deriving DecidableEq, Repr

-- The attributes of a `ScopeRule` row that matching reads.
structure ScopeRule where
  zoneId : Str
  namePattern : Option Str
  nameMatch : Str
  recordTypes : List Str
  recordIds : Option (List Str)
  allowRead : Bool
  allowCreate : Bool
  allowWrite : Bool
  allowDelete : Bool
  deriving DecidableEq

def normalizeFqdn (u : Unicode) (name : Str) : Except PyError Str :=
  let stripped := lower u (rstripDots (strip name))
  if stripped.isEmpty then .ok stripped
  else match encodeIdna u stripped with
    | some encoded => .ok encoded
    | none => .error (.unicodeError (u.idnaError stripped))

def exact : Str := "exact".toList
def wildcard : Str := "wildcard".toList
def star : Str := ['*']

-- `candidate == zone or candidate.endswith("." + zone)`.
def endsInZone (candidate zone : Str) : Bool :=
  candidate == zone || ('.' :: zone).isSuffixOf candidate

def outsideZone (u : Unicode) (zoneName : Str) : Str := " does not end in zone ".toList ++ u.repr zoneName

def validateNamePattern (u : Unicode) (pattern nameMatch zoneName : Str) : Except PyError Unit := do
  if nameMatch ≠ exact ∧ nameMatch ≠ wildcard then
    throw (.valueError ("unknown name_match: ".toList ++ u.repr nameMatch))
  let zone ← normalizeFqdn u zoneName
  if nameMatch = exact then
    if pattern.contains '*' then throw (.valueError "exact name_pattern must not contain '*'".toList)
    let candidate ← if pattern = ['@'] then pure zone else normalizeFqdn u pattern
    unless endsInZone candidate zone do
      throw (.valueError ("name_pattern ".toList ++ u.repr pattern ++ outsideZone u zoneName))
  else
    if pattern.count '*' ≠ 1 then
      throw (.valueError "wildcard name_pattern must contain exactly one '*'".toList)
    let labels := pattern.splitOn '.'
    let starIndex := labels.findIdx (·.contains '*')
    if labels[starIndex]? ≠ some star then
      throw (.valueError ("'*' must occupy a whole label, got ".toList ++ u.repr (labels.getD starIndex [])))
    let remainder := ['.'].intercalate (labels.eraseIdx starIndex)
    let remainderNorm ← if remainder.isEmpty then pure [] else normalizeFqdn u remainder
    unless endsInZone remainderNorm zone do
      throw (.valueError ("wildcard name_pattern ".toList ++ u.repr pattern ++ outsideZone u zoneName))

-- The loop over `enumerate(zip(pattern_labels, target_labels))`.
def labelsAgree (starIndex : Nat) : Nat → List (Str × Str) → Bool
  | _, [] => true
  | i, (patternLabel, targetLabel) :: rest =>
    if i = starIndex then labelsAgree starIndex (i + 1) rest
    else if patternLabel ≠ targetLabel then false
    else labelsAgree starIndex (i + 1) rest

def nameMatches (u : Unicode) (pattern nameMatch target : Str) : Except PyError Bool := do
  let canonicalPattern ← normalizeFqdn u pattern
  let canonicalTarget ← normalizeFqdn u target
  if nameMatch = exact then return canonicalPattern == canonicalTarget
  if nameMatch = wildcard then
    let patternLabels := canonicalPattern.splitOn '.'
    let targetLabels := canonicalTarget.splitOn '.'
    match patternLabels.findIdx? (· == star) with
    | none => return false
    | some starIndex =>
      if patternLabels.length ≠ targetLabels.length then return false
      return labelsAgree starIndex 0 (patternLabels.zip targetLabels)
  return false

-- `normalize_fqdn(name) if name else None`; only strings have a `strip`.
def normalizeName (u : Unicode) (name : Json) : Except PyError (Option Str) :=
  if name.truthy then
    match name with
    | .str text => some <$> normalizeFqdn u text
    | _ => .error .attributeError
  else .ok none

def ScopeRule.allows (rule : ScopeRule) : Need → Bool
  | .read => rule.allowRead
  | .create => rule.allowCreate
  | .write => rule.allowWrite
  | .delete => rule.allowDelete

def ScopeRule.typeAllowed (rule : ScopeRule) (rtype : Json) : Bool :=
  rule.recordTypes.contains star || rtype.isIn rule.recordTypes

-- An absent or empty `record_ids` pins nothing.
def ScopeRule.idAllowed (rule : ScopeRule) (recordId : Json) : Bool :=
  match rule.recordIds with
  | none | some [] => true
  | some ids => recordId.isIn ids

def ScopeRule.nameAllowed (u : Unicode) (rule : ScopeRule) (normalizedName : Option Str) :
    Except PyError Bool :=
  match rule.namePattern, normalizedName with
  | none, _ => .ok true
  | some _, none => .ok false
  | some pattern, some name => nameMatches u pattern rule.nameMatch name

-- One round of the loop in `match_rules`: whether it returns `True`.
def ScopeRule.grants (u : Unicode) (rule : ScopeRule) (zoneId : Str) (normalizedName : Option Str)
    (rtype recordId : Json) (need : Need) : Except PyError Bool := do
  if rule.zoneId ≠ zoneId then return false
  unless rule.typeAllowed rtype do return false
  unless rule.idAllowed recordId do return false
  unless ← rule.nameAllowed u normalizedName do return false
  return rule.allows need

def anyGrants (u : Unicode) (zoneId : Str) (normalizedName : Option Str) (rtype recordId : Json)
    (need : Need) : List ScopeRule → Except PyError Bool
  | [] => .ok false
  | rule :: rest => do
    if ← rule.grants u zoneId normalizedName rtype recordId need then return true
    anyGrants u zoneId normalizedName rtype recordId need rest

def matchRules (u : Unicode) (rules : List ScopeRule) (zoneId : Str) (name rtype recordId : Json)
    (need : Need) : Except PyError Bool := do
  let normalizedName ← normalizeName u name
  anyGrants u zoneId normalizedName rtype recordId need rules

def ScopeRule.pin (zoneId recordId : Str) : ScopeRule where
  zoneId
  namePattern := none
  nameMatch := exact
  recordTypes := [star]
  recordIds := some [recordId]
  allowRead := true
  allowCreate := false
  allowWrite := true
  allowDelete := true

def ScopeRule.named (zoneId pattern nameMatch recordType : Str) : ScopeRule where
  zoneId
  namePattern := some pattern
  nameMatch
  recordTypes := [recordType]
  recordIds := none
  allowRead := true
  allowCreate := true
  allowWrite := true
  allowDelete := true

def ScopeRule.exempts (rule : ScopeRule) (zoneId : Str) (pathRecordId : Json) (op : Need) : Bool :=
  rule.zoneId == zoneId && rule.namePattern.isNone && rule.recordTypes == [star] &&
    (match rule.recordIds with
    | none | some [] => false
    | some ids => pathRecordId.isIn ids) && rule.allows op

def isLockExempt (rules : List ScopeRule) (zoneId : Str) (pathRecordId : Json) (op : Need) : Bool :=
  rules.any (·.exempts zoneId pathRecordId op)

def nameKey : Str := "name".toList
def typeKey : Str := "type".toList
def idKey : Str := "id".toList
def zoneIdKey : Str := "zone_id".toList

def mergePatchImage (pre body : Json.Dict) : Json × Json :=
  (Json.getD body nameKey (Json.get pre nameKey), Json.getD body typeKey (Json.get pre typeKey))

end CfProxy.Scope
