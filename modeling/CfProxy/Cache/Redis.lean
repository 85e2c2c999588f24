import CfProxy.Authz.Scope

set_option autoImplicit false

namespace CfProxy.Cache

open Scope

-- Entries are what a client reads back: encoding to JSON and decoding again changes nothing.
abbrev Entries := Str → Option Json

def rulesPrefix : Str := "rules:".toList

def rulesKey (lookupId : Str) (version : Nat) : Str :=
  rulesPrefix ++ (lookupId ++ ':' :: (toString version).toList)

def oauthAtKey (credId : Str) : Str := "oauth_at:".toList ++ credId
def zonesKey (credId : Str) : Str := "zones:".toList ++ credId
def oauthStateKey (state : Str) : Str := "oauth_state:".toList ++ state

def oauthAtKeyPrefix : Str := "oauth_at:".toList
def zonesKeyPrefix : Str := "zones:".toList

theorem oauthAtKey_eq (credId : Str) : oauthAtKey credId = oauthAtKeyPrefix ++ credId := rfl

theorem zonesKey_eq (credId : Str) : zonesKey credId = zonesKeyPrefix ++ credId := rfl

theorem oauthAtKeyPrefix_head : oauthAtKeyPrefix.head? = some 'o' := by decide +kernel

theorem zonesKeyPrefix_head : zonesKeyPrefix.head? = some 'z' := by decide +kernel

theorem oauthAtKey_inj {first second : Str} (same : oauthAtKey first = oauthAtKey second) : first = second := by
  rw [oauthAtKey_eq, oauthAtKey_eq] at same
  exact List.append_cancel_left same

theorem zonesKey_inj {first second : Str} (same : zonesKey first = zonesKey second) : first = second := by
  rw [zonesKey_eq, zonesKey_eq] at same
  exact List.append_cancel_left same

theorem zonesKey_ne_oauthAtKey (first second : Str) : zonesKey first ≠ oauthAtKey second := by
  intro same
  have heads := congrArg List.head? same
  rw [zonesKey_eq, oauthAtKey_eq, List.head?_append, List.head?_append, zonesKeyPrefix_head,
    oauthAtKeyPrefix_head] at heads
  cases heads

theorem rulesKey_lookupId {first second : Str} {firstVersion secondVersion : Nat}
    (same : rulesKey first firstVersion = rulesKey second secondVersion) (length : first.length = second.length) :
    first = second :=
  List.append_inj_left (List.append_cancel_left same) length

-- `redis.delete(*keys)`.
def Entries.del (entries : Entries) (keys : List Str) : Entries :=
  fun key => if keys.contains key then none else entries key

theorem Entries.del_some {entries : Entries} {keys : List Str} {key : Str} {value : Json}
    (kept : entries.del keys key = some value) : entries key = some value := by
  unfold Entries.del at kept
  split at kept
  · simp at kept
  · exact kept

def namePatternKey : Str := "name_pattern".toList
def nameMatchKey : Str := "name_match".toList
def recordTypesKey : Str := "record_types".toList
def recordIdsKey : Str := "record_ids".toList
def allowReadKey : Str := "allow_read".toList
def allowCreateKey : Str := "allow_create".toList
def allowWriteKey : Str := "allow_write".toList
def allowDeleteKey : Str := "allow_delete".toList

def strings (texts : List Str) : Json := .arr (texts.map .str)

def ruleToCacheDict (rule : ScopeRule) : Json.Dict :=
  [(zoneIdKey, .str rule.zoneId),
    (namePatternKey, Json.ofOption rule.namePattern),
    (nameMatchKey, .str rule.nameMatch),
    (recordTypesKey, strings rule.recordTypes),
    (recordIdsKey, (rule.recordIds.map strings).getD .null),
    (allowReadKey, .bool rule.allowRead),
    (allowCreateKey, .bool rule.allowCreate),
    (allowWriteKey, .bool rule.allowWrite),
    (allowDeleteKey, .bool rule.allowDelete)]

-- An attribute that is absent, or no value of its column, makes the object useless to matching.
def readStr : Json → Except PyError Str
  | .str text => .ok text
  | _ => .error .attributeError

def readBool : Json → Except PyError Bool
  | .bool value => .ok value
  | _ => .error .attributeError

def readStrings : Json → Except PyError (List Str)
  | .arr items => items.mapM readStr
  | _ => .error .attributeError

def readOptional {α : Type} (read : Json → Except PyError α) : Json → Except PyError (Option α)
  | .null => .ok none
  | value => some <$> read value

def cacheDictToRule (data : Json) : Except PyError ScopeRule := do
  let fields ← match data with
    | .obj fields => .ok fields
    | _ => .error .typeError
  return {
    zoneId := ← readStr (Json.get fields zoneIdKey)
    namePattern := ← readOptional readStr (Json.get fields namePatternKey)
    nameMatch := ← readStr (Json.get fields nameMatchKey)
    recordTypes := ← readStrings (Json.get fields recordTypesKey)
    recordIds := ← readOptional readStrings (Json.get fields recordIdsKey)
    allowRead := ← readBool (Json.get fields allowReadKey)
    allowCreate := ← readBool (Json.get fields allowCreateKey)
    allowWrite := ← readBool (Json.get fields allowWriteKey)
    allowDelete := ← readBool (Json.get fields allowDeleteKey) }

def rulesToCache (rules : List ScopeRule) : Json := .arr (rules.map fun rule => .obj (ruleToCacheDict rule))

-- `[_cache_dict_to_rule(item) for item in cached]`.
def rulesFromCache : Json → Except PyError (List ScopeRule)
  | .arr items => items.mapM cacheDictToRule
  | .str [] | .obj [] => .ok []
  | _ => .error .typeError

theorem mapM_ok {α β : Type} {read : β → Except PyError α} {write : α → β} (values : List α)
    (restores : ∀ value, read (write value) = .ok value) : (values.map write).mapM read = .ok values := by
  induction values with
  | nil => rfl
  | cons value rest ih => simp [restores, ih]

theorem readStrings_strings (texts : List Str) : readStrings (strings texts) = .ok texts :=
  mapM_ok texts fun _ => rfl

theorem cacheDictToRule_restores (rule : ScopeRule) :
    cacheDictToRule (.obj (ruleToCacheDict rule)) = .ok rule := by
  have pattern : readOptional readStr (Json.ofOption rule.namePattern) = .ok rule.namePattern := by
    cases rule.namePattern <;> rfl
  have ids : readOptional readStrings ((rule.recordIds.map strings).getD .null) = .ok rule.recordIds := by
    cases rule.recordIds with
    | none => rfl
    | some ids =>
      have restored : readOptional readStrings (strings ids) = some <$> readStrings (strings ids) := rfl
      simp [restored, readStrings_strings]
  have fields : cacheDictToRule (.obj (ruleToCacheDict rule)) = (do
      let namePattern ← readOptional readStr (Json.ofOption rule.namePattern)
      let recordTypes ← readStrings (strings rule.recordTypes)
      let recordIds ← readOptional readStrings ((rule.recordIds.map strings).getD .null)
      return { rule with namePattern, recordTypes, recordIds }) := rfl
  rw [fields, pattern, readStrings_strings, ids]
  rfl

theorem rulesFromCache_restores (rules : List ScopeRule) : rulesFromCache (rulesToCache rules) = .ok rules :=
  mapM_ok rules cacheDictToRule_restores

end CfProxy.Cache
