import CfProxy.Authz.Decisions

set_option autoImplicit false

namespace CfProxy.Authorizer

open Text Scope

universe v

def canonicalLabels (u : Unicode) (name : Str) : List Str :=
  match normalizeFqdn u name with
  | .ok canonical => canonical.splitOn '.'
  | .error _ => []

def canonicalNameLabels (u : Unicode) (name : Json) : Option (List Str) :=
  match normalizeName u name with
  | .ok (some normalized) => some (canonicalLabels u normalized)
  | _ => none

-- `match_rules` normalizes a name before the loop, and `name_matches` the result once more.
def Canonicalisable (u : Unicode) (name : Json) : Prop :=
  ∃ normalized, normalizeName u name = .ok normalized ∧
    ∀ text, normalized = some text → ∃ canonical, normalizeFqdn u text = .ok canonical

def CanonicalPatterns (u : Unicode) (rules : List ScopeRule) : Prop :=
  ∀ rule ∈ rules, ∀ pattern, rule.namePattern = some pattern → ∃ canonical, normalizeFqdn u pattern = .ok canonical

def Covers (u : Unicode) (rules : List ScopeRule) (zoneId : Str) (name rtype recordId : Json) (need : Need) : Prop :=
  ∃ rule ∈ rules,
    CoversLabels (canonicalLabels u) rule zoneId (canonicalNameLabels u name) rtype recordId need

variable {u : Unicode} {rules : List ScopeRule}

theorem CanonicalPatterns.read (canonical : CanonicalPatterns u rules) :
    PatternsRead u (canonicalLabels u) rules := by
  intro rule member pattern present
  obtain ⟨labels, normalized⟩ := canonical rule member pattern present
  exact ⟨labels, normalized, by simp [canonicalLabels, normalized]⟩

theorem Canonicalisable.read {name : Json} (canonical : Canonicalisable u name) :
    ∃ normalized, normalizeName u name = .ok normalized ∧ NameRead u normalized (canonicalNameLabels u name) := by
  obtain ⟨normalized, first, again⟩ := canonical
  refine ⟨normalized, first, ?_⟩
  cases normalized with
  | none =>
    have unnamed : canonicalNameLabels u name = none := by
      simp [canonicalNameLabels, first]
    rw [unnamed]
    exact .absent
  | some text =>
    obtain ⟨labels, second⟩ := again text rfl
    have named : canonicalNameLabels u name = some (labels.splitOn '.') := by
      simp [canonicalNameLabels, first, canonicalLabels, second]
    rw [named]
    exact .named second

theorem canonicalisable_ascii {name : Str} (plain : ascii name = true) :
    Canonicalisable u (.str name) ↔ ∃ canonical, normalizeFqdn u name = .ok canonical := by
  cases empty : (Json.str name).truthy with
  | false =>
    have unnamed : normalizeName u (.str name) = .ok none := by
      simp [normalizeName, empty]
    have nothing : name = [] := by
      simpa [Json.truthy] using empty
    exact ⟨fun _ => ⟨[], by rw [nothing]; rfl⟩, fun _ => ⟨none, unnamed, by simp⟩⟩
  | true =>
    have once : normalizeName u (.str name) = some <$> normalizeFqdn u name := by
      simp [normalizeName, empty]
    constructor
    · rintro ⟨normalized, computed, -⟩
      rw [once] at computed
      cases first : normalizeFqdn u name with
      | error raised => simp [first] at computed
      | ok canonical => exact ⟨canonical, rfl⟩
    · rintro ⟨canonical, first⟩
      refine ⟨some canonical, by simp [once, first], ?_⟩
      rintro text ⟨rfl⟩
      exact normalizeFqdn_again plain first

theorem matchRules_covers {name : Json} (patterns : CanonicalPatterns u rules) (named : Canonicalisable u name)
    (zoneId : Str) (rtype recordId : Json) (need : Need) :
    Decides (matchRules u rules zoneId name rtype recordId need)
      (Covers u rules zoneId name rtype recordId need) := by
  obtain ⟨normalized, computed, read⟩ := named.read
  exact matchRules_decides patterns.read computed read zoneId rtype recordId need

def Visible (u : Unicode) (rules : List ScopeRule) (zoneId : Str) (recordId : Option Str) (op : Need)
    (image : Json.Dict) : Prop :=
  InZone image zoneId ∧
    Covers u rules zoneId (Json.get image nameKey) (Json.get image typeKey) (Json.ofOption recordId) op

-- The decision without the pre-image of a denial, which stays in the audit log.
def AuthDecision.shown (decision : AuthDecision) : AuthDecision :=
  if decision.allowed then decision else { decision with preImage := .null }

theorem authorizeImage_invisible {image : Json.Dict} (patterns : CanonicalPatterns u rules)
    (named : Canonicalisable u (Json.get image nameKey)) (method : Method) (op : Need) (needsLock : Bool)
    (zoneId : Str) (recordId : Option Str) (body : Json) (hidden : ¬Visible u rules zoneId recordId op image) :
    (authorizeImage u rules method op needsLock zoneId recordId body (.obj image)).map AuthDecision.shown =
      (authorizeImage u rules method op needsLock zoneId recordId body .null).map AuthDecision.shown := by
  unfold authorizeImage
  unfold Visible at hidden
  rw [← inZone_iff] at hidden
  cases here : inZone image zoneId with
  | false => simp [here]
  | true =>
    have uncovered := (matchRules_covers patterns named zoneId (Json.get image typeKey)
      (Json.ofOption recordId) op).ok_false.mpr fun covered => hidden ⟨here, covered⟩
    simp [here, uncovered, AuthDecision.shown]

def SameVisible (u : Unicode) (rules : List ScopeRule) (zoneId : Str) (recordId : Option Str) (op : Need)
    (left right : Option Json.Dict) : Prop :=
  ∀ image, Visible u rules zoneId recordId op image → (left = some image ↔ right = some image)

theorem authorizeImage_same {left right : Option Json.Dict} (patterns : CanonicalPatterns u rules)
    (leftNamed : ∀ image, left = some image → Canonicalisable u (Json.get image nameKey))
    (rightNamed : ∀ image, right = some image → Canonicalisable u (Json.get image nameKey))
    (method : Method) (op : Need) (needsLock : Bool) (zoneId : Str) (recordId : Option Str) (body : Json)
    (same : SameVisible u rules zoneId recordId op left right) :
    (authorizeImage u rules method op needsLock zoneId recordId body (left.elim .null .obj)).map
        AuthDecision.shown =
      (authorizeImage u rules method op needsLock zoneId recordId body (right.elim .null .obj)).map
        AuthDecision.shown := by
  -- Either side shows a record, and then both do, or neither differs from a missing one.
  have hidden {fetched : Option Json.Dict}
      (named : ∀ image, fetched = some image → Canonicalisable u (Json.get image nameKey))
      (unseen : ∀ image, fetched = some image → ¬Visible u rules zoneId recordId op image) :
      (authorizeImage u rules method op needsLock zoneId recordId body (fetched.elim .null .obj)).map
          AuthDecision.shown =
        (authorizeImage u rules method op needsLock zoneId recordId body .null).map AuthDecision.shown := by
    cases fetched with
    | none => rfl
    | some image =>
      exact authorizeImage_invisible patterns (named image rfl) method op needsLock zoneId recordId body
        (unseen image rfl)
  by_cases seen : ∃ image, left = some image ∧ Visible u rules zoneId recordId op image
  · obtain ⟨image, found, visible⟩ := seen
    rw [found, (same image visible).mp found]
  · have leftUnseen : ∀ image, left = some image → ¬Visible u rules zoneId recordId op image :=
      fun image found visible => seen ⟨image, found, visible⟩
    have rightUnseen : ∀ image, right = some image → ¬Visible u rules zoneId recordId op image :=
      fun image found visible => seen ⟨image, (same image visible).mpr found, visible⟩
    rw [hidden leftNamed leftUnseen, hidden rightNamed rightUnseen]

end CfProxy.Authorizer
