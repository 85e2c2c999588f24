import CfProxy.Authz.Patterns

set_option autoImplicit false

namespace CfProxy.Scope

open Text

def Settled (name : Str) : Prop := ∀ c, (rstripDots (strip name)).getLast? = some c → isSpace c = false

instance (name : Str) : Decidable (Settled name) :=
  decidable_of_iff ((rstripDots (strip name)).getLast?.all (!isSpace ·) = true) (by simp [Settled, Option.all_eq_true])

section Idempotence

variable {u : Unicode} {name canonical : Str}

theorem normalizeFqdn_last (plainText : ascii name = true) (normalized : normalizeFqdn u name = .ok canonical) :
    Settled name ↔ ∀ c, canonical.getLast? = some c → isSpace c = false := by
  obtain ⟨shape, -⟩ := normalizeFqdn_ascii plainText normalized
  have plain {c : Char} (last : (rstripDots (strip name)).getLast? = some c) : isAscii c = true :=
    List.all_eq_true.mp plainText c (strip_subset (rstripDots_subset (List.mem_of_getLast? last)))
  rw [shape, List.getLast?_map]
  constructor
  · intro settled c last
    obtain ⟨d, before, rfl⟩ := Option.map_eq_some_iff.mp last
    rw [isSpace_toLower (plain before)]
    exact settled d before
  · intro settled c last
    rw [← isSpace_toLower (plain last)]
    exact settled c.toLower (by rw [last, Option.map_some])

theorem normalizeFqdn_idempotent_iff (plainText : ascii name = true)
    (normalized : normalizeFqdn u name = .ok canonical) :
    normalizeFqdn u canonical = .ok canonical ↔ Settled name := by
  have head := normalizeFqdn_head plainText normalized
  rw [normalizeFqdn_twice plainText normalized, Except.ok.injEq, normalizeFqdn_last plainText normalized,
    ← strip_eq_self_iff head]
  constructor
  · intro same
    have shorter := (List.rdropWhile_prefix (· == '.') (strip canonical)).length_le
    rw [← rstripDots, same] at shorter
    exact (strip_isPrefix head).eq_of_length_le shorter
  · intro same
    rw [same, rstripDots_eq_self (normalizeFqdn_undotted plainText normalized)]

end Idempotence

section Matching

variable (u : Unicode)

def Idempotent (name : Str) : Prop :=
  ∀ canonical, normalizeFqdn u name = .ok canonical → normalizeFqdn u canonical = .ok canonical

def MatchesAsGiven (name : Str) : Prop :=
  name ≠ [] → ∀ (zoneId pattern nameMatch : Str) (rtype recordId : Json) (need : Need),
    (matchRules u [.named zoneId pattern nameMatch star] zoneId (.str name) rtype recordId need).mapError
      PyError.untold = (nameMatches u pattern nameMatch name).mapError PyError.untold

def GrantedBy (rule : ScopeRule) (name : Str) : Prop :=
  ∃ (zoneId : Str) (rtype recordId : Json) (need : Need),
    matchRules u [rule] zoneId (.str name) rtype recordId need = .ok true

def Apart (first second : Str) : Prop :=
  ∀ (rule : ScopeRule) (pattern : Str), rule.namePattern = some pattern → rule.nameMatch = exact →
    ¬(GrantedBy u rule first ∧ GrantedBy u rule second)

structure Canonicalised (first second : Str) : Prop where
  idempotent : Idempotent u first ∧ Idempotent u second
  agree : MatchesAsGiven u first ∧ MatchesAsGiven u second
  apart : normalizeFqdn u first ≠ normalizeFqdn u second → Apart u first second

-- A name that is refused has no form to settle.
def SettledIfRead (name : Str) : Prop := ∀ canonical, normalizeFqdn u name = .ok canonical → Settled name

end Matching

section Matching

variable {u : Unicode} {name canonical pattern nameMatch zoneId : Str} {rule : ScopeRule} {rtype recordId : Json}
  {need : Need}

theorem idempotent_iff (plainText : ascii name = true) : Idempotent u name ↔ SettledIfRead u name := by
  constructor
  · intro idempotent canonical normalized
    exact (normalizeFqdn_idempotent_iff plainText normalized).mp (idempotent canonical normalized)
  · intro settled canonical normalized
    exact (normalizeFqdn_idempotent_iff plainText normalized).mpr (settled canonical normalized)

theorem normalizeFqdn_error {raised : PyError} (refused : normalizeFqdn u name = .error raised) :
    ∃ text, raised = .unicodeError text := by
  unfold normalizeFqdn at refused
  dsimp only at refused
  split at refused
  · cases refused
  · split at refused <;> cases refused
    exact ⟨_, rfl⟩

theorem nameMatches_congr {target other : Str} (same : normalizeFqdn u target = normalizeFqdn u other) :
    nameMatches u pattern nameMatch target = nameMatches u pattern nameMatch other := by
  unfold nameMatches
  rw [same]

theorem matchesAsGiven_refused {raised : PyError} (refused : normalizeFqdn u name = .error raised) :
    MatchesAsGiven u name := by
  intro present zoneId pattern nameMatch rtype recordId need
  obtain ⟨text, rfl⟩ := normalizeFqdn_error refused
  have failed : matchRules u [.named zoneId pattern nameMatch star] zoneId (.str name) rtype recordId need =
      .error (.unicodeError text) := by
    simp [matchRules, normalizeName, Json.truthy, present, refused, Functor.map]
  rw [failed, nameMatches, refused]
  rcases patternOk : normalizeFqdn u pattern with raised | canonical
  · obtain ⟨other, rfl⟩ := normalizeFqdn_error patternOk
    rfl
  · rfl

theorem matchesAsGiven_iff (plainText : ascii name = true) : MatchesAsGiven u name ↔ SettledIfRead u name := by
  rw [← idempotent_iff plainText]
  constructor
  · intro agree canonical normalized
    by_cases empty : name = []
    · subst empty
      obtain rfl := Except.ok.inj normalized
      exact normalized
    · -- The name as its own pattern.
      have itself := agree empty [] name exact .null .null .read
      rw [matchRules_named empty normalized, nameMatches_exact normalized (normalizeFqdn_twice plainText normalized),
        nameMatches_exact normalized normalized, beq_self_eq_true] at itself
      replace itself := eq_of_beq (Except.ok.inj itself)
      rw [normalizeFqdn_twice plainText normalized, ← itself]
  · intro idempotent
    rcases normalized : normalizeFqdn u name with raised | canonical
    · exact matchesAsGiven_refused normalized
    · intro present zoneId pattern nameMatch rtype recordId need
      rw [matchRules_named present normalized]
      rw [nameMatches_congr ((idempotent canonical normalized).trans normalized.symm)]

theorem matchRules_true (granted : matchRules u [rule] zoneId (.str name) rtype recordId need = .ok true) :
    ∃ normalized, normalizeName u (.str name) = .ok normalized ∧ rule.nameAllowed u normalized = .ok true := by
  obtain ⟨normalized, computed, granted⟩ := Except.bind_eq_ok.mp granted
  refine ⟨normalized, computed, ?_⟩
  by_cases zone : rule.zoneId = zoneId <;> cases type : rule.typeAllowed rtype <;> cases id : rule.idAllowed recordId <;>
    rcases allowed : rule.nameAllowed u normalized with raised | _ | _ <;>
    simp [anyGrants, ScopeRule.grants, zone, type, id, allowed] at granted ⊢

theorem exact_granted (present : rule.namePattern = some pattern) (kind : rule.nameMatch = exact)
    (granted : GrantedBy u rule name) :
    ∃ canonical, normalizeFqdn u name = .ok canonical ∧ normalizeFqdn u pattern = normalizeFqdn u canonical := by
  obtain ⟨zoneId, rtype, recordId, need, granted⟩ := granted
  obtain ⟨read, computed, allowed⟩ := matchRules_true granted
  cases read with
  | none => simp [ScopeRule.nameAllowed, present] at allowed
  | some canonical =>
    have normalized : normalizeFqdn u name = .ok canonical := by
      by_cases empty : name = [] <;> cases form : normalizeFqdn u name <;>
        simp_all [normalizeName, Json.truthy, Functor.map]
    have matched : nameMatches u pattern exact canonical = .ok true := by
      simpa [ScopeRule.nameAllowed, present, kind] using allowed
    obtain ⟨canonicalPattern, again, patternOk, againOk⟩ := nameMatches_normalizes matched
    rw [nameMatches_exact patternOk againOk, Except.ok.injEq, beq_iff_eq] at matched
    exact ⟨canonical, normalized, by rw [patternOk, againOk, matched]⟩

theorem apart_of_idempotent {first second : Str} (idempotent : Idempotent u first) (idempotentToo : Idempotent u second)
    (different : normalizeFqdn u first ≠ normalizeFqdn u second) : Apart u first second := by
  rintro rule pattern present kind ⟨granted, grantedToo⟩
  obtain ⟨canonical, firstOk, same⟩ := exact_granted present kind granted
  obtain ⟨other, secondOk, sameToo⟩ := exact_granted present kind grantedToo
  rw [idempotent canonical firstOk] at same
  rw [idempotentToo other secondOk, same] at sameToo
  rw [firstOk, secondOk] at different
  exact different sameToo

theorem canonicalised_iff {first second : Str} (plainFirst : ascii first = true) (plainSecond : ascii second = true) :
    Canonicalised u first second ↔ SettledIfRead u first ∧ SettledIfRead u second := by
  have idempotent := idempotent_iff (u := u) plainFirst
  have idempotentToo := idempotent_iff (u := u) plainSecond
  constructor
  · intro sound
    exact ⟨idempotent.mp sound.idempotent.1, idempotentToo.mp sound.idempotent.2⟩
  · rintro ⟨settled, settledToo⟩
    constructor
    · exact ⟨idempotent.mpr settled, idempotentToo.mpr settledToo⟩
    · exact ⟨(matchesAsGiven_iff plainFirst).mpr settled, (matchesAsGiven_iff plainSecond).mpr settledToo⟩
    · exact apart_of_idempotent (idempotent.mpr settled) (idempotentToo.mpr settledToo)

end Matching

section Example

-- The blank behind the inner dot comes to the end only when the outer dot is gone.
def unsettled : Str := "a. .".toList

theorem blank_left_behind : normalizeFqdn .asciiOnly unsettled = .ok "a. ".toList ∧
    ¬Idempotent .asciiOnly unsettled ∧ ¬MatchesAsGiven .asciiOnly unsettled ∧
    normalizeFqdn .asciiOnly "a".toList = .ok "a".toList ∧ ¬Apart .asciiOnly unsettled "a".toList := by
  have kept : normalizeFqdn .asciiOnly unsettled = .ok "a. ".toList := by decide +kernel
  refine ⟨kept, ?_, ?_, by decide +kernel, ?_⟩
  · intro idempotent
    have again := idempotent _ kept
    revert again
    decide +kernel
  · intro agree
    have answers := agree (by decide) [] unsettled exact .null .null .read
    revert answers
    decide +kernel
  · intro apart
    refine apart (.named [] "a".toList exact star) "a".toList rfl rfl ⟨⟨[], .null, .null, .read, ?_⟩,
      [], .null, .null, .read, ?_⟩ <;> decide +kernel

theorem settled_names_canonicalised : Canonicalised .asciiOnly "Example.COM.".toList "www.example.com".toList :=
  (canonicalised_iff (by decide) (by decide)).mpr ⟨fun _ _ => by decide, fun _ _ => by decide⟩

end Example

end CfProxy.Scope
