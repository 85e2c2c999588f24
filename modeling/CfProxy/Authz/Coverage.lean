import CfProxy.Shared.Wildcard
import CfProxy.Authz.Scope

set_option autoImplicit false

namespace CfProxy.Scope

open Text

inductive LabelsCover (nameMatch : Str) (pattern name : List Str) : Prop
  | exact (kind : nameMatch = exact) (same : pattern = name)
  | wildcard (kind : nameMatch = wildcard) (matched : Wildcard.Matches star pattern name)

-- The rule covers the operation on a record with these name labels (`none`: it has no name), where `patternLabels`
-- reads the labels of a pattern.
def Flagged (rule : ScopeRule) : Need → Prop
  | .read => rule.allowRead = true
  | .create => rule.allowCreate = true
  | .write => rule.allowWrite = true
  | .delete => rule.allowDelete = true

theorem flagged_iff (rule : ScopeRule) (need : Need) : Flagged rule need ↔ rule.allows need = true := by
  cases need <;> rfl

structure CoversLabels (patternLabels : Str → List Str) (rule : ScopeRule) (zoneId : Str)
    (nameLabels : Option (List Str)) (rtype recordId : Json) (need : Need) : Prop where
  zone : rule.zoneId = zoneId
  type : star ∈ rule.recordTypes ∨ ∃ text ∈ rule.recordTypes, rtype = .str text
  id : ∀ ids, rule.recordIds = some ids → ids ≠ [] → ∃ text ∈ ids, recordId = .str text
  name : ∀ pattern, rule.namePattern = some pattern →
    ∃ labels, nameLabels = some labels ∧ LabelsCover rule.nameMatch (patternLabels pattern) labels
  flag : Flagged rule need

theorem exact_ne_wildcard : exact ≠ wildcard := by decide

theorem labelsAgree_iff (starIndex i : Nat) (pattern target : List Str)
    (same : pattern.length = target.length) :
    labelsAgree starIndex i (pattern.zip target) = true ↔
      ∀ k, i + k ≠ starIndex → pattern[k]? = target[k]? := by
  induction pattern generalizing i target with
  | nil =>
    cases target with
    | nil => simp [labelsAgree]
    | cons => simp at same
  | cons label rest ih =>
    cases target with
    | nil => simp at same
    | cons other others =>
      have tail := ih (i + 1) others (by simpa using same)
      have step : (∀ k, i + k ≠ starIndex → (label :: rest)[k]? = (other :: others)[k]?) ↔
          (i ≠ starIndex → label = other) ∧
            labelsAgree starIndex (i + 1) (rest.zip others) = true := by
        rw [tail]
        constructor
        · intro all
          refine ⟨fun here => by simpa using all 0 here, fun k elsewhere => ?_⟩
          simpa using all (k + 1) (by omega)
        · rintro ⟨first, later⟩ k elsewhere
          cases k with
          | zero => simpa using first (by simpa using elsewhere)
          | succ k => simpa using later k (by omega)
      rw [step]
      by_cases here : i = starIndex
      · simp [labelsAgree, here]
      · by_cases equal : label = other <;> simp [labelsAgree, here, equal]

theorem splitOn_inj {left right : Str} (same : left.splitOn '.' = right.splitOn '.') : left = right := by
  have joined := congrArg ['.'].intercalate same
  rwa [List.intercalate_splitOn, List.intercalate_splitOn] at joined

theorem nameMatches_exact {u : Unicode} {pattern target canonicalPattern canonicalTarget : Str}
    (patternOk : normalizeFqdn u pattern = .ok canonicalPattern)
    (targetOk : normalizeFqdn u target = .ok canonicalTarget) :
    nameMatches u pattern exact target = .ok (canonicalPattern == canonicalTarget) := by
  simp [nameMatches, patternOk, targetOk]

theorem nameMatches_wildcard {u : Unicode} {pattern target canonicalPattern canonicalTarget : Str}
    (patternOk : normalizeFqdn u pattern = .ok canonicalPattern)
    (targetOk : normalizeFqdn u target = .ok canonicalTarget) :
    Decides (nameMatches u pattern wildcard target)
      (Wildcard.Matches star (canonicalPattern.splitOn '.') (canonicalTarget.splitOn '.')) := by
  generalize patternLabels : canonicalPattern.splitOn '.' = ps
  generalize targetLabels : canonicalTarget.splitOn '.' = ts
  cases found : ps.findIdx? (· == star) with
  | none =>
    refine ⟨false, ?_, ?_⟩
    · simp [nameMatches, patternOk, targetOk, exact_ne_wildcard.symm, patternLabels, found]
    · have absent : star ∉ ps := fun member => by
        simp only [List.findIdx?_eq_none_iff] at found
        simpa using found star member
      simpa using fun matched : Wildcard.Matches star ps ts => absent matched.holed
  | some starIndex =>
    have holed : star ∈ ps := by
      obtain ⟨bound, isStar, -⟩ := List.findIdx?_eq_some_iff_getElem.mp found
      exact List.mem_of_getElem (by simpa using isStar)
    have first : ps.idxOf star = starIndex := by
      rw [List.idxOf, List.findIdx_eq_getD_findIdx?, found]
      rfl
    by_cases same : ps.length = ts.length
    · refine ⟨labelsAgree starIndex 0 (ps.zip ts), ?_, ?_⟩
      · simp [nameMatches, patternOk, targetOk, exact_ne_wildcard.symm, patternLabels, targetLabels,
          found, same]
      · rw [labelsAgree_iff _ _ _ _ same]
        constructor
        · intro agree
          exact ⟨holed, same, by simpa [first] using agree⟩
        · intro matched k elsewhere
          exact matched.agree k (by simpa [first] using elsewhere)
    · refine ⟨false, ?_, by simpa using fun matched : Wildcard.Matches star ps ts => same matched.length⟩
      simp [nameMatches, patternOk, targetOk, exact_ne_wildcard.symm, patternLabels, targetLabels,
        found, same]

theorem nameMatches_decides {u : Unicode} {pattern target canonicalPattern canonicalTarget : Str} (nameMatch : Str)
    (patternOk : normalizeFqdn u pattern = .ok canonicalPattern)
    (targetOk : normalizeFqdn u target = .ok canonicalTarget) :
    Decides (nameMatches u pattern nameMatch target)
      (LabelsCover nameMatch (canonicalPattern.splitOn '.') (canonicalTarget.splitOn '.')) := by
  by_cases isExact : nameMatch = exact
  · rw [isExact, nameMatches_exact patternOk targetOk]
    refine .of_ok ?_
    rw [beq_iff_eq]
    constructor
    · rintro rfl
      exact .exact rfl rfl
    · rintro (⟨-, same⟩ | ⟨kind, -⟩)
      · exact splitOn_inj same
      · exact absurd kind exact_ne_wildcard
  by_cases isWildcard : nameMatch = wildcard
  · rw [isWildcard]
    refine (nameMatches_wildcard patternOk targetOk).congr ⟨.wildcard rfl, ?_⟩
    rintro (⟨kind, -⟩ | ⟨-, matched⟩)
    · exact absurd kind.symm exact_ne_wildcard
    · exact matched
  · refine ⟨false, ?_, ?_⟩
    · simp [nameMatches, patternOk, targetOk, isExact, isWildcard]
    · simp only [Bool.false_eq_true, false_iff]
      rintro (⟨kind, -⟩ | ⟨kind, -⟩)
      · exact isExact kind
      · exact isWildcard kind

theorem typeAllowed_iff (rule : ScopeRule) (rtype : Json) :
    rule.typeAllowed rtype = true ↔ star ∈ rule.recordTypes ∨ ∃ text ∈ rule.recordTypes, rtype = .str text := by
  simp [ScopeRule.typeAllowed, Json.isIn_iff]

theorem idAllowed_iff (rule : ScopeRule) (recordId : Json) :
    rule.idAllowed recordId = true ↔
      ∀ ids, rule.recordIds = some ids → ids ≠ [] → ∃ text ∈ ids, recordId = .str text := by
  unfold ScopeRule.idAllowed
  rcases rule.recordIds with _ | (_ | ⟨first, rest⟩)
  · simp
  · simp
  · simp [Json.isIn_iff]

def PatternsRead (u : Unicode) (patternLabels : Str → List Str) (rules : List ScopeRule) : Prop :=
  ∀ rule ∈ rules, ∀ pattern, rule.namePattern = some pattern →
    ∃ canonical, normalizeFqdn u pattern = .ok canonical ∧ patternLabels pattern = canonical.splitOn '.'

inductive NameRead (u : Unicode) : Option Str → Option (List Str) → Prop
  | absent : NameRead u none none
  | named {name canonical : Str} (ok : normalizeFqdn u name = .ok canonical) :
      NameRead u (some name) (some (canonical.splitOn '.'))

theorem nameAllowed_decides {u : Unicode} {patternLabels : Str → List Str} {rule : ScopeRule}
    {name : Option Str} {labels : Option (List Str)}
    (patterns : PatternsRead u patternLabels [rule]) (read : NameRead u name labels) :
    Decides (rule.nameAllowed u name) (∀ pattern, rule.namePattern = some pattern →
      ∃ found, labels = some found ∧ LabelsCover rule.nameMatch (patternLabels pattern) found) := by
  cases present : rule.namePattern with
  | none => exact ⟨true, by simp [ScopeRule.nameAllowed, present], by simp⟩
  | some pattern =>
    obtain ⟨canonical, patternOk, shown⟩ := patterns rule (by simp) pattern present
    cases read with
    | absent => exact ⟨false, by simp [ScopeRule.nameAllowed, present], by simp⟩
    | named nameOk =>
      simpa [ScopeRule.nameAllowed, present, shown] using
        nameMatches_decides rule.nameMatch patternOk nameOk

theorem grants_decides {u : Unicode} {patternLabels : Str → List Str} {rule : ScopeRule}
    {name : Option Str} {labels : Option (List Str)}
    (patterns : PatternsRead u patternLabels [rule]) (read : NameRead u name labels)
    (zoneId : Str) (rtype recordId : Json) (need : Need) :
    Decides (rule.grants u zoneId name rtype recordId need)
      (CoversLabels patternLabels rule zoneId labels rtype recordId need) := by
  obtain ⟨named, computed, nameCovered⟩ := nameAllowed_decides patterns read
  have covers : CoversLabels patternLabels rule zoneId labels rtype recordId need ↔
      rule.zoneId = zoneId ∧ rule.typeAllowed rtype = true ∧ rule.idAllowed recordId = true ∧
        named = true ∧ rule.allows need = true := by
    rw [typeAllowed_iff, idAllowed_iff, nameCovered, ← flagged_iff]
    exact ⟨fun ⟨zone, type, id, name, flag⟩ => ⟨zone, type, id, name, flag⟩,
      fun ⟨zone, type, id, name, flag⟩ => ⟨zone, type, id, name, flag⟩⟩
  refine ⟨decide (rule.zoneId = zoneId) && rule.typeAllowed rtype && rule.idAllowed recordId &&
    named && rule.allows need, ?_, by rw [covers]; simp [and_assoc]⟩
  unfold ScopeRule.grants
  rw [computed]
  by_cases zone : rule.zoneId = zoneId <;> cases rule.typeAllowed rtype <;>
    cases rule.idAllowed recordId <;> cases named <;>
    simp [zone]

theorem anyGrants_decides {u : Unicode} {patternLabels : Str → List Str} {rules : List ScopeRule}
    {name : Option Str} {labels : Option (List Str)}
    (patterns : PatternsRead u patternLabels rules) (read : NameRead u name labels)
    (zoneId : Str) (rtype recordId : Json) (need : Need) :
    Decides (anyGrants u zoneId name rtype recordId need rules)
      (∃ rule ∈ rules, CoversLabels patternLabels rule zoneId labels rtype recordId need) := by
  induction rules with
  | nil => exact ⟨false, rfl, by simp⟩
  | cons rule rest ih =>
    have here : PatternsRead u patternLabels [rule] := by
      simpa [PatternsRead] using patterns rule (by simp)
    obtain ⟨granted, computed, covered⟩ := grants_decides here read zoneId rtype recordId need
    have later := ih fun other member => patterns other (List.mem_cons_of_mem _ member)
    unfold anyGrants
    rw [computed]
    cases granted with
    | true => exact ⟨true, rfl, by simpa using .inl (covered.mp rfl)⟩
    | false =>
      have uncovered : ¬CoversLabels patternLabels rule zoneId labels rtype recordId need := by
        simp [← covered]
      exact later.congr (by simp [uncovered])

theorem matchRules_decides {u : Unicode} {patternLabels : Str → List Str} {rules : List ScopeRule}
    {name : Json} {normalizedName : Option Str} {labels : Option (List Str)}
    (patterns : PatternsRead u patternLabels rules)
    (normalized : normalizeName u name = .ok normalizedName) (read : NameRead u normalizedName labels)
    (zoneId : Str) (rtype recordId : Json) (need : Need) :
    Decides (matchRules u rules zoneId name rtype recordId need)
      (∃ rule ∈ rules, CoversLabels patternLabels rule zoneId labels rtype recordId need) := by
  unfold matchRules
  rw [normalized]
  exact anyGrants_decides patterns read zoneId rtype recordId need

theorem isLockExempt_perm {rules others : List ScopeRule} (perm : rules.Perm others) (zoneId : Str)
    (pathRecordId : Json) (op : Need) :
    isLockExempt rules zoneId pathRecordId op = isLockExempt others zoneId pathRecordId op :=
  perm.any_eq

def RaisesNothing (u : Unicode) (rules : List ScopeRule) (zoneId : Str) (name rtype recordId : Json) (need : Need) :
    Prop :=
  ∀ normalized, normalizeName u name = .ok normalized → ∀ rule ∈ rules, ∃ granted,
    rule.grants u zoneId normalized rtype recordId need = .ok granted

theorem anyGrants_any {u : Unicode} {rules : List ScopeRule} {zoneId : Str} {name : Option Str} {rtype recordId : Json}
    {need : Need} (quiet : ∀ rule ∈ rules, ∃ granted, rule.grants u zoneId name rtype recordId need = .ok granted) :
    anyGrants u zoneId name rtype recordId need rules =
      .ok (rules.any fun rule => decide (rule.grants u zoneId name rtype recordId need = .ok true)) := by
  induction rules with
  | nil => rfl
  | cons rule rest ih =>
    obtain ⟨granted, computed⟩ := quiet rule (by simp)
    have later := ih fun other member => quiet other (List.mem_cons_of_mem _ member)
    cases granted <;> simp [anyGrants, computed, later]

theorem matchRules_perm {u : Unicode} {rules others : List ScopeRule} (perm : rules.Perm others) {zoneId : Str}
    {name rtype recordId : Json} {need : Need} (quiet : RaisesNothing u others zoneId name rtype recordId need) :
    matchRules u rules zoneId name rtype recordId need = matchRules u others zoneId name rtype recordId need := by
  unfold matchRules
  cases normalized : normalizeName u name with
  | error raised => rfl
  | ok text =>
    have first := anyGrants_any fun rule member => quiet text normalized rule (perm.subset member)
    have second := anyGrants_any (quiet text normalized)
    simp only [Except.ok_bind, first, second, perm.any_eq]

def labels (name : Str) : List Str := ((rstripDots name).splitOn '.').map (List.map Char.toLower)

structure PlainName (name : Str) : Prop where
  ascii : ∀ c ∈ name, isAscii c = true
  solid : ∀ c ∈ name, isSpace c = false
  sized : ∀ label ∈ (rstripDots name).splitOn '.', 1 ≤ label.length ∧ label.length ≤ 63

instance (name : Str) : Decidable (PlainName name) :=
  decidable_of_iff ((∀ c ∈ name, isAscii c = true) ∧ (∀ c ∈ name, isSpace c = false) ∧
    ∀ label ∈ (rstripDots name).splitOn '.', 1 ≤ label.length ∧ label.length ≤ 63)
    ⟨fun ⟨ascii, solid, sized⟩ => ⟨ascii, solid, sized⟩, fun ⟨ascii, solid, sized⟩ => ⟨ascii, solid, sized⟩⟩

theorem PlainName.nonempty {name : Str} (plain : PlainName name) : rstripDots name ≠ [] := by
  intro empty
  have short := plain.sized [] (by simp [empty])
  simp at short

theorem PlainName.stripped {name : Str} (plain : PlainName name) : PlainName (rstripDots name) where
  ascii c member := plain.ascii c (rstripDots_subset member)
  solid c member := plain.solid c (rstripDots_subset member)
  sized := by simpa [rstripDots, List.rdropWhile_idempotent] using plain.sized

theorem PlainName.lowered {name : Str} (plain : PlainName name) : PlainName (name.map Char.toLower) where
  ascii := by simpa using fun c member => isAscii_toLower (plain.ascii c member)
  solid := by simpa using fun c member => (isSpace_toLower (plain.ascii c member)).trans (plain.solid c member)
  sized := by
    rw [rstripDots_map fun c member => toLower_eq_dot (plain.ascii c member),
      splitOn_map _ fun c member => toLower_eq_dot (plain.ascii c (rstripDots_subset member))]
    simpa using plain.sized

theorem PlainName.undotted {name : Str} (plain : PlainName name) :
    rstripDots ((rstripDots name).map Char.toLower) = (rstripDots name).map Char.toLower := by
  rw [rstripDots_map fun c member => toLower_eq_dot (plain.stripped.ascii c member)]
  simp [rstripDots, List.rdropWhile_idempotent]

theorem PlainName.canonical_labels {name : Str} (plain : PlainName name) :
    labels name = ((rstripDots name).map Char.toLower).splitOn '.' := by
  rw [labels, splitOn_map _ fun c member => toLower_eq_dot (plain.ascii c (rstripDots_subset member))]

theorem normalizeFqdn_plain {name : Str} (u : Unicode) (plain : PlainName name) :
    normalizeFqdn u name = .ok ((rstripDots name).map Char.toLower) := by
  have lowered := plain.stripped.lowered
  have encoded : encodeIdna u ((rstripDots name).map Char.toLower) =
      some ((rstripDots name).map Char.toLower) := by
    have plainText : ascii ((rstripDots name).map Char.toLower) = true := List.all_eq_true.mpr lowered.ascii
    rw [encodeIdna, if_pos plainText]
    refine encodeAscii_eq_self fun label member => ?_
    have size := lowered.sized label (by rwa [plain.undotted])
    omega
  have plainText : ascii (rstripDots name) = true := List.all_eq_true.mpr plain.stripped.ascii
  unfold normalizeFqdn
  rw [strip_eq_self plain.solid, lower, if_pos plainText]
  simp [plain.nonempty, encoded]

theorem normalizeFqdn_canonical {name : Str} (u : Unicode) (plain : PlainName name) :
    normalizeFqdn u ((rstripDots name).map Char.toLower) = .ok ((rstripDots name).map Char.toLower) := by
  have lowered : ((rstripDots name).map Char.toLower).map Char.toLower = (rstripDots name).map Char.toLower := by
    rw [List.map_map]
    exact List.map_congr_left fun c member => toLower_toLower (plain.stripped.ascii c member)
  rw [normalizeFqdn_plain u plain.stripped.lowered, plain.undotted, lowered]

theorem normalizeFqdn_at (u : Unicode) : normalizeFqdn u ['@'] = .ok ['@'] := by
  have plain : PlainName ['@'] := by decide
  exact normalizeFqdn_plain u plain

theorem normalizeFqdn_ascii {u : Unicode} {name canonical : Str} (plainText : ascii name = true)
    (normalized : normalizeFqdn u name = .ok canonical) :
    canonical = (rstripDots (strip name)).map Char.toLower ∧ encodeAscii canonical = some canonical := by
  have plain : ascii (rstripDots (strip name)) = true :=
    List.all_eq_true.mpr fun c member =>
      List.all_eq_true.mp plainText c (strip_subset (rstripDots_subset member))
  have lowered : ascii ((rstripDots (strip name)).map Char.toLower) = true := by
    simpa [ascii] using fun c member => isAscii_toLower (List.all_eq_true.mp plain c member)
  unfold normalizeFqdn at normalized
  rw [lower, if_pos plain] at normalized
  dsimp only at normalized
  split at normalized
  · next empty =>
    obtain rfl : _ = canonical := by simpa using normalized
    rw [List.isEmpty_iff] at empty
    exact ⟨rfl, by rw [empty]; rfl⟩
  · rw [encodeIdna, if_pos lowered] at normalized
    split at normalized
    · next encoded encodes =>
      obtain rfl : encoded = canonical := by simpa using normalized
      obtain ⟨same, -⟩ := encodeAscii_eq_some.mp encodes
      exact ⟨same.symm, same ▸ encodes⟩
    · simp at normalized

section Ascii

variable {u : Unicode} {name canonical : Str} (plainText : ascii name = true)
  (normalized : normalizeFqdn u name = .ok canonical)

include plainText normalized

theorem normalizeFqdn_chars : ∀ c ∈ canonical, isAscii c = true ∧ c.toLower = c := by
  obtain ⟨shape, -⟩ := normalizeFqdn_ascii plainText normalized
  intro c inside
  rw [shape] at inside
  obtain ⟨d, original, rfl⟩ := List.mem_map.mp inside
  have plain : isAscii d = true := List.all_eq_true.mp plainText d (strip_subset (rstripDots_subset original))
  exact ⟨isAscii_toLower plain, toLower_toLower plain⟩

theorem normalizeFqdn_head : ∀ c rest, canonical = c :: rest → isSpace c = false := by
  obtain ⟨shape, -⟩ := normalizeFqdn_ascii plainText normalized
  rintro c rest begins
  obtain ⟨tail, whole⟩ := List.rdropWhile_prefix (· == '.') (strip name)
  rw [← rstripDots] at whole
  rw [shape] at begins
  obtain ⟨d, front, first, rfl, -⟩ := List.map_eq_cons_iff.mp begins
  rw [first, List.cons_append] at whole
  have plain : isAscii d = true := List.all_eq_true.mp plainText d (strip_subset (whole ▸ by simp))
  rw [isSpace_toLower plain]
  exact strip_head whole.symm

-- A second pass only cuts the text short, which leaves its labels filled and short.
theorem normalizeFqdn_twice : normalizeFqdn u canonical = .ok (rstripDots (strip canonical)) := by
  obtain ⟨-, encodes⟩ := normalizeFqdn_ascii plainText normalized
  have chars := normalizeFqdn_chars plainText normalized
  have isPrefix : rstripDots (strip canonical) <+: canonical :=
    (List.rdropWhile_prefix _ _).trans (strip_isPrefix (normalizeFqdn_head plainText normalized))
  have plain : ascii (rstripDots (strip canonical)) = true :=
    List.all_eq_true.mpr fun c inside => (chars c (isPrefix.subset inside)).1
  have lowered : (rstripDots (strip canonical)).map Char.toLower = rstripDots (strip canonical) :=
    (List.map_congr_left fun c inside => (chars c (isPrefix.subset inside)).2).trans (List.map_id _)
  have encodesAgain : encodeIdna u (rstripDots (strip canonical)) = some (rstripDots (strip canonical)) := by
    rw [encodeIdna, if_pos plain]
    exact encodeAscii_prefix isPrefix encodes
  unfold normalizeFqdn
  rw [lower, if_pos plain, lowered]
  simp only [encodesAgain]
  split <;> rfl

theorem normalizeFqdn_again : ∃ again, normalizeFqdn u canonical = .ok again :=
  ⟨_, normalizeFqdn_twice plainText normalized⟩

end Ascii

end CfProxy.Scope
