import CfProxy.Authz.Coverage
import CfProxy.Shared.Labels

set_option autoImplicit false

namespace CfProxy.Scope

open Text

structure CanonicalLabels (labels : List Str) : Prop where
  nonempty : labels ≠ []
  sized : ∀ label ∈ labels, 0 < label.length ∧ label.length < 64
  plain : ∀ label ∈ labels, ∀ c ∈ label, isAscii c = true ∧ c ≠ '.' ∧ c.toLower = c
  solid : ∀ c label rest, labels = (c :: label) :: rest → isSpace c = false

def joined (labels : List Str) : Str := ['.'].intercalate labels

theorem rstripDots_eq_self {text : Str} (undotted : ¬['.'] <:+ text) : rstripDots text = text := by
  rw [rstripDots, List.rdropWhile_eq_self_iff]
  intro nonempty last
  exact undotted ⟨_, by simpa [beq_iff_eq.mp last] using List.dropLast_append_getLast nonempty⟩

theorem normalizeFqdn_undotted {u : Unicode} {name canonical : Str} (plainText : ascii name = true)
    (normalized : normalizeFqdn u name = .ok canonical) : ¬['.'] <:+ canonical := by
  rintro ⟨front, dotted⟩
  obtain ⟨shape, -⟩ := normalizeFqdn_ascii plainText normalized
  rw [shape] at dotted
  obtain ⟨before, last, whole, -, dot⟩ := List.map_eq_append_iff.mp dotted.symm
  obtain ⟨d, rfl, lowered⟩ : ∃ d, last = [d] ∧ d.toLower = '.' := by
    simpa [List.map_eq_cons_iff] using dot
  have plain : isAscii d = true :=
    List.all_eq_true.mp plainText d (strip_subset (rstripDots_subset (whole ▸ by simp)))
  obtain rfl := (toLower_eq_dot plain).mp lowered
  -- Trailing dots are gone after the first pass.
  have again : rstripDots (rstripDots (strip name)) = rstripDots (strip name) := List.rdropWhile_idempotent _ _
  have shorter : rstripDots (before ++ ['.']) = rstripDots before := List.rdropWhile_concat_pos _ _ _ (by decide)
  have kept := (List.rdropWhile_prefix (· == '.') before).length_le
  rw [whole, shorter] at again
  rw [← rstripDots, again, List.length_append, List.length_singleton] at kept
  omega

theorem normalizeFqdn_labels {u : Unicode} {name canonical : Str} (plainText : ascii name = true)
    (normalized : normalizeFqdn u name = .ok canonical) (nonempty : canonical ≠ []) :
    CanonicalLabels (canonical.splitOn '.') := by
  obtain ⟨-, encodes⟩ := normalizeFqdn_ascii plainText normalized
  obtain ⟨-, filled, short⟩ := encodeAscii_eq_some.mp encodes
  constructor
  · exact List.splitOn_ne_nil '.' canonical
  · intro label member
    refine ⟨?_, short label member⟩
    obtain ⟨front, last, split⟩ : ∃ front last, canonical.splitOn '.' = front ++ [last] :=
      ⟨_, _, (List.dropLast_append_getLast (List.splitOn_ne_nil '.' canonical)).symm⟩
    rw [split, List.dropLast_concat] at filled
    rw [split] at member
    rcases List.mem_append.mp member with early | final
    · exact filled label early
    · obtain rfl := List.mem_singleton.mp final
      by_contra empty
      obtain rfl : label = [] := List.eq_nil_of_length_eq_zero (by omega)
      cases front with
      | nil =>
        have whole : ['.'].intercalate (canonical.splitOn '.') = canonical := List.intercalate_splitOn '.'
        rw [split] at whole
        exact nonempty (by simpa using whole.symm)
      | cons first rest =>
        exact normalizeFqdn_undotted plainText normalized
          (Labels.suffix_iff.mpr ⟨first :: rest, List.cons_ne_nil _ _, by simpa using split⟩)
  · intro label member c letter
    obtain ⟨inside, other⟩ := Labels.mem_of_mem_splitOn member c letter
    obtain ⟨plain, lowered⟩ := normalizeFqdn_chars plainText normalized c inside
    exact ⟨plain, other, lowered⟩
  · rintro c label rest split
    have whole : ['.'].intercalate (canonical.splitOn '.') = canonical := List.intercalate_splitOn '.'
    refine normalizeFqdn_head plainText normalized c (canonical.drop 1) ?_
    rw [split] at whole
    cases rest with
    | nil => simp [← whole]
    | cons => simp [← whole, List.intercalate_cons_cons]

namespace CanonicalLabels

variable {labels : List Str} (canonical : CanonicalLabels labels)

include canonical

theorem splitOn_joined : (joined labels).splitOn '.' = labels :=
  List.splitOn_intercalate '.' (fun label member dot => (canonical.plain label member '.' dot).2.1 rfl) canonical.nonempty

theorem joined_chars : ∀ c ∈ joined labels, isAscii c = true ∧ c.toLower = c := by
  intro c member
  by_cases dot : c = '.'
  · subst dot
    decide
  · obtain ⟨label, inside, letter⟩ := Labels.exists_part_of_mem member dot
    rw [canonical.splitOn_joined] at inside
    obtain ⟨plain, -, lowered⟩ := canonical.plain label inside c letter
    exact ⟨plain, lowered⟩

theorem joined_head : ∃ c rest, joined labels = c :: rest ∧ isSpace c = false := by
  obtain ⟨first, rest, rfl⟩ := List.exists_cons_of_ne_nil canonical.nonempty
  obtain ⟨c, label, rfl⟩ := List.exists_cons_of_ne_nil (List.ne_nil_of_length_pos (canonical.sized first (by simp)).1)
  refine ⟨c, (joined ((c :: label) :: rest)).drop 1, ?_, canonical.solid c label rest rfl⟩
  cases rest with
  | nil => simp [joined]
  | cons => simp [joined, List.intercalate_cons_cons]

theorem rstripDots_joined : rstripDots (joined labels) = joined labels := by
  refine rstripDots_eq_self fun dotted => ?_
  obtain ⟨front, -, split⟩ := Labels.suffix_iff.mp dotted
  rw [canonical.splitOn_joined] at split
  have empty := canonical.sized [] (by simp [split])
  simp at empty

theorem ascii_dotted : ascii (joined labels ++ ['.']) = true := by
  rw [ascii, List.all_eq_true]
  intro c member
  rcases List.mem_append.mp member with inside | last
  · exact (canonical.joined_chars c inside).1
  · obtain rfl := List.mem_singleton.mp last
    decide

theorem normalizeFqdn_dotted (u : Unicode) : normalizeFqdn u (joined labels ++ ['.']) = .ok (joined labels) := by
  obtain ⟨c, rest, begins, solid⟩ := canonical.joined_head
  have stripped : strip (joined labels ++ ['.']) = joined labels ++ ['.'] := by
    have front : (joined labels ++ ['.']).dropWhile isSpace = joined labels ++ ['.'] := by
      simp [begins, solid]
    rw [strip, front, List.rdropWhile_concat_neg _ _ _ (by decide)]
  have undotted : rstripDots (joined labels ++ ['.']) = joined labels := by
    rw [rstripDots, List.rdropWhile_concat_pos _ _ _ (by decide), ← rstripDots, canonical.rstripDots_joined]
  have plain : ascii (joined labels) = true := List.all_eq_true.mpr fun c inside => (canonical.joined_chars c inside).1
  have lowered : lower u (joined labels) = joined labels := by
    rw [lower, if_pos plain]
    exact (List.map_congr_left fun c inside => (canonical.joined_chars c inside).2).trans (List.map_id _)
  have encoded : encodeIdna u (joined labels) = some (joined labels) := by
    rw [encodeIdna, if_pos plain]
    exact encodeAscii_eq_self (by rw [canonical.splitOn_joined]; exact canonical.sized)
  have present : (joined labels).isEmpty = false := by simp [begins]
  unfold normalizeFqdn
  rw [stripped, undotted, lowered]
  simp [present, encoded]

end CanonicalLabels

-- A character that makes a label by itself.
abbrev LabelLetter (c : Char) : Prop := isAscii c = true ∧ c ≠ '.' ∧ c.toLower = c ∧ isSpace c = false

theorem CanonicalLabels.filled {front back : List Str} {label : Str}
    (canonical : CanonicalLabels (front ++ label :: back)) {c : Char}
    (letter : LabelLetter c) : CanonicalLabels (front ++ [c] :: back) := by
  obtain ⟨plain, other, lowered, solid⟩ := letter
  have cases : ∀ part ∈ front ++ [c] :: back, part ∈ front ++ label :: back ∨ part = [c] := by
    intro part member
    rcases List.mem_append.mp member with before | after
    · exact .inl (by simp [before])
    · rcases List.mem_cons.mp after with rfl | later
      · exact .inr rfl
      · exact .inl (by simp [later])
  constructor
  · simp
  · intro part member
    rcases cases part member with old | rfl
    · exact canonical.sized part old
    · simp
  · intro part member
    rcases cases part member with old | rfl
    · exact canonical.plain part old
    · simp [plain, other, lowered]
  · rintro d part rest begins
    cases front with
    | nil =>
      obtain ⟨⟨rfl, -⟩, -⟩ : (c = d ∧ [] = part) ∧ back = rest := by simpa using begins
      exact solid
    | cons first front =>
      obtain ⟨rfl, -⟩ : first = d :: part ∧ front ++ [c] :: back = rest := by simpa using begins
      exact canonical.solid d part (front ++ label :: back) rfl

theorem nameMatches_normalizes {u : Unicode} {pattern nameMatch target : Str}
    (matched : nameMatches u pattern nameMatch target = .ok true) :
    ∃ canonicalPattern canonicalTarget, normalizeFqdn u pattern = .ok canonicalPattern ∧
      normalizeFqdn u target = .ok canonicalTarget := by
  unfold nameMatches at matched
  obtain ⟨canonicalPattern, patternOk, matched⟩ := Except.bind_eq_ok.mp matched
  obtain ⟨canonicalTarget, targetOk, -⟩ := Except.bind_eq_ok.mp matched
  exact ⟨canonicalPattern, canonicalTarget, patternOk, targetOk⟩

section Wildcards

variable (u : Unicode) (pattern zoneName : Str)

def ProperSubdomain (name : Str) : Prop :=
  ∃ canonical zone, normalizeFqdn u name = .ok canonical ∧ normalizeFqdn u zoneName = .ok zone ∧
    '.' :: zone <:+ canonical

structure Confined : Prop where
  inside : ∀ target, ascii target = true → nameMatches u pattern wildcard target = .ok true →
    ProperSubdomain u zoneName target
  inhabited : ∃ target, ascii target = true ∧ nameMatches u pattern wildcard target = .ok true ∧
    ProperSubdomain u zoneName target

-- The pattern has a canonical form, and the labels after its star end in those of the zone.
def StarBeforeZone : Prop :=
  ∃ canonical zone front back, normalizeFqdn u pattern = .ok canonical ∧ normalizeFqdn u zoneName = .ok zone ∧
    canonical.splitOn '.' = front ++ star :: back ∧ star ∉ front ∧ zone.splitOn '.' <:+ back

end Wildcards

section Wildcards

variable {u : Unicode} {pattern zoneName canonical : Str} {front back : List Str}

theorem nameMatches_starred {target canonicalTarget : Str} (patternOk : normalizeFqdn u pattern = .ok canonical)
    (targetOk : normalizeFqdn u target = .ok canonicalTarget) (split : canonical.splitOn '.' = front ++ star :: back)
    (first : star ∉ front) :
    nameMatches u pattern wildcard target = .ok true ↔
      ∃ filled, canonicalTarget.splitOn '.' = front ++ filled :: back := by
  have decides := nameMatches_wildcard patternOk targetOk
  rw [split] at decides
  rw [decides.ok_true, Wildcard.matches_iff first]

theorem matches_filled (plainText : ascii pattern = true) (patternOk : normalizeFqdn u pattern = .ok canonical)
    (split : canonical.splitOn '.' = front ++ star :: back) (first : star ∉ front) {c : Char} (letter : LabelLetter c) :
    ∃ target canonicalTarget, ascii target = true ∧ nameMatches u pattern wildcard target = .ok true ∧
      normalizeFqdn u target = .ok canonicalTarget ∧ canonicalTarget.splitOn '.' = front ++ [c] :: back := by
  have nonempty : canonical ≠ [] := by
    rintro rfl
    have labels : [] :: [] = front ++ star :: back := by simpa using split
    cases front with
    | nil => simp [star] at labels
    | cons => simp at labels
  have filled := (split ▸ normalizeFqdn_labels plainText patternOk nonempty).filled letter
  refine ⟨_, _, filled.ascii_dotted, ?_, filled.normalizeFqdn_dotted u, filled.splitOn_joined⟩
  exact (nameMatches_starred patternOk (filled.normalizeFqdn_dotted u) split first).mpr ⟨[c], filled.splitOn_joined⟩

theorem wildcard_confined_iff (plainText : ascii pattern = true) :
    Confined u pattern zoneName ↔ StarBeforeZone u pattern zoneName := by
  constructor
  · intro confined
    obtain ⟨target, -, matched, -, zone, -, zoneOk, -⟩ := confined.inhabited
    obtain ⟨canonical, canonicalTarget, patternOk, targetOk⟩ := nameMatches_normalizes matched
    have holed := ((nameMatches_wildcard patternOk targetOk).ok_true.mp matched).holed
    obtain ⟨front, back, split, first⟩ := List.eq_append_cons_of_mem holed
    refine ⟨canonical, zone, front, back, patternOk, zoneOk, split, first, ?_⟩
    have ending {c : Char} (letter : LabelLetter c) : zone.splitOn '.' <:+ front ++ [c] :: back := by
      obtain ⟨target, canonicalTarget, plain, matched, targetOk, filled⟩ :=
        matches_filled plainText patternOk split first letter
      obtain ⟨again, sameZone, againOk, sameOk, suffix⟩ := confined.inside target plain matched
      obtain rfl := Except.ok.inj (targetOk.symm.trans againOk)
      obtain rfl := Except.ok.inj (zoneOk.symm.trans sameOk)
      obtain ⟨others, -, parts⟩ := Labels.suffix_iff.mp suffix
      exact ⟨others, by rw [← parts, filled]⟩
    have tail (c : Char) : [c] :: back <:+ front ++ [c] :: back := List.suffix_append front _
    rcases Nat.lt_or_ge back.length (zone.splitOn '.').length with longer | shorter
    · -- The star would stand for a label of the zone, and two letters cannot both be that label.
      have inZone {c : Char} (letter : LabelLetter c) : [c] :: back <:+ zone.splitOn '.' :=
        List.suffix_of_suffix_length_le (tail c) (ending letter) longer
      have one := inZone (c := 'a') (by decide)
      have other := inZone (c := 'b') (by decide)
      have same := (List.suffix_of_suffix_length_le one other (by simp)).eq_of_length (by simp)
      simp at same
    · have rest : back <:+ front ++ ['a'] :: back := (List.suffix_cons ['a'] back).trans (tail 'a')
      exact List.suffix_of_suffix_length_le (ending (by decide)) rest shorter
  · rintro ⟨canonical, zone, front, back, patternOk, zoneOk, split, first, suffix⟩
    obtain ⟨middle, rfl⟩ := suffix
    have subdomain {target canonicalTarget : Str} (targetOk : normalizeFqdn u target = .ok canonicalTarget)
        (matched : nameMatches u pattern wildcard target = .ok true) : ProperSubdomain u zoneName target := by
      obtain ⟨filled, parts⟩ := (nameMatches_starred patternOk targetOk split first).mp matched
      refine ⟨canonicalTarget, zone, targetOk, zoneOk, Labels.suffix_iff.mpr ⟨front ++ filled :: middle, by simp, ?_⟩⟩
      simpa using parts
    constructor
    · intro target _ matched
      obtain ⟨-, canonicalTarget, -, targetOk⟩ := nameMatches_normalizes matched
      exact subdomain targetOk matched
    · obtain ⟨target, canonicalTarget, plain, matched, targetOk, -⟩ :=
        matches_filled plainText patternOk split first (c := 'a') (by decide)
      exact ⟨target, plain, matched, subdomain targetOk matched⟩

end Wildcards

section Exact

variable (u : Unicode) (pattern zoneName : Str)

-- The name an exact pattern is validated as: `@` stands for the zone.
def denoted : Except PyError Str := if pattern = ['@'] then normalizeFqdn u zoneName else normalizeFqdn u pattern

def exactRule (zoneId : Str) : ScopeRule where
  zoneId
  namePattern := some pattern
  nameMatch := exact
  recordTypes := [star]
  recordIds := none
  allowRead := true
  allowCreate := true
  allowWrite := true
  allowDelete := true

structure Reported (name : Str) : Prop where
  plain : PlainName name
  inZone : ∃ canonical zone, normalizeFqdn u name = .ok canonical ∧ normalizeFqdn u zoneName = .ok zone ∧
    endsInZone canonical zone = true

def GrantsDenoted : Prop :=
  ∀ (zoneId name : Str) (rtype recordId : Json) (need : Need), Reported u zoneName name →
    Decides (matchRules u [exactRule pattern zoneId] zoneId (.str name) rtype recordId need)
      (normalizeFqdn u name = denoted u pattern zoneName)

end Exact

section Exact

variable {u : Unicode} {pattern zoneName zone : Str}

theorem matchRules_named {name canonical nameMatch zoneId : Str} {rtype recordId : Json} {need : Need} (present : name ≠ [])
    (normalized : normalizeFqdn u name = .ok canonical) :
    matchRules u [.named zoneId pattern nameMatch star] zoneId (.str name) rtype recordId need =
      nameMatches u pattern nameMatch canonical := by
  have computed : normalizeName u (.str name) = .ok (some canonical) := by
    simp [normalizeName, Json.truthy, present, normalized, Functor.map]
  have flag : (ScopeRule.named zoneId pattern nameMatch star).allows need = true := by cases need <;> rfl
  simp only [matchRules, computed, Except.ok_bind, anyGrants, ScopeRule.grants, flag, ScopeRule.nameAllowed]
  rcases matched : nameMatches u pattern nameMatch canonical with raised | _ | _ <;>
    simp [ScopeRule.named, ScopeRule.typeAllowed, ScopeRule.idAllowed, matched]

theorem matchRules_exactRule {name canonicalPattern canonical : Str}
    (patternOk : normalizeFqdn u pattern = .ok canonicalPattern) (nameOk : normalizeFqdn u name = .ok canonical)
    (again : normalizeFqdn u canonical = .ok canonical) (present : name ≠ []) (zoneId : Str) (rtype recordId : Json)
    (need : Need) :
    Decides (matchRules u [exactRule pattern zoneId] zoneId (.str name) rtype recordId need)
      (canonicalPattern = canonical) := by
  have named : exactRule pattern zoneId = .named zoneId pattern exact star := rfl
  rw [named, matchRules_named present nameOk, nameMatches_exact patternOk again]
  exact .of_ok beq_iff_eq

theorem accepted_denotes (accepted : validateNamePattern u pattern exact zoneName = .ok ()) :
    ∃ zone name, normalizeFqdn u zoneName = .ok zone ∧ denoted u pattern zoneName = .ok name := by
  cases zoneOk : normalizeFqdn u zoneName with
  | error raised => simp [validateNamePattern, zoneOk] at accepted
  | ok zone =>
    by_cases apex : pattern = ['@']
    · exact ⟨zone, zone, rfl, by rw [denoted, if_pos apex, zoneOk]⟩
    · cases nameOk : normalizeFqdn u pattern with
      | error raised =>
        by_cases starred : '*' ∈ pattern <;> simp [validateNamePattern, zoneOk, apex, nameOk, starred] at accepted
      | ok name => exact ⟨zone, name, rfl, by rw [denoted, if_neg apex, nameOk]⟩

theorem normalizeFqdn_settled {name canonical : Str} (plainText : ascii name = true)
    (normalized : normalizeFqdn u name = .ok canonical) (plain : PlainName canonical) :
    normalizeFqdn u canonical = .ok canonical := by
  rw [normalizeFqdn_twice plainText normalized, strip_eq_self plain.solid,
    rstripDots_eq_self (normalizeFqdn_undotted plainText normalized)]

theorem PlainName.canonical {name : Str} (plain : PlainName name) :
    ∃ canonical, normalizeFqdn u name = .ok canonical ∧ normalizeFqdn u canonical = .ok canonical ∧
      PlainName canonical ∧ name ≠ [] := by
  refine ⟨_, normalizeFqdn_plain u plain, normalizeFqdn_canonical u plain, plain.stripped.lowered, ?_⟩
  rintro rfl
  exact plain.nonempty rfl

theorem endsInZone_at (ends : endsInZone ['@'] zone = true) : ['@'] = zone := by
  simp only [endsInZone, Bool.or_eq_true, beq_iff_eq, List.isSuffixOf_iff_suffix] at ends
  rcases ends with same | below
  · exact same
  · have short := below.length_le
    obtain rfl : zone = [] := List.eq_nil_of_length_eq_zero (by simpa using short)
    exact absurd below (by decide)

-- The pattern is not `@`, or the zone has no apex record to match.
def SpelledOut (u : Unicode) (pattern zoneName : Str) : Prop :=
  pattern = ['@'] → ∀ zone, normalizeFqdn u zoneName = .ok zone → zone = ['@'] ∨ ¬PlainName zone

theorem exact_grants_iff (plainZone : ascii zoneName = true)
    (accepted : validateNamePattern u pattern exact zoneName = .ok ()) :
    GrantsDenoted u pattern zoneName ↔ SpelledOut u pattern zoneName := by
  obtain ⟨zone, name, zoneOk, denotes⟩ := accepted_denotes accepted
  constructor
  · rintro grants rfl other otherOk
    obtain rfl := Except.ok.inj (zoneOk.symm.trans otherOk)
    by_cases plain : PlainName zone
    · left
      have settled := normalizeFqdn_settled plainZone zoneOk plain
      have present : zone ≠ [] := by
        rintro rfl
        exact plain.nonempty rfl
      have reported : Reported u zoneName zone := ⟨plain, zone, zone, settled, zoneOk, by simp [endsInZone]⟩
      have apex : normalizeFqdn u zone = denoted u ['@'] zoneName := by rw [settled, denoted, if_pos rfl, zoneOk]
      have granted := (grants [] zone .null .null .read reported).ok_true.mpr apex
      have decided := matchRules_exactRule (normalizeFqdn_at u) settled settled present [] .null .null .read
      exact (decided.ok_true.mp granted).symm
    · exact .inr plain
  · intro spelled zoneId recordName rtype recordId need reported
    obtain ⟨canonical, nameOk, again, plain, present⟩ := reported.plain.canonical (u := u)
    rw [nameOk, denotes]
    by_cases apex : pattern = ['@']
    · subst apex
      have zoneNamed : name = zone := by
        rw [denoted, if_pos rfl, zoneOk] at denotes
        exact (Except.ok.inj denotes).symm
      refine (matchRules_exactRule (normalizeFqdn_at u) nameOk again present zoneId rtype recordId need).congr ?_
      rw [Except.ok.injEq, zoneNamed]
      rcases spelled rfl zone zoneOk with rfl | unnamed
      · exact eq_comm
      · constructor
        · rintro rfl
          obtain ⟨-, found, other, foundOk, otherOk, ends⟩ := reported
          obtain rfl := Except.ok.inj (nameOk.symm.trans foundOk)
          obtain rfl := Except.ok.inj (zoneOk.symm.trans otherOk)
          exact endsInZone_at ends
        · rintro rfl
          exact absurd plain unnamed
    · have patternOk : normalizeFqdn u pattern = .ok name := by rwa [denoted, if_neg apex] at denotes
      refine (matchRules_exactRule patternOk nameOk again present zoneId rtype recordId need).congr ?_
      simp [eq_comm]

end Exact

section Example

def zoneNamed : Str := "example.com".toList

def trailingStar : Str := "example.com.*".toList

theorem trailing_star_escapes : validateNamePattern .asciiOnly trailingStar wildcard zoneNamed = .ok () ∧
    ¬Confined .asciiOnly trailingStar zoneNamed := by
  refine ⟨by decide +kernel, fun confined => ?_⟩
  have matched : nameMatches .asciiOnly trailingStar wildcard "example.com.evil".toList = .ok true := by decide +kernel
  obtain ⟨canonical, zone, nameOk, zoneOk, suffix⟩ := confined.inside _ (by decide +kernel) matched
  have nameIs : normalizeFqdn .asciiOnly "example.com.evil".toList = .ok "example.com.evil".toList := by decide +kernel
  have zoneIs : normalizeFqdn .asciiOnly zoneNamed = .ok zoneNamed := by decide +kernel
  obtain rfl := Except.ok.inj (nameIs.symm.trans nameOk)
  obtain rfl := Except.ok.inj (zoneIs.symm.trans zoneOk)
  revert suffix
  decide +kernel

theorem leading_star_confined : Confined .asciiOnly "*.example.com".toList zoneNamed := by
  refine (wildcard_confined_iff (by decide +kernel)).mpr ⟨"*.example.com".toList, zoneNamed, [], ["example".toList, "com".toList],
    by decide +kernel, by decide +kernel, by decide +kernel, by decide, ?_⟩
  have labels : zoneNamed.splitOn '.' = ["example".toList, "com".toList] := by decide +kernel
  exact labels ▸ List.suffix_rfl

theorem apex_marker_ungranted : validateNamePattern .asciiOnly ['@'] exact zoneNamed = .ok () ∧
    ¬GrantsDenoted .asciiOnly ['@'] zoneNamed := by
  refine ⟨by decide +kernel, fun grants => ?_⟩
  have zoneIs : normalizeFqdn .asciiOnly zoneNamed = .ok zoneNamed := by decide +kernel
  have reported : Reported .asciiOnly zoneNamed zoneNamed :=
    ⟨by decide +kernel, zoneNamed, zoneNamed, zoneIs, zoneIs, by decide +kernel⟩
  have granted := (grants ['z'] zoneNamed (.str ['A']) (.str ['r']) .read reported).ok_true.mpr zoneIs
  have denied : matchRules .asciiOnly [exactRule ['@'] ['z']] ['z'] (.str zoneNamed) (.str ['A']) (.str ['r']) .read =
      .ok false := by decide +kernel
  simp [denied] at granted

theorem zone_name_granted : GrantsDenoted .asciiOnly zoneNamed zoneNamed := by
  refine (exact_grants_iff (by decide +kernel) (by decide +kernel)).mpr fun apex => ?_
  exact absurd apex (by decide)

end Example

end CfProxy.Scope
