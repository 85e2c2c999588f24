import Mathlib.Data.List.DropRight
import Mathlib.Data.Nat.Digits.Defs
import CfProxy.Shared.Python

set_option autoImplicit false

namespace Text

-- Outside ASCII, Python's text functions rest on Unicode tables that no proof looks into; nor does any look into
-- `repr` and the texts of the errors.
structure Unicode where
  lower : Str → Str
  upper : Str → Str
  encodeIdna : Str → Option Str
  isAlnum : Char → Bool
  parseInt : Str → Option Int
  repr : Str → Str
  idnaError : Str → Str
  intError : Str → Str

def Unicode.asciiOnly : Unicode where
  lower := id
  upper := id
  encodeIdna _ := none
  isAlnum _ := false
  parseInt _ := none
  repr text := '\'' :: text ++ ['\'']
  idnaError _ := "label empty or too long".toList
  intError text := "invalid literal for int() with base 10: '".toList ++ text ++ ['\'']

def isAscii (c : Char) : Bool := c.toNat < 128

def ascii (text : Str) : Bool := text.all isAscii

-- `str.isspace` on one character.
def isSpace (c : Char) : Bool :=
  let n := c.toNat
  (9 ≤ n && n ≤ 13) || (28 ≤ n && n ≤ 32) || n == 0x85 || n == 0xA0 || n == 0x1680 ||
    (0x2000 ≤ n && n ≤ 0x200A) || n == 0x2028 || n == 0x2029 || n == 0x202F || n == 0x205F ||
    n == 0x3000

-- `text.strip()`.
def strip (text : Str) : Str := (text.dropWhile isSpace).rdropWhile isSpace

-- `text.rstrip(".")`.
def rstripDots (text : Str) : Str := text.rdropWhile (· == '.')

def lower (u : Unicode) (text : Str) : Str :=
  if ascii text then text.map Char.toLower else u.lower text

def upper (u : Unicode) (text : Str) : Str :=
  if ascii text then text.map Char.toUpper else u.upper text

-- The encoder's path for ASCII names: the text itself, if its labels have 1..63 characters;
-- only the last one may be empty.
def encodeAscii (text : Str) : Option Str :=
  let labels := text.splitOn '.'
  if labels.dropLast.all (fun label => 0 < label.length && label.length < 64) &&
      (labels.getLast?.getD []).length < 64
  then some text else none

-- `text.encode("idna").decode("ascii")`; no value stands for a `UnicodeError`.
def encodeIdna (u : Unicode) (text : Str) : Option Str :=
  if ascii text then encodeAscii text else u.encodeIdna text

-- What the parser of `int` skips around ASCII text: unlike `strip`, not the separators from U+001C to U+001F.
def isBlank (c : Char) : Bool :=
  let n := c.toNat
  (9 ≤ n && n ≤ 13) || n == 32

def takeSign : Str → Bool × Str
  | '-' :: rest => (true, rest)
  | '+' :: rest => (false, rest)
  | rest => (false, rest)

-- `int` on ASCII text: a sign, then digits that single underscores may separate.
def parseAsciiInt (text : Str) : Option Int :=
  let (negative, unsigned) := takeSign ((text.dropWhile isBlank).rdropWhile isBlank)
  let groups := unsigned.splitOn '_'
  let digits := groups.flatten
  if groups.all (fun group => !group.isEmpty && group.all Char.isDigit) && digits.length ≤ 4300 then
    let value : Int := digits.foldl (fun value digit => 10 * value + (digit.toNat - '0'.toNat)) 0
    some (if negative then -value else value)
  else none

-- `int(text)`; no value stands for a `ValueError`.
def parseInt (u : Unicode) (text : Str) : Option Int :=
  if ascii text then parseAsciiInt text else u.parseInt text

theorem splitOn_map {sep : Char} {f : Char → Char} (text : Str)
    (keeps : ∀ c ∈ text, f c = sep ↔ c = sep) :
    (text.map f).splitOn sep = (text.splitOn sep).map (List.map f) := by
  induction text with
  | nil => simp
  | cons c rest ih =>
    have split := ih fun d member => keeps d (List.mem_cons_of_mem _ member)
    have here := keeps c (by simp)
    by_cases same : c = sep
    · rw [List.map_cons, List.splitOn_cons_eq_if_modifyHead, List.splitOn_cons_eq_if_modifyHead,
        if_pos (by simpa using here.mpr same), if_pos (by simpa using same), split]
      rfl
    · obtain ⟨head, tail, parts⟩ := List.exists_cons_of_ne_nil (List.splitOn_ne_nil sep rest)
      simp [List.splitOn_cons_eq_if_modifyHead, same, here, split, parts]

theorem ascii_cases {P : Char → Prop} (each : ∀ n < 128, P (Char.ofNat n)) {c : Char}
    (plain : isAscii c = true) : P c := by
  have h := each c.toNat (by simpa [isAscii] using plain)
  rwa [Char.ofNat_toNat] at h

theorem toLower_eq_dot {c : Char} (plain : isAscii c = true) : c.toLower = '.' ↔ c = '.' :=
  ascii_cases (P := fun c => c.toLower = '.' ↔ c = '.') (by decide) plain

theorem isAscii_toLower {c : Char} (plain : isAscii c = true) : isAscii c.toLower = true :=
  ascii_cases (P := fun c => isAscii c.toLower = true) (by decide) plain

theorem isSpace_toLower {c : Char} (plain : isAscii c = true) : isSpace c.toLower = isSpace c :=
  ascii_cases (P := fun c => isSpace c.toLower = isSpace c) (by decide) plain

theorem toLower_toLower {c : Char} (plain : isAscii c = true) : c.toLower.toLower = c.toLower :=
  ascii_cases (P := fun c => c.toLower.toLower = c.toLower) (by decide) plain

theorem strip_head {text rest : Str} {c : Char} (stripped : strip text = c :: rest) : isSpace c = false := by
  obtain ⟨tail, whole⟩ := List.rdropWhile_prefix isSpace (text.dropWhile isSpace)
  have first := List.head?_dropWhile_not isSpace text
  rw [← whole, ← strip, stripped] at first
  simpa using first

theorem strip_eq_rdropWhile {text : Str} (solid : ∀ c rest, text = c :: rest → isSpace c = false) :
    strip text = text.rdropWhile isSpace := by
  have front : text.dropWhile isSpace = text := by
    cases text with
    | nil => rfl
    | cons c rest => simp [solid c rest rfl]
  rw [strip, front]

theorem strip_eq_self {text : Str} (solid : ∀ c ∈ text, isSpace c = false) : strip text = text := by
  rw [strip_eq_rdropWhile fun c rest begins => solid c (by simp [begins]), List.rdropWhile_eq_self_iff]
  intro nonempty
  simp [solid _ (List.getLast_mem nonempty)]

theorem strip_isPrefix {text : Str} (solid : ∀ c rest, text = c :: rest → isSpace c = false) : strip text <+: text := by
  rw [strip_eq_rdropWhile solid]
  exact List.rdropWhile_prefix _ _

theorem strip_eq_self_iff {text : Str} (solid : ∀ c rest, text = c :: rest → isSpace c = false) :
    strip text = text ↔ ∀ c, text.getLast? = some c → isSpace c = false := by
  rw [strip_eq_rdropWhile solid, List.rdropWhile_eq_self_iff]
  constructor
  · intro kept c last
    have nonempty : text ≠ [] := List.ne_nil_of_mem (List.mem_of_getLast? last)
    rw [List.getLast?_eq_some_getLast nonempty] at last
    obtain rfl := Option.some.inj last
    simpa using kept nonempty
  · intro solid nonempty
    simpa using solid _ (List.getLast?_eq_some_getLast nonempty)

theorem strip_subset {text : Str} {c : Char} (member : c ∈ strip text) : c ∈ text :=
  (List.dropWhile_sublist _).subset ((List.rdropWhile_prefix _ _).subset member)

theorem rstripDots_subset {text : Str} {c : Char} (member : c ∈ rstripDots text) : c ∈ text :=
  (List.rdropWhile_prefix _ _).subset member

theorem rstripDots_map {f : Char → Char} {text : Str} (keeps : ∀ c ∈ text, f c = '.' ↔ c = '.') :
    rstripDots (text.map f) = (rstripDots text).map f := by
  induction text using List.reverseRecOn with
  | nil => rfl
  | append_singleton rest c ih =>
    have here := keeps c (by simp)
    have before := ih fun d member => keeps d (by simp [member])
    unfold rstripDots at before ⊢
    by_cases dot : c = '.'
    · rw [List.map_append, List.map_singleton, List.rdropWhile_concat_pos _ _ _ (by simpa using here.mpr dot),
        List.rdropWhile_concat_pos _ _ _ (by simpa using dot), before]
    · rw [List.map_append, List.map_singleton, List.rdropWhile_concat_neg _ _ _ (by simpa [here] using dot),
        List.rdropWhile_concat_neg _ _ _ (by simpa using dot), List.map_append, List.map_singleton]

theorem encodeAscii_eq_self {text : Str}
    (sized : ∀ label ∈ text.splitOn '.', 0 < label.length ∧ label.length < 64) :
    encodeAscii text = some text := by
  have nonempty := List.splitOn_ne_nil '.' text
  have last : (text.splitOn '.').getLast?.getD [] ∈ text.splitOn '.' := by
    rw [List.getLast?_eq_some_getLast nonempty]
    exact List.getLast_mem nonempty
  have front : (text.splitOn '.').dropLast.all
      (fun label => 0 < label.length && label.length < 64) = true := by
    simp only [List.all_eq_true, Bool.and_eq_true, decide_eq_true_eq]
    exact fun label member => sized label (List.dropLast_subset _ member)
  simp [encodeAscii, front, (sized _ last).2]

theorem splitOn_append (sep : Char) (front back : Str) :
    ∃ whole part rest later, front.splitOn sep = whole ++ [part] ∧
      (front ++ back).splitOn sep = whole ++ (part ++ rest) :: later := by
  induction front with
  | nil =>
    obtain ⟨first, later, split⟩ := List.exists_cons_of_ne_nil (List.splitOn_ne_nil sep back)
    exact ⟨[], [], first, later, rfl, split⟩
  | cons c front ih =>
    obtain ⟨whole, part, rest, later, here, all⟩ := ih
    by_cases same : c = sep
    · exact ⟨[] :: whole, part, rest, later, by simp [List.splitOn_cons_eq_if_modifyHead, same, here],
        by simp [List.splitOn_cons_eq_if_modifyHead, same, all]⟩
    · cases whole with
      | nil =>
        exact ⟨[], c :: part, rest, later, by simp [List.splitOn_cons_eq_if_modifyHead, same, here],
          by simp [List.splitOn_cons_eq_if_modifyHead, same, all]⟩
      | cons label whole =>
        exact ⟨(c :: label) :: whole, part, rest, later,
          by simp [List.splitOn_cons_eq_if_modifyHead, same, here],
          by simp [List.splitOn_cons_eq_if_modifyHead, same, all]⟩

theorem encodeAscii_eq_some {text encoded : Str} :
    encodeAscii text = some encoded ↔ text = encoded ∧
      (∀ label ∈ (text.splitOn '.').dropLast, 0 < label.length) ∧ ∀ label ∈ text.splitOn '.', label.length < 64 := by
  obtain ⟨labels, final, split⟩ : ∃ labels final, text.splitOn '.' = labels ++ [final] :=
    ⟨_, _, (List.dropLast_append_getLast (List.splitOn_ne_nil '.' text)).symm⟩
  simp [encodeAscii, split, or_imp, forall_and]
  grind

theorem encodeAscii_prefix {front text : Str} (isPrefix : front <+: text) (encodes : encodeAscii text = some text) :
    encodeAscii front = some front := by
  obtain ⟨back, rfl⟩ := isPrefix
  obtain ⟨whole, part, rest, later, here, all⟩ := splitOn_append '.' front back
  obtain ⟨-, filled, short⟩ := encodeAscii_eq_some.mp encodes
  rw [all] at filled short
  refine encodeAscii_eq_some.mpr ⟨rfl, ?_, ?_⟩ <;> rw [here]
  · intro label member
    exact filled label (by cases later <;> simp_all [List.dropLast_append_of_ne_nil])
  · intro label member
    rcases List.mem_append.mp member with inside | final
    · exact short label (by simp [inside])
    · have bound := short (part ++ rest) (by simp)
      simp at final bound
      subst final
      omega

def digitOf (c : Char) : Nat := c.toNat - '0'.toNat

-- A number in decimal digits; `int` takes 4300 of them.
structure Decimal (text : Str) (value : Nat) : Prop where
  written : text ≠ []
  digits : ∀ c ∈ text, c.isDigit = true
  short : text.length ≤ 4300
  reads : Nat.ofDigits 10 (text.reverse.map digitOf) = value

theorem foldl_digits {text : Str} (digits : ∀ c ∈ text, c.isDigit = true) :
    text.foldl (fun (value : Int) digit => 10 * value + (digit.toNat - '0'.toNat)) 0 =
      ((Nat.ofDigits 10 (text.reverse.map digitOf) : Nat) : Int) := by
  induction text using List.reverseRecOn with
  | nil => rfl
  | append_singleton text c ih =>
    have digit : '0'.toNat ≤ c.toNat := by
      have range := digits c (by simp)
      simp only [Char.isDigit, Bool.and_eq_true, decide_eq_true_eq] at range
      exact range.1
    have cast : ((digitOf c : Nat) : Int) = c.toNat - '0'.toNat := Int.ofNat_sub digit
    rw [List.foldl_append, ih fun d member => digits d (List.mem_append_left _ member), List.reverse_append]
    rw [List.foldl_cons, List.foldl_nil, List.reverse_singleton, List.singleton_append, List.map_cons, Nat.ofDigits_cons]
    rw [Nat.cast_add, Nat.cast_mul, cast]
    exact Int.add_comm _ _

theorem parseInt_decimal (u : Unicode) {text : Str} {value : Nat} (decimal : Decimal text value) :
    parseInt u text = some (value : Int) := by
  have range (c : Char) (member : c ∈ text) : 48 ≤ c.toNat ∧ c.toNat ≤ 57 := by
    have digit := decimal.digits c member
    simp only [Char.isDigit, Bool.and_eq_true, decide_eq_true_eq] at digit
    exact digit
  have plain : ascii text = true := List.all_eq_true.mpr fun c member => by
    have within := range c member
    simp only [isAscii, decide_eq_true_eq]
    omega
  have solid (c : Char) (member : c ∈ text) : isBlank c = false := by
    have within := range c member
    simp only [isBlank, Bool.or_eq_false_iff, Bool.and_eq_false_iff, decide_eq_false_iff_not, beq_eq_false_iff_ne]
    omega
  have front : text.dropWhile isBlank = text := by
    rw [List.dropWhile_eq_self_iff]
    intro nonempty
    simp [solid _ (List.getElem_mem nonempty)]
  have back : text.rdropWhile isBlank = text := by
    rw [List.rdropWhile_eq_self_iff]
    intro nonempty
    simp [solid _ (List.getLast_mem nonempty)]
  have whole : text.splitOn '_' = [text] := by
    apply List.splitOn_eq_singleton
    intro underscore
    have within := range '_' underscore
    simp at within
  have all : [text].all (fun group => !group.isEmpty && group.all Char.isDigit) = true := by
    simpa [decimal.written] using decimal.digits
  have unsigned : takeSign text = (false, text) := by
    unfold takeSign
    split
    · have within := range '-' (by simp)
      simp at within
    · have within := range '+' (by simp)
      simp at within
    · rfl
  have value := foldl_digits decimal.digits
  rw [decimal.reads] at value
  rw [parseInt, if_pos plain, parseAsciiInt, front, back, unsigned]
  simp only [whole, all, decimal.short, value, List.flatten_cons, List.flatten_nil, List.append_nil, Bool.true_and,
    decide_true, if_true, Bool.false_eq_true, if_false]

end Text
