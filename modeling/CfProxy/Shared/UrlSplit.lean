import Mathlib.Data.List.DropRight
import CfProxy.Shared.Text

set_option autoImplicit false

namespace Uri

open Text

def isC0OrSpace (c : Char) : Bool := c.toNat ≤ 32

-- `_UNSAFE_URL_BYTES_TO_REMOVE`.
def isRemoved (c : Char) : Bool := c == '\t' || c == '\r' || c == '\n'

def isSchemeChar (c : Char) : Bool := isAscii c && c.isAlphanum || c == '+' || c == '-' || c == '.'

def endsNetloc (c : Char) : Bool := c == '/' || c == '?' || c == '#'

def cleaned (url : Str) : Str := (url.dropWhile isC0OrSpace).filter (!isRemoved ·)

def isScheme : Str → Bool
  | [] => false
  | c :: rest => isAscii c && c.isAlpha && (c :: rest).all isSchemeChar

def splitScheme (url : Str) : Str × Str :=
  match url.dropWhile (· != ':') with
  | _ :: rest =>
    let scheme := url.takeWhile (· != ':')
    if isScheme scheme then (scheme.map Char.toLower, rest) else ([], url)
  | [] => ([], url)

structure SplitResult where
  scheme : Str
  netloc : Str

-- `checkNetloc` stands for the checks of bracketed and of internationalised hosts, which may raise.
def urlsplit (checkNetloc : Str → Except PyError Unit) (url : Str) : Except PyError SplitResult := do
  let (scheme, rest) := splitScheme (cleaned url)
  match rest with
  | '/' :: '/' :: rest =>
    let netloc := rest.takeWhile (!endsNetloc ·)
    checkNetloc netloc
    return ⟨scheme, netloc⟩
  | _ => return ⟨scheme, []⟩

def Lenient (checkNetloc : Str → Except PyError Unit) : Prop :=
  ∀ netloc, ascii netloc = true → '[' ∉ netloc → ']' ∉ netloc → checkNetloc netloc = .ok ()

section Taking

variable {α : Type} {p : α → Bool}

theorem takeWhile_until {inside rest : List α} (holds : ∀ value ∈ inside, p value = true)
    (stops : ∀ value ∈ rest.head?, p value = false) : (inside ++ rest).takeWhile p = inside := by
  rw [List.takeWhile_append_of_pos holds]
  cases rest with
  | nil => simp
  | cons value tail => simp [stops value rfl]

theorem dropWhile_until {inside rest : List α} (holds : ∀ value ∈ inside, p value = true)
    (stops : ∀ value ∈ rest.head?, p value = false) : (inside ++ rest).dropWhile p = rest := by
  rw [List.dropWhile_append_of_pos holds]
  cases rest with
  | nil => simp
  | cons value tail => simp [stops value rfl]

end Taking

theorem ne_colon {text : Str} (colonless : ':' ∉ text) : ∀ c ∈ text, (c != ':') = true := fun c member => by
  simpa using fun same : c = ':' => colonless (same ▸ member)

section Lowering

variable {c : Char}

theorem toLower_of_not_ascii (other : isAscii c = false) : c.toLower = c := by
  unfold Char.toLower
  split
  · rename_i upper
    have bound := UInt32.le_iff_toNat_le.mp upper.2
    have above : 128 ≤ c.toNat := by simpa [isAscii] using other
    exact absurd (Nat.le_trans above bound) (by decide)
  · rfl

theorem isAscii_toLower_eq (c : Char) : isAscii c.toLower = isAscii c := by
  cases plain : isAscii c with
  | true => exact isAscii_toLower plain
  | false => rw [toLower_of_not_ascii plain, plain]

theorem toLower_idem (c : Char) : c.toLower.toLower = c.toLower := by
  cases plain : isAscii c with
  | true => exact toLower_toLower plain
  | false => rw [toLower_of_not_ascii plain, toLower_of_not_ascii plain]

theorem lowered_idem (text : Str) : (text.map Char.toLower).map Char.toLower = text.map Char.toLower := by
  rw [List.map_map]
  exact List.map_congr_left fun c _ => toLower_idem c

theorem ascii_lowered (text : Str) : ascii (text.map Char.toLower) = ascii text := by
  simp [ascii, Function.comp_def, isAscii_toLower_eq]

theorem lowered_iff {P : Char → Bool} (each : ∀ n < 128, P (Char.ofNat n).toLower = P (Char.ofNat n)) (c : Char) :
    P c.toLower = P c := by
  cases plain : isAscii c with
  | true => exact ascii_cases (P := fun c => P c.toLower = P c) each plain
  | false => rw [toLower_of_not_ascii plain]

theorem mem_lowered {d : Char} (each : ∀ n < 128, ((Char.ofNat n).toLower == d) = (Char.ofNat n == d)) {text : Str} :
    d ∈ text.map Char.toLower ↔ d ∈ text := by
  have same (c : Char) : c.toLower = d ↔ c = d := by
    simpa using Bool.eq_iff_iff.mp (lowered_iff (P := (· == d)) each c)
  simp [List.mem_map, same]

theorem colon_lowered {text : Str} : ':' ∈ text.map Char.toLower ↔ ':' ∈ text := mem_lowered (by decide)

theorem isSchemeChar_toLower (c : Char) : isSchemeChar c.toLower = isSchemeChar c := lowered_iff (by decide) c

theorem endsNetloc_toLower (c : Char) : endsNetloc c.toLower = endsNetloc c := lowered_iff (by decide) c

theorem endsNetloc_lowered {text : Str} :
    (∀ c ∈ text.map Char.toLower, endsNetloc c = false) ↔ ∀ c ∈ text, endsNetloc c = false := by
  simp [endsNetloc_toLower]

theorem isAlpha_toLower (c : Char) : (isAscii c.toLower && c.toLower.isAlpha) = (isAscii c && c.isAlpha) :=
  lowered_iff (P := fun c => isAscii c && c.isAlpha) (by decide) c

theorem isScheme_lowered (scheme : Str) : isScheme (scheme.map Char.toLower) = isScheme scheme := by
  cases scheme with
  | nil => rfl
  | cons c rest =>
    have chars : (isSchemeChar ∘ Char.toLower) = isSchemeChar := funext isSchemeChar_toLower
    simp only [isScheme, List.map_cons, isAlpha_toLower, List.all_cons, isSchemeChar_toLower, List.all_map, chars]

end Lowering

theorem cleaned_append {url : Str} (some : cleaned url ≠ []) (tail : Str) :
    cleaned (url ++ tail) = cleaned url ++ tail.filter (!isRemoved ·) := by
  have kept : (url.dropWhile isC0OrSpace).isEmpty = false := by
    rw [List.isEmpty_eq_false_iff]
    intro nothing
    exact some (by rw [cleaned, nothing, List.filter_nil])
  simp [cleaned, List.dropWhile_append, kept]

section Schemes

variable {url scheme rest : Str}

theorem isScheme_chars (valid : isScheme scheme = true) : ∀ c ∈ scheme, isSchemeChar c = true := by
  cases scheme with
  | nil => cases valid
  | cons c tail =>
    simp only [isScheme, Bool.and_eq_true] at valid
    exact List.all_eq_true.mp valid.2

theorem isScheme_colonless (valid : isScheme scheme = true) : ':' ∉ scheme := by
  intro member
  have colon := isScheme_chars valid ':' member
  revert colon
  decide

theorem splitScheme_scheme (valid : isScheme scheme = true) (rest : Str) :
    splitScheme (scheme ++ ':' :: rest) = (scheme.map Char.toLower, rest) := by
  have before := ne_colon (isScheme_colonless valid)
  have front : (scheme ++ ':' :: rest).takeWhile (· != ':') = scheme := takeWhile_until before (by simp)
  have back : (scheme ++ ':' :: rest).dropWhile (· != ':') = ':' :: rest := dropWhile_until before (by simp)
  simp [splitScheme, front, back, valid]

theorem splitScheme_cases (url : Str) :
    (∃ scheme rest, url = scheme ++ ':' :: rest ∧ isScheme scheme = true ∧
      splitScheme url = (scheme.map Char.toLower, rest)) ∨ splitScheme url = ([], url) := by
  cases back : url.dropWhile (· != ':') with
  | nil => exact .inr (by simp [splitScheme, back])
  | cons colon rest =>
    have whole := List.takeWhile_append_dropWhile (p := (· != ':')) (l := url)
    have isColon : colon = ':' := by
      have first := List.head?_dropWhile_not (· != ':') url
      simpa [back] using first
    subst isColon
    cases valid : isScheme (url.takeWhile (· != ':')) with
    | false => exact .inr (by simp [splitScheme, back, valid])
    | true =>
      rw [back] at whole
      exact .inl ⟨_, rest, whole.symm, valid, by simp [splitScheme, back, valid]⟩

theorem splitScheme_colonless (url : Str) : ':' ∉ (splitScheme url).1 := by
  rcases splitScheme_cases url with ⟨scheme, rest, -, valid, split⟩ | split
  · rw [split]
    exact isScheme_colonless ((isScheme_lowered scheme).trans valid)
  · simp [split]

end Schemes

section Split

variable {checkNetloc : Str → Except PyError Unit} {url : Str} {parts : SplitResult}

theorem urlsplit_scheme (split : urlsplit checkNetloc url = .ok parts) : parts.scheme = (splitScheme (cleaned url)).1 := by
  unfold urlsplit at split
  dsimp only at split
  split at split
  · obtain ⟨_, -, same⟩ := Except.bind_eq_ok.mp split
    cases same
    rfl
  · cases split
    rfl

theorem urlsplit_netloc (split : urlsplit checkNetloc url = .ok parts) :
    parts.netloc = [] ∨ ∃ rest, (splitScheme (cleaned url)).2 = '/' :: '/' :: (parts.netloc ++ rest) ∧
      (∀ c ∈ parts.netloc, endsNetloc c = false) ∧ ∀ c ∈ rest.head?, endsNetloc c = true := by
  unfold urlsplit at split
  dsimp only at split
  split at split
  · next rest after =>
    obtain ⟨_, -, same⟩ := Except.bind_eq_ok.mp split
    cases same
    refine .inr ⟨rest.dropWhile (!endsNetloc ·), by rw [after, List.takeWhile_append_dropWhile], ?_, ?_⟩
    · intro c member
      simpa using List.mem_takeWhile_imp member
    · intro c first
      have stops := List.head?_dropWhile_not (!endsNetloc ·) rest
      rw [first] at stops
      simpa using stops
  · cases split
    exact .inl rfl

theorem urlsplit_authority {scheme host rest : Str} (lenient : checkNetloc host = .ok ()) (valid : isScheme scheme = true)
    (whole : cleaned url = scheme ++ ':' :: '/' :: '/' :: (host ++ rest)) (inside : ∀ c ∈ host, endsNetloc c = false)
    (ends : ∀ c ∈ rest.head?, endsNetloc c = true) :
    urlsplit checkNetloc url = .ok ⟨scheme.map Char.toLower, host⟩ := by
  have front : (host ++ rest).takeWhile (!endsNetloc ·) = host :=
    takeWhile_until (fun c member => by simp [inside c member]) fun c first => by simp [ends c first]
  simp [urlsplit, whole, splitScheme_scheme valid, front, lenient]

end Split

end Uri
