import CfProxy.Shared.Uri
import CfProxy.Shared.UrlSplit

set_option autoImplicit false

namespace FormText

open Uri

def hexValue (c : Char) : Option Nat :=
  if '0' ≤ c ∧ c ≤ '9' then some (c.toNat - 48)
  else if 'A' ≤ c ∧ c ≤ 'F' then some (c.toNat - 55)
  else if 'a' ≤ c ∧ c ≤ 'f' then some (c.toNat - 87)
  else none

def hexByte (high low : Char) : Option UInt8 := do return .ofNat (16 * (← hexValue high) + (← hexValue low))

-- What a quoted text stands for: `+` for a blank, `%` and two digits for any byte.
def octets : Str → List UInt8
  | '%' :: high :: low :: rest =>
    match hexByte high low with
    | some byte => byte :: octets rest
    | none => String.utf8EncodeChar '%' ++ octets (high :: low :: rest)
  | '+' :: rest => String.utf8EncodeChar ' ' ++ octets rest
  | c :: rest => String.utf8EncodeChar c ++ octets rest
  | [] => []

def unquoted (text : Str) : Option Str := (octets text).toByteArray.utf8Decode?.map Array.toList

def field (part : Str) : Option (Str × Str) := do
  return (← unquoted (part.takeWhile (· != '=')), ← unquoted (part.dropWhile (· != '=')).tail)

def fields (text : Str) : Option (List (Str × Str)) := ((text.splitOn '&').filter (!·.isEmpty)).mapM field

section

variable {c : Char} {text rest : Str}

theorem mem_intercalate {sep : Char} {parts : List Str} (member : c ∈ [sep].intercalate parts) :
    c = sep ∨ ∃ part ∈ parts, c ∈ part := by
  induction parts with
  | nil => simp [List.intercalate_nil] at member
  | cons part rest ih =>
    cases rest with
    | nil => exact .inr ⟨part, List.mem_cons_self, by simpa [List.intercalate_singleton] using member⟩
    | cons next rest =>
      rw [List.intercalate_cons_cons, List.mem_append, List.mem_append, List.mem_singleton] at member
      obtain (member | rfl) | later := member
      · exact .inr ⟨part, List.mem_cons_self, member⟩
      · exact .inl rfl
      · obtain same | ⟨other, found, inside⟩ := ih later
        · exact .inl same
        · exact .inr ⟨other, List.mem_cons_of_mem _ found, inside⟩

theorem octets_blank : octets ('+' :: rest) = String.utf8EncodeChar ' ' ++ octets rest := rfl

theorem octets_byte {high low : Char} {byte : UInt8} (digits : hexByte high low = some byte) :
    octets ('%' :: high :: low :: rest) = byte :: octets rest := by
  simp [octets, digits]

theorem octets_plain (notPercent : c ≠ '%') (notPlus : c ≠ '+') :
    octets (c :: rest) = String.utf8EncodeChar c ++ octets rest := by
  rw [octets.eq_def]
  split <;> simp_all

theorem octets_bytes {digit : Nat → Char} (hex : ∀ n, hexValue (digit n) = some (n % 16)) (bytes : List UInt8) :
    octets ((bytes.flatMap fun byte => ['%', digit (byte.toNat / 16), digit byte.toNat]) ++ rest) =
      bytes ++ octets rest := by
  induction bytes with
  | nil => rfl
  | cons byte bytes ih =>
    have whole : hexByte (digit (byte.toNat / 16)) (digit byte.toNat) = some byte := by
      have small := byte.toNat_lt
      have joined : 16 * (byte.toNat / 16 % 16) + byte.toNat % 16 = byte.toNat := by omega
      rw [hexByte, hex, hex]
      exact congrArg some ((congrArg UInt8.ofNat joined).trans UInt8.ofNat_toNat)
    rw [List.flatMap_cons, List.append_assoc]
    exact (octets_byte whole).trans (congrArg (byte :: ·) ih)

def separates (c : Char) : Bool := c == '&' || c == '=' || c == '#'

structure Quoting (quote : Char → Str) : Prop where
  reads : ∀ c rest, octets (quote c ++ rest) = String.utf8EncodeChar c ++ octets rest
  unseparated : ∀ c, ∀ d ∈ quote c, separates d = false

variable {quote : Char → Str}

theorem Quoting.octets (quoting : Quoting quote) (text : Str) :
    octets (text.flatMap quote) = text.flatMap String.utf8EncodeChar := by
  induction text with
  | nil => rfl
  | cons c rest ih => rw [List.flatMap_cons, List.flatMap_cons, quoting.reads, ih]

theorem Quoting.unquoted (quoting : Quoting quote) (text : Str) : unquoted (text.flatMap quote) = some text := by
  have encoded : (text.flatMap String.utf8EncodeChar).toByteArray = text.utf8Encode := rfl
  rw [FormText.unquoted, quoting.octets, encoded, List.utf8Decode?_utf8Encode]
  rfl

theorem Quoting.free (quoting : Quoting quote) {d : Char} (separator : separates d = true) (text : Str) :
    d ∉ text.flatMap quote := by
  intro inside
  obtain ⟨c, -, inside⟩ := List.mem_flatMap.mp inside
  simp [quoting.unseparated c d inside] at separator

def quoted (quote : Char → Str) (param : Str × Str) : Str := param.1.flatMap quote ++ '=' :: param.2.flatMap quote

theorem Quoting.quoted_free (quoting : Quoting quote) {d : Char} (separator : separates d = true) (other : d ≠ '=')
    (param : Str × Str) : d ∉ quoted quote param := by
  simp [quoted, other, quoting.free separator]

theorem Quoting.field (quoting : Quoting quote) (param : Str × Str) : field (quoted quote param) = some param := by
  have name : ∀ c ∈ param.1.flatMap quote, (c != '=') = true := fun c member => by
    simpa using fun same : c = '=' => quoting.free (by decide) param.1 (same ▸ member)
  rw [FormText.field, quoted, takeWhile_until name (by simp), dropWhile_until name (by simp)]
  simp [quoting.unquoted]

theorem Quoting.mapM_field (quoting : Quoting quote) (params : List (Str × Str)) :
    (params.map (quoted quote)).mapM FormText.field = some params := by
  induction params with
  | nil => rfl
  | cons param rest ih =>
    rw [List.map_cons, List.mapM_cons, quoting.field, ih]
    rfl

theorem Quoting.fields (quoting : Quoting quote) (params : List (Str × Str)) :
    fields (['&'].intercalate (params.map (quoted quote))) = some params := by
  cases params with
  | nil => rfl
  | cons first rest =>
    have whole : ∀ part ∈ (first :: rest).map (quoted quote), '&' ∉ part := by
      intro part member
      obtain ⟨param, -, rfl⟩ := List.mem_map.mp member
      exact quoting.quoted_free (by decide) (by decide) param
    have present : ∀ part ∈ (first :: rest).map (quoted quote), (!part.isEmpty) = true := by
      intro part member
      obtain ⟨param, -, rfl⟩ := List.mem_map.mp member
      simp [quoted]
    rw [FormText.fields, List.splitOn_intercalate '&' whole (by simp), List.filter_eq_self.mpr present,
      quoting.mapM_field]

theorem Quoting.queryText (quoting : Quoting quote) {base : Str} (plain : ∀ c ∈ base, endsPath c = false)
    (params : List (Str × Str)) :
    queryText (base ++ '?' :: ['&'].intercalate (params.map (quoted quote))) =
      some (['&'].intercalate (params.map (quoted quote))) := by
  have whole : ∀ c ∈ ['&'].intercalate (params.map (quoted quote)), (c != '#') = true := by
    intro c member
    rcases mem_intercalate member with rfl | ⟨part, found, member⟩
    · decide
    · obtain ⟨param, -, rfl⟩ := List.mem_map.mp found
      simpa using fun same : c = '#' => quoting.quoted_free (by decide) (by decide) param (same ▸ member)
  rw [Uri.queryText, dropWhile_until (fun c member => by simp [plain c member]) (by simp [endsPath])]
  simp [List.takeWhile_eq_self_iff.mpr whole]

end

end FormText
