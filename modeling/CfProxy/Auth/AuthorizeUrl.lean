import CfProxy.Auth.OauthCf
import CfProxy.Shared.FormText

set_option autoImplicit false

namespace CfProxy.OauthCf

open FormText Text

theorem hexDigit_small : ∀ n < 16, hexValue (hexDigit n) = some n ∧ separates (hexDigit n) = false := by decide

theorem hexDigit_mod (n : Nat) : hexDigit n = hexDigit (n % 16) := by rw [hexDigit, hexDigit, Nat.mod_mod]

theorem hexValue_hexDigit (n : Nat) : hexValue (hexDigit n) = some (n % 16) := by
  rw [hexDigit_mod]
  exact (hexDigit_small (n % 16) (by omega)).1

theorem separates_hexDigit (n : Nat) : separates (hexDigit n) = false := by
  rw [hexDigit_mod]
  exact (hexDigit_small (n % 16) (by omega)).2

-- What `quote_plus` makes of one character.
def isUnreserved (c : Char) : Bool := isAscii c && c.isAlphanum || c == '_' || c == '.' || c == '-' || c == '~'

def escaped (byte : UInt8) : Str := ['%', hexDigit (byte.toNat / 16), hexDigit byte.toNat]

def quoteChar (c : Char) : Str :=
  if isUnreserved c then [c] else if c == ' ' then ['+'] else (String.utf8EncodeChar c).flatMap escaped

theorem unreserved_apart {c : Char} (unreserved : isUnreserved c = true) : c ≠ '%' ∧ c ≠ '+' ∧ separates c = false := by
  refine ⟨?_, ?_, ?_⟩
  · rintro rfl
    revert unreserved
    decide
  · rintro rfl
    revert unreserved
    decide
  · cases separator : separates c with
    | false => rfl
    | true =>
      simp only [separates, Bool.or_eq_true, beq_iff_eq] at separator
      obtain (rfl | rfl) | rfl := separator <;> revert unreserved <;> decide

theorem quoting : Quoting quoteChar where
  reads c rest := by
    unfold quoteChar
    split
    · next unreserved =>
      obtain ⟨notPercent, notPlus, -⟩ := unreserved_apart unreserved
      exact octets_plain notPercent notPlus
    · split
      · next blank =>
        obtain rfl : c = ' ' := by simpa using blank
        exact octets_blank
      · exact octets_bytes hexValue_hexDigit _
  unseparated c d member := by
    unfold quoteChar at member
    split at member
    · next unreserved =>
      obtain rfl := List.mem_singleton.mp member
      exact (unreserved_apart unreserved).2.2
    · split at member
      · obtain rfl := List.mem_singleton.mp member
        decide
      · obtain ⟨byte, -, member⟩ := List.mem_flatMap.mp member
        simp only [escaped, List.mem_cons, List.not_mem_nil, or_false] at member
        obtain rfl | rfl | rfl := member
        · decide
        · exact separates_hexDigit _
        · exact separates_hexDigit _

theorem urlencode_quoted (params : List (Str × Str)) :
    urlencode params = ['&'].intercalate (params.map (quoted quoteChar)) := rfl

section Base64

def b64Value (c : Char) : Option Nat :=
  if 'A' ≤ c ∧ c ≤ 'Z' then some (c.toNat - 65)
  else if 'a' ≤ c ∧ c ≤ 'z' then some (c.toNat - 71)
  else if '0' ≤ c ∧ c ≤ '9' then some (c.toNat + 4)
  else if c = '-' then some 62
  else if c = '_' then some 63
  else none

-- The bytes that a text spells with six bits a character; the bits that make no byte are dropped.
def fromB64 : Str → Option Bytes
  | [] => some []
  | [_] => none
  | [p, q] => do return [.ofNat (4 * (← b64Value p) + (← b64Value q) / 16)]
  | [p, q, r] => do
    let second ← b64Value q
    return [.ofNat (4 * (← b64Value p) + second / 16), .ofNat (16 * second + (← b64Value r) / 4)]
  | p :: q :: r :: s :: rest => do
    let second ← b64Value q
    let third ← b64Value r
    return .ofNat (4 * (← b64Value p) + second / 16) :: .ofNat (16 * second + third / 4) ::
      .ofNat (64 * third + (← b64Value s)) :: (← fromB64 rest)

theorem b64Value_small : ∀ n < 64, b64Value (b64Digit n) = some n := by decide +kernel

theorem b64Value_b64Digit (n : Nat) : b64Value (b64Digit n) = some (n % 64) := by
  have same : b64Digit n = b64Digit (n % 64) := by rw [b64Digit, b64Digit, Nat.mod_mod]
  rw [same]
  exact b64Value_small (n % 64) (by omega)

theorem ofNat_byte (byte : UInt8) {n : Nat} (same : n % 256 = byte.toNat) : UInt8.ofNat n = byte := by
  rw [← UInt8.toNat_inj, UInt8.toNat_ofNat', same]

theorem fromB64_urlsafeB64 (bytes : Bytes) : fromB64 (urlsafeB64 bytes) = some bytes := by
  fun_induction urlsafeB64 bytes with
  | case1 => rfl
  | case2 a =>
    have first := a.toNat_lt
    simp only [fromB64, b64Value_b64Digit, Option.bind_eq_bind, Option.bind_some, Option.pure_def]
    rw [ofNat_byte a (by omega)]
  | case3 a b =>
    have first := a.toNat_lt
    have second := b.toNat_lt
    simp only [fromB64, b64Value_b64Digit, Option.bind_eq_bind, Option.bind_some, Option.pure_def]
    rw [ofNat_byte a (by omega), ofNat_byte b (by omega)]
  | case4 a b c rest ih =>
    have first := a.toNat_lt
    have second := b.toNat_lt
    have third := c.toNat_lt
    simp only [fromB64, b64Value_b64Digit, Option.bind_eq_bind, Option.bind_some, Option.pure_def, ih]
    rw [ofNat_byte a (by omega), ofNat_byte b (by omega), ofNat_byte c (by omega)]

end Base64

-- A challenge from which the issuer reads the digest of the verifier.
structure S256 (oauth : Oauth) (verifier codeChallenge : Str) : Prop where
  spelled : codeChallenge = urlsafeB64 (oauth.sha256 (verifier.flatMap String.utf8EncodeChar))
  digest : fromB64 codeChallenge = some (oauth.sha256 (verifier.flatMap String.utf8EncodeChar))

theorem challenge_s256 (oauth : Oauth) (verifier : Str) : S256 oauth verifier (challenge oauth verifier) where
  spelled := rfl
  digest := fromB64_urlsafeB64 _

-- The parameters of an authorization request, which leaves a challenge to whoever asks for the tokens.
def authorizeParams (oauth : Oauth) (state nonce codeChallenge : Str) : List (Str × Str) := [
  ("response_type".toList, "code".toList),
  ("client_id".toList, oauth.clientId),
  ("redirect_uri".toList, oauth.redirectUri),
  ("scope".toList, if oauth.dnsScope = [] then oauth.baseScopes else oauth.baseScopes ++ [' '] ++ oauth.dnsScope),
  ("state".toList, state),
  ("nonce".toList, nonce),
  ("code_challenge".toList, codeChallenge),
  ("code_challenge_method".toList, "S256".toList)]

-- What a URL asks of whoever reads its query as a form.
def asks (url : Str) : Option (List (Str × Str)) := (Uri.queryText url).bind fields

theorem scopes_settings (oauth : Oauth) :
    scopes oauth = if oauth.dnsScope = [] then oauth.baseScopes else oauth.baseScopes ++ [' '] ++ oauth.dnsScope := by
  simp [scopes, List.isEmpty_iff]

-- No text that is put in gets into another parameter, or gets lost.
theorem buildAuthorizeUrl_asks (oauth : Oauth) (plain : ∀ c ∈ oauth.issuer, Uri.endsPath c = false)
    (state nonce codeChallenge : Str) :
    asks (buildAuthorizeUrl oauth state nonce codeChallenge) = some (authorizeParams oauth state nonce codeChallenge) := by
  have base : ∀ c ∈ oauth.issuer ++ "/oauth2/auth".toList, Uri.endsPath c = false := by
    intro c member
    rcases List.mem_append.mp member with member | member
    · exact plain c member
    · exact (by decide : ∀ c ∈ "/oauth2/auth".toList, Uri.endsPath c = false) c member
  have whole : buildAuthorizeUrl oauth state nonce codeChallenge =
      oauth.issuer ++ "/oauth2/auth".toList ++ '?' ::
        ['&'].intercalate ((authorizeParams oauth state nonce codeChallenge).map (quoted quoteChar)) := by
    simp [buildAuthorizeUrl, urlencode_quoted, authorizeParams, scopes_settings]
  rw [asks, whole, quoting.queryText base, Option.bind_some, quoting.fields]

end CfProxy.OauthCf
