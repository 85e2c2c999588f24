import CfProxy.Shared.UrlSplit
import CfProxy.Upstream.Client

set_option autoImplicit false

namespace CfProxy.Client

open Text Uri

def runtimeError : PyError := .named "RuntimeError".toList

def httpsScheme : Str := "https".toList
def apiHost : Str := "api.cloudflare.com".toList

-- `_ALLOWED_UPSTREAM_ORIGIN`.
def allowedUpstreamOrigin : Str := httpsScheme ++ "://".toList ++ apiHost

section

variable (u : Unicode) (checkNetloc : Str → Except PyError Unit)

def assertPinnedOrigin (baseUrl : Str) : Except PyError Unit := do
  let parts ← urlsplit checkNetloc baseUrl
  let origin := (lower u (parts.scheme ++ "://".toList ++ parts.netloc)).rdropWhile (· == '/')
  if origin ≠ allowedUpstreamOrigin then throw runtimeError

def getCfClient (cfClient : Option Str) (upstreamBaseUrl : Str) : Except PyError Str :=
  match cfClient with
  | some baseUrl => .ok baseUrl
  | none => do
    assertPinnedOrigin u checkNetloc upstreamBaseUrl
    return upstreamBaseUrl

end

def Pinned (url : Str) : Prop :=
  ∃ scheme host rest, cleaned url = scheme ++ ':' :: '/' :: '/' :: (host ++ rest) ∧
    scheme.map Char.toLower = "https".toList ∧ host.map Char.toLower = "api.cloudflare.com".toList ∧
      ∀ c ∈ rest.head?, endsNetloc c = true

def OnlyKelvin (u : Unicode) : Prop :=
  ∀ text, ascii text = false → ascii (u.lower text) = true → 'k' ∈ u.lower text

section

variable {u : Unicode} {checkNetloc : Str → Except PyError Unit} {url : Str}

theorem lower_allowed (kelvin : OnlyKelvin u) {text : Str}
    (origin : (lower u text).rdropWhile (· == '/') = allowedUpstreamOrigin) :
    ∃ slashes, text.map Char.toLower = allowedUpstreamOrigin ++ slashes ∧ ∀ c ∈ slashes, c = '/' := by
  have whole := List.rdropWhile_append_rtakeWhile (p := (· == '/')) (l := lower u text)
  have slashes : ∀ c ∈ (lower u text).rtakeWhile (· == '/'), c = '/' := fun c member => by
    simpa using List.mem_rtakeWhile_imp member
  rw [origin] at whole
  cases plain : ascii text with
  | true =>
    have lowered : lower u text = text.map Char.toLower := by rw [lower, if_pos plain]
    exact ⟨_, (whole.trans lowered).symm, slashes⟩
  | false =>
    exfalso
    have inside : ascii (lower u text) = true := by
      rw [← whole, ascii, List.all_append, Bool.and_eq_true]
      exact ⟨by decide, List.all_eq_true.mpr fun c member => by rw [slashes c member]; decide⟩
    have lowered : lower u text = u.lower text := by simp [lower, plain]
    have sign : 'k' ∈ lower u text := lowered ▸ kelvin text plain (lowered ▸ inside)
    rw [← whole] at sign
    rcases List.mem_append.mp sign with early | late
    · revert early
      decide
    · exact absurd (slashes 'k' late) (by decide)

theorem origin_parts {scheme netloc slashes : Str} (colonless : ':' ∉ scheme)
    (inside : ∀ c ∈ netloc, endsNetloc c = false)
    (whole : scheme ++ ':' :: '/' :: '/' :: netloc = allowedUpstreamOrigin ++ slashes) (dropped : ∀ c ∈ slashes, c = '/') :
    scheme = httpsScheme ∧ netloc = apiHost := by
  have shape : allowedUpstreamOrigin ++ slashes = httpsScheme ++ ':' :: '/' :: '/' :: (apiHost ++ slashes) := by
    simp [allowedUpstreamOrigin, List.append_assoc]
  rw [shape] at whole
  have same := congrArg (List.takeWhile (· != ':')) whole
  rw [takeWhile_until (ne_colon colonless) (by simp), takeWhile_until (ne_colon (by decide)) (by simp)] at same
  subst same
  have netlocs := (List.cons_inj_right _).mp ((List.cons_inj_right _).mp
    ((List.cons_inj_right _).mp (List.append_cancel_left whole)))
  cases slashes with
  | nil => exact ⟨rfl, by simpa using netlocs⟩
  | cons c rest =>
    have slash : '/' ∈ netloc := by
      rw [netlocs, ← dropped c List.mem_cons_self]
      simp
    exact absurd (inside '/' slash) (by decide)

theorem assertPinnedOrigin_ok (kelvin : OnlyKelvin u) (asserted : assertPinnedOrigin u checkNetloc url = .ok ()) :
    Pinned url := by
  obtain ⟨parts, split, checked⟩ := Except.bind_eq_ok.mp asserted
  dsimp only at checked
  split at checked
  · cases checked
  rename_i origin
  obtain ⟨slashes, whole, dropped⟩ := lower_allowed kelvin (not_not.mp origin)
  have shape : (parts.scheme ++ "://".toList ++ parts.netloc).map Char.toLower =
      parts.scheme.map Char.toLower ++ ':' :: '/' :: '/' :: parts.netloc.map Char.toLower := by
    simp [List.map_append, List.append_assoc]
  rw [shape] at whole
  have scheme := urlsplit_scheme split
  have colonless : ':' ∉ parts.scheme.map Char.toLower := by
    rw [colon_lowered, scheme]
    exact splitScheme_colonless _
  rcases urlsplit_netloc split with empty | ⟨rest, after, inside, ends⟩
  · rw [empty] at whole
    obtain ⟨-, impossible⟩ := origin_parts colonless (by simp) whole dropped
    cases impossible
  · obtain ⟨https, host⟩ := origin_parts colonless (endsNetloc_lowered.mpr inside) whole dropped
    rcases splitScheme_cases (cleaned url) with ⟨original, later, same, -, splits⟩ | splits
    · rw [splits] at scheme after
      rw [scheme, lowered_idem] at https
      exact ⟨original, parts.netloc, rest, by rw [same, ← after], https, host, ends⟩
    · rw [splits] at scheme
      rw [scheme] at https
      cases https

theorem Pinned.assert (lenient : Lenient checkNetloc) (pinned : Pinned url) :
    assertPinnedOrigin u checkNetloc url = .ok () := by
  obtain ⟨scheme, host, rest, whole, https, api, ends⟩ := pinned
  have valid : isScheme scheme = true := by
    rw [← isScheme_lowered, https]
    decide
  have plain : ascii host = true := by
    rw [← ascii_lowered, api]
    decide
  have inside : ∀ c ∈ host, endsNetloc c = false := by
    rw [← endsNetloc_lowered, api]
    decide
  have bracketless : '[' ∉ host ∧ ']' ∉ host := by
    rw [← mem_lowered (d := '[') (by decide), ← mem_lowered (d := ']') (by decide), api]
    decide
  have split := urlsplit_authority (lenient host plain bracketless.1 bracketless.2) valid whole inside ends
  have lowered : lower u (scheme.map Char.toLower ++ "://".toList ++ host) = allowedUpstreamOrigin := by
    have all : ascii (scheme.map Char.toLower ++ "://".toList ++ host) = true := by
      rw [https, ascii, List.all_append, Bool.and_eq_true]
      exact ⟨by decide, plain⟩
    rw [lower, if_pos all, List.map_append, List.map_append, lowered_idem, https, api]
    decide
  have kept : allowedUpstreamOrigin.rdropWhile (· == '/') = allowedUpstreamOrigin := by decide
  rw [assertPinnedOrigin, split, Except.ok_bind]
  dsimp only
  rw [lowered, kept]
  rfl

theorem assertPinnedOrigin_iff (lenient : Lenient checkNetloc) (kelvin : OnlyKelvin u) :
    assertPinnedOrigin u checkNetloc url = .ok () ↔ Pinned url :=
  ⟨assertPinnedOrigin_ok kelvin, fun pinned => pinned.assert lenient⟩

theorem asciiOnly_kelvin : OnlyKelvin .asciiOnly := by
  intro text other plain
  exact absurd (other.symm.trans plain) (by decide)

theorem capitals_accepted :
    assertPinnedOrigin .asciiOnly (fun _ => .ok ()) " HTTPS://API.Cloudflare.com?".toList = .ok () :=
  (assertPinnedOrigin_iff (fun _ _ _ _ => rfl) asciiOnly_kelvin).mpr
    ⟨"HTTPS".toList, "API.Cloudflare.com".toList, ['?'], by decide, by decide, by decide, by simp [endsNetloc]⟩

theorem Pinned.append (pinned : Pinned url) (path : Str) : Pinned (url ++ '/' :: path) := by
  obtain ⟨scheme, host, rest, whole, https, api, ends⟩ := pinned
  have kept : ('/' :: path).filter (!isRemoved ·) = '/' :: path.filter (!isRemoved ·) := by simp [isRemoved]
  refine ⟨scheme, host, rest ++ '/' :: path.filter (!isRemoved ·), ?_, https, api, ?_⟩
  · rw [cleaned_append (by simp [whole]), whole, kept]
    simp [List.append_assoc]
  · cases rest with
    | nil => simp [endsNetloc]
    | cons c tail => simpa using ends

end

end CfProxy.Client
