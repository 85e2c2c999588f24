import CfProxy.Core.Crypto
import CfProxy.Shared.Labels

set_option autoImplicit false

namespace CfProxy.Crypto

open Text

structure Spelled (brand lookupId secret full : Str) : Prop where
  whole : full = brand ++ '_' :: (lookupId ++ '_' :: secret)
  plainBrand : '_' ∉ brand
  lookupId_length : lookupId.length = lookupIdLen
  secret_length : secret.length = secretLen
  lookupId_drawn : ∀ c ∈ lookupId, c ∈ tokenAlphabet
  secret_drawn : ∀ c ∈ secret, c ∈ tokenAlphabet

-- Of three parts with the right lengths and only letters and digits, the last two are ASCII.
def AsciiParts (u : Unicode) (full : Str) : Prop :=
  ∀ brand lookupId secret, full.splitOn '_' = [brand, lookupId, secret] →
    lookupId.length = lookupIdLen → secret.length = secretLen →
    isAlnum u lookupId = true → isAlnum u secret = true → ascii lookupId = true ∧ ascii secret = true

theorem mem_tokenAlphabet {c : Char} (plain : isAscii c = true) : c ∈ tokenAlphabet ↔ c.isAlphanum = true :=
  ascii_cases (P := fun c => c ∈ tokenAlphabet ↔ c.isAlphanum = true) (by decide +kernel) plain

theorem drawn_iff_ascii {u : Unicode} {text : Str} (alnum : isAlnum u text = true) :
    (∀ c ∈ text, c ∈ tokenAlphabet) ↔ ascii text = true := by
  obtain ⟨-, each⟩ : text ≠ [] ∧ ∀ c ∈ text, isAlnumChar u c = true := by simpa [isAlnum] using alnum
  rw [ascii, List.all_eq_true]
  constructor
  · intro drawn c member
    exact (tokenAlphabet_plain c (drawn c member)).1
  · intro plain c member
    have letter := each c member
    rw [isAlnumChar, if_pos (plain c member)] at letter
    exact (mem_tokenAlphabet (plain c member)).mpr letter

theorem parseScopedToken_some {u : Unicode} {full lookupId secret : Str} :
    parseScopedToken u full = some (lookupId, secret) ↔
      ∃ brand, full.splitOn '_' = [brand, lookupId, secret] ∧ lookupId.length = lookupIdLen ∧
        secret.length = secretLen ∧ isAlnum u lookupId = true ∧ isAlnum u secret = true := by
  constructor
  · intro parsed
    unfold parseScopedToken at parsed
    split at parsed
    · rename_i brand foundId foundSecret split
      by_cases sized : foundId.length = lookupIdLen ∧ foundSecret.length = secretLen
      · by_cases alnum : isAlnum u foundId = true ∧ isAlnum u foundSecret = true
        · simp [sized, alnum] at parsed
          obtain ⟨rfl, rfl⟩ := parsed
          exact ⟨brand, split, sized.1, sized.2, alnum.1, alnum.2⟩
        · simp_all
      · simp_all
    · simp at parsed
  · rintro ⟨brand, split, lookupIdSized, secretSized, lookupIdAlnum, secretAlnum⟩
    simp [parseScopedToken, split, lookupIdSized, secretSized, lookupIdAlnum, secretAlnum]

theorem parseScopedToken_full_iff (u : Unicode) (brand : Str) (generated : Generated) :
    parseScopedToken u (generated.full brand) = some (generated.lookupId, generated.secret) ↔ '_' ∉ brand := by
  constructor
  · intro parsed
    obtain ⟨found, split, -⟩ := parseScopedToken_some.mp parsed
    obtain ⟨whole, plain⟩ := Labels.splitOn_three split
    rw [Generated.full, List.append_left_inj] at whole
    exact whole ▸ plain
  · exact fun plain => parseScopedToken_full u plain generated

theorem spelled_iff_ascii (u : Unicode) (full : Str) :
    (∀ lookupId secret, parseScopedToken u full = some (lookupId, secret) →
      ∃ brand, Spelled brand lookupId secret full) ↔ AsciiParts u full := by
  constructor
  · intro shaped brand lookupId secret split lookupIdSized secretSized lookupIdAlnum secretAlnum
    obtain ⟨_, spelled⟩ := shaped lookupId secret
      (parseScopedToken_some.mpr ⟨brand, split, lookupIdSized, secretSized, lookupIdAlnum, secretAlnum⟩)
    exact ⟨(drawn_iff_ascii lookupIdAlnum).mp spelled.lookupId_drawn,
      (drawn_iff_ascii secretAlnum).mp spelled.secret_drawn⟩
  · intro plain lookupId secret parsed
    obtain ⟨brand, split, lookupIdSized, secretSized, lookupIdAlnum, secretAlnum⟩ := parseScopedToken_some.mp parsed
    obtain ⟨lookupIdPlain, secretPlain⟩ := plain brand lookupId secret split lookupIdSized secretSized lookupIdAlnum
      secretAlnum
    obtain ⟨whole, plainBrand⟩ := Labels.splitOn_three split
    exact ⟨brand, whole, plainBrand, lookupIdSized, secretSized, (drawn_iff_ascii lookupIdAlnum).mpr lookupIdPlain,
      (drawn_iff_ascii secretAlnum).mpr secretPlain⟩

theorem tokenFormat_exact (u : Unicode) :
    (∀ brand (generated : Generated),
      parseScopedToken u (generated.full brand) = some (generated.lookupId, generated.secret) ↔ '_' ∉ brand) ∧
    ∀ full, (∀ lookupId secret, parseScopedToken u full = some (lookupId, secret) →
      ∃ brand, Spelled brand lookupId secret full) ↔ AsciiParts u full :=
  ⟨parseScopedToken_full_iff u, spelled_iff_ascii u⟩

def Generated.sample : Generated where
  lookupId := List.replicate 16 'a'
  secret := List.replicate 40 'b'
  lookupId_length := rfl
  secret_length := rfl
  lookupId_drawn := by decide
  secret_drawn := by decide

-- `"é".isalnum()` is true.
def accented : Unicode := { Unicode.asciiOnly with isAlnum := fun c => c == 'é' }

def accentedToken : Str := "cfsx".toList ++ '_' :: (List.replicate 16 'é' ++ '_' :: List.replicate 40 'b')

theorem tokenFormat_inexact :
    parseScopedToken accented (Generated.sample.full "a_b".toList) ≠
        some (Generated.sample.lookupId, Generated.sample.secret) ∧
      parseScopedToken accented accentedToken = some (List.replicate 16 'é', List.replicate 40 'b') ∧
      ¬∃ brand, Spelled brand (List.replicate 16 'é') (List.replicate 40 'b') accentedToken := by
  refine ⟨by decide +kernel, by decide +kernel, ?_⟩
  rintro ⟨brand, spelled⟩
  exact absurd (spelled.lookupId_drawn 'é' (by decide)) (by decide)

end CfProxy.Crypto
