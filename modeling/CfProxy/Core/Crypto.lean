import CfProxy.Shared.Text

set_option autoImplicit false

namespace CfProxy.Crypto

open Text

def tokenAlphabet : Str := "ABCDEFGHIJKLMNOPQRSTUVWXYZabcdefghijklmnopqrstuvwxyz0123456789".toList
def lookupIdLen : Nat := 16
def secretLen : Nat := 40

structure Generated where
  lookupId : Str
  secret : Str
  lookupId_length : lookupId.length = lookupIdLen
  secret_length : secret.length = secretLen
  lookupId_drawn : ∀ c ∈ lookupId, c ∈ tokenAlphabet
  secret_drawn : ∀ c ∈ secret, c ∈ tokenAlphabet

def Generated.full (brand : Str) (generated : Generated) : Str :=
  brand ++ '_' :: (generated.lookupId ++ '_' :: generated.secret)

def Generated.tokenPrefix (brand : Str) (generated : Generated) : Str :=
  brand ++ '_' :: generated.lookupId.take 6

def isAlnumChar (u : Unicode) (c : Char) : Bool := if isAscii c then c.isAlphanum else u.isAlnum c

def isAlnum (u : Unicode) (text : Str) : Bool := !text.isEmpty && text.all (isAlnumChar u)

def parseScopedToken (u : Unicode) (full : Str) : Option (Str × Str) :=
  match full.splitOn '_' with
  | [_, lookupId, secret] =>
    if lookupId.length ≠ lookupIdLen ∨ secret.length ≠ secretLen then none
    else if !isAlnum u lookupId || !isAlnum u secret then none
    else some (lookupId, secret)
  | _ => none

-- Every encryption draws anew, and decryption undoes all of them.
structure Fernet where
  encryptSecret : (drawn plaintext : Str) → Str
  decryptSecret : Str → Except PyError Str
  roundTrip : ∀ drawn plaintext, decryptSecret (encryptSecret drawn plaintext) = .ok plaintext

def verifyToken (hashToken : Str → Str) (full tokenHash : Str) : Bool := hashToken full == tokenHash

theorem tokenAlphabet_plain : ∀ c ∈ tokenAlphabet, isAscii c = true ∧ c.isAlphanum = true ∧ c ≠ '_' := by
  decide

theorem isAlnum_drawn (u : Unicode) {text : Str} (nonempty : text ≠ []) (drawn : ∀ c ∈ text, c ∈ tokenAlphabet) :
    isAlnum u text = true := by
  have each : ∀ c ∈ text, isAlnumChar u c = true := by
    intro c member
    obtain ⟨plain, alnum, -⟩ := tokenAlphabet_plain c (drawn c member)
    simp [isAlnumChar, plain, alnum]
  simp only [isAlnum, Bool.and_eq_true, List.all_eq_true]
  exact ⟨by simpa using nonempty, each⟩

theorem splitOn_full {brand : Str} (plainBrand : '_' ∉ brand) (generated : Generated) :
    (generated.full brand).splitOn '_' = [brand, generated.lookupId, generated.secret] := by
  have lookupPlain : '_' ∉ generated.lookupId := fun member =>
    (tokenAlphabet_plain _ (generated.lookupId_drawn _ member)).2.2 rfl
  have secretPlain : '_' ∉ generated.secret := fun member =>
    (tokenAlphabet_plain _ (generated.secret_drawn _ member)).2.2 rfl
  have joined : generated.full brand = ['_'].intercalate [brand, generated.lookupId, generated.secret] := by
    simp [Generated.full, List.intercalate]
  rw [joined]
  exact List.splitOn_intercalate '_' (by simp [plainBrand, lookupPlain, secretPlain]) (by simp)

theorem parseScopedToken_full (u : Unicode) {brand : Str} (plainBrand : '_' ∉ brand) (generated : Generated) :
    parseScopedToken u (generated.full brand) = some (generated.lookupId, generated.secret) := by
  have lookupNonempty : generated.lookupId ≠ [] := by
    intro empty
    have length := generated.lookupId_length
    simp [empty, lookupIdLen] at length
  have secretNonempty : generated.secret ≠ [] := by
    intro empty
    have length := generated.secret_length
    simp [empty, secretLen] at length
  simp [parseScopedToken, splitOn_full plainBrand, generated.lookupId_length, generated.secret_length,
    isAlnum_drawn u lookupNonempty generated.lookupId_drawn, isAlnum_drawn u secretNonempty generated.secret_drawn]

end CfProxy.Crypto
