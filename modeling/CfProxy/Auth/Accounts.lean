import CfProxy.Services.OauthService
import CfProxy.Shared.Machine

set_option autoImplicit false

namespace CfProxy.Accounts

open Machine Models OauthCf OauthService

structure Account extends User where
  passwordHash : Option Str := none
  isActive : Bool := true
  deriving DecidableEq

def verifyMismatchError : PyError := .named "VerifyMismatchError".toList

-- Every hash draws a salt; for another password `verify` raises.
structure PasswordHasher where
  hash : (salt pw : Str) → Str
  verify : (hashed pw : Str) → Except PyError Bool
  verify_hash : ∀ salt pw other,
    verify (hash salt pw) other = if other = pw then .ok true else .error verifyMismatchError

def payload (session : Session) : Json.Dict :=
  [("sub".toList, .str session.sub), ("iat".toList, .num session.iat), ("exp".toList, .num session.exp)]

-- `decode` comes to nothing where PyJWT raises; a `sub` that it lets through is text.
structure SessionJwt where
  encode : Session → Str
  decode : (now : Int) → Str → Option Json.Dict
  decode_encode : ∀ now session,
    decode now (encode session) = if session.iat ≤ now ∧ now < session.exp then some (payload session) else none

structure Keys where
  oauth : Oauth
  hasher : PasswordHasher
  jwt : SessionJwt
  collation : Collation

-- What a dependency or a handler raises: `HTTPException` is answered with its status and detail.
inductive Refusal
  | httpException (status : Nat) (detail : Str)
  | raised (raised : PyError)
  deriving DecidableEq

def verifyPassword (hasher : PasswordHasher) (pw hashed : Str) : Except PyError Bool :=
  match hasher.verify hashed pw with
  | .ok valid => .ok valid
  | .error raised => if raised = verifyMismatchError then .ok false else .error raised

theorem verifyPassword_hash (hasher : PasswordHasher) (salt pw other : Str) :
    verifyPassword hasher other (hasher.hash salt pw) = .ok (decide (other = pw)) := by
  by_cases same : other = pw <;> simp [verifyPassword, hasher.verify_hash, same]

def toUsers (accounts : List Account) : List User := accounts.map Account.toUser

section

variable (collation : Collation)

-- The unique columns are those of `User`.
def insertAccount (accounts : List Account) (row : Account) : Except PyError (List Account) := do
  let _ ← insertUser collation (toUsers accounts) row.toUser
  return accounts ++ [row]

def setAccountEmail (accounts : List Account) (userId email : Str) : Except PyError (List Account) := do
  let _ ← setEmail collation (toUsers accounts) userId email
  return accounts.map fun row => if row.id = userId then { row with email := some email } else row

def writeAccount (accounts : List Account) : UserWrite → Except PyError (List Account)
  | .insert row => insertAccount collation accounts { toUser := row }
  | .keep userId (some email) => setAccountEmail collation accounts userId email
  | .keep _ none => .ok accounts

def selectByEmail (accounts : List Account) (email : Str) : Except PyError (Option Account) :=
  scalarOneOrNone (accounts.filter fun row => collation.holds row.email email)

end

def selectAccount (accounts : List Account) (userId : Str) : Except PyError (Option Account) :=
  scalarOneOrNone (accounts.filter (·.id == userId))

theorem filter_unique {α : Type} {rows : List α} {p : α → Bool} {row : α} (distinct : rows.Nodup) (fits : p row = true)
    (member : row ∈ rows) (only : ∀ other ∈ rows, p other = true → other = row) : rows.filter p = [row] := by
  have all : rows.filter p = List.replicate (rows.filter p).length row :=
    List.eq_replicate_of_mem fun other found => only other (List.mem_filter.mp found).1 (List.mem_filter.mp found).2
  have single := distinct.filter p
  rw [all, List.nodup_replicate] at single
  have present := List.length_pos_of_mem (List.mem_filter.mpr ⟨member, fits⟩)
  rw [all, show (rows.filter p).length = 1 by omega]
  rfl

-- The row that `register` and `bootstrap_admin_command` add.
def localAccount (hasher : PasswordHasher) (newId salt email pw : Str) : Account where
  id := newId
  email := some email
  passwordHash := some (hasher.hash salt pw)

-- `login` up to `create_jwt`: no account is a 401.
def checkLogin (hasher : PasswordHasher) (found : Option Account) (pw : Str) : Except PyError (Option Account) :=
  match found with
  | none => .ok none
  | some account =>
    match account.passwordHash with
    | none => .ok none
    | some hashed =>
      if !account.isActive then .ok none
      else do return if ← verifyPassword hasher pw hashed then some account else none

def notAuthenticated : Refusal := .httpException 401 "Not authenticated".toList
def invalidOrExpired : Refusal := .httpException 401 "Invalid or expired token".toList
def invalidToken : Refusal := .httpException 401 "Invalid token".toList
def invalidOrInactive : Refusal := .httpException 401 "Invalid or inactive user".toList

-- `get_current_user` up to its SELECT.
def readSubject (jwt : SessionJwt) (now : Int) (credentials : Option Str) : Except Refusal Str :=
  match credentials with
  | none => .error notAuthenticated
  | some token =>
    match jwt.decode now token with
    | some claims =>
      match Json.get claims "sub".toList with
      | .str (c :: rest) => .ok (c :: rest)
      | _ => .error invalidToken
    | none => .error invalidOrExpired

def activeUser (accounts : List Account) (userId : Str) : Except Refusal Account :=
  match selectAccount accounts userId with
  | .error raised => .error (.raised raised)
  | .ok none => .error invalidOrInactive
  | .ok (some account) => if account.isActive then .ok account else .error invalidOrInactive

def getCurrentUser (jwt : SessionJwt) (now : Int) (credentials : Option Str) (accounts : List Account) :
    Except Refusal Account :=
  readSubject jwt now credentials >>= activeUser accounts

variable {collation : Collation}

theorem insertUser_free {users after : List User} {row : User} (inserted : insertUser collation users row = .ok after) :
    ∀ other ∈ users, other.id ≠ row.id ∧ collation.clashes other.email row.email = false := by
  unfold insertUser at inserted
  split at inserted
  · cases inserted
  · rename_i free
    simp only [Bool.not_eq_true, List.any_eq_false, Bool.or_eq_false_iff, beq_eq_false_iff_ne] at free
    exact fun other member => (free other member).1

theorem toUsers_insertAccount {accounts after : List Account} {row : Account}
    (inserted : insertAccount collation accounts row = .ok after) :
    insertUser collation (toUsers accounts) row.toUser = .ok (toUsers after) ∧ after = accounts ++ [row] := by
  obtain ⟨users, written, returned⟩ := Except.bind_eq_ok.mp inserted
  cases returned
  refine ⟨?_, rfl⟩
  rw [written, insertUser_ok written]
  simp [toUsers]

theorem toUsers_setAccountEmail {accounts after : List Account} {userId email : Str}
    (updated : setAccountEmail collation accounts userId email = .ok after) :
    setEmail collation (toUsers accounts) userId email = .ok (toUsers after) ∧
      after = accounts.map fun row => if row.id = userId then { row with email := some email } else row := by
  obtain ⟨users, written, returned⟩ := Except.bind_eq_ok.mp updated
  cases returned
  refine ⟨?_, rfl⟩
  rw [written, setEmail_ok written]
  simp only [toUsers, List.map_map, Except.ok.injEq]
  refine List.map_congr_left fun row _ => ?_
  by_cases same : row.id = userId <;> simp [same]

-- `users.email` is unique, but may be null.
def DistinctEmails (collation : Collation) (accounts : List Account) : Prop :=
  ∀ first ∈ accounts, ∀ second ∈ accounts, collation.clashes first.email second.email = true → first.id = second.id

theorem DistinctEmails.insert {accounts after : List Account} {row : Account}
    (distinct : DistinctEmails collation accounts) (inserted : insertAccount collation accounts row = .ok after) :
    DistinctEmails collation after := by
  obtain ⟨wrote, rfl⟩ := toUsers_insertAccount inserted
  have unlike (other : Account) (member : other ∈ accounts) :
      collation.clashes other.email row.email = false :=
    (insertUser_free wrote other.toUser (List.mem_map_of_mem member)).2
  intro first memberFirst second memberSecond clash
  rcases List.mem_append.mp memberFirst with old | new <;> rcases List.mem_append.mp memberSecond with old' | new'
  · exact distinct first old second old' clash
  · obtain rfl := List.mem_singleton.mp new'
    exact absurd clash (by simp [unlike first old])
  · obtain rfl := List.mem_singleton.mp new
    exact absurd (Collation.clashes_symm clash) (by simp [unlike second old'])
  · rw [List.mem_singleton.mp new, List.mem_singleton.mp new']

theorem setEmail_free {users after : List User} {userId email : Str}
    (updated : setEmail collation users userId email = .ok after) :
    ∀ other ∈ users, collation.holds other.email email = true → other.id = userId := by
  unfold setEmail at updated
  split at updated
  · cases updated
  · rename_i free
    intro other member held
    by_contra different
    exact free (List.any_eq_true.mpr ⟨other, member, by simp [held, different]⟩)

theorem DistinctEmails.setEmail {accounts after : List Account} {userId email : Str}
    (distinct : DistinctEmails collation accounts)
    (updated : setAccountEmail collation accounts userId email = .ok after) : DistinctEmails collation after := by
  obtain ⟨wrote, rfl⟩ := toUsers_setAccountEmail updated
  have holder (other : Account) (member : other ∈ accounts) (held : collation.holds other.email email = true) :
      other.id = userId :=
    setEmail_free wrote other.toUser (List.mem_map_of_mem member) held
  intro first memberFirst second memberSecond clash
  obtain ⟨before, wasFirst, rfl⟩ := List.mem_map.mp memberFirst
  obtain ⟨other, wasSecond, rfl⟩ := List.mem_map.mp memberSecond
  by_cases mine : before.id = userId <;> by_cases also : other.id = userId <;> simp only [mine, also, if_true, if_false] at clash ⊢
  · exact absurd (holder other wasSecond (Collation.clashes_symm clash)) also
  · exact absurd (holder before wasFirst clash) mine
  · exact distinct before wasFirst other wasSecond clash

theorem DistinctEmails.write {accounts after : List Account} {write : UserWrite}
    (distinct : DistinctEmails collation accounts) (wrote : writeAccount collation accounts write = .ok after) :
    DistinctEmails collation after := by
  match write with
  | .insert row => exact distinct.insert wrote
  | .keep userId (some email) => exact distinct.setEmail wrote
  | .keep userId none =>
    cases wrote
    exact distinct

-- What a login does to the users is what it does to their accounts.
theorem toUsers_writeAccount {accounts after : List Account} {write : UserWrite}
    (wrote : writeAccount collation accounts write = .ok after) :
    write.write collation (toUsers accounts) = .ok (toUsers after) := by
  match write with
  | .insert row => exact (toUsers_insertAccount wrote).1
  | .keep userId (some email) => exact (toUsers_setAccountEmail wrote).1
  | .keep userId none =>
    cases wrote
    rfl

end CfProxy.Accounts
