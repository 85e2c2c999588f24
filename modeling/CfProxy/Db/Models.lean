import Mathlib.Data.List.Nodup
import CfProxy.Authz.Scope

set_option autoImplicit false

namespace CfProxy.Models

open Scope

structure User where
  id : Str
  email : Option Str := none
  authProvider : Str := "local".toList
  cfSub : Option Str := none
  deriving DecidableEq

structure UpstreamCredential where
  id : Str
  userId : Str
  label : Str
  credType : Str
  secretEnc : Option Str := none
  accessTokenEnc : Option Str := none
  refreshTokenEnc : Option Str := none
  tokenExpiresAt : Option Datetime := none
  credVersion : Nat := 1
  cfAccountEmail : Option Str := none
  oauthScopes : Option Str := none
  verifyStatus : Option Str := none
  verifiedAt : Option Datetime := none
  deriving DecidableEq

inductive Status
  | active
  | revoked
  deriving DecidableEq, Repr

structure ScopedToken where
  id : Str
  userId : Str
  upstreamCredentialId : Str
  name : Str
  lookupId : Str
  tokenPrefix : Str
  tokenHash : Str
  version : Nat := 1
  status : Status := .active
  expiresAt : Option Datetime
  revokedAt : Option Datetime := none
  deriving DecidableEq

theorem find?_unique {α κ : Type} [BEq κ] [LawfulBEq κ] {key : α → κ} {rows : List α} (distinct : (rows.map key).Nodup)
    {row : α} (member : row ∈ rows) : rows.find? (key · == key row) = some row := by
  cases search : rows.find? (key · == key row) with
  | none =>
    rw [List.find?_eq_none] at search
    exact absurd (beq_self_eq_true (key row)) (search row member)
  | some other =>
    have same : key other = key row := by simpa using List.find?_some search
    rw [List.inj_on_of_nodup_map distinct (List.mem_of_find?_eq_some search) member same]

-- The committed rows; a rule stands with the id of its token. `foreignKeys` says whether the engine enforces the
-- declared references.
structure Database where
  foreignKeys : Bool
  credentials : List UpstreamCredential
  tokens : List ScopedToken
  rules : List (Str × ScopeRule)

def Database.empty (foreignKeys : Bool) : Database := ⟨foreignKeys, [], [], []⟩

def integrityError : PyError := .named "IntegrityError".toList

def multipleResultsFound : PyError := .named "MultipleResultsFound".toList

def scalarOneOrNone {α : Type} : List α → Except PyError (Option α)
  | [] => .ok none
  | [row] => .ok (some row)
  | _ => .error multipleResultsFound

theorem scalarOneOrNone_some {α : Type} {rows : List α} {row : α} (found : scalarOneOrNone rows = .ok (some row)) :
    row ∈ rows := by
  unfold scalarOneOrNone at found
  split at found <;> cases found
  exact List.mem_singleton_self row

-- How the database compares the texts of a column: by their weights. Texts that a user or the issuer chooses may
-- differ and still be the same to it (`utf8mb4_0900_ai_ci`); SQLite takes them as they are.
structure Collation where
  weights : Str → Str

namespace Collation

def exact : Collation := ⟨id⟩

def ignoringCase : Collation := ⟨List.map Char.toLower⟩

def same (collation : Collation) (left right : Str) : Bool := collation.weights left == collation.weights right

-- `column = text`, which is not true of a null.
def holds (collation : Collation) (column : Option Str) (text : Str) : Bool := column.any (collation.same · text)

-- A unique column may be null in any number of rows.
def clashes (collation : Collation) (column : Option Str) : Option Str → Bool
  | some text => collation.holds column text
  | none => false

variable {collation : Collation} {left middle right text other : Str} {column : Option Str}

@[simp] theorem same_refl : collation.same text text = true := by simp [same]

theorem same_symm (alike : collation.same left right = true) : collation.same right left = true := by
  simp only [same, beq_iff_eq] at alike ⊢
  exact alike.symm

theorem same_trans (first : collation.same left middle = true) (second : collation.same middle right = true) :
    collation.same left right = true := by
  simp only [same, beq_iff_eq] at first second ⊢
  exact first.trans second

@[simp] theorem exact_same : exact.same left right = (left == right) := rfl

theorem holds_iff : collation.holds column text = true ↔ ∃ held, column = some held ∧ collation.same held text = true := by
  cases column <;> simp [holds]

theorem holds_some_of (held : collation.holds column text = true) : column ≠ none := by
  rintro rfl
  cases held

theorem exact_holds : exact.holds column text = true ↔ column = some text := by
  simp [holds_iff]

@[simp] theorem holds_some : collation.holds (some left) text = collation.same left text := rfl

theorem clashes_of_holds {first second : Option Str} (held : collation.holds first text = true)
    (also : collation.holds second text = true) : collation.clashes first second = true := by
  obtain ⟨left, rfl, alike⟩ := holds_iff.mp held
  obtain ⟨right, rfl, alikeToo⟩ := holds_iff.mp also
  exact same_trans alike (same_symm alikeToo)

theorem clashes_symm {first second : Option Str} (clash : collation.clashes first second = true) :
    collation.clashes second first = true := by
  cases second with
  | none => cases clash
  | some text =>
    obtain ⟨held, rfl, alike⟩ := holds_iff.mp clash
    exact same_symm alike

end Collation

section Users

variable (collation : Collation)

def insertUser (users : List User) (row : User) : Except PyError (List User) :=
  if users.any fun other =>
      other.id == row.id || collation.clashes other.email row.email || collation.clashes other.cfSub row.cfSub then
    .error integrityError
  else .ok (users ++ [row])

def setEmail (users : List User) (userId email : Str) : Except PyError (List User) :=
  if users.any fun other => other.id != userId && collation.holds other.email email then .error integrityError
  else .ok (users.map fun row => if row.id = userId then { row with email := some email } else row)

structure DistinctUsers (users : List User) : Prop where
  ids : (users.map (·.id)).Nodup
  subs : ∀ first ∈ users, ∀ second ∈ users, collation.clashes first.cfSub second.cfSub = true → first.id = second.id

end Users

variable {collation : Collation}

theorem DistinctUsers.nil : DistinctUsers collation [] := by
  constructor <;> simp

theorem DistinctUsers.insert {users after : List User} (distinct : DistinctUsers collation users) {row : User}
    (inserted : insertUser collation users row = .ok after) : DistinctUsers collation after := by
  unfold insertUser at inserted
  split at inserted
  · simp at inserted
  · rename_i free
    cases inserted
    simp only [Bool.not_eq_true, List.any_eq_false, Bool.or_eq_false_iff, beq_eq_false_iff_ne] at free
    have unlike : ∀ other ∈ users, collation.clashes other.cfSub row.cfSub = true → False := by
      intro other member clash
      rw [(free other member).2] at clash
      cases clash
    constructor
    · rw [List.map_append, List.nodup_append]
      refine ⟨distinct.ids, by simp, ?_⟩
      intro id held other isRow same
      obtain ⟨holder, member, rfl⟩ := List.mem_map.mp held
      exact (free holder member).1.1 (by simpa [same] using isRow)
    · intro first memberFirst second memberSecond clash
      rcases List.mem_append.mp memberFirst with old | new <;> rcases List.mem_append.mp memberSecond with old' | new'
      · exact distinct.subs first old second old' clash
      · obtain rfl := List.mem_singleton.mp new'
        exact (unlike first old clash).elim
      · obtain rfl := List.mem_singleton.mp new
        exact (unlike second old' (Collation.clashes_symm clash)).elim
      · rw [List.mem_singleton.mp new, List.mem_singleton.mp new']

theorem DistinctUsers.map {users : List User} (distinct : DistinctUsers collation users) {change : User → User}
    (keeps : ∀ user, (change user).id = user.id ∧ (change user).cfSub = user.cfSub) :
    DistinctUsers collation (users.map change) := by
  constructor
  · have ids : (users.map change).map (·.id) = users.map (·.id) := by simp [Function.comp_def, keeps]
    exact ids ▸ distinct.ids
  · intro first memberFirst second memberSecond clash
    obtain ⟨before, wasFirst, rfl⟩ := List.mem_map.mp memberFirst
    obtain ⟨other, wasSecond, rfl⟩ := List.mem_map.mp memberSecond
    simp only [keeps] at clash ⊢
    exact distinct.subs before wasFirst other wasSecond clash

def KeepsSubs (users after : List User) : Prop :=
  ∀ user ∈ users, ∃ later ∈ after, later.id = user.id ∧ later.cfSub = user.cfSub

theorem KeepsSubs.refl (users : List User) : KeepsSubs users users := fun user member => ⟨user, member, rfl, rfl⟩

theorem insertUser_ok {users after : List User} {row : User} (inserted : insertUser collation users row = .ok after) :
    after = users ++ [row] := by
  unfold insertUser at inserted
  split at inserted <;> cases inserted
  rfl

theorem setEmail_ok {users after : List User} {userId email : Str}
    (updated : setEmail collation users userId email = .ok after) :
    after = users.map fun row => if row.id = userId then { row with email := some email } else row := by
  unfold setEmail at updated
  split at updated <;> cases updated
  rfl

theorem insertUser_keepsSubs {users after : List User} {row : User} (inserted : insertUser collation users row = .ok after) :
    KeepsSubs users after := by
  intro user member
  rw [insertUser_ok inserted]
  exact ⟨user, List.mem_append_left _ member, rfl, rfl⟩

theorem setEmail_keepsSubs {users after : List User} {userId email : Str}
    (updated : setEmail collation users userId email = .ok after) : KeepsSubs users after := by
  intro user member
  rw [setEmail_ok updated]
  refine ⟨_, List.mem_map_of_mem member, ?_⟩
  split <;> exact ⟨rfl, rfl⟩

theorem DistinctUsers.setEmail {users after : List User} (distinct : DistinctUsers collation users)
    {userId email : Str} (updated : setEmail collation users userId email = .ok after) :
    DistinctUsers collation after := by
  rw [setEmail_ok updated]
  apply distinct.map
  intro user
  split <;> exact ⟨rfl, rfl⟩

namespace Database

def ownedCredential (db : Database) (userId credentialId : Str) : Option UpstreamCredential :=
  db.credentials.find? fun row => row.id == credentialId && row.userId == userId

def credential (db : Database) (credentialId : Str) : Option UpstreamCredential :=
  db.credentials.find? (·.id == credentialId)

def ownedToken (db : Database) (userId tokenId : Str) : Option ScopedToken :=
  db.tokens.find? fun row => row.id == tokenId && row.userId == userId

def tokenByLookup (db : Database) (lookupId : Str) : Option ScopedToken :=
  db.tokens.find? (·.lookupId == lookupId)

def activeTokens (db : Database) (credentialId : Str) : List ScopedToken :=
  db.tokens.filter fun row => row.upstreamCredentialId == credentialId && row.status = .active

def rulesOf (db : Database) (tokenId : Str) : List ScopeRule :=
  (db.rules.filter (·.1 == tokenId)).map (·.2)

-- Each write below is one transaction: it either commits as a whole or changes nothing.

def insertCredential (collation : Collation) (db : Database) (row : UpstreamCredential) : Except PyError Database :=
  if db.credentials.any fun other =>
      other.id == row.id || (other.userId == row.userId && collation.same other.label row.label) then
    .error integrityError
  else .ok { db with credentials := db.credentials ++ [row] }

def insertToken (db : Database) (row : ScopedToken) (rules : List ScopeRule) : Except PyError Database :=
  if db.tokens.any fun other =>
      other.id == row.id || other.lookupId == row.lookupId || other.tokenHash == row.tokenHash then
    .error integrityError
  else if db.foreignKeys && (db.credential row.upstreamCredentialId).isNone then .error integrityError
  else .ok { db with tokens := db.tokens ++ [row], rules := db.rules ++ rules.map (row.id, ·) }

-- `UPDATE scoped_tokens SET ... WHERE id = ...`.
def updateToken (db : Database) (tokenId : Str) (change : ScopedToken → ScopedToken) : Except PyError Database :=
  let tokens := db.tokens.map fun row => if row.id = tokenId then change row else row
  if (tokens.map (·.lookupId)).Nodup ∧ (tokens.map (·.tokenHash)).Nodup then .ok { db with tokens }
  else .error integrityError

def staleDataError : PyError := .named "StaleDataError".toList

-- `UPDATE upstream_credentials SET ... WHERE id = ...` of a row that the session holds.
def updateCredential (db : Database) (credentialId : Str) (change : UpstreamCredential → UpstreamCredential) :
    Except PyError Database :=
  if db.credentials.any (·.id == credentialId) then
    .ok { db with credentials := db.credentials.map fun row => if row.id = credentialId then change row else row }
  else .error staleDataError

def deleteCredential (db : Database) (credentialId : Str) : Except PyError Database :=
  if db.foreignKeys && db.tokens.any (·.upstreamCredentialId == credentialId) then .error integrityError
  else .ok { db with credentials := db.credentials.filter (·.id != credentialId) }

end Database

end CfProxy.Models
