import CfProxy.Auth.Accounts

set_option autoImplicit false

namespace CfProxy.Accounts

open Machine Models OauthCf OauthService

-- An account that the `register` endpoint or the `bootstrap-admin` command has added.
structure Registration where
  userId : Str
  email : Str
  password : Str
  deriving DecidableEq

inductive Means
  | password (email pw : Str)
  | oauth (sub : Str)

structure SignIn where
  means : Means
  session : Session

inductive Phase
  | idle
  | registering (email pw : Str)
  | registered (registration : Registration)
  | conflict
  | checking (found : Option Account) (email pw : Str)
  | unauthorized
  | selected (identity : Identity) (found : Option User)
  | committed (identity : Identity) (userId : Str)
  | signedIn (token : Str)
  | decoded (userId : Str) (now : Int)
  | authenticated (account : Account) (now : Int)
  | refused (refusal : Refusal)
  | failed (raised : PyError)

-- The phases that a request ends in without an account or a session.
def Phase.rejected : Phase → Bool
  | .conflict | .unauthorized | .refused _ | .failed _ => true
  | _ => false

inductive Action
  | register (email pw : Str)
  | insert (newId salt : Str)
  | login (email pw : Str)
  | verify (now : Int)
  | callback (identity : Identity)
  | upsert (newId : Str)
  | issue (now : Int)
  | present (now : Int) (credentials : Option Str)
  | readUser

-- Nothing in the code clears or sets `is_active`: an operator does.
inductive Event
  | setActive (userId : Str) (isActive : Bool)

structure Shared where
  accounts : List Account := []
  registrations : List Registration := []
  signIns : List SignIn := []

def Shared.signIn (s : Shared) (means : Means) (session : Session) : Shared :=
  { s with signIns := ⟨means, session⟩ :: s.signIns }

def setActive (userId : Str) (isActive : Bool) (row : Account) : Account :=
  if row.id = userId then { row with isActive } else row

def invalidRequestError : PyError := .named "InvalidRequestError".toList

section

variable (keys : Keys)

def act (action : Action) (s : Shared) (phase : Phase) : Option (Shared × Phase) :=
  match action, phase with
  | .register email pw, .idle =>
    match selectByEmail keys.collation s.accounts email with
    | .ok none => some (s, .registering email pw)
    | .ok (some _) => some (s, .conflict)
    | .error raised => some (s, .failed raised)
  | .insert newId salt, .registering email pw =>
    match insertAccount keys.collation s.accounts (localAccount keys.hasher newId salt email pw) with
    | .ok accounts =>
      some ({ s with accounts, registrations := ⟨newId, email, pw⟩ :: s.registrations }, .registered ⟨newId, email, pw⟩)
    | .error raised => some (s, .failed raised)
  | .login email pw, .idle =>
    match selectByEmail keys.collation s.accounts email with
    | .ok found => some (s, .checking found email pw)
    | .error raised => some (s, .failed raised)
  | .verify now, .checking found email pw =>
    match checkLogin keys.hasher found pw with
    | .ok (some account) =>
      let session := createJwt keys.oauth now account.id
      some (s.signIn (.password email pw) session, .signedIn (keys.jwt.encode session))
    | .ok none => some (s, .unauthorized)
    | .error raised => some (s, .failed raised)
  -- `identity` is what the id_token was validated to; the delegated credential is left out here.
  | .callback identity, .idle =>
    match selectUser keys.collation (toUsers s.accounts) identity.sub with
    | .ok found => some (s, .selected identity found)
    | .error raised => some (s, .failed raised)
  | .upsert newId, .selected identity found =>
    match upsertUser found newId identity with
    | .error raised => some (s, .failed raised)
    | .ok write =>
      match writeAccount keys.collation s.accounts write with
      | .ok accounts => some ({ s with accounts }, .committed identity write.userId)
      | .error raised => some (s, .failed raised)
  | .issue now, .committed identity userId =>
    match s.accounts.find? (·.id == userId) with
    | some row =>
      let session := createJwt keys.oauth now row.id
      some (s.signIn (.oauth identity.sub) session, .signedIn (keys.jwt.encode session))
    | none => some (s, .failed invalidRequestError)
  | .present now credentials, .idle =>
    match readSubject keys.jwt now credentials with
    | .ok userId => some (s, .decoded userId now)
    | .error refusal => some (s, .refused refusal)
  | .readUser, .decoded userId now =>
    match activeUser s.accounts userId with
    | .ok account => some (s, .authenticated account now)
    | .error refusal => some (s, .refused refusal)
  | _, _ => none

def accountPlane (ι : Type) : Interleaving ι Shared Phase Action Event where
  start s := s = {}
  idle := .idle
  act _ := act keys
  env
    | .setActive userId isActive, s => some { s with accounts := s.accounts.map (setActive userId isActive) }

-- Nobody but the server signs session tokens.
def Unforged {ι : Type} (c : Config ι Shared Phase) : Move ι Action Event → Prop
  | .own _ (.present now (some token)) =>
    (keys.jwt.decode now token).isSome = true → ∃ signIn ∈ c.shared.signIns, keys.jwt.encode signIn.session = token
  | _ => True

instance {ι : Type} (c : Config ι Shared Phase) (move : Move ι Action Event) : Decidable (Unforged keys c move) :=
  match move with
  | .own _ (.present now (some token)) => inferInstanceAs (Decidable ((keys.jwt.decode now token).isSome = true →
      ∃ signIn ∈ c.shared.signIns, keys.jwt.encode signIn.session = token))
  | .own _ (.present _ none) | .own _ (.register ..) | .own _ (.insert ..) | .own _ (.login ..) | .own _ (.verify _)
  | .own _ (.callback _) | .own _ (.upsert _) | .own _ (.issue _) | .own _ .readUser | .env _ => .isTrue trivial

end

section Steps

variable {keys : Keys}

inductive Step (keys : Keys) : Action → Shared → Phase → Shared → Phase → Prop
  | rejected {action : Action} {s : Shared} {phase next : Phase} (ends : next.rejected = true) :
      Step keys action s phase s next
  | free {s : Shared} {email pw : Str} : Step keys (.register email pw) s .idle s (.registering email pw)
  | inserted {s : Shared} {email pw newId salt : Str} {accounts : List Account}
      (inserted : insertAccount keys.collation s.accounts (localAccount keys.hasher newId salt email pw) = .ok accounts) :
      Step keys (.insert newId salt) s (.registering email pw)
        { s with accounts, registrations := ⟨newId, email, pw⟩ :: s.registrations } (.registered ⟨newId, email, pw⟩)
  | found {s : Shared} {email pw : Str} {found : Option Account}
      (read : selectByEmail keys.collation s.accounts email = .ok found) :
      Step keys (.login email pw) s .idle s (.checking found email pw)
  | verified {s : Shared} {email pw : Str} {now : Int} {found : Option Account} {account : Account}
      (checked : checkLogin keys.hasher found pw = .ok (some account)) :
      Step keys (.verify now) s (.checking found email pw)
        (s.signIn (.password email pw) (createJwt keys.oauth now account.id))
        (.signedIn (keys.jwt.encode (createJwt keys.oauth now account.id)))
  | selected {s : Shared} {identity : Identity} {found : Option User}
      (read : selectUser keys.collation (toUsers s.accounts) identity.sub = .ok found) :
      Step keys (.callback identity) s .idle s (.selected identity found)
  | upserted {s : Shared} {identity : Identity} {found : Option User} {newId : Str} {write : UserWrite}
      {accounts : List Account} (read : upsertUser found newId identity = .ok write)
      (wrote : writeAccount keys.collation s.accounts write = .ok accounts) :
      Step keys (.upsert newId) s (.selected identity found) { s with accounts } (.committed identity write.userId)
  | issued {s : Shared} {identity : Identity} {userId : Str} {now : Int} {row : Account}
      (read : s.accounts.find? (·.id == userId) = some row) :
      Step keys (.issue now) s (.committed identity userId)
        (s.signIn (.oauth identity.sub) (createJwt keys.oauth now row.id))
        (.signedIn (keys.jwt.encode (createJwt keys.oauth now row.id)))
  | decoded {s : Shared} {credentials : Option Str} {now : Int} {userId : Str}
      (read : readSubject keys.jwt now credentials = .ok userId) :
      Step keys (.present now credentials) s .idle s (.decoded userId now)
  | authenticated {s : Shared} {userId : Str} {now : Int} {account : Account}
      (active : activeUser s.accounts userId = .ok account) :
      Step keys .readUser s (.decoded userId now) s (.authenticated account now)

theorem act_step {action : Action} {s after : Shared} {phase next : Phase}
    (acted : act keys action s phase = some (after, next)) : Step keys action s phase after next := by
  unfold act at acted
  split at acted
  · split at acted <;> cases acted
    · exact .free
    · exact .rejected rfl
    · exact .rejected rfl
  · split at acted <;> cases acted
    · exact .inserted ‹_›
    · exact .rejected rfl
  · split at acted <;> cases acted
    · exact .found ‹_›
    · exact .rejected rfl
  · split at acted <;> cases acted
    · exact .verified ‹_›
    · exact .rejected rfl
    · exact .rejected rfl
  · split at acted <;> cases acted
    · exact .selected ‹_›
    · exact .rejected rfl
  · split at acted
    · cases acted
      exact .rejected rfl
    · split at acted <;> cases acted
      · exact .upserted ‹_› ‹_›
      · exact .rejected rfl
  · split at acted <;> cases acted
    · exact .issued ‹_›
    · exact .rejected rfl
  · split at acted <;> cases acted
    · exact .decoded ‹_›
    · exact .rejected rfl
  · split at acted <;> cases acted
    · exact .authenticated ‹_›
    · exact .rejected rfl
  · cases acted

end Steps

end CfProxy.Accounts
