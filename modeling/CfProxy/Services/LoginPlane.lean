import CfProxy.Cache.Redis
import CfProxy.Services.OauthService
import CfProxy.Shared.Machine

set_option autoImplicit false

namespace CfProxy.LoginPlane

open Machine Models Cache Crypto OauthCf OauthService

-- The start that left an entry is not in Redis: it is what consumptions are told apart by.
structure Entry (ι : Type) where
  value : Json
  start : ι

structure Issue (ι : Type) where
  start : ι
  drawn : Drawn

structure Consumption (ι : Type) where
  callback : ι
  code : Str
  state : Str
  entry : Entry ι

structure Exchange (ι : Type) where
  callback : ι
  form : Form
  reply : Except PyError Response

structure Login (ι : Type) where
  code : Str
  state : Str
  entry : Entry ι
  tokens : Json
  now : Int
  jwks : Jwks
  identity : Identity

inductive Phase (ι : Type)
  | idle
  | starting (drawn : Drawn)
  | redirected (url : Str)
  | presented (code state : Str)
  | consumed (code state : Str) (entry : Entry ι)
  | exchanged (code state : Str) (entry : Entry ι) (tokens : Json)
  | identified (login : Login ι)
  | selected (login : Login ι) (found : Option User)
  | writing (login : Login ι) (user : UserWrite) (credential : Option UpstreamCredential)
  | committed (login : Login ι) (userId : Str)
  | issued (login : Login ι) (session : Session)
  | failed (raised : PyError)

def Phase.finished {ι : Type} : Phase ι → Bool
  | .redirected _ | .issued .. | .failed _ => true
  | _ => false

-- An error reaches the callback before or after the entry is gone.
inductive Getdel
  | answered
  | lost
  | refused

inductive Action
  | start (drawn : Drawn)
  | storeState (stored : Bool)
  | callback (code state : Str)
  | consume (outcome : Getdel)
  | exchange (reply : Except PyError Response)
  | validate (now : Int) (jwks : Jwks)
  | selectUser
  | selectCredential (newId : Str)
  | commit (drawn : Str × Str) (newId : Str) (now : Datetime)
  | issue (now : Int)
  | abort (raised : PyError)

inductive Event
  | forget (key : Str)
  | register (row : User)
  | credentials (db : Database)

-- The lists record what has happened.
structure Shared (ι : Type) where
  states : Str → Option (Entry ι) := fun _ => none
  users : List User := []
  db : Database
  issues : List (Issue ι) := []
  consumptions : List (Consumption ι) := []
  exchanges : List (Exchange ι) := []

namespace Shared

variable {ι : Type}

def store (s : Shared ι) (p : ι) (drawn : Drawn) : Shared ι :=
  { s with states := Function.update s.states (oauthStateKey drawn.state) (some ⟨drawn.stored, p⟩) }

def forget (s : Shared ι) (key : Str) : Shared ι := { s with states := Function.update s.states key none }

def take (s : Shared ι) (p : ι) (code state : Str) (entry : Entry ι) : Shared ι :=
  { s.forget (oauthStateKey state) with consumptions := ⟨p, code, state, entry⟩ :: s.consumptions }

end Shared

def invalidRequestError : PyError := .named "InvalidRequestError".toList

section

variable {ι : Type} (oauth : Oauth) (fernet : Fernet) (collation : Collation)

def pick (db : Database) (login : Login ι) (found : Option User) (newId : Str) :
    Except PyError (UserWrite × Option UpstreamCredential) := do
  let user ← upsertUser found newId login.identity
  return (user, ← OauthService.selectCredential collation db user.userId)

def commitLogin (users : List User) (db : Database) (login : Login ι) (user : UserWrite)
    (credential : Option UpstreamCredential) (drawn : Str × Str) (newId : Str) (now : Datetime) :
    Except PyError (List User × Database) := do
  let delivered ← readDelivered fernet drawn now login.tokens
  let users ← user.write collation users
  return (users, ← delivered.write collation db user.userId newId credential)

def act (p : ι) (action : Action) (s : Shared ι) (phase : Phase ι) : Option (Shared ι × Phase ι) :=
  match action, phase with
  | .start drawn, .idle => some ({ s with issues := ⟨p, drawn⟩ :: s.issues }, .starting drawn)
  | .storeState stored, .starting drawn =>
    -- The error that Redis may raise is swallowed.
    some (if stored then s.store p drawn else s, .redirected (drawn.authorizeUrl oauth))
  | .callback code state, .idle => some (s, .presented code state)
  | .consume outcome, .presented code state =>
    match outcome, s.states (oauthStateKey state) with
    | .answered, some entry => some (s.take p code state entry, .consumed code state entry)
    | .lost, some entry => some (s.take p code state entry, .failed invalidState)
    | _, _ => some (s, .failed invalidState)
  | .exchange reply, .consumed code state entry =>
    match entry.value.item verifierKey with
    | .error raised => some (s, .failed raised)
    | .ok verifier =>
      let after := { s with exchanges := ⟨p, codeForm oauth code verifier, reply⟩ :: s.exchanges }
      match exchangeCode oauth (fun _ => reply) code verifier with
      | .ok tokens => some (after, .exchanged code state entry tokens)
      | .error raised => some (after, .failed raised)
  | .validate now jwks, .exchanged code state entry tokens =>
    match identify oauth now jwks entry.value code tokens with
    | .ok identity => some (s, .identified { code, state, entry, tokens, now, jwks, identity })
    | .error raised => some (s, .failed raised)
  | .selectUser, .identified login =>
    match OauthService.selectUser collation s.users login.identity.sub with
    | .ok found => some (s, .selected login found)
    | .error raised => some (s, .failed raised)
  | .selectCredential newId, .selected login found =>
    match pick collation s.db login found newId with
    | .ok (user, credential) => some (s, .writing login user credential)
    | .error raised => some (s, .failed raised)
  | .commit drawn newId now, .writing login user credential =>
    match commitLogin fernet collation s.users s.db login user credential drawn newId now with
    | .ok (users, db) => some ({ s with users, db }, .committed login user.userId)
    | .error raised => some (s, .failed raised)
  | .issue now, .committed login userId =>
    -- `session.refresh(user)` reads the row again.
    match s.users.find? (·.id == userId) with
    | some user => some (s, .issued login (createJwt oauth now user.id))
    | none => some (s, .failed invalidRequestError)
  | .abort raised, phase => if phase.finished then none else some (s, .failed raised)
  | _, _ => none

def env (event : Event) (s : Shared ι) : Option (Shared ι) :=
  match event with
  | .forget key => some (s.forget key)
  | .register row =>
    match insertUser collation s.users { row with cfSub := none } with
    | .ok users => some { s with users }
    | .error _ => none
  | .credentials db => some { s with db }

def logins (foreignKeys : Bool) : Interleaving ι (Shared ι) (Phase ι) Action Event where
  start s := s = { db := .empty foreignKeys }
  idle := .idle
  act := act oauth fernet collation
  env := env collation

end

end CfProxy.LoginPlane
