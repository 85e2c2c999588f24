import CfProxy.Shared.Machine
import CfProxy.Shared.Python

set_option autoImplicit false

namespace CfProxy.AccessToken

open Machine

-- The login that a token goes back to is not in the code: it is what the tokens are compared by.
structure Issued where
  value : Str
  grant : Nat
  deriving DecidableEq

-- The columns of an OAuth credential that its tokens are kept in, with the secrets decrypted; times are in seconds.
-- `edition` counts the commits that have written them.
structure Row where
  accessToken : Option Issued
  refreshToken : Option Issued
  tokenExpiresAt : Option Int
  credVersion : Nat
  edition : Nat := 0
  deriving DecidableEq

structure Tokens where
  accessToken : Option Str
  refreshToken : Option Str
  expiresIn : Option Int

-- `if token:`, which an empty string fails.
def delivered (token : Option Str) : Option Str := token.filter fun value => !value.isEmpty

def expiry (now : Int) (expiresIn : Option Int) : Option Int := expiresIn.map (now + ·)

structure Renewal where
  accessToken : Issued
  refreshToken : Issued
  expiresIn : Option Int
  tokenExpiresAt : Option Int

def renew (now : Int) (sent : Issued) (accessToken : Str) (tokens : Tokens) : Renewal where
  accessToken := ⟨accessToken, sent.grant⟩
  refreshToken := ⟨(delivered tokens.refreshToken).getD sent.value, sent.grant⟩
  expiresIn := tokens.expiresIn
  tokenExpiresAt := expiry now tokens.expiresIn

namespace Row

def usable (row : Row) (skew now : Int) : Bool :=
  match row.tokenExpiresAt with
  | none => false
  | some expiresAt => expiresAt - skew > now

def renewed (row copy : Row) (renewal : Renewal) : Row where
  accessToken := some renewal.accessToken
  refreshToken := some renewal.refreshToken
  tokenExpiresAt := renewal.tokenExpiresAt
  credVersion := copy.credVersion + 1
  edition := row.edition + 1

def login (row loaded : Row) (grant : Nat) (tokens : Tokens) (now : Int) : Row where
  accessToken := ((delivered tokens.accessToken).map (⟨·, grant⟩)).or row.accessToken
  refreshToken := ((delivered tokens.refreshToken).map (⟨·, grant⟩)).or row.refreshToken
  tokenExpiresAt :=
    if expiry now tokens.expiresIn = loaded.tokenExpiresAt then row.tokenExpiresAt else expiry now tokens.expiresIn
  credVersion := loaded.credVersion + 1
  edition := row.edition + 1

end Row

-- The newest login when the call began, and what the last refresher had stored when it got the lock.
structure Call where
  started : Nat
  after : Option Issued
  deriving DecidableEq

-- `copy` is the instance that the session loaded first; `matched` is false after an UPDATE of no row.
inductive Phase
  | idle
  | loaded (copy : Row)
  | missed (copy : Row) (started : Nat)
  | locked (copy : Row) (call : Call)
  | refreshing (copy : Row) (call : Call) (now : Int)
  | awaiting (copy : Row) (call : Call) (now : Int) (sent : Issued)
  | granted (copy : Row) (call : Call) (renewal : Renewal)
  | stored (call : Call) (token : Issued) (expiresIn : Option Int) (matched : Bool)
  | returned (call : Call) (token : Issued) (matched : Bool)
  | signingIn (loaded : Row)
  | closed

-- The refresh token is at the issuer, and nothing is stored in its place yet.
def Phase.presenting : Phase → Bool
  | .awaiting .. | .granted .. => true
  | _ => false

inductive Action
  | load
  | readCache (works : Bool)
  | lock
  | check (now : Int)
  | present
  | answer (tokens : Tokens)
  | update
  | fillCache (works : Bool)
  | signIn
  | commitLogin (tokens : Tokens) (now : Int)
  | leave

-- The row, its lock and the cache entry; the other fields record what has happened.
structure Shared (ι : Type) where
  row : Row
  holder : Option ι := none
  cache : Option Issued := none
  presented : List (ι × Str) := []
  refreshed : Option Issued := none
  failed : Bool := false
  logins : Nat := 0
  latest : Nat := 0

namespace Shared

variable {ι : Type}

def spent (s : Shared ι) : List Str := s.presented.map (·.2)

def login (s : Shared ι) (loaded : Row) (tokens : Tokens) (now : Int) : Shared ι :=
  { s with
    row := s.row.login loaded (s.logins + 1) tokens now
    logins := s.logins + 1
    latest := if (delivered tokens.accessToken).isSome then s.logins + 1 else s.latest }

variable [DecidableEq ι]

-- The end of a session ends its transaction, and with it the row lock.
def leave (s : Shared ι) (p : ι) (phase : Phase) : Shared ι :=
  { s with
    holder := if s.holder = some p then none else s.holder
    failed := s.failed || phase.presenting }

end Shared

section

variable {ι : Type} [DecidableEq ι] (skew : Int)

def act (p : ι) (action : Action) (s : Shared ι) (phase : Phase) : Option (Shared ι × Phase) :=
  match action, phase with
  | .load, .idle => some (s, .loaded s.row)
  | .readCache works, .loaded copy =>
    match if works then s.cache else none with
    | some token => some (s, .returned ⟨s.latest, none⟩ token true)
    | none => some (s, .missed copy s.latest)
  | .lock, .missed copy started =>
    -- The locking read returns the newest row, for which the session has an instance already.
    if s.holder = none then some ({ s with holder := some p }, .locked copy ⟨started, s.refreshed⟩) else none
  | .check now, .locked copy call =>
    if copy.usable skew now then
      match copy.accessToken with
      | some token => some (s, .returned call token true)
      | none => some (s.leave p phase, .closed)
    else some (s, .refreshing copy call now)
  | .present, .refreshing copy call now =>
    match copy.refreshToken with
    | some token => some ({ s with presented := (p, token.value) :: s.presented }, .awaiting copy call now token)
    | none => some (s.leave p phase, .closed)
  | .answer tokens, .awaiting copy call now sent =>
    match tokens.accessToken with
    | some value => some (s, .granted copy call (renew now sent value tokens))
    | none => some (s.leave p phase, .closed)
  | .update, .granted copy call renewal =>
    if s.row.credVersion = copy.credVersion then
      some ({ s with row := s.row.renewed copy renewal, holder := none, refreshed := some renewal.accessToken },
        .stored call renewal.accessToken renewal.expiresIn true)
    else some ({ s with holder := none }, .stored call renewal.accessToken renewal.expiresIn false)
  | .fillCache works, .stored call token expiresIn matched =>
    some ({ s with cache := if works && expiresIn.isSome then some token else s.cache }, .returned call token matched)
  | .signIn, .idle => some (s, .signingIn s.row)
  | .commitLogin tokens now, .signingIn loaded =>
    if s.holder = none then some (s.login loaded tokens now, .closed) else none
  -- A request ends with its answer, or with an exception wherever it is.
  | .leave, phase => some (s.leave p phase, .closed)
  | _, _ => none

def oauth (row : Row) : Interleaving ι (Shared ι) Phase Action Unit where
  start s := s = { row }
  idle := .idle
  act := act skew
  env _ s := some { s with cache := none }

end

section Steps

variable {ι : Type} [DecidableEq ι] {skew : Int}

inductive Step (skew : Int) (p : ι) : Action → Shared ι → Phase → Shared ι → Phase → Prop
  | loaded {s : Shared ι} : Step skew p .load s .idle s (.loaded s.row)
  | hit {s : Shared ι} {copy : Row} {works : Bool} {token : Issued} (cached : s.cache = some token) :
      Step skew p (.readCache works) s (.loaded copy) s (.returned ⟨s.latest, none⟩ token true)
  | missed {s : Shared ι} {copy : Row} {works : Bool} :
      Step skew p (.readCache works) s (.loaded copy) s (.missed copy s.latest)
  | locked {s : Shared ι} {copy : Row} {started : Nat} (free : s.holder = none) :
      Step skew p .lock s (.missed copy started) { s with holder := some p } (.locked copy ⟨started, s.refreshed⟩)
  | valid {s : Shared ι} {copy : Row} {call : Call} {now : Int} {token : Issued}
      (usable : copy.usable skew now = true) (found : copy.accessToken = some token) :
      Step skew p (.check now) s (.locked copy call) s (.returned call token true)
  | expired {s : Shared ι} {copy : Row} {call : Call} {now : Int} (unusable : copy.usable skew now = false) :
      Step skew p (.check now) s (.locked copy call) s (.refreshing copy call now)
  | presented {s : Shared ι} {copy : Row} {call : Call} {now : Int} {token : Issued}
      (found : copy.refreshToken = some token) :
      Step skew p .present s (.refreshing copy call now)
        { s with presented := (p, token.value) :: s.presented } (.awaiting copy call now token)
  | granted {s : Shared ι} {copy : Row} {call : Call} {now : Int} {sent : Issued} {tokens : Tokens} {value : Str} :
      Step skew p (.answer tokens) s (.awaiting copy call now sent) s (.granted copy call (renew now sent value tokens))
  | updated {s : Shared ι} {copy : Row} {call : Call} {renewal : Renewal}
      (same : s.row.credVersion = copy.credVersion) :
      Step skew p .update s (.granted copy call renewal)
        { s with row := s.row.renewed copy renewal, holder := none, refreshed := some renewal.accessToken }
        (.stored call renewal.accessToken renewal.expiresIn true)
  | fenced {s : Shared ι} {copy : Row} {call : Call} {renewal : Renewal}
      (differs : s.row.credVersion ≠ copy.credVersion) :
      Step skew p .update s (.granted copy call renewal) { s with holder := none }
        (.stored call renewal.accessToken renewal.expiresIn false)
  | filled {s : Shared ι} {call : Call} {token : Issued} {expiresIn : Option Int} {matched works : Bool} :
      Step skew p (.fillCache works) s (.stored call token expiresIn matched)
        { s with cache := if works && expiresIn.isSome then some token else s.cache } (.returned call token matched)
  | signingIn {s : Shared ι} : Step skew p .signIn s .idle s (.signingIn s.row)
  | signedIn {s : Shared ι} {loaded : Row} {tokens : Tokens} {now : Int} (free : s.holder = none) :
      Step skew p (.commitLogin tokens now) s (.signingIn loaded) (s.login loaded tokens now) .closed
  | left {s : Shared ι} {phase : Phase} {action : Action} : Step skew p action s phase (s.leave p phase) .closed

theorem act_step {p : ι} {action : Action} {s after : Shared ι} {phase next : Phase}
    (acted : act skew p action s phase = some (after, next)) : Step skew p action s phase after next := by
  unfold act at acted
  split at acted
  · cases acted
    exact .loaded
  · next works copy =>
    cases works with
    | false =>
      cases acted
      exact .missed
    | true =>
      split at acted <;> cases acted
      · exact .hit ‹_›
      · exact .missed
  · split at acted <;> cases acted
    exact .locked ‹_›
  · split at acted
    · split at acted <;> cases acted
      · exact .valid ‹_› ‹_›
      · exact .left
    · next unusable =>
      cases acted
      exact .expired (by simpa using unusable)
  · split at acted <;> cases acted
    · exact .presented ‹_›
    · exact .left
  · split at acted <;> cases acted
    · exact .granted
    · exact .left
  · split at acted <;> cases acted
    · exact .updated ‹_›
    · exact .fenced ‹_›
  · cases acted
    exact .filled
  · cases acted
    exact .signingIn
  · split at acted <;> cases acted
    exact .signedIn ‹_›
  · cases acted
    exact .left
  · simp at acted

theorem leave_holder {s : Shared ι} {p : ι} {phase : Phase} : (s.leave p phase).holder ≠ some p := by
  unfold Shared.leave
  split <;> simp_all

def Current (p : ι) (s : Shared ι) : Phase → Prop
  | .locked copy _ | .refreshing copy _ _ | .awaiting copy _ _ _ | .granted copy _ _ =>
    s.holder = some p ∧ copy = s.row
  | _ => True

-- The instance in the session is the row as it is stored.
def fresh (s : Shared ι) (phase : Phase) (action : Action) : Bool :=
  match action, phase with
  | .lock, .missed copy _ => copy = s.row
  | _, _ => true

section

variable {p q : ι} {action : Action} {s after : Shared ι} {phase next : Phase}

omit [DecidableEq ι] in
theorem Phase.presenting_current (presenting : phase.presenting = true) (mine : Current p s phase) :
    s.holder = some p := by
  cases phase <;> simp_all [Phase.presenting, Current]

theorem Step.frame (step : Step skew p action s phase after next) (mine : Current p s phase)
    (locked : s.holder = some q) (other : q ≠ p) : ∃ cache, after = { s with cache } := by
  have apart : s.holder ≠ some p := by simpa [locked] using other
  cases step with
  | locked free => simp [free] at locked
  | signedIn free => simp [free] at locked
  | presented => exact absurd mine.1 apart
  | updated => exact absurd mine.1 apart
  | fenced => exact absurd mine.1 apart
  | filled => exact ⟨_, rfl⟩
  | left =>
    have idle : phase.presenting = false := by
      by_contra presenting
      exact apart (phase.presenting_current (by simpa using presenting) mine)
    exact ⟨s.cache, by simp [Shared.leave, apart, idle]⟩
  | _ => exact ⟨s.cache, rfl⟩

theorem Step.holder (step : Step skew p action s phase after next) (other : q ≠ p) (apart : s.holder ≠ some q) :
    after.holder ≠ some q := by
  cases step with
  | locked => simpa using Ne.symm other
  | updated => simp
  | fenced => simp
  | left =>
    unfold Shared.leave
    split <;> simp_all
  | _ => exact apart

omit [DecidableEq ι] in
theorem Current.cache (mine : Current p s phase) (cache : Option Issued) : Current p { s with cache } phase := by
  cases phase <;> exact mine

omit [DecidableEq ι] in
theorem Current.unlocked (mine : Current p s phase) (apart : s.holder ≠ some p) (later : Shared ι) :
    Current p later phase := by
  cases phase <;> first | trivial | exact absurd mine.1 apart

theorem Step.current_other (step : Step skew p action s phase after next) (mine : Current p s phase) (other : q ≠ p)
    {theirs : Phase} (kept : Current q s theirs) : Current q after theirs := by
  by_cases locked : s.holder = some q
  · obtain ⟨cache, rfl⟩ := step.frame mine locked other
    exact kept.cache cache
  · exact kept.unlocked locked after

theorem Step.current (step : Step skew p action s phase after next) (mine : Current p s phase)
    (allowed : fresh s phase action = true) : Current p after next := by
  cases step with
  | locked => exact ⟨rfl, by simpa [fresh] using allowed⟩
  | expired => exact mine
  | presented => exact mine
  | granted => exact mine
  | _ => trivial

end

theorem reachable_current {row : Row} {c : Config ι (Shared ι) Phase}
    (reached : (oauth skew row).system.Reachable (Interleaving.acting fresh) c) (p : ι) :
    Current p c.shared (c.procs p) := by
  have holds := Interleaving.interference_free (oauth skew row) (Interleaving.acting fresh) (fun _ => True) Current
    (fun _ _ => ⟨trivial, fun _ => trivial⟩) ?_ ?_ ?_ reached
  · exact holds.procs p
  · exact fun c p action shared phase inv allowed acted => ⟨trivial, (act_step acted).current (inv.procs p) allowed⟩
  · exact fun c p action shared phase other inv _ acted apart =>
      (act_step acted).current_other (inv.procs p) apart (inv.procs other)
  · intro c event shared inv _ lost
    obtain rfl := Option.some.inj lost
    exact ⟨trivial, fun p => (inv.procs p).cache none⟩

end Steps

end CfProxy.AccessToken
