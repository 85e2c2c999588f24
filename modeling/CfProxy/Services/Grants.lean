import Mathlib.Data.Fintype.Basic
import CfProxy.Upstream.AccessToken

set_option autoImplicit false

namespace CfProxy.AccessToken

open Machine

-- Between the commit of a refresh and its cache write.
def Phase.storing : Phase → Bool
  | .stored .. => true
  | _ => false

-- What a call is about to cache and return, or has returned.
def Phase.obtained : Phase → Option (Call × Issued × Bool)
  | .stored call token _ matched | .returned call token matched => some (call, token, matched)
  | _ => none

section

variable {ι : Type}

def signsIn : Move ι Action Unit → Option Tokens
  | .own _ (.commitLogin tokens _) => some tokens
  | _ => none

-- A callback that commits an access token finds no cached one and no refresh about to cache its own, and commits a
-- refresh token too.
def loginSafe (c : Config ι (Shared ι) Phase) (move : Move ι Action Unit) : Prop :=
  ∀ tokens ∈ signsIn move, (delivered tokens.accessToken).isSome = true →
    c.shared.cache = none ∧ (∀ p, (c.procs p).storing = false) ∧ (delivered tokens.refreshToken).isSome = true

def Guarded (c : Config ι (Shared ι) Phase) (move : Move ι Action Unit) : Prop :=
  Interleaving.acting fresh c move ∧ loginSafe c move

structure Belongs (c : Config ι (Shared ι) Phase) : Prop where
  cached : ∀ token, c.shared.cache = some token → c.shared.latest ≤ token.grant
  obtained : ∀ p call token matched, (c.procs p).obtained = some (call, token, matched) →
    call.started ≤ token.grant ∧ matched = true

structure Granted (s : Shared ι) : Prop where
  latest : s.latest ≤ s.logins
  accessToken : ∀ token, s.row.accessToken = some token → s.latest ≤ token.grant
  refreshToken : ∀ token, s.row.refreshToken = some token → s.latest ≤ token.grant
  cached : ∀ token, s.cache = some token → s.latest ≤ token.grant

def Recent (latest : Nat) : Phase → Prop
  | .missed _ started => started ≤ latest
  | .locked _ call | .refreshing _ call _ => call.started ≤ latest
  | .awaiting _ call _ sent => call.started ≤ latest ∧ latest ≤ sent.grant
  | .granted _ call renewal =>
    call.started ≤ latest ∧ latest ≤ renewal.accessToken.grant ∧ latest ≤ renewal.refreshToken.grant
  | .stored call token _ matched => call.started ≤ token.grant ∧ latest ≤ token.grant ∧ matched = true
  | .returned call token matched => call.started ≤ token.grant ∧ matched = true
  | _ => True

theorem Recent.later {latest later : Nat} (newer : latest ≤ later) {p : ι} {s : Shared ι} {phase : Phase}
    (free : s.holder = none) (mine : Current p s phase) (done : phase.storing = false) (recent : Recent latest phase) :
    Recent later phase := by
  have unlocked : s.holder ≠ some p := by simp [free]
  cases phase with
  | missed => exact Nat.le_trans recent newer
  | locked => exact absurd mine.1 unlocked
  | refreshing => exact absurd mine.1 unlocked
  | awaiting => exact absurd mine.1 unlocked
  | granted => exact absurd mine.1 unlocked
  | stored => simp [Phase.storing] at done
  | returned => exact recent
  | _ => trivial

end

section Login

variable {ι : Type} {s : Shared ι} {loaded : Row} {tokens : Tokens} {now : Int}

theorem login_latest (inv : Granted s) : s.latest ≤ (s.login loaded tokens now).latest := by
  have known := inv.latest
  unfold Shared.login
  dsimp only
  split <;> omega

theorem Granted.login (inv : Granted s)
    (safe : (delivered tokens.accessToken).isSome = true →
      s.cache = none ∧ (delivered tokens.refreshToken).isSome = true) :
    Granted (s.login loaded tokens now) := by
  have known := inv.latest
  cases access : delivered tokens.accessToken with
  | none =>
    refine ⟨by simp [Shared.login, access]; omega, ?_, ?_, ?_⟩
    · intro token stored
      simpa [Shared.login, access] using inv.accessToken token (by simpa [Shared.login, Row.login, access] using stored)
    · intro token stored
      cases refresh : delivered tokens.refreshToken with
      | none =>
        simpa [Shared.login, access] using
          inv.refreshToken token (by simpa [Shared.login, Row.login, refresh] using stored)
      | some value =>
        obtain rfl : ⟨value, s.logins + 1⟩ = token := by simpa [Shared.login, Row.login, refresh] using stored
        simp only [Shared.login, access, Option.isSome_none, Bool.false_eq_true, if_false]
        omega
    · intro token cached
      simpa [Shared.login, access] using inv.cached token cached
  | some value =>
    obtain ⟨uncached, refreshed⟩ := safe (by simp [access])
    obtain ⟨refresh, refreshed⟩ := Option.isSome_iff_exists.mp refreshed
    refine ⟨by simp [Shared.login, access], ?_, ?_, ?_⟩
    · intro token stored
      obtain rfl : ⟨value, s.logins + 1⟩ = token := by simpa [Shared.login, Row.login, access] using stored
      simp [Shared.login, access]
    · intro token stored
      obtain rfl : ⟨refresh, s.logins + 1⟩ = token := by simpa [Shared.login, Row.login, refreshed] using stored
      simp [Shared.login, access]
    · intro token cached
      simp [Shared.login, uncached] at cached

end Login

section Steps

variable {ι : Type} [DecidableEq ι] {skew : Int} {p : ι} {action : Action} {s after : Shared ι} {phase next : Phase}

theorem Step.keeps_grants (step : Step skew p action s phase after next) (inv : Granted s) (mine : Current p s phase)
    (recent : Recent s.latest phase)
    (safe : ∀ tokens now, action = .commitLogin tokens now → (delivered tokens.accessToken).isSome = true →
      s.cache = none ∧ (delivered tokens.refreshToken).isSome = true) :
    Granted after ∧ Recent after.latest next := by
  cases step with
  | hit cached => exact ⟨inv, inv.cached _ cached, rfl⟩
  | missed => exact ⟨inv, Nat.le_refl _⟩
  | locked => exact ⟨⟨inv.latest, inv.accessToken, inv.refreshToken, inv.cached⟩, recent⟩
  | valid usable found =>
    obtain ⟨-, rfl⟩ := mine
    exact ⟨inv, Nat.le_trans recent (inv.accessToken _ found), rfl⟩
  | expired => exact ⟨inv, recent⟩
  | presented found =>
    obtain ⟨-, rfl⟩ := mine
    exact ⟨⟨inv.latest, inv.accessToken, inv.refreshToken, inv.cached⟩, recent, inv.refreshToken _ found⟩
  | granted => exact ⟨inv, recent.1, recent.2, recent.2⟩
  | updated =>
    obtain ⟨began, access, refresh⟩ := recent
    refine ⟨⟨inv.latest, ?_, ?_, inv.cached⟩, Nat.le_trans began access, access, rfl⟩
    · rintro _ ⟨rfl⟩
      exact access
    · rintro _ ⟨rfl⟩
      exact refresh
  | fenced differs =>
    obtain ⟨-, rfl⟩ := mine
    exact absurd rfl differs
  | filled =>
    obtain ⟨began, newest, matched⟩ := recent
    refine ⟨⟨inv.latest, inv.accessToken, inv.refreshToken, fun token cached => ?_⟩, began, matched⟩
    dsimp only at cached
    split at cached
    · obtain rfl := Option.some.inj cached
      exact newest
    · exact inv.cached token cached
  | signedIn => exact ⟨inv.login (safe _ _ rfl), trivial⟩
  | left => exact ⟨⟨inv.latest, inv.accessToken, inv.refreshToken, inv.cached⟩, trivial⟩
  | _ => exact ⟨inv, trivial⟩

theorem Step.latest (step : Step skew p action s phase after next) :
    after.latest = s.latest ∨ s.holder = none ∧ ∃ loaded tokens now, action = .commitLogin tokens now ∧
      (delivered tokens.accessToken).isSome = true ∧ after = s.login loaded tokens now := by
  cases step with
  | @signedIn _ _ tokens _ free =>
    by_cases access : (delivered tokens.accessToken).isSome = true
    · exact .inr ⟨free, _, _, _, rfl, access, rfl⟩
    · exact .inl (by simp [Shared.login, access])
  | _ => exact .inl rfl

end Steps

section Runs

variable {ι : Type} [DecidableEq ι] {skew : Int} {row : Row} {c : Config ι (Shared ι) Phase}

theorem reachable_recent (reached : (oauth skew row).system.Reachable Guarded c) :
    Interleaving.Holds Granted (fun _ s phase => Recent s.latest phase) c := by
  have currently := reached.assuming fun _ reached => reachable_current (reached.mono fun _ _ allowed => allowed.1)
  refine Interleaving.interference_free (oauth skew row) _ _ _ ?_ ?_ ?_ ?_ currently
  · rintro s rfl
    exact ⟨⟨Nat.le_refl _, fun _ _ => Nat.zero_le _, fun _ _ => Nat.zero_le _, by simp⟩, fun _ => trivial⟩
  · intro c p action s phase inv allowed acted
    refine (act_step acted).keeps_grants inv.shared (allowed.2 p) (inv.procs p) ?_
    rintro tokens now rfl access
    obtain ⟨uncached, -, refresh⟩ := allowed.1.2 tokens rfl access
    exact ⟨uncached, refresh⟩
  · intro c p action s phase other inv allowed acted apart
    obtain same | ⟨free, loaded, tokens, now, rfl, access, rfl⟩ := (act_step acted).latest
    · rw [same]
      exact inv.procs other
    · obtain ⟨-, idle, -⟩ := allowed.1.2 tokens rfl access
      exact (inv.procs other).later (login_latest inv.shared) free (allowed.2 other) (idle other)
  · intro c event s inv _ lost
    obtain rfl := Option.some.inj lost
    exact ⟨⟨inv.shared.latest, inv.shared.accessToken, inv.shared.refreshToken, by simp⟩, inv.procs⟩

theorem tokens_belong (reached : (oauth skew row).system.Reachable Guarded c) : Belongs c where
  cached := (reachable_recent reached).shared.cached
  obtained p call token matched found := by
    have recent := (reachable_recent reached).procs p
    cases working : c.procs p <;> simp_all [Recent, Phase.obtained]

end Runs

section Example

instance {ι : Type} [DecidableEq ι] [Fintype ι] (c : Config ι (Shared ι) Phase) (move : Move ι Action Unit) :
    Decidable (Guarded c move) :=
  have : Decidable (loginSafe c move) := inferInstanceAs (Decidable (∀ tokens ∈ signsIn move, _ → _ ∧ _ ∧ _))
  inferInstanceAs (Decidable (_ ∧ _))

-- The stored access token has no expiry, so that every call without a cached token refreshes it.
def endlessRow : Row where
  accessToken := some ⟨"at-0".toList, 0⟩
  refreshToken := some ⟨"rt-0".toList, 0⟩
  tokenExpiresAt := none
  credVersion := 1

def refreshedTokens : Tokens := ⟨some "at-1".toList, some "rt-1".toList, some 3600⟩
def loginTokens : Tokens := ⟨some "at-2".toList, some "rt-2".toList, some 3600⟩

-- A call that refreshes, a login, and a call after it.

def refreshing : List (Move (Fin 3) Action Unit) :=
  [.own 0 .load, .own 0 (.readCache true), .own 0 .lock, .own 0 (.check 0), .own 0 .present,
    .own 0 (.answer refreshedTokens), .own 0 .update, .own 0 (.fillCache true), .own 0 .leave]

def loggingIn : List (Move (Fin 3) Action Unit) := [.own 1 .signIn, .own 1 (.commitLogin loginTokens 10)]

def calling : List (Move (Fin 3) Action Unit) := [.own 2 .load, .own 2 (.readCache true)]

def endlessStart : Config (Fin 3) (Shared (Fin 3)) Phase := ⟨{ row := endlessRow }, fun _ => .idle⟩

theorem endless_starts : (oauth 60 endlessRow).system.init endlessStart := ⟨rfl, fun _ => rfl⟩

theorem login_belongs : ∃ c : Config (Fin 3) (Shared (Fin 3)) Phase,
    (c.procs 2).obtained.map (·.2.1) = some ⟨"at-2".toList, 1⟩ ∧ Belongs c := by
  have ran : (((oauth 60 endlessRow).system.checked Guarded).run endlessStart
      (refreshing ++ .env () :: loggingIn ++ calling ++ [.own 2 .lock, .own 2 (.check 20)])).map
        (fun c => (c.procs 2).obtained.map (·.2.1)) = some (some ⟨"at-2".toList, 1⟩) := by
    decide +kernel
  obtain ⟨c, reached, shown⟩ := System.Reachable.of_run endless_starts ran
  exact ⟨c, shown, tokens_belong reached⟩

theorem cached_outlives_login :
    ¬∀ (row : Row) (c : Config (Fin 3) (Shared (Fin 3)) Phase),
      (oauth 60 row).system.Reachable System.unrestricted c → Belongs c := by
  intro always
  have ran : (((oauth 60 endlessRow).system.checked fun _ _ => True).run endlessStart
      (refreshing ++ loggingIn ++ calling)).map (fun c => (c.procs 2).obtained) =
        some (some (⟨1, none⟩, ⟨"at-1".toList, 0⟩, true)) := by
    decide +kernel
  obtain ⟨c, reached, shown⟩ := System.Reachable.of_run endless_starts ran
  have belongs := (always endlessRow c (reached.mono fun _ _ _ => trivial)).obtained 2 _ _ _ shown
  simp at belongs

end Example

end CfProxy.AccessToken
