import CfProxy.Upstream.AccessToken

set_option autoImplicit false

namespace CfProxy.AccessToken

open Machine

variable {ι : Type} [DecidableEq ι] {skew : Int}

def rotating (s : Shared ι) (_ : Phase) : Action → Bool
  | .answer tokens =>
    match delivered tokens.refreshToken with
    | some value => value ∉ s.spent
    | none => false
  | .commitLogin _ _ => false
  | _ => true

-- Besides, the lock is obtained with the row as it is stored and after no failed refresh, and what a refresher has
-- stored is still usable when a waiter checks it.
def orderly (skew : Int) (s : Shared ι) (phase : Phase) (action : Action) : Bool :=
  rotating s phase action && fresh s phase action &&
    match action, phase with
    | .lock, _ => !s.failed
    | .check now, .locked copy call => call.after.isNone || copy.usable skew now
    | _, _ => true

-- The call of a phase that is past the check under the lock.
def Phase.checked : Phase → Option Call
  | .refreshing _ call _ | .awaiting _ call _ _ | .granted _ call _ | .stored call _ _ _ | .returned call _ _ =>
    some call
  | _ => none

structure OneRefresh (c : Config ι (Shared ι) Phase) : Prop where
  once : c.shared.spent.Nodup
  shared : ∀ p call stored, (c.procs p).checked = some call → call.after = some stored →
    ∃ matched, c.procs p = .returned call stored matched

-- Unless a refresh has failed, the stored refresh token is still unused.
def Unspent (s : Shared ι) : Prop :=
  s.failed = false → ∀ token, s.row.refreshToken = some token → token.value ∉ s.spent

structure Rotated (s : Shared ι) : Prop where
  once : s.spent.Nodup
  kept : ∀ token, s.refreshed = some token → s.row.accessToken = some token
  free : s.holder = none → Unspent s

def Entitled (p : ι) (s : Shared ι) : Phase → Prop
  | .locked _ call => Unspent s ∧ s.failed = false ∧ call.after = s.refreshed
  | .refreshing _ call _ => Unspent s ∧ s.failed = false ∧ call.after = none
  | .awaiting _ call _ _ => call.after = none
  | .granted _ call renewal => call.after = none ∧ renewal.refreshToken.value ∉ s.spent
  | .stored call _ _ _ => s.holder ≠ some p ∧ call.after = none
  | .returned call token _ => (s.holder = some p → Unspent s) ∧ ∀ stored, call.after = some stored → token = stored
  | _ => s.holder ≠ some p

section Steps

variable {p q : ι} {action : Action} {s after : Shared ι} {phase next : Phase}

omit [DecidableEq ι] in
theorem rotating_answer {tokens : Tokens} {sent : Issued} {now : Int} {value : Str}
    (rotates : rotating s phase (.answer tokens) = true) :
    (renew now sent value tokens).refreshToken.value ∉ s.spent := by
  dsimp only [rotating] at rotates
  split at rotates
  · next refreshed found =>
    have unused : refreshed ∉ s.spent := by simpa using rotates
    simpa [renew, found] using unused
  · simp at rotates

omit [DecidableEq ι] in
theorem Entitled.unspent (entitled : Entitled p s phase) (locked : s.holder = some p) :
    phase.presenting = true ∨ Unspent s := by
  cases phase with
  | locked => exact .inr entitled.1
  | refreshing => exact .inr entitled.1
  | awaiting => exact .inl rfl
  | granted => exact .inl rfl
  | stored => exact absurd locked entitled.1
  | returned => exact .inr (entitled.1 locked)
  | _ => exact absurd locked entitled

theorem Rotated.left (inv : Rotated s) (entitled : Entitled p s phase) : Rotated (s.leave p phase) where
  once := inv.once
  kept := inv.kept
  free free failed := by
    obtain ⟨succeeded, quiet⟩ : s.failed = false ∧ phase.presenting = false := by
      simpa [Shared.leave] using failed
    by_cases locked : s.holder = some p
    · exact (entitled.unspent locked).resolve_left (by simp [quiet]) succeeded
    · exact inv.free (by simpa [Shared.leave, locked] using free) succeeded

theorem Step.rotated (step : Step skew p action s phase after next) (inv : Rotated s) (mine : Current p s phase)
    (entitled : Entitled p s phase) (allowed : orderly skew s phase action = true) :
    Rotated after ∧ Entitled p after next := by
  simp only [orderly, Bool.and_eq_true] at allowed
  obtain ⟨⟨rotates, -⟩, inTime⟩ := allowed
  cases step with
  | loaded => exact ⟨inv, entitled⟩
  | hit => exact ⟨inv, fun locked => absurd locked entitled, by simp⟩
  | missed => exact ⟨inv, entitled⟩
  | locked free =>
    have succeeded : s.failed = false := by simpa using inTime
    exact ⟨⟨inv.once, inv.kept, by simp⟩, inv.free free, succeeded, rfl⟩
  | valid usable found =>
    obtain ⟨unspent, -, after⟩ := entitled
    obtain ⟨-, rfl⟩ := mine
    refine ⟨inv, fun _ => unspent, fun stored refreshed => ?_⟩
    have kept := inv.kept stored (after ▸ refreshed)
    exact Option.some.inj (found.symm.trans kept)
  | expired unusable =>
    obtain ⟨unspent, succeeded, -⟩ := entitled
    exact ⟨inv, unspent, succeeded, by simpa [unusable] using inTime⟩
  | presented found =>
    obtain ⟨unspent, succeeded, first⟩ := entitled
    obtain ⟨locked, rfl⟩ := mine
    have unused := unspent succeeded _ found
    exact ⟨⟨List.nodup_cons.mpr ⟨unused, inv.once⟩, inv.kept, by simp [locked]⟩, first⟩
  | granted => exact ⟨inv, entitled, rotating_answer rotates⟩
  | updated =>
    obtain ⟨first, unused⟩ := entitled
    refine ⟨⟨inv.once, fun token refreshed => refreshed, fun _ _ token stored => ?_⟩, by simp, first⟩
    obtain rfl := Option.some.inj stored
    exact unused
  | fenced differs =>
    obtain ⟨-, rfl⟩ := mine
    exact absurd rfl differs
  | filled => exact ⟨⟨inv.once, inv.kept, inv.free⟩, fun locked => absurd locked entitled.1, by simp [entitled.2]⟩
  | signingIn => exact ⟨inv, entitled⟩
  | signedIn => simp [rotating] at rotates
  | left => exact ⟨inv.left entitled, leave_holder⟩

omit [DecidableEq ι] in
theorem Entitled.cache (entitled : Entitled p s phase) (cache : Option Issued) :
    Entitled p { s with cache } phase := by
  cases phase <;> exact entitled

theorem Step.entitled_other (step : Step skew p action s phase after next) (mine : Current p s phase)
    (other : q ≠ p) {theirs : Phase} (kept : Current q s theirs) (entitled : Entitled q s theirs) :
    Entitled q after theirs := by
  by_cases locked : s.holder = some q
  · obtain ⟨cache, rfl⟩ := step.frame mine locked other
    exact entitled.cache cache
  · have unlocked := step.holder other locked
    cases theirs with
    | locked => exact absurd kept.1 locked
    | refreshing => exact absurd kept.1 locked
    | awaiting => exact absurd kept.1 locked
    | granted => exact absurd kept.1 locked
    | stored => exact ⟨unlocked, entitled.2⟩
    | returned => exact ⟨fun relocked => absurd relocked unlocked, entitled.2⟩
    | _ => exact unlocked

end Steps

section Runs

variable {row : Row} {c : Config ι (Shared ι) Phase}

omit [DecidableEq ι] in
theorem orderly_fresh {c : Config ι (Shared ι) Phase} {move : Move ι Action Unit}
    (allowed : Interleaving.acting (orderly skew) c move) : Interleaving.acting fresh c move := by
  cases move with
  | own p action =>
    simp only [Interleaving.acting, orderly, Bool.and_eq_true] at allowed
    exact allowed.1.2
  | env event => trivial

theorem reachable_entitled (reached : (oauth skew row).system.Reachable (Interleaving.acting (orderly skew)) c) :
    Interleaving.Holds Rotated Entitled c := by
  have currently := reached.assuming fun _ reached =>
    reachable_current (reached.mono fun _ _ allowed => orderly_fresh allowed)
  refine Interleaving.interference_free (oauth skew row) _ Rotated Entitled ?_ ?_ ?_ ?_ currently
  · rintro s rfl
    refine ⟨⟨List.nodup_nil, by simp, fun _ _ _ _ => List.not_mem_nil⟩, fun p => ?_⟩
    simp [oauth, Entitled]
  · exact fun c p action s phase inv allowed acted =>
      (act_step acted).rotated inv.shared (allowed.2 p) (inv.procs p) allowed.1
  · exact fun c p action s phase other inv allowed acted apart =>
      (act_step acted).entitled_other (allowed.2 p) apart (allowed.2 other) (inv.procs other)
  · intro c event s inv _ lost
    obtain rfl := Option.some.inj lost
    exact ⟨⟨inv.shared.once, inv.shared.kept, inv.shared.free⟩, fun p => (inv.procs p).cache none⟩

theorem one_refresh_per_token
    (reached : (oauth skew row).system.Reachable (Interleaving.acting (orderly skew)) c) : OneRefresh c where
  once := (reachable_entitled reached).shared.once
  shared p call stored := by
    have entitled := (reachable_entitled reached).procs p
    intro checked waited
    cases working : c.procs p <;> simp_all [Entitled, Phase.checked]

end Runs

section Example

-- Times count from the first check; the stored access token has expired then.
def expiredRow : Row where
  accessToken := some ⟨"at-0".toList, 0⟩
  refreshToken := some ⟨"rt-0".toList, 0⟩
  tokenExpiresAt := some 0
  credVersion := 1

def rotated : Tokens := ⟨some "at-1".toList, some "rt-1".toList, some 3600⟩

def load (p : Bool) : List (Move Bool Action Unit) := [.own p .load, .own p (.readCache true)]

def refresh (p : Bool) (now : Int) : List (Move Bool Action Unit) :=
  [.own p .lock, .own p (.check now), .own p .present, .own p (.answer rotated), .own p .update]

def expiredStart : Config Bool (Shared Bool) Phase := ⟨{ row := expiredRow }, fun _ => .idle⟩

theorem expired_starts : (oauth 60 expiredRow).system.init expiredStart := ⟨rfl, fun _ => rfl⟩

theorem refreshed_once : ∃ c : Config Bool (Shared Bool) Phase,
    (c.procs true).checked.bind (·.after) = some ⟨"at-1".toList, 0⟩ ∧ OneRefresh c := by
  have ran : (((oauth 60 expiredRow).system.checked (Interleaving.acting (orderly 60))).run expiredStart
      (load false ++ refresh false 0 ++ load true ++ [.own true .lock, .own true (.check 20)])).map
        (fun c => (c.procs true).checked.bind (·.after)) = some (some ⟨"at-1".toList, 0⟩) := by
    decide +kernel
  obtain ⟨c, reached, shown⟩ := System.Reachable.of_run expired_starts ran
  exact ⟨c, shown, one_refresh_per_token reached⟩

def rotatingFrom (start : Int) (s : Shared ι) (phase : Phase) (action : Action) : Bool :=
  rotating s phase action &&
    match action with
    | .check now => start ≤ now
    | _ => true

theorem presented_twice :
    ¬∀ (row : Row) (start : Int) (c : Config Bool (Shared Bool) Phase), row.usable 60 start = false →
      (oauth 60 row).system.Reachable (Interleaving.acting (rotatingFrom start)) c → OneRefresh c := by
  intro always
  have ran : (((oauth 60 expiredRow).system.checked (Interleaving.acting (rotatingFrom 0))).run expiredStart
      (load false ++ load true ++ refresh false 0 ++ (refresh true 10).take 3)).map
        (fun c => decide c.shared.spent.Nodup) = some false := by
    decide +kernel
  obtain ⟨c, reached, twice⟩ := System.Reachable.of_run expired_starts ran
  exact absurd (always expiredRow 0 c (by decide) reached).once (by simpa using twice)

end Example

end CfProxy.AccessToken
