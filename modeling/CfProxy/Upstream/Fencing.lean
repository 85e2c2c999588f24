import CfProxy.Upstream.AccessToken

set_option autoImplicit false

namespace CfProxy.AccessToken

open Machine

-- The row as the session has read it.
def Phase.copy : Phase → Option Row
  | .loaded copy | .missed copy _ | .locked copy _ | .refreshing copy _ _ | .awaiting copy _ _ _ | .granted copy _ _
  | .signingIn copy => some copy
  | _ => none

def Row.tokens (row : Row) : Option Issued × Option Issued := (row.accessToken, row.refreshToken)

def onLoaded {ι : Type} (s : Shared ι) (phase : Phase) (action : Action) : Bool :=
  match action, phase with
  | .commitLogin _ _, .signingIn loaded => s.row.credVersion = loaded.credVersion
  | _, _ => true

structure Fenced {ι : Type} (c : Config ι (Shared ι) Phase) (move : Move ι Action Unit)
    (after : Config ι (Shared ι) Phase) : Prop where
  rises : after.shared.row.tokens ≠ c.shared.row.tokens → c.shared.row.credVersion < after.shared.row.credVersion
  unwritten : ∀ p copy call renewal, move = .own p .update → c.procs p = .granted copy call renewal →
    after.shared.row ≠ c.shared.row → c.shared.row.edition = copy.edition

def Counted (first row : Row) : Prop := row.credVersion + first.edition = first.credVersion + row.edition

section Steps

variable {ι : Type} [DecidableEq ι] {skew : Int} {p : ι} {action : Action} {s after : Shared ι} {phase next : Phase}
  {first : Row}

theorem Step.copy (step : Step skew p action s phase after next) {copy : Row} (read : next.copy = some copy) :
    copy = s.row ∨ phase.copy = some copy := by
  cases step with
  | loaded => exact .inl (Option.some.inj read).symm
  | signingIn => exact .inl (Option.some.inj read).symm
  | missed => exact .inr read
  | locked => exact .inr read
  | expired => exact .inr read
  | presented => exact .inr read
  | granted => exact .inr read
  | _ => simp [Phase.copy] at read

theorem Step.row (step : Step skew p action s phase after next) (allowed : onLoaded s phase action = true) :
    after.row = s.row ∨ after.row.credVersion = s.row.credVersion + 1 ∧ after.row.edition = s.row.edition + 1 := by
  cases step with
  | updated same => exact .inr ⟨congrArg (· + 1) same.symm, rfl⟩
  | signedIn =>
    simp only [onLoaded, decide_eq_true_eq] at allowed
    exact .inr ⟨congrArg (· + 1) allowed.symm, rfl⟩
  | _ => exact .inl rfl

theorem Step.counted (step : Step skew p action s phase after next) (allowed : onLoaded s phase action = true)
    (counted : Counted first s.row) : Counted first after.row := by
  obtain same | ⟨version, edition⟩ := step.row allowed
  · rwa [same]
  · unfold Counted at counted ⊢
    omega

theorem Step.update_matched (step : Step skew p .update s phase after next) {copy : Row} {call : Call}
    {renewal : Renewal} (working : phase = .granted copy call renewal) (written : after.row ≠ s.row) :
    s.row.credVersion = copy.credVersion := by
  cases step with
  | updated same =>
    cases working
    exact same
  | fenced => exact absurd rfl written
  | left => exact absurd rfl written

end Steps

section Runs

variable {ι : Type} [DecidableEq ι] {skew : Int} {row : Row} {c after : Config ι (Shared ι) Phase}
  {move : Move ι Action Unit}

theorem reachable_counted (reached : (oauth skew row).system.Reachable (Interleaving.acting onLoaded) c) :
    Interleaving.Holds (fun s => Counted row s.row) (fun _ _ phase => ∀ copy, phase.copy = some copy → Counted row copy)
      c := by
  refine Interleaving.interference_free (oauth skew row) _ _ _ ?_ ?_ ?_ ?_ reached
  · rintro s rfl
    exact ⟨rfl, fun p copy read => by simp [oauth, Phase.copy] at read⟩
  · intro c p action s phase inv allowed acted
    refine ⟨(act_step acted).counted allowed inv.shared, fun copy read => ?_⟩
    obtain rfl | before := (act_step acted).copy read
    · exact inv.shared
    · exact inv.procs p copy before
  · exact fun c p action s phase other inv _ _ _ => inv.procs other
  · intro c event s inv _ lost
    obtain rfl := Option.some.inj lost
    exact ⟨inv.shared, inv.procs⟩

theorem stale_writers_fenced (reached : (oauth skew row).system.Reachable (Interleaving.acting onLoaded) c)
    (allowed : Interleaving.acting onLoaded c move) (stepped : (oauth skew row).system.step c move = some after) :
    Fenced c move after := by
  have counted := reachable_counted reached
  cases move with
  | env event =>
    obtain ⟨s, lost, rfl⟩ := Interleaving.step_env.mp stepped
    obtain rfl := Option.some.inj lost
    exact ⟨fun changed => absurd rfl changed, fun p copy call renewal own => by cases own⟩
  | own p action =>
    obtain ⟨s, phase, acted, rfl⟩ := Interleaving.step_own.mp stepped
    have step := act_step acted
    constructor
    · intro changed
      obtain same | ⟨version, -⟩ := step.row allowed
      · exact absurd (congrArg Row.tokens same) changed
      · dsimp only
        omega
    · rintro q copy call renewal ⟨rfl, rfl⟩ working written
      have version := step.update_matched working written
      have stored : Counted row c.shared.row := counted.shared
      have read := counted.procs p copy (by rw [working]; rfl)
      unfold Counted at stored read
      omega

end Runs

section Example

def firstRow : Row where
  accessToken := some ⟨"at-0".toList, 0⟩
  refreshToken := some ⟨"rt-0".toList, 0⟩
  tokenExpiresAt := none
  credVersion := 1

def firstStart : Config Bool (Shared Bool) Phase := ⟨{ row := firstRow }, fun _ => .idle⟩

theorem first_starts : (oauth 60 firstRow).system.init firstStart := ⟨rfl, fun _ => rfl⟩

def consent (value : String) : Tokens := ⟨some value.toList, some value.toList, some 3600⟩

def commits (p : Bool) (value : String) : Move Bool Action Unit := .own p (.commitLogin (consent value) 0)

-- A user logs in between the read of a refresh and its lock.

def refreshBegun : List (Move Bool Action Unit) := [.own false .load, .own false (.readCache true), .own true .signIn]

def refreshGranted : List (Move Bool Action Unit) := refreshBegun ++ [
  commits true "at-1", .own false .lock, .own false (.check 0), .own false .present,
  .own false (.answer ⟨some "at-9".toList, none, some 3600⟩)]

def grantedCopy : Phase → Option Row
  | .granted copy _ _ => some copy
  | _ => none

theorem grantedCopy_some {phase : Phase} {copy : Row} (shown : grantedCopy phase = some copy) :
    ∃ call renewal, phase = .granted copy call renewal := by
  unfold grantedCopy at shown
  split at shown
  · rw [← Option.some.inj shown]
    exact ⟨_, _, rfl⟩
  · cases shown

theorem login_fenced :
    (∃ (c after : Config Bool (Shared Bool) Phase) (move : Move Bool Action Unit),
      after.shared.row.tokens ≠ c.shared.row.tokens ∧ Fenced c move after) ∧
    ∃ c after : Config Bool (Shared Bool) Phase, (oauth 60 firstRow).system.step c (.own false .update) = some after ∧
      c.shared.row.credVersion = 2 ∧ grantedCopy (c.procs false) = some firstRow ∧ after.shared.row = c.shared.row := by
  constructor
  · have ran : (((oauth 60 firstRow).system.checked (Interleaving.acting onLoaded)).run firstStart refreshBegun).bind (fun c =>
          ((oauth 60 firstRow).system.step c (commits true "at-1")).map fun after =>
            (decide (Interleaving.acting onLoaded c (commits true "at-1")),
              decide (after.shared.row.tokens ≠ c.shared.row.tokens))) = some (true, true) := by
      decide +kernel
    obtain ⟨c, after, reached, stepped, shown⟩ := System.Reachable.of_step first_starts ran
    obtain ⟨allowed, changed⟩ := Prod.mk.inj shown
    exact ⟨c, after, _, by simpa using changed, stale_writers_fenced reached (by simpa using allowed) stepped⟩
  · have ran : (((oauth 60 firstRow).system.checked (Interleaving.acting onLoaded)).run firstStart refreshGranted).bind (fun c =>
          ((oauth 60 firstRow).system.step c (.own false .update)).map fun after =>
            (c.shared.row.credVersion, c.shared.row.edition, grantedCopy (c.procs false))) = some (2, 1, some firstRow) := by
      decide +kernel
    obtain ⟨c, after, reached, stepped, shown⟩ := System.Reachable.of_step first_starts ran
    simp only [Prod.mk.injEq] at shown
    obtain ⟨version, edition, granted⟩ := shown
    obtain ⟨call, renewal, working⟩ := grantedCopy_some granted
    have allowed : Interleaving.acting onLoaded c (.own false .update : Move Bool Action Unit) := rfl
    have fenced := stale_writers_fenced reached allowed stepped
    refine ⟨c, after, stepped, version, granted, ?_⟩
    by_contra written
    have current := fenced.unwritten false firstRow call renewal rfl working written
    rw [edition] at current
    cases current

theorem second_login_not_counted :
    ¬∀ (row : Row) (c after : Config Bool (Shared Bool) Phase) (move : Move Bool Action Unit),
      (oauth 60 row).system.Reachable System.unrestricted c → (oauth 60 row).system.step c move = some after →
      Fenced c move after := by
  intro always
  have ran : (((oauth 60 firstRow).system.checked fun _ _ => True).run firstStart
      [.own false .signIn, .own true .signIn, commits false "at-1"]).bind (fun c =>
        ((oauth 60 firstRow).system.step c (commits true "at-2")).map fun after =>
          (decide (after.shared.row.tokens ≠ c.shared.row.tokens),
            c.shared.row.credVersion, after.shared.row.credVersion)) = some (true, 2, 2) := by
    decide +kernel
  obtain ⟨c, after, reached, stepped, shown⟩ := System.Reachable.of_step first_starts ran
  simp only [Prod.mk.injEq, decide_eq_true_eq] at shown
  obtain ⟨changed, before, same⟩ := shown
  have rises := (always _ _ _ _ (reached.mono fun _ _ _ => trivial) stepped).rises changed
  omega

end Example

end CfProxy.AccessToken
