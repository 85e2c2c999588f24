import CfProxy.Services.Versions

set_option autoImplicit false

namespace CfProxy.TokenPlane

open Scope Models Cache Crypto Machine

-- The token that a rotation hands out anew, or that a request resolves.
def Phase.serves : Phase → Option Str
  | .rotating token | .verified _ token | .authenticated _ token _ | .missed _ token _ => some token.id
  | .loaded _ context | .resolved _ (.ok (some context)) => some context.token.id
  | _ => none

def stillActive (db : Database) (tokenId : Str) : Bool :=
  db.tokens.all fun row => decide (row.id = tokenId → row.status = .active)

def unrevoked (s : Shared) (phase : Phase) (action : Action) : Bool :=
  match action with
  | .rotate userId tokenId => (s.db.ownedToken userId tokenId).all (·.status = .active)
  | .revokeCommit _ | .deleteCommit _ => phase.held.all fun token => stillActive s.db token.id
  | _ => true

structure Terminal {ι : Type} (tokenId : Str) (c later : Config ι Shared Phase) : Prop where
  present : ∃ row ∈ later.shared.db.tokens, row.id = tokenId
  kept : ∀ before ∈ c.shared.db.tokens, before.id = tokenId → ∀ row ∈ later.shared.db.tokens, row.id = tokenId →
    row.status = .revoked ∧ row.revokedAt = before.revokedAt
  refused : ∀ p, (c.procs p).serves ≠ some tokenId → (later.procs p).serves ≠ some tokenId

section Steps

variable {settings : Settings} {action : Action} {phase next : Phase} {s after : Shared} {added : List Change}
  {row later : ScopedToken} {tokenId : Str}

theorem Rewrite.revoked_kept (rewrite : Rewrite settings action phase added row later) (member : row ∈ s.db.tokens)
    (revoked : row.status = .revoked) (allowed : unrevoked s phase action = true) :
    later.status = .revoked ∧ later.revokedAt = row.revokedAt := by
  have active : ∀ token, stillActive s.db token = true → row.id ≠ token := by
    rintro token still rfl
    have kept := of_decide_eq_true (List.all_eq_true.mp still row member) rfl
    simp [revoked] at kept
  cases rewrite with
  | kept => exact ⟨revoked, rfl⟩
  | rotated => exact ⟨revoked, rfl⟩
  | @revoked _ token _ same => exact absurd same (active _ (List.all_eq_true.mp allowed token (by simp [Phase.held])))
  | @cascaded _ _ tokens token _ held same => exact absurd same (active _ (List.all_eq_true.mp allowed token held))

theorem Step.serves (step : Step settings action s phase after next) (allowed : unrevoked s phase action = true)
    (serves : next.serves = some tokenId) :
    phase.serves = some tokenId ∨ ∃ row ∈ s.db.tokens, row.id = tokenId ∧ row.status = .active := by
  cases step with
  | @rotating userId id token s found =>
    have active : token.status = .active := by simpa [unrevoked, found] using allowed
    exact .inr ⟨token, List.mem_of_find?_eq_some found, Option.some.inj serves, active⟩
  | checked passed =>
    obtain ⟨member, -, active⟩ := checkToken_some passed
    exact .inr ⟨_, member, Option.some.inj serves, active⟩
  | @refused now seen s answer failed empty =>
    cases answer with
    | error raised => simp [Phase.serves] at serves
    | ok context =>
      cases context with
      | none => simp [Phase.serves] at serves
      | some context => exact absurd rfl (empty context)
  | bound => exact .inl serves
  | @hit works seen token credential cached s entry =>
    refine .inl ?_
    cases decoded : rulesFromCache cached with
    | error raised => simp [Phase.serves, decoded] at serves
    | ok rules => simpa [Phase.serves, decoded] using serves
  | missed => exact .inl serves
  | loaded => exact .inl serves
  | filled => exact .inl serves
  | _ => simp [Phase.serves] at serves

end Steps

section Runs

variable {ι : Type} [DecidableEq ι] {settings : Settings} {c c' after : Config ι Shared Phase} {tokenId : Str}
  {move : Move ι Action Str}

theorem Terminal.step (known : ∃ before ∈ c.shared.db.tokens, before.id = tokenId)
    (terminal : Terminal tokenId c c') (inv : Distinct c') (allowed : Interleaving.acting unrevoked c' move)
    (stepped : (plane ι settings).system.step c' move = some after) : Terminal tokenId c after := by
  obtain ⟨before, beforeMember, beforeId⟩ := known
  obtain ⟨row, member, id⟩ := terminal.present
  obtain ⟨p, action, rfl, step, others⟩ | ⟨db, -, procs⟩ := plane_step stepped
  · obtain ⟨added, rewrite, new, rewrites⟩ := step.rewrites
    obtain ⟨kept, keptId⟩ := rewrites.kept member
    refine ⟨⟨_, kept, keptId.trans id⟩, ?_, ?_⟩
    · intro first firstMember firstId later laterMember laterId
      obtain rfl := rewrites.unique inv.ids member laterMember (laterId.trans id.symm)
      obtain ⟨revoked, since⟩ := terminal.kept first firstMember firstId row member id
      obtain ⟨still, same⟩ := (rewrites.rows row).revoked_kept member revoked allowed
      exact ⟨still, same.trans since⟩
    · intro q apart serves
      by_cases mine : q = p
      · subst mine
        obtain already | ⟨active, activeMember, activeId, status⟩ := step.serves allowed serves
        · exact terminal.refused q apart already
        · obtain ⟨revoked, -⟩ := terminal.kept before beforeMember beforeId active activeMember activeId
          simp [status] at revoked
      · exact terminal.refused q apart (others q mine ▸ serves)
  · exact ⟨db ▸ terminal.present, db ▸ terminal.kept, procs ▸ terminal.refused⟩

theorem revocation_terminal (reached : (plane ι settings).system.Reachable System.unrestricted c)
    (revoked : ∃ row ∈ c.shared.db.tokens, row.id = tokenId ∧ row.status = .revoked)
    (leads : (plane ι settings).system.Leads (Interleaving.acting unrevoked) c c') : Terminal tokenId c c' := by
  obtain ⟨row, member, id, status⟩ := revoked
  have distinct := reachable_distinct reached
  refine leads.invariant Distinct (Terminal tokenId c) ?_ ?_ ?_
  · intro state before
    exact reachable_distinct (reached.leads (before.mono fun _ _ _ => trivial))
  · refine ⟨⟨row, member, id⟩, fun before beforeMember beforeId later laterMember laterId => ?_, fun _ apart => apart⟩
    obtain rfl := List.inj_on_of_nodup_map distinct.ids member laterMember (id.trans laterId.symm)
    obtain rfl := List.inj_on_of_nodup_map distinct.ids member beforeMember (id.trans beforeId.symm)
    exact ⟨status, rfl⟩
  · exact fun state move after inv terminal allowed stepped =>
      terminal.step ⟨row, member, id⟩ inv allowed stepped

end Runs

section Example

def revoked : List (Move Nat Action Str) := minted ++ [.own 4 (.revoke ['u'] ['t']), .own 4 (.revokeCommit (.utc 0))]

def isRevoked (s : Shared) : Bool := s.db.tokens.any fun row => row.id == ['t'] && decide (row.status = .revoked)

theorem isRevoked_row {s : Shared} (shown : isRevoked s = true) :
    ∃ row ∈ s.db.tokens, row.id = ['t'] ∧ row.status = .revoked := by
  obtain ⟨row, member, shown⟩ := List.any_eq_true.mp shown
  exact ⟨row, member, by simpa using shown⟩

def answered : Phase → Bool
  | .resolved _ _ => true
  | _ => false

theorem answered_eq {phase : Phase} (resolved : answered phase = true) : ∃ seen answer, phase = .resolved seen answer := by
  cases phase with
  | resolved seen answer => exact ⟨seen, answer, rfl⟩
  | _ => cases resolved

-- A rotation of the token has begun when the token is revoked; afterwards it commits, another token is rotated and
-- revoked, and the token is presented.

def secondMinted : List (Move Nat Action Str) := minted ++ [
  .own 6 (.mint (fun _ => .ok []) order), .own 6 (.mintCommit ['s'] firstDraw), .own 7 (.rotate ['u'] ['t']),
  .own 4 (.revoke ['u'] ['t']), .own 4 (.revokeCommit (.utc 0))]

def othersServed : List (Move Nat Action Str) := [
  .own 7 (.rotateCommit secondDraw), .own 8 (.rotate ['u'] ['s']), .own 8 (.rotateCommit (redrawn 'G' 'H' (by decide))),
  .own 9 (.revoke ['u'] ['s']), .own 9 (.revokeCommit (.utc 1)),
  .own 2 (.present (secondDraw.full brand)), .own 2 (.readToken (.utc 2))]

theorem revoked_stays : ∃ c c' : Config Nat Shared Phase, isRevoked c.shared = true ∧ versionOf c'.shared = some 2 ∧
    (∃ seen answer, c'.procs 2 = .resolved seen answer) ∧ Terminal ['t'] c c' := by
  have ran : (((plane Nat plain).system.checked fun _ _ => True).run nothing secondMinted).bind (fun c =>
      (((plane Nat plain).system.checked (Interleaving.acting unrevoked)).run c othersServed).map fun c' =>
        (isRevoked c.shared, versionOf c'.shared, answered (c'.procs 2))) = some (true, some 2, true) := by
    decide +kernel
  obtain ⟨c, c', reached, leads, shown⟩ := System.Leads.of_run nothing_starts ran
  simp only [Prod.mk.injEq] at shown
  obtain ⟨gone, version, resolved⟩ := shown
  exact ⟨c, c', gone, version, answered_eq resolved,
    revocation_terminal (reached.mono fun _ _ _ => trivial) (isRevoked_row gone) leads⟩

def revokedAtOf (s : Shared) : Option (Option Datetime) := (s.db.tokens.find? (·.id == ['t'])).map (·.revokedAt)

theorem revokedAtOf_row {s : Shared} {instant : Option Datetime} (shown : revokedAtOf s = some instant) :
    ∃ row ∈ s.db.tokens, row.id = ['t'] ∧ row.revokedAt = instant := by
  obtain ⟨row, found, shown⟩ := Option.map_eq_some_iff.mp shown
  exact ⟨row, List.mem_of_find?_eq_some found, by simpa using List.find?_some found, shown⟩

theorem revoked_again :
    ¬∀ (c c' : Config Nat Shared Phase) (tokenId : Str), (plane Nat plain).system.Reachable System.unrestricted c →
      (∃ row ∈ c.shared.db.tokens, row.id = tokenId ∧ row.status = .revoked) →
      (plane Nat plain).system.Leads System.unrestricted c c' → Terminal tokenId c c' := by
  intro always
  have ran : (((plane Nat plain).system.checked fun _ _ => True).run nothing revoked).bind (fun c =>
      (((plane Nat plain).system.checked fun _ _ => True).run c
        [.own 5 (.revoke ['u'] ['t']), .own 5 (.revokeCommit (.utc 1))]).map fun c' =>
          (isRevoked c.shared, revokedAtOf c.shared, revokedAtOf c'.shared)) =
            some (true, some (some (.utc 0)), some (some (.utc 1))) := by
    decide +kernel
  obtain ⟨c, c', reached, leads, shown⟩ := System.Leads.of_run nothing_starts ran
  simp only [Prod.mk.injEq] at shown
  obtain ⟨gone, first, second⟩ := shown
  have terminal := always c c' ['t'] (reached.mono fun _ _ _ => trivial) (isRevoked_row gone)
    (leads.mono fun _ _ _ => trivial)
  obtain ⟨before, beforeMember, beforeId, since⟩ := revokedAtOf_row first
  obtain ⟨row, member, id, moved⟩ := revokedAtOf_row second
  obtain ⟨-, same⟩ := terminal.kept before beforeMember beforeId row member id
  rw [since, moved] at same
  exact absurd same (by decide)

end Example

end CfProxy.TokenPlane
