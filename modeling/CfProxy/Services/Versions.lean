import CfProxy.Auth.Authentication
import CfProxy.Services.TokenRows

set_option autoImplicit false

namespace CfProxy.TokenPlane

open Scope Models Cache Crypto Machine

def Action.commits : Action → Bool
  | .rotateCommit _ | .revokeCommit _ | .deleteCommit _ => true
  | _ => false

def onVersion (s : Shared) (phase : Phase) (action : Action) : Bool :=
  decide (action.commits = true → ∀ token ∈ phase.held, ∀ row ∈ s.db.tokens, row.id = token.id →
    row.version = token.version)

structure Bumped (tokenId : Str) (s later : Shared) : Prop where
  present : ∃ row ∈ later.db.tokens, row.id = tokenId
  counted : ∀ before ∈ s.db.tokens, before.id = tokenId → ∀ row ∈ later.db.tokens, row.id = tokenId →
    before.version ≤ row.version ∧
      row.version + bumps tokenId s.history = before.version + bumps tokenId later.history

section Steps

variable {settings : Settings} {action : Action} {phase next : Phase} {s after : Shared} {added : List Change}
  {row later : ScopedToken}

theorem bumps_once {tokens : List ScopedToken} {token : ScopedToken} (distinct : (tokens.map (·.id)).Nodup)
    (member : token ∈ tokens) : bumps token.id (tokens.map fun token => Change.revoked token.id) = 1 := by
  have counted : bumps token.id (tokens.map fun token => Change.revoked token.id) = (tokens.map (·.id)).count token.id := by
    simp [bumps, List.count, List.countP_map, Function.comp_def, Change.bumps, beq_eq_decide]
  rw [counted, List.count_eq_one_of_mem distinct (List.mem_map_of_mem member)]

theorem Rewrite.version (rewrite : Rewrite settings action phase added row later) (member : row ∈ s.db.tokens)
    (distinct : (phase.held.map (·.id)).Nodup) (allowed : onVersion s phase action = true) :
    later.version = row.version + bumps row.id added := by
  have loaded := of_decide_eq_true allowed
  cases rewrite with
  | kept apart => rw [apart, Nat.add_zero]
  | @rotated generated token _ same =>
    have version := loaded rfl token (by simp [Phase.held]) row member same
    simp [rotateRow, version, bumps, Change.bumps, same]
  | @revoked now token _ same =>
    have version := loaded rfl token (by simp [Phase.held]) row member same
    simp [revokeRow, version, bumps, Change.bumps, same]
  | @cascaded now credentialId tokens token _ held same =>
    have version := loaded rfl token held row member same
    have once : bumps token.id (tokens.map fun token => .revoked token.id) = 1 := bumps_once distinct held
    rw [same, once]
    simp [revokeRow, version]

theorem bumps_append (tokenId : Str) (added history : List Change) :
    bumps tokenId (added ++ history) = bumps tokenId added + bumps tokenId history := List.countP_append

end Steps

section Runs

variable {ι : Type} [DecidableEq ι] {settings : Settings} {c c' after : Config ι Shared Phase} {tokenId : Str}
  {move : Move ι Action Str}

theorem Bumped.step (bumped : Bumped tokenId c.shared c'.shared) (inv : Distinct c')
    (allowed : Interleaving.acting onVersion c' move)
    (stepped : (plane ι settings).system.step c' move = some after) : Bumped tokenId c.shared after.shared := by
  obtain ⟨p, action, rfl, step, -⟩ | ⟨db, history, -⟩ := plane_step stepped
  · obtain ⟨added, rewrite, new, rewrites⟩ := step.rewrites
    obtain ⟨row, member, id⟩ := bumped.present
    obtain ⟨kept, keptId⟩ := rewrites.kept member
    refine ⟨⟨_, kept, keptId.trans id⟩, fun before beforeMember beforeId later laterMember laterId => ?_⟩
    obtain rfl := rewrites.unique inv.ids member laterMember (laterId.trans id.symm)
    obtain ⟨risen, counted⟩ := bumped.counted before beforeMember beforeId row member id
    have version := (rewrites.rows row).version member (inv.held p) allowed
    rw [id] at version
    rw [rewrites.history, bumps_append]
    constructor <;> omega
  · exact ⟨db ▸ bumped.present, by rw [db, history]; exact bumped.counted⟩

theorem no_bump_lost (reached : (plane ι settings).system.Reachable System.unrestricted c)
    (leads : (plane ι settings).system.Leads (Interleaving.acting onVersion) c c')
    (known : ∃ row ∈ c.shared.db.tokens, row.id = tokenId) : Bumped tokenId c.shared c'.shared := by
  have distinct := reachable_distinct reached
  refine leads.invariant Distinct (fun c' => Bumped tokenId c.shared c'.shared) ?_ ?_ ?_
  · intro state before
    exact reachable_distinct (reached.leads (before.mono fun _ _ _ => trivial))
  · refine ⟨known, fun before member id row rowMember rowId => ?_⟩
    obtain rfl := List.inj_on_of_nodup_map distinct.ids member rowMember (id.trans rowId.symm)
    exact ⟨Nat.le_refl _, rfl⟩
  · exact fun state move after inv bumped allowed stepped => bumped.step inv allowed stepped

end Runs

section Example

def redrawn (first second : Char) (known : first ∈ tokenAlphabet ∧ second ∈ tokenAlphabet) : Generated where
  lookupId := List.replicate 16 first
  secret := List.replicate 40 second
  lookupId_length := rfl
  secret_length := rfl
  lookupId_drawn _ member := (List.eq_of_mem_replicate member) ▸ known.1
  secret_drawn _ member := (List.eq_of_mem_replicate member) ▸ known.2

def minted : List (Move Nat Action Str) := prepared ++ [.own 1 (.mintCommit ['t'] issued)]

def rotateBy (p : Nat) (drawn : Generated) : List (Move Nat Action Str) :=
  [.own p (.rotate ['u'] ['t']), .own p (.rotateCommit drawn)]

def firstDraw : Generated := redrawn 'C' 'D' (by decide)
def secondDraw : Generated := redrawn 'E' 'F' (by decide)

theorem nothing_starts : (plane Nat plain).system.init nothing := ⟨⟨⟨true, rfl⟩, rfl, rfl⟩, fun _ => rfl⟩

def versionOf (s : Shared) : Option Nat := (s.db.tokens.find? (·.id == ['t'])).map (·.version)

theorem rotations_counted : ∃ c c' : Config Nat Shared Phase, versionOf c.shared = some 1 ∧
    versionOf c'.shared = some 3 ∧ Bumped ['t'] c.shared c'.shared := by
  have ran : (((plane Nat plain).system.checked fun _ _ => True).run nothing minted).bind (fun c =>
      (((plane Nat plain).system.checked (Interleaving.acting onVersion)).run c
        (rotateBy 2 firstDraw ++ rotateBy 3 secondDraw)).map fun c' => (versionOf c.shared, versionOf c'.shared)) =
          some (some 1, some 3) := by
    decide +kernel
  obtain ⟨c, c', reached, leads, shown⟩ := System.Leads.of_run nothing_starts ran
  obtain ⟨first, last⟩ := Prod.mk.inj shown
  refine ⟨c, c', first, last, no_bump_lost (reached.mono fun _ _ _ => trivial) leads ?_⟩
  obtain ⟨row, found, -⟩ := Option.map_eq_some_iff.mp first
  exact ⟨row, List.mem_of_find?_eq_some found, by simpa using List.find?_some found⟩

theorem bump_lost :
    ¬∀ (c c' : Config Nat Shared Phase) (tokenId : Str), (plane Nat plain).system.Reachable System.unrestricted c →
      (plane Nat plain).system.Leads System.unrestricted c c' → (∃ row ∈ c.shared.db.tokens, row.id = tokenId) →
      Bumped tokenId c.shared c'.shared := by
  intro always
  have ran : (((plane Nat plain).system.checked fun _ _ => True).run nothing minted).bind (fun c =>
      (((plane Nat plain).system.checked fun _ _ => True).run c
        [.own 2 (.rotate ['u'] ['t']), .own 3 (.rotate ['u'] ['t']), .own 2 (.rotateCommit firstDraw),
          .own 3 (.rotateCommit secondDraw)]).map fun c' =>
            (versionOf c.shared, versionOf c'.shared, bumps ['t'] c.shared.history, bumps ['t'] c'.shared.history)) =
              some (some 1, some 2, 0, 2) := by
    decide +kernel
  obtain ⟨c, c', reached, leads, shown⟩ := System.Leads.of_run nothing_starts ran
  simp only [Prod.mk.injEq] at shown
  obtain ⟨first, last, none, two⟩ := shown
  obtain ⟨before, beforeFound, beforeVersion⟩ := Option.map_eq_some_iff.mp first
  obtain ⟨row, rowFound, rowVersion⟩ := Option.map_eq_some_iff.mp last
  have beforeId : before.id = ['t'] := by simpa using List.find?_some beforeFound
  have rowId : row.id = ['t'] := by simpa using List.find?_some rowFound
  have beforeMember := List.mem_of_find?_eq_some beforeFound
  have counted := (always c c' ['t'] (reached.mono fun _ _ _ => trivial) (leads.mono fun _ _ _ => trivial)
    ⟨before, beforeMember, beforeId⟩).counted before beforeMember beforeId row (List.mem_of_find?_eq_some rowFound) rowId
  omega

end Example

end CfProxy.TokenPlane
