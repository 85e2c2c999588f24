import CfProxy.Auth.Resolution

set_option autoImplicit false

namespace CfProxy.TokenPlane

open Scope Models Cache Crypto Machine

-- The rows that a request is going to rewrite, as it has loaded them.
def Phase.held : Phase → List ScopedToken
  | .rotating token | .revoking token => [token]
  | .cascading _ tokens _ => tokens
  | _ => []

def Change.bumps (tokenId : Str) (change : Change) : Bool :=
  match change with
  | .minted _ _ _ => false
  | .rotated id _ | .revoked id => id = tokenId

def bumps (tokenId : Str) (history : List Change) : Nat := history.countP (·.bumps tokenId)

inductive Rewrite (settings : Settings) : Action → Phase → List Change → ScopedToken → ScopedToken → Prop
  | kept {action : Action} {phase : Phase} {added : List Change} {row : ScopedToken} (apart : bumps row.id added = 0) :
      Rewrite settings action phase added row row
  | rotated {generated : Generated} {token row : ScopedToken} (same : row.id = token.id) :
      Rewrite settings (.rotateCommit generated) (.rotating token) [.rotated token.id generated] row
        (rotateRow settings token generated row)
  | revoked {now : Datetime} {token row : ScopedToken} (same : row.id = token.id) :
      Rewrite settings (.revokeCommit now) (.revoking token) [.revoked token.id] row (revokeRow token now row)
  | cascaded {now : Datetime} {credentialId : Str} {tokens : List ScopedToken} {token row : ScopedToken}
      (loaded : token ∈ tokens) (same : row.id = token.id) :
      Rewrite settings (.deleteCommit now) (.cascading credentialId tokens [])
        (tokens.map fun token => .revoked token.id) row (revokeRow token now row)

structure Rewrites (settings : Settings) (action : Action) (phase : Phase) (s after : Shared) (added : List Change)
    (rewrite : ScopedToken → ScopedToken) (new : List ScopedToken) : Prop where
  history : after.history = added ++ s.history
  tokens : after.db.tokens = s.db.tokens.map rewrite ++ new
  rows : ∀ row, Rewrite settings action phase added row (rewrite row)
  distinct : (new.map (·.id)).Nodup
  apart : ∀ row ∈ s.db.tokens, ∀ later ∈ new, row.id ≠ later.id

section

variable {settings : Settings} {action : Action} {phase next : Phase} {s after : Shared} {added : List Change}

theorem Rewrite.id {row later : ScopedToken} (rewrite : Rewrite settings action phase added row later) :
    later.id = row.id := by
  cases rewrite <;> rfl

theorem Rewrites.none (tokens : after.db.tokens = s.db.tokens) (history : after.history = s.history) :
    Rewrites settings action phase s after [] (fun row => row) [] :=
  ⟨history, by simp [tokens], fun _ => .kept rfl, by simp, by simp⟩

theorem bumps_cascade {tokens : List ScopedToken} {row : ScopedToken} (apart : ∀ token ∈ tokens, token.id ≠ row.id) :
    bumps row.id (tokens.map fun token => Change.revoked token.id) = 0 := by
  simpa [bumps, List.countP_eq_zero, Change.bumps] using apart

theorem Step.rewrites (step : Step settings action s phase after next) :
    ∃ added rewrite new, Rewrites settings action phase s after added rewrite new := by
  cases step with
  | registered inserted =>
    unfold Database.insertCredential at inserted
    split at inserted
    · simp at inserted
    · obtain rfl := Except.ok.inj inserted
      exact ⟨_, _, _, .none rfl rfl⟩
  | @minted tokenId generated order s db inserted =>
    obtain ⟨apart, tokens, -⟩ := insertToken_ok inserted
    refine ⟨[_], fun row => row, _, rfl, by simpa using tokens, fun _ => .kept rfl, by simp, ?_⟩
    intro row member later isNew
    obtain rfl := List.mem_singleton.mp isNew
    exact (apart row member).1
  | @rotated generated token s db updated =>
    obtain ⟨tokens, -, -⟩ := updateToken_ok updated
    refine ⟨[_], _, [], rfl, by simpa using tokens, fun row => ?_, by simp, by simp⟩
    by_cases same : row.id = token.id
    · simpa [same] using Rewrite.rotated same
    · rw [if_neg same]
      exact .kept (by simpa [bumps, Change.bumps] using Ne.symm same)
  | @revoked now token s db updated =>
    obtain ⟨tokens, -, -⟩ := updateToken_ok updated
    refine ⟨[_], _, [], rfl, by simpa using tokens, fun row => ?_, by simp, by simp⟩
    by_cases same : row.id = token.id
    · simpa [same] using Rewrite.revoked same
    · rw [if_neg same]
      exact .kept (by simpa [bumps, Change.bumps] using Ne.symm same)
  | @deleted now credentialId tokens s db cascade =>
    obtain ⟨rewritten, -, -, -⟩ := cascadeDelete_ok cascade
    refine ⟨_, cascadeRow tokens now, [], rfl, by simpa using rewritten, fun row => ?_, by simp, by simp⟩
    unfold cascadeRow
    split
    · next token found =>
      have same : token.id = row.id := by simpa using List.find?_some found
      exact .cascaded (List.mem_of_find?_eq_some found) same.symm
    · next missing => exact .kept (bumps_cascade (by simpa using missing))
  | uncached => exact ⟨_, _, _, .none (by simp) (by simp)⟩
  | cascaded => exact ⟨_, _, _, .none (by simp) (by simp)⟩
  | filled =>
    refine ⟨_, _, _, .none ?_ (by simp)⟩
    unfold Shared.fill
    split <;> rfl
  | _ => exact ⟨_, _, _, .none rfl rfl⟩

variable {rewrite : ScopedToken → ScopedToken} {new : List ScopedToken} {row later : ScopedToken}

theorem Rewrites.kept (rewrites : Rewrites settings action phase s after added rewrite new)
    (member : row ∈ s.db.tokens) : rewrite row ∈ after.db.tokens ∧ (rewrite row).id = row.id := by
  rw [rewrites.tokens]
  exact ⟨List.mem_append_left _ (List.mem_map_of_mem member), (rewrites.rows row).id⟩

theorem Rewrites.unique (rewrites : Rewrites settings action phase s after added rewrite new)
    (ids : (s.db.tokens.map (·.id)).Nodup) (member : row ∈ s.db.tokens) (present : later ∈ after.db.tokens)
    (same : later.id = row.id) : later = rewrite row := by
  rw [rewrites.tokens, List.mem_append] at present
  rcases present with old | isNew
  · obtain ⟨other, otherMember, rfl⟩ := List.mem_map.mp old
    rw [(rewrites.rows other).id] at same
    rw [List.inj_on_of_nodup_map ids otherMember member same]
  · exact absurd same.symm (rewrites.apart row member later isNew)

theorem Rewrites.ids (rewrites : Rewrites settings action phase s after added rewrite new)
    (ids : (s.db.tokens.map (·.id)).Nodup) : (after.db.tokens.map (·.id)).Nodup := by
  have same : (s.db.tokens.map rewrite).map (·.id) = s.db.tokens.map (·.id) := by
    rw [List.map_map]
    exact List.map_congr_left fun row _ => (rewrites.rows row).id
  rw [rewrites.tokens, List.map_append, same, List.nodup_append]
  refine ⟨ids, rewrites.distinct, fun id member other isNew => ?_⟩
  obtain ⟨row, rowMember, rfl⟩ := List.mem_map.mp member
  obtain ⟨later, laterNew, rfl⟩ := List.mem_map.mp isNew
  exact rewrites.apart row rowMember later laterNew

theorem Step.held (step : Step settings action s phase after next) (ids : (s.db.tokens.map (·.id)).Nodup)
    (distinct : (phase.held.map (·.id)).Nodup) : (next.held.map (·.id)).Nodup := by
  cases step with
  | rotating => exact List.nodup_singleton _
  | revoking => exact List.nodup_singleton _
  | selected => exact ids.sublist (List.filter_sublist.map _)
  | cascaded => exact distinct
  | _ => exact List.nodup_nil

end

section Runs

variable {ι : Type} [DecidableEq ι] {settings : Settings} {c c' : Config ι Shared Phase}

structure Distinct (c : Config ι Shared Phase) : Prop where
  ids : (c.shared.db.tokens.map (·.id)).Nodup
  held : ∀ p, ((c.procs p).held.map (·.id)).Nodup

theorem reachable_distinct (reached : (plane ι settings).system.Reachable System.unrestricted c) : Distinct c := by
  have holds := Interleaving.interference_free (plane ι settings) System.unrestricted
    (fun s => (s.db.tokens.map (·.id)).Nodup) (fun _ _ phase => (phase.held.map (·.id)).Nodup) ?_ ?_ ?_ ?_ reached
  · exact ⟨holds.shared, holds.procs⟩
  · rintro s ⟨⟨foreignKeys, db⟩, -, -⟩
    exact ⟨by simp [db, Database.empty], fun _ => List.nodup_nil⟩
  · intro c p action s phase inv _ acted
    have step := act_step acted
    obtain ⟨added, rewrite, new, rewrites⟩ := step.rewrites
    exact ⟨rewrites.ids inv.shared, step.held inv.shared (inv.procs p)⟩
  · exact fun c p action s phase other inv _ _ _ => inv.procs other
  · intro c key s inv _ lost
    obtain rfl := Option.some.inj lost
    exact ⟨by simpa using inv.shared, inv.procs⟩

theorem plane_step {move : Move ι Action Str} (stepped : (plane ι settings).system.step c move = some c') :
    (∃ p action, move = .own p action ∧ Step settings action c.shared (c.procs p) c'.shared (c'.procs p) ∧
      ∀ q, q ≠ p → c'.procs q = c.procs q) ∨
    c'.shared.db = c.shared.db ∧ c'.shared.history = c.shared.history ∧ c'.procs = c.procs := by
  cases move with
  | own p action =>
    obtain ⟨s, phase, acted, rfl⟩ := Interleaving.step_own.mp stepped
    exact .inl ⟨p, action, rfl, by simpa using act_step acted, fun q other => by simp [other]⟩
  | env key =>
    obtain ⟨s, lost, rfl⟩ := Interleaving.step_env.mp stepped
    obtain rfl := Option.some.inj lost
    exact .inr (by simp)

end Runs

end CfProxy.TokenPlane
