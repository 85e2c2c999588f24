import CfProxy.Auth.Authentication

set_option autoImplicit false

namespace CfProxy.TokenPlane

open Scope Models Cache Crypto Machine

def uncacheAll (works : List Str → Bool) (s : Shared) (batches : List (List Str)) : Shared :=
  batches.foldl (fun s keys => s.uncache (works keys) keys) s

-- `delete_credential` with no other request in between; `works` says which cache deletions get through.
def deleteCredential (works : List Str → Bool) (s : Shared) (userId credentialId : Str) (now : Datetime) :
    Shared × Except PyError Unit :=
  match s.db.ownedCredential userId credentialId with
  | none => (s, .error notFound)
  | some _ =>
    let tokens := s.db.activeTokens credentialId
    let s := uncacheAll works s (cascadeKeys credentialId tokens)
    match cascadeDelete s.db credentialId tokens now with
    | .ok db => ({ s with db, history := tokens.map (fun token => .revoked token.id) ++ s.history }, .ok ())
    | .error raised => (s, .error raised)

def Resolves (settings : Settings) (db : Database) (presented : Str) (now : Datetime) (token : ScopedToken) : Prop :=
  checkToken settings db presented now = .ok (some token) ∧ (db.credential token.upstreamCredentialId).isSome

structure Deletes (settings : Settings) (s : Shared) (result : Shared × Except PyError Unit) (credentialId : Str) :
    Prop where
  commits : result.2 = .ok ()
  gone : ∀ row ∈ result.1.db.credentials, row.id ≠ credentialId
  revoked : ∀ row ∈ s.db.tokens, row.upstreamCredentialId = credentialId → row.status = .active →
    ∃ after ∈ result.1.db.tokens, after.id = row.id ∧ after.status = .revoked ∧ after.version = row.version + 1
  unresolvable : ∀ presented now token, Resolves settings result.1.db presented now token →
    token.upstreamCredentialId ≠ credentialId
  untouched : ∀ raised, result.2 = .error raised →
    result.1.db.tokens = s.db.tokens ∧ result.1.db.credentials = s.db.credentials ∧ result.1.cache = s.cache

@[simp] theorem uncacheAll_db (works : List Str → Bool) (s : Shared) (batches : List (List Str)) :
    (uncacheAll works s batches).db = s.db := by
  induction batches generalizing s with
  | nil => rfl
  | cons keys later ih => simpa [uncacheAll] using ih (s.uncache (works keys) keys)

@[simp] theorem uncacheAll_history (works : List Str → Bool) (s : Shared) (batches : List (List Str)) :
    (uncacheAll works s batches).history = s.history := by
  induction batches generalizing s with
  | nil => rfl
  | cons keys later ih => simpa [uncacheAll] using ih (s.uncache (works keys) keys)

def Referenced (db : Database) (credentialId : Str) : Prop :=
  ∃ row ∈ db.tokens, row.upstreamCredentialId = credentialId

section

variable {settings : Settings} {works : List Str → Bool} {s : Shared} {userId credentialId : Str} {now : Datetime}

theorem cascadeDelete_referenced {db : Database} {loaded : List ScopedToken} (enforced : db.foreignKeys = true)
    (referenced : Referenced db credentialId) :
    cascadeDelete db credentialId loaded now = .error integrityError := by
  obtain ⟨row, member, bound⟩ := referenced
  have still : db.tokens.any ((·.upstreamCredentialId == credentialId) ∘ cascadeRow loaded now) = true :=
    List.any_eq_true.mpr ⟨row, member, by simpa using bound⟩
  simp only [cascadeDelete, Database.deleteCredential, enforced, List.any_map, still, Bool.and_self, if_true]

theorem cascadeDelete_free {db : Database} (loaded : List ScopedToken) (now : Datetime)
    (free : db.foreignKeys = true → ¬Referenced db credentialId) :
    ∃ after, cascadeDelete db credentialId loaded now = .ok after := by
  cases cascade : cascadeDelete db credentialId loaded now with
  | ok after => exact ⟨after, rfl⟩
  | error raised =>
    unfold cascadeDelete Database.deleteCredential at cascade
    split at cascade
    · next blocked =>
      obtain ⟨enforced, still⟩ := Bool.and_eq_true_iff.mp blocked
      rw [List.any_map] at still
      obtain ⟨row, member, bound⟩ := List.any_eq_true.mp still
      exact absurd ⟨row, member, by simpa using bound⟩ (free enforced)
    · simp at cascade

theorem deleteCredential_refused (owned : (s.db.ownedCredential userId credentialId).isSome)
    (enforced : s.db.foreignKeys = true) (referenced : Referenced s.db credentialId) :
    deleteCredential works s userId credentialId now =
      (uncacheAll works s (cascadeKeys credentialId (s.db.activeTokens credentialId)), .error integrityError) := by
  obtain ⟨credential, found⟩ := Option.isSome_iff_exists.mp owned
  simp [deleteCredential, found, cascadeDelete_referenced enforced referenced]

theorem cascadeRow_active (ids : (s.db.tokens.map (·.id)).Nodup) {row : ScopedToken} (member : row ∈ s.db.tokens)
    (bound : row.upstreamCredentialId = credentialId) (active : row.status = .active) (now : Datetime) :
    cascadeRow (s.db.activeTokens credentialId) now row = revokeRow row now row := by
  have distinct : ((s.db.activeTokens credentialId).map (·.id)).Nodup :=
    (List.filter_sublist.map _).nodup ids
  have selected : row ∈ s.db.activeTokens credentialId := List.mem_filter.mpr ⟨member, by simp [bound, active]⟩
  unfold cascadeRow
  rw [find?_unique distinct selected]

theorem cascadeRow_revoked {row : ScopedToken} (ids : (s.db.tokens.map (·.id)).Nodup) (member : row ∈ s.db.tokens)
    (bound : row.upstreamCredentialId = credentialId) :
    (cascadeRow (s.db.activeTokens credentialId) now row).status = .revoked := by
  cases kind : row.status with
  | active =>
    rw [cascadeRow_active ids member bound kind]
    rfl
  | revoked =>
    unfold cascadeRow
    split
    · rfl
    · exact kind

def deletion (works : List Str → Bool) (s : Shared) (userId credentialId : Str) (now : Datetime) : List Action :=
  [.delete userId credentialId, .selectTokens] ++
    (cascadeKeys credentialId (s.db.activeTokens credentialId)).map (fun keys => .uncache (works keys)) ++
    [.deleteCommit now]

theorem uncacheAll_runs (settings : Settings) (works : List Str → Bool) (s : Shared) (credentialId : Str)
    (tokens : List ScopedToken) (batches : List (List Str)) :
    (batches.map fun keys => Action.uncache (works keys)).foldlM
        (fun state action => act settings action state.1 state.2) (s, .cascading credentialId tokens batches) =
      some (uncacheAll works s batches, .cascading credentialId tokens []) := by
  induction batches generalizing s with
  | nil => rfl
  | cons keys later ih => simpa [uncacheAll, act] using ih (s.uncache (works keys) keys)

theorem deleteCredential_runs (owned : (s.db.ownedCredential userId credentialId).isSome) :
    (deletion works s userId credentialId now).foldlM
        (fun state action => act settings action state.1 state.2) (s, .idle) =
      some ((deleteCredential works s userId credentialId now).1,
        .finished (deleteCredential works s userId credentialId now).2) := by
  obtain ⟨credential, found⟩ := Option.isSome_iff_exists.mp owned
  have begins : ([.delete userId credentialId, .selectTokens] : List Action).foldlM
      (fun state action => act settings action state.1 state.2) (s, .idle) =
        some (s, .cascading credentialId (s.db.activeTokens credentialId)
          (cascadeKeys credentialId (s.db.activeTokens credentialId))) := by
    simp [act, found]
  rw [deletion, List.foldlM_append, List.foldlM_append, begins]
  simp only [Option.bind_eq_bind, Option.bind_some, uncacheAll_runs, List.foldlM_cons, List.foldlM_nil]
  cases cascade : cascadeDelete s.db credentialId (s.db.activeTokens credentialId) now <;>
    simp [act, deleteCredential, found, cascade]

theorem deleteCredential_deletes (inv : Consistent settings s)
    (owned : (s.db.ownedCredential userId credentialId).isSome)
    (free : s.db.foreignKeys = true → ¬Referenced s.db credentialId) :
    Deletes settings s (deleteCredential works s userId credentialId now) credentialId := by
  obtain ⟨credential, found⟩ := Option.isSome_iff_exists.mp owned
  obtain ⟨after, cascade⟩ := cascadeDelete_free (s.db.activeTokens credentialId) now free
  obtain ⟨tokens, -, credentials, -⟩ := cascadeDelete_ok cascade
  have result : (deleteCredential works s userId credentialId now).1.db = after ∧
      (deleteCredential works s userId credentialId now).2 = .ok () := by
    simp [deleteCredential, found, cascade]
  obtain ⟨db, outcome⟩ := result
  refine ⟨outcome, ?_, ?_, ?_, ?_⟩
  · rw [db, credentials]
    intro row member
    simpa using (List.mem_filter.mp member).2
  · intro row member bound active
    refine ⟨cascadeRow (s.db.activeTokens credentialId) now row, ?_, by simp, ?_⟩
    · rw [db, tokens]
      exact List.mem_map_of_mem member
    · rw [cascadeRow_active inv.ids member bound active]
      exact ⟨rfl, rfl⟩
  · rintro presented now token ⟨checked, -⟩ bound
    obtain ⟨member, -, active⟩ := checkToken_some checked
    rw [db, tokens] at member
    obtain ⟨row, rowMember, rfl⟩ := List.mem_map.mp member
    rw [cascadeRow_revoked inv.ids rowMember (by simpa using bound)] at active
    cases active
  · intro raised failed
    rw [outcome] at failed
    cases failed

end

section Reachable

variable {ι : Type} [DecidableEq ι] {settings : Settings} {c : Config ι Shared Phase}

theorem deletes_iff (reached : (plane ι settings).system.Reachable fresh c) (works : List Str → Bool)
    {userId credentialId : Str} (owned : (c.shared.db.ownedCredential userId credentialId).isSome) (now : Datetime) :
    Deletes settings c.shared (deleteCredential works c.shared userId credentialId now) credentialId ↔
      (c.shared.db.foreignKeys = true → ¬Referenced c.shared.db credentialId) := by
  constructor
  · intro deletes enforced referenced
    have commits := deletes.commits
    rw [deleteCredential_refused owned enforced referenced] at commits
    cases commits
  · exact deleteCredential_deletes (reachable_known reached).shared owned

end Reachable

-- Registered, and nothing minted yet.
theorem unused_deletes : ∃ c : Config Nat Shared Phase, c.shared.db.foreignKeys = true ∧
    Deletes plain c.shared (deleteCredential (fun _ => true) c.shared ['u'] ['c'] (.utc 0)) ['c'] := by
  have before : ((plane Nat plain).system.run nothing prepared).map (fun c =>
      ((c.shared.db.ownedCredential ['u'] ['c']).isSome, c.shared.db.foreignKeys, c.shared.db.tokens)) =
        some (true, true, []) := by
    decide +kernel
  obtain ⟨c, ran, found⟩ := Option.map_eq_some_iff.mp before
  simp only [Prod.mk.injEq] at found
  obtain ⟨owned, enforced, tokens⟩ := found
  have reached : (plane Nat plain).system.Reachable fresh c :=
    nothing_reached.run (by simp [prepared, fresh, Action.Fresh]) ran
  exact ⟨c, enforced, (deletes_iff reached (fun _ => true) owned (.utc 0)).mpr (by simp [Referenced, tokens])⟩

theorem minted_not_deleted : ∃ c, (plane Nat plain).system.Reachable fresh c ∧ c.shared.db.foreignKeys = true ∧
    (c.shared.db.ownedCredential ['u'] ['c']).isSome ∧
    ¬Deletes plain c.shared (deleteCredential (fun _ => true) c.shared ['u'] ['c'] (.utc 0)) ['c'] ∧
    (c.shared.cache (rulesKey issued.lookupId 1)).isSome ∧
    ((deleteCredential (fun _ => true) c.shared ['u'] ['c'] (.utc 0)).1.cache (rulesKey issued.lookupId 1)).isNone := by
  have ran : ((plane Nat plain).system.run nothing wholeRun).map (fun c =>
      (c.shared.db.foreignKeys, (c.shared.db.ownedCredential ['u'] ['c']).isSome,
        c.shared.db.tokens.any (·.upstreamCredentialId == ['c']),
        (c.shared.cache (rulesKey issued.lookupId 1)).isSome,
        ((deleteCredential (fun _ => true) c.shared ['u'] ['c'] (.utc 0)).1.cache (rulesKey issued.lookupId 1)).isNone)) =
      some (true, true, true, true, true) := by
    decide +kernel
  obtain ⟨c, reached, shown⟩ := wholeRun_reaches ran
  simp only [Prod.mk.injEq] at shown
  obtain ⟨enforced, owned, referenced, cached, uncached⟩ := shown
  have refers : Referenced c.shared.db ['c'] := by
    obtain ⟨row, member, bound⟩ := List.any_eq_true.mp referenced
    exact ⟨row, member, by simpa using bound⟩
  refine ⟨c, reached, enforced, owned, fun deletes => ?_, cached, uncached⟩
  have commits := deletes.commits
  rw [deleteCredential_refused owned enforced refers] at commits
  cases commits

end CfProxy.TokenPlane
