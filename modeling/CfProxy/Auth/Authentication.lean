import Mathlib.Logic.Equiv.Basic
import CfProxy.Auth.Resolution
import CfProxy.Authz.Coverage

set_option autoImplicit false

namespace CfProxy.TokenPlane

open Scope Models Cache Crypto Machine

variable {ι : Type} [DecidableEq ι] {settings : Settings} {c : Config ι Shared Phase} {p : ι} {seen : Seen}

def Superseded (settings : Settings) (history : List Change) (presented : Str) : Prop :=
  ∃ tokenId generated rotation newer older, history = newer ++ .rotated tokenId rotation :: older ∧
    (∃ change ∈ older, change.issues tokenId = some generated) ∧ presented = generated.full settings.brand

section Example

-- One credential, one minted token, and two requests that present it: the second finds the cache filled.

def issued : Generated where
  lookupId := List.replicate 16 'A'
  secret := List.replicate 40 'B'
  lookupId_length := rfl
  secret_length := rfl
  lookupId_drawn := by decide
  secret_drawn := by decide

def brand : Str := "cfsx".toList
def digest : Str := "9c5d48650ddd43a189defe73c1497fda9b316439f8868e23023b5d8b1efba340".toList

def plain : Settings where
  unicode := .asciiOnly
  brand := brand
  hashToken := Equiv.swap (issued.full brand) digest

theorem plain_exact : plain.Exact where
  hash := (Equiv.swap (issued.full brand) digest).injective
  brand := by decide

def credential : UpstreamCredential where
  id := ['c']
  userId := ['u']
  label := ['l']
  credType := "token".toList

def order : MintOrder where
  userId := ['u']
  name := ['n']
  upstreamCredentialId := ['c']
  scopeRules := [⟨['z'], none, none, [['A']], some [['r']], some true, none, none, none⟩]
  expiresAt := none

def oneRule : ScopeRule where
  zoneId := ['z']
  namePattern := none
  nameMatch := exact
  recordTypes := [['A']]
  recordIds := some [['r']]
  allowRead := true
  allowCreate := false
  allowWrite := false
  allowDelete := false

def nothing : Config Nat Shared Phase where
  shared := ⟨.empty true, fun _ => none, []⟩
  procs _ := .idle

def prepared : List (Move Nat Action Str) := [.own 0 (.register credential), .own 1 (.mint (fun _ => .ok []) order)]

def presented (p : Nat) : List (Move Nat Action Str) :=
  [.own p (.present (issued.full brand)), .own p (.readToken (.utc 0)), .own p .readCredential, .own p (.readCache true)]

def issuedAndUsed : List (Move Nat Action Str) :=
  presented 2 ++ [.own 2 (.selectRules [oneRule]), .own 2 (.fillCache true)] ++ presented 3

def resolvedTo (tokenId : Str) : Phase → Bool
  | .resolved _ (.ok (some context)) => context.token.id == tokenId
  | _ => false

theorem resolvedTo_eq {tokenId : Str} {phase : Phase} (resolved : resolvedTo tokenId phase = true) :
    ∃ seen context, phase = .resolved seen (.ok (some context)) ∧ context.token.id = tokenId := by
  unfold resolvedTo at resolved
  split at resolved
  · exact ⟨_, _, rfl, by simpa using resolved⟩
  · simp at resolved

theorem nothing_reached : (plane Nat plain).system.Reachable fresh nothing :=
  .start ⟨⟨⟨true, rfl⟩, rfl, rfl⟩, fun _ => rfl⟩

def mintedForever (tokenId : Str) : Change → Bool
  | .minted token _ _ => token.id == tokenId && token.expiresAt.isNone
  | _ => false

theorem mintedForever_minted {history : List Change} {tokenId : Str}
    (known : history.any (mintedForever tokenId) = true) :
    ∃ token rules, Minted history token rules ∧ token.id = tokenId ∧ token.expiresAt = none := by
  obtain ⟨change, member, forever⟩ := List.any_eq_true.mp known
  cases change with
  | minted token rules generated =>
    obtain ⟨id, unlimited⟩ := Bool.and_eq_true_iff.mp forever
    exact ⟨token, rules, ⟨generated, member⟩, by simpa using id, by simpa using unlimited⟩
  | _ => simp [mintedForever] at forever

def wholeRun : List (Move Nat Action Str) := prepared ++ .own 1 (.mintCommit ['t'] issued) :: issuedAndUsed

theorem wholeRun_reaches {α : Type} {shows : Config Nat Shared Phase → α} {value : α}
    (ran : ((plane Nat plain).system.run nothing wholeRun).map shows = some value) :
    ∃ c, (plane Nat plain).system.Reachable fresh c ∧ shows c = value := by
  have before : ((plane Nat plain).system.run nothing prepared).map (fun c => drawn c.shared.history) = some [] := by
    decide +kernel
  obtain ⟨early, ranEarly, undrawn⟩ := Option.map_eq_some_iff.mp before
  obtain ⟨c, ran, shown⟩ := Option.map_eq_some_iff.mp ran
  rw [wholeRun, System.run_append, ranEarly, Option.bind_some, System.run_cons] at ran
  obtain ⟨minted, committed, ranLate⟩ := Option.bind_eq_some_iff.mp ran
  have earlyReached : (plane Nat plain).system.Reachable fresh early :=
    nothing_reached.run (by simp [prepared, fresh, Action.Fresh]) ranEarly
  have mintedReached : (plane Nat plain).system.Reachable fresh minted :=
    .next earlyReached (by simp [fresh, Action.Fresh, undrawn]) committed
  refine ⟨c, mintedReached.run ?_ ranLate, shown⟩
  simp [issuedAndUsed, presented, fresh, Action.Fresh]

end Example

theorem resolves_iff_current (exact : settings.Exact) (reached : (plane ι settings).system.Reachable fresh c)
    {answer : Except PyError (Option ProxyAuthContext)} (done : c.procs p = .resolved seen answer) :
    (∀ token rules, Minted c.shared.history token rules → token.expiresAt = none →
      ((∃ context, answer = .ok (some context) ∧ context.token.id = token.id) ↔ Valid settings seen token.id)) ∧
    (Superseded settings seen.atStart seen.presented → ∀ context, answer ≠ .ok (some context)) := by
  have known := (reachable_known reached).procs p
  have inv := (reachable_known reached).shared
  rw [done] at known
  obtain ⟨ordered, answered⟩ := known
  refine ⟨fun token rules minted unlimited => ⟨?_, fun valid => ?_⟩, ?_⟩
  · rintro ⟨context, found, same⟩
    obtain ⟨⟨generated, issued, -, hash⟩, active, original, originalRules, wasMinted, id, credential, -⟩ :=
      answered.verified context found
    have bound := answered.bound context found
    rw [← same]
    exact ⟨⟨generated, issued, exact.hash hash⟩, active,
      original, originalRules, wasMinted, id, _, bound.read, bound.id.trans credential.symm⟩
  · refine answered.complete exact token.id valid fun other otherRules otherMinted id => ?_
    obtain ⟨rfl, -⟩ := inv.once _ _ _ _ (otherMinted.older ordered.read) minted id
    exact unlimited
  · rintro ⟨tokenId, generated, rotation, newer, older, start, ⟨change, member, issues⟩, raw⟩ context found
    obtain ⟨⟨current, issued, -, hash⟩, -⟩ := answered.verified context found
    have same : current.lookupId = generated.lookupId :=
      full_lookupId exact.brand ((exact.hash hash).symm.trans raw)
    have distinct := drawn_suffix ordered.read inv.drawn
    obtain ⟨latest, read⟩ := ordered.started
    rw [start, ← List.append_assoc] at read
    have owner : context.token.id = tokenId := by
      have inside : change ∈ seen.atRead := by
        rw [← read]
        simp [member]
      exact (current_owns issued).inj distinct ⟨change, inside, generated, issues, same.symm⟩
    rw [← read] at distinct issued
    rw [owner] at issued
    exact current_after_rotation distinct issued member (Change.issues_some issues).2 same

theorem issued_resolves : ∃ c seen, (plane Nat plain).system.Reachable fresh c ∧
    (∃ answer, c.procs 2 = .resolved seen answer) ∧ Valid plain seen ['t'] := by
  have ran : ((plane Nat plain).system.run nothing wholeRun).map (fun c =>
      (resolvedTo ['t'] (c.procs 2), c.shared.history.any (mintedForever ['t']))) = some (true, true) := by
    decide +kernel
  obtain ⟨c, reached, shown⟩ := wholeRun_reaches ran
  obtain ⟨resolved, known⟩ := Prod.mk.inj shown
  obtain ⟨seen, context, done, id⟩ := resolvedTo_eq resolved
  obtain ⟨token, rules, minted, tokenId, unlimited⟩ := mintedForever_minted known
  have resolves := (resolves_iff_current plain_exact reached done).1 token rules minted unlimited
  rw [tokenId] at resolves
  exact ⟨c, seen, reached, ⟨_, done⟩, resolves.mp ⟨context, rfl, id⟩⟩

theorem resolved_rules (reached : (plane ι settings).system.Reachable fresh c) {context : ProxyAuthContext}
    (done : c.procs p = .resolved seen (.ok (some context))) :
    MintedRules c.shared.history context.token.id context.rules ∧
    context.rules.Perm (c.shared.db.rulesOf context.token.id) ∧
    (∀ zoneId pathRecordId op, isLockExempt context.rules zoneId pathRecordId op =
      isLockExempt (c.shared.db.rulesOf context.token.id) zoneId pathRecordId op) ∧
    ∀ u zoneId name rtype recordId need,
      RaisesNothing u (c.shared.db.rulesOf context.token.id) zoneId name rtype recordId need →
        matchRules u context.rules zoneId name rtype recordId need =
          matchRules u (c.shared.db.rulesOf context.token.id) zoneId name rtype recordId need := by
  have known := (reachable_known reached).procs p
  have inv := (reachable_known reached).shared
  rw [done] at known
  obtain ⟨ordered, answered⟩ := known
  have minted := answered.rules context rfl
  have stored : context.rules.Perm (c.shared.db.rulesOf context.token.id) := by
    obtain ⟨token, rules, wasMinted, id, perm⟩ := minted
    obtain ⟨row, member, rowId⟩ := inv.known token rules wasMinted
    obtain ⟨original, originalMinted, originalId, -⟩ := (inv.rows row member).minted
    obtain ⟨-, same⟩ := inv.once _ _ _ _ wasMinted originalMinted (rowId.symm.trans originalId.symm)
    rwa [← id, ← rowId, ← same]
  exact ⟨minted, stored, isLockExempt_perm stored, fun _ _ _ _ _ _ quiet => matchRules_perm stored quiet⟩

theorem cached_rules : ∃ (c : Config Nat Shared Phase) (seen : Seen) (context : ProxyAuthContext),
    c.procs 3 = .resolved seen (.ok (some context)) ∧ MintedRules c.shared.history ['t'] context.rules := by
  have ran : ((plane Nat plain).system.run nothing wholeRun).map (fun c => resolvedTo ['t'] (c.procs 3)) =
      some true := by
    decide +kernel
  obtain ⟨c, reached, resolved⟩ := wholeRun_reaches ran
  obtain ⟨seen, context, done, id⟩ := resolvedTo_eq resolved
  refine ⟨c, seen, context, done, ?_⟩
  have rules := (resolved_rules reached done).1
  rwa [id] at rules

end CfProxy.TokenPlane
