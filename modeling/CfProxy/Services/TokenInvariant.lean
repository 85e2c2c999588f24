import CfProxy.Services.TokenHistory

set_option autoImplicit false

namespace CfProxy.TokenPlane

open Scope Models Cache Crypto Machine

-- A lookup id is drawn anew each time.
def Action.Fresh (history : List Change) : Action → Prop
  | .mintCommit _ generated | .rotateCommit generated => generated.lookupId ∉ drawn history
  | _ => True

def fresh {ι : Type} (c : Config ι Shared Phase) : Move ι Action Str → Prop
  | .own _ action => action.Fresh c.shared.history
  | .env _ => True

structure RowCorrect (settings : Settings) (db : Database) (history : List Change) (row : ScopedToken) : Prop where
  issued : ∃ generated, current row.id history = some generated ∧ row.lookupId = generated.lookupId ∧
    row.tokenHash = settings.hashToken (generated.full settings.brand)
  status : row.status = .revoked ↔ Revoked history row.id
  minted : ∃ token, Minted history token (db.rulesOf row.id) ∧ token.id = row.id ∧
    token.upstreamCredentialId = row.upstreamCredentialId ∧ token.expiresAt = row.expiresAt

def Owns (history : List Change) (tokenId lookupId : Str) : Prop :=
  ∃ change ∈ history, ∃ generated, change.issues tokenId = some generated ∧ generated.lookupId = lookupId

def MintedRules (history : List Change) (tokenId : Str) (rules : List ScopeRule) : Prop :=
  ∃ token minted, Minted history token minted ∧ token.id = tokenId ∧ rules.Perm minted

def KnownToken (history : List Change) (tokenId : Str) : Prop :=
  ∃ token rules, Minted history token rules ∧ token.id = tokenId

def CacheCorrect (cache : Entries) (history : List Change) : Prop :=
  ∀ (generated : Generated) version entry, cache (rulesKey generated.lookupId version) = some entry →
    ∃ tokenId rules, Owns history tokenId generated.lookupId ∧ MintedRules history tokenId rules ∧
      entry = rulesToCache rules

structure Consistent (settings : Settings) (s : Shared) : Prop where
  drawn : (drawn s.history).Nodup
  ids : (s.db.tokens.map (·.id)).Nodup
  lookups : (s.db.tokens.map (·.lookupId)).Nodup
  rows : ∀ row ∈ s.db.tokens, RowCorrect settings s.db s.history row
  known : ∀ token rules, Minted s.history token rules → ∃ row ∈ s.db.tokens, row.id = token.id
  once : ∀ first firstRules second secondRules, Minted s.history first firstRules →
    Minted s.history second secondRules → first.id = second.id → first = second ∧ firstRules = secondRules
  named : ∀ change ∈ s.history, KnownToken s.history change.tokenId
  owned : ∀ rule ∈ s.db.rules, ∃ row ∈ s.db.tokens, row.id = rule.1
  cached : CacheCorrect s.cache s.history

section History

variable {history newer : List Change} {token : ScopedToken} {rules : List ScopeRule} {tokenId lookupId : Str}

theorem Minted.older (older : history <:+ newer) (minted : Minted history token rules) : Minted newer token rules := by
  obtain ⟨generated, member⟩ := minted
  exact ⟨generated, older.subset member⟩

theorem KnownToken.older (older : history <:+ newer) (known : KnownToken history tokenId) :
    KnownToken newer tokenId := by
  obtain ⟨token, rules, minted, id⟩ := known
  exact ⟨token, rules, minted.older older, id⟩

theorem Owns.older (older : history <:+ newer) (owns : Owns history tokenId lookupId) :
    Owns newer tokenId lookupId := by
  obtain ⟨change, member, issued⟩ := owns
  exact ⟨change, older.subset member, issued⟩

theorem MintedRules.older (older : history <:+ newer) (minted : MintedRules history tokenId rules) :
    MintedRules newer tokenId rules := by
  obtain ⟨token, original, wasMinted, id, perm⟩ := minted
  exact ⟨token, original, wasMinted.older older, id, perm⟩

theorem current_owns {generated : Generated} (found : current tokenId history = some generated) :
    Owns history tokenId generated.lookupId := by
  obtain ⟨change, member, issued⟩ := current_mem found
  exact ⟨change, member, generated, issued, rfl⟩

theorem Owns.inj {other : Str} (distinct : (TokenPlane.drawn history).Nodup) (mine : Owns history tokenId lookupId)
    (theirs : Owns history other lookupId) : tokenId = other := by
  obtain ⟨first, firstMember, firstGenerated, firstIssues, firstSame⟩ := mine
  obtain ⟨second, secondMember, secondGenerated, secondIssues, secondSame⟩ := theirs
  obtain ⟨firstId, firstDraws⟩ := Change.issues_some firstIssues
  obtain ⟨secondId, secondDraws⟩ := Change.issues_some secondIssues
  rw [← firstId, ← secondId,
    drawn_inj distinct firstMember secondMember firstDraws secondDraws (firstSame.trans secondSame.symm)]

variable {cache : Entries}

theorem CacheCorrect.older (older : history <:+ newer) (correct : CacheCorrect cache history) :
    CacheCorrect cache newer := by
  intro generated version entry present
  obtain ⟨tokenId, rules, owns, minted, shown⟩ := correct generated version entry present
  exact ⟨tokenId, rules, owns.older older, minted.older older, shown⟩

theorem CacheCorrect.del (correct : CacheCorrect cache history) (keys : List Str) :
    CacheCorrect (cache.del keys) history :=
  fun generated version entry present => correct generated version entry (Entries.del_some present)

theorem CacheCorrect.fill (correct : CacheCorrect cache history) (version : Nat)
    {filled : Generated} (owns : Owns history tokenId filled.lookupId) (minted : MintedRules history tokenId rules) :
    CacheCorrect (Function.update cache (rulesKey filled.lookupId version) (some (rulesToCache rules))) history := by
  intro generated other entry present
  by_cases same : rulesKey generated.lookupId other = rulesKey filled.lookupId version
  · have lookup : generated.lookupId = filled.lookupId :=
      rulesKey_lookupId same (generated.lookupId_length.trans filled.lookupId_length.symm)
    rw [same, Function.update_self] at present
    exact ⟨tokenId, rules, lookup ▸ owns, minted, by simpa using present.symm⟩
  · rw [Function.update_of_ne same] at present
    exact correct generated other entry present

end History

variable {settings : Settings} {s : Shared}

theorem Consistent.withCache (inv : Consistent settings s) {cache : Entries}
    (correct : CacheCorrect cache s.history) : Consistent settings { s with cache } :=
  ⟨inv.drawn, inv.ids, inv.lookups, inv.rows, inv.known, inv.once, inv.named, inv.owned, correct⟩

theorem rulesOf_congr {db other : Database} (rules : db.rules = other.rules) (tokenId : Str) :
    db.rulesOf tokenId = other.rulesOf tokenId := by
  rw [Database.rulesOf, Database.rulesOf, rules]

theorem Consistent.rewrite (inv : Consistent settings s) {db : Database} (added : List Change)
    {f : ScopedToken → ScopedToken} (tokens : db.tokens = s.db.tokens.map f) (rules : db.rules = s.db.rules)
    (keepsId : ∀ row, (f row).id = row.id) (lookups : (db.tokens.map (·.lookupId)).Nodup)
    (noMint : ∀ change ∈ added, ∀ token rules generated, change ≠ .minted token rules generated)
    (named : ∀ change ∈ added, KnownToken s.history change.tokenId)
    (distinct : (TokenPlane.drawn (added ++ s.history)).Nodup)
    (rows : ∀ row ∈ s.db.tokens, RowCorrect settings s.db s.history row →
      RowCorrect settings s.db (added ++ s.history) (f row)) :
    Consistent settings { s with db, history := added ++ s.history } := by
  have older : s.history <:+ added ++ s.history := List.suffix_append _ _
  have sameMinted {token : ScopedToken} {original : List ScopeRule}
      (minted : Minted (added ++ s.history) token original) : Minted s.history token original := by
    obtain ⟨generated, member⟩ := minted
    rcases List.mem_append.mp member with new | old
    · exact absurd rfl (noMint _ new token original generated)
    · exact ⟨generated, old⟩
  have ids : db.tokens.map (·.id) = s.db.tokens.map (·.id) := by
    rw [tokens, List.map_map]
    exact List.map_congr_left fun row _ => keepsId row
  have present {tokenId : Str} (old : ∃ row ∈ s.db.tokens, row.id = tokenId) : ∃ row ∈ db.tokens, row.id = tokenId := by
    obtain ⟨row, member, rfl⟩ := old
    exact ⟨f row, tokens ▸ List.mem_map_of_mem member, keepsId row⟩
  refine ⟨distinct, ids ▸ inv.ids, lookups, ?_, ?_, ?_, ?_, ?_, inv.cached.older older⟩
  · intro row member
    rw [tokens] at member
    obtain ⟨old, oldMember, rfl⟩ := List.mem_map.mp member
    obtain ⟨issued, status, minted⟩ := rows old oldMember (inv.rows old oldMember)
    exact ⟨issued, status, by simpa only [rulesOf_congr rules] using minted⟩
  · exact fun token original minted => present (inv.known token original (sameMinted minted))
  · exact fun first firstRules second secondRules mine theirs =>
      inv.once first firstRules second secondRules (sameMinted mine) (sameMinted theirs)
  · intro change member
    rcases List.mem_append.mp member with new | old
    · exact (named change new).older older
    · exact (inv.named change old).older older
  · exact fun rule member => present (inv.owned rule (rules ▸ member))

section Rows

variable {db : Database} {history : List Change} {row : ScopedToken}

theorem RowCorrect.rotate (correct : RowCorrect settings db history row) (loaded : ScopedToken)
    (generated : Generated) :
    RowCorrect settings db (.rotated row.id generated :: history) (rotateRow settings loaded generated row) := by
  have issues : Change.issues row.id (.rotated row.id generated) = some generated := by
    simp [Change.issues, Change.tokenId, Change.generated]
  obtain ⟨token, minted, fields⟩ := correct.minted
  refine ⟨⟨generated, ?_, rfl, rfl⟩, ?_, token, minted.older (List.suffix_cons _ _), fields⟩
  · simp [rotateRow, current_cons, issues]
  · simpa [rotateRow, Revoked] using correct.status

theorem RowCorrect.rotateOther (correct : RowCorrect settings db history row) {tokenId : Str}
    (other : row.id ≠ tokenId) (generated : Generated) :
    RowCorrect settings db (.rotated tokenId generated :: history) row := by
  have issues : Change.issues row.id (.rotated tokenId generated) = none := by
    simp [Change.issues, Change.tokenId, Ne.symm other]
  obtain ⟨token, minted, fields⟩ := correct.minted
  refine ⟨?_, ?_, token, minted.older (List.suffix_cons _ _), fields⟩
  · simpa [current_cons, issues] using correct.issued
  · simpa [Revoked] using correct.status

theorem current_revoked (tokenId : Str) (loaded : List ScopedToken) :
    current tokenId (loaded.map (fun token => .revoked token.id) ++ history) = current tokenId history := by
  induction loaded with
  | nil => rfl
  | cons token rest ih =>
    have issues : Change.issues tokenId (.revoked token.id) = none := by
      simp [Change.issues, Change.generated]
    rw [List.map_cons, List.cons_append, current_cons, issues, Option.none_or, ih]

theorem drawn_revoked (loaded : List ScopedToken) :
    drawn (loaded.map (fun token => .revoked token.id) ++ history) = drawn history := by
  induction loaded with
  | nil => rfl
  | cons token rest ih => simp [drawn, Change.generated]

@[simp] theorem cascadeRow_id (loaded : List ScopedToken) (now : Datetime) (row : ScopedToken) :
    (cascadeRow loaded now row).id = row.id := by
  unfold cascadeRow
  split <;> rfl

@[simp] theorem cascadeRow_lookupId (loaded : List ScopedToken) (now : Datetime) (row : ScopedToken) :
    (cascadeRow loaded now row).lookupId = row.lookupId := by
  unfold cascadeRow
  split <;> rfl

@[simp] theorem cascadeRow_upstreamCredentialId (loaded : List ScopedToken) (now : Datetime) (row : ScopedToken) :
    (cascadeRow loaded now row).upstreamCredentialId = row.upstreamCredentialId := by
  unfold cascadeRow
  split <;> rfl

@[simp] theorem cascadeRow_userId (loaded : List ScopedToken) (now : Datetime) (row : ScopedToken) :
    (cascadeRow loaded now row).userId = row.userId := by
  unfold cascadeRow
  split <;> rfl

@[simp] theorem cascadeRow_tokenHash (loaded : List ScopedToken) (now : Datetime) (row : ScopedToken) :
    (cascadeRow loaded now row).tokenHash = row.tokenHash := by
  unfold cascadeRow
  split <;> rfl

theorem RowCorrect.cascade (correct : RowCorrect settings db history row) (loaded : List ScopedToken)
    (now : Datetime) :
    RowCorrect settings db (loaded.map (fun token => .revoked token.id) ++ history) (cascadeRow loaded now row) := by
  obtain ⟨token, minted, fields⟩ := correct.minted
  have older := minted.older (List.suffix_append (loaded.map fun token => .revoked token.id) history)
  have revoked : Revoked (loaded.map (fun token => .revoked token.id) ++ history) row.id ↔
      (∃ token ∈ loaded, token.id = row.id) ∨ Revoked history row.id := by
    simp [Revoked]
  unfold cascadeRow
  cases found : loaded.find? fun token => token.id == row.id with
  | some selected =>
    have member := List.mem_of_find?_eq_some found
    have same := List.find?_some found
    refine ⟨by simpa [revokeRow, current_revoked] using correct.issued, ?_, token, older, fields⟩
    have gone : Revoked (loaded.map (fun token => .revoked token.id) ++ history) row.id :=
      revoked.mpr (.inl ⟨selected, member, by simpa using same⟩)
    simp [revokeRow, gone]
  | none =>
    refine ⟨by simpa [current_revoked] using correct.issued, ?_, token, older, fields⟩
    have unselected : ¬∃ token ∈ loaded, token.id = row.id := by
      simpa using found
    rw [revoked, correct.status]
    simp [unselected]

end Rows

theorem updateToken_ok {db after : Database} {tokenId : Str} {change : ScopedToken → ScopedToken}
    (updated : db.updateToken tokenId change = .ok after) :
    after.tokens = db.tokens.map (fun row => if row.id = tokenId then change row else row) ∧
      after.rules = db.rules ∧ (after.tokens.map (·.lookupId)).Nodup := by
  unfold Database.updateToken at updated
  dsimp only at updated
  split at updated
  · next distinct =>
    obtain rfl := Except.ok.inj updated
    exact ⟨rfl, rfl, distinct.1⟩
  · simp at updated

theorem Consistent.rotate (inv : Consistent settings s) {token : ScopedToken} {generated : Generated}
    {db : Database} (known : KnownToken s.history token.id)
    (unused : generated.lookupId ∉ TokenPlane.drawn s.history)
    (updated : s.db.updateToken token.id (rotateRow settings token generated) = .ok db) :
    Consistent settings { s with db, history := .rotated token.id generated :: s.history } := by
  obtain ⟨tokens, rules, lookups⟩ := updateToken_ok updated
  refine inv.rewrite [.rotated token.id generated] tokens rules ?_ lookups ?_ ?_ ?_ ?_
  · intro row
    split <;> rfl
  · simp
  · simpa [Change.tokenId] using known
  · exact List.nodup_cons.mpr ⟨unused, inv.drawn⟩
  · intro row member correct
    by_cases same : row.id = token.id
    · simpa [same] using same ▸ correct.rotate token generated
    · simpa [same] using correct.rotateOther same generated

theorem Consistent.revoke (inv : Consistent settings s) {loaded : List ScopedToken} {now : Datetime}
    {db : Database} (known : ∀ token ∈ loaded, KnownToken s.history token.id)
    (tokens : db.tokens = s.db.tokens.map (cascadeRow loaded now)) (rules : db.rules = s.db.rules) :
    Consistent settings { s with db, history := loaded.map (fun token => .revoked token.id) ++ s.history } := by
  refine inv.rewrite _ tokens rules (cascadeRow_id loaded now) ?_ ?_ ?_ ?_ ?_
  · have same : db.tokens.map (·.lookupId) = s.db.tokens.map (·.lookupId) := by
      simp [tokens, Function.comp_def]
    exact same ▸ inv.lookups
  · simp
  · simpa [Change.tokenId] using known
  · rw [drawn_revoked]
    exact inv.drawn
  · exact fun row _ correct => correct.cascade loaded now

theorem revokeRow_cascade (token : ScopedToken) (now : Datetime) :
    (fun row => if row.id = token.id then revokeRow token now row else row) = cascadeRow [token] now := by
  funext row
  by_cases same : row.id = token.id
  · simp [cascadeRow, same]
  · simp [cascadeRow, same, Ne.symm same]

theorem insertToken_ok {db after : Database} {row : ScopedToken} {rules : List ScopeRule}
    (inserted : db.insertToken row rules = .ok after) :
    (∀ other ∈ db.tokens, other.id ≠ row.id ∧ other.lookupId ≠ row.lookupId) ∧
      after.tokens = db.tokens ++ [row] ∧ after.rules = db.rules ++ rules.map (row.id, ·) := by
  unfold Database.insertToken at inserted
  split at inserted
  · simp at inserted
  · next distinct =>
    split at inserted
    · simp at inserted
    · obtain rfl := Except.ok.inj inserted
      refine ⟨fun other member => ?_, rfl, rfl⟩
      simp only [List.any_eq_true, not_exists, not_and, Bool.or_eq_true, beq_iff_eq, not_or] at distinct
      exact ⟨(distinct other member).1.1, (distinct other member).1.2⟩

theorem rulesOf_append {db after : Database} {tokenId other : Str} {rules : List ScopeRule}
    (appended : after.rules = db.rules ++ rules.map (tokenId, ·)) :
    after.rulesOf other = db.rulesOf other ++ if tokenId = other then rules else [] := by
  by_cases same : tokenId = other <;>
    simp [Database.rulesOf, appended, List.filter_map, Function.comp_def, same]

theorem RowCorrect.afterMint {db after : Database} {history : List Change} {row token : ScopedToken}
    {rules : List ScopeRule} (correct : RowCorrect settings db history row) (other : row.id ≠ token.id)
    (generated : Generated) (appended : after.rules = db.rules ++ rules.map (token.id, ·)) :
    RowCorrect settings after (.minted token rules generated :: history) row := by
  have issues : Change.issues row.id (.minted token rules generated) = none := by
    simp [Change.issues, Change.tokenId, Ne.symm other]
  obtain ⟨original, minted, fields⟩ := correct.minted
  refine ⟨?_, ?_, original, ?_, fields⟩
  · simpa [current_cons, issues] using correct.issued
  · simpa [Revoked] using correct.status
  · rw [rulesOf_append appended, if_neg (Ne.symm other), List.append_nil]
    exact minted.older (List.suffix_cons _ _)

theorem Consistent.mint (inv : Consistent settings s) {token : ScopedToken} {generated : Generated}
    {rules : List ScopeRule} {db : Database} (lookup : token.lookupId = generated.lookupId)
    (hash : token.tokenHash = settings.hashToken (generated.full settings.brand)) (active : token.status = .active)
    (unused : generated.lookupId ∉ TokenPlane.drawn s.history) (inserted : s.db.insertToken token rules = .ok db) :
    Consistent settings { s with db, history := .minted token rules generated :: s.history } := by
  obtain ⟨distinct, tokens, allRules⟩ := insertToken_ok inserted
  have older : s.history <:+ .minted token rules generated :: s.history := List.suffix_cons _ _
  have newId {tokenId : Str} (known : KnownToken s.history tokenId) : tokenId ≠ token.id := by
    obtain ⟨original, minted, wasMinted, rfl⟩ := known
    obtain ⟨old, member, same⟩ := inv.known original minted wasMinted
    exact same ▸ (distinct old member).1
  have mintedCases {original : ScopedToken} {minted : List ScopeRule}
      (wasMinted : Minted (.minted token rules generated :: s.history) original minted) :
      (original = token ∧ minted = rules) ∨ Minted s.history original minted := by
    obtain ⟨drew, member⟩ := wasMinted
    rcases List.mem_cons.mp member with same | member
    · injection same with same sameRules
      exact .inl ⟨same, sameRules⟩
    · exact .inr ⟨drew, member⟩
  have mintedNow : Minted (.minted token rules generated :: s.history) token rules := ⟨generated, by simp⟩
  refine ⟨List.nodup_cons.mpr ⟨unused, inv.drawn⟩, ?_, ?_, ?_, ?_, ?_, ?_, ?_, inv.cached.older older⟩
  · rw [tokens, List.map_append, List.nodup_append]
    exact ⟨inv.ids, by simp, by simpa using fun row member => (distinct row member).1⟩
  · rw [tokens, List.map_append, List.nodup_append]
    exact ⟨inv.lookups, by simp, by simpa using fun row member => (distinct row member).2⟩
  · intro row member
    rw [tokens] at member
    rcases List.mem_append.mp member with old | new
    · exact (inv.rows row old).afterMint (distinct row old).1 generated allRules
    · obtain rfl := List.mem_singleton.mp new
      have issues : Change.issues row.id (.minted row rules generated) = some generated := by
        simp [Change.issues, Change.tokenId, Change.generated]
      have none : s.db.rulesOf row.id = [] := by
        simp only [Database.rulesOf, List.map_eq_nil_iff, List.filter_eq_nil_iff, beq_iff_eq]
        intro rule owned same
        obtain ⟨old, oldMember, id⟩ := inv.owned rule owned
        exact (distinct old oldMember).1 (id.trans same)
      refine ⟨⟨generated, by simp [current_cons, issues], lookup, hash⟩, ?_, row, ?_, rfl, rfl, rfl⟩
      · have alive : ¬Revoked s.history row.id := fun revoked =>
          newId (inv.named _ revoked) rfl
        simpa [active, Revoked] using alive
      · rw [rulesOf_append allRules, none, if_pos rfl]
        exact mintedNow
  · intro original minted wasMinted
    rcases mintedCases wasMinted with ⟨rfl, rfl⟩ | wasMinted
    · exact ⟨original, by simp [tokens], rfl⟩
    · obtain ⟨old, member, same⟩ := inv.known original minted wasMinted
      exact ⟨old, by simp [tokens, member], same⟩
  · intro first firstRules second secondRules mine theirs same
    rcases mintedCases mine with ⟨firstNew, firstSame⟩ | mineOld <;>
      rcases mintedCases theirs with ⟨secondNew, secondSame⟩ | theirsOld
    · exact ⟨firstNew.trans secondNew.symm, firstSame.trans secondSame.symm⟩
    · exact absurd (firstNew ▸ same.symm) (newId ⟨second, secondRules, theirsOld, rfl⟩)
    · exact absurd (secondNew ▸ same) (newId ⟨first, firstRules, mineOld, rfl⟩)
    · exact inv.once first firstRules second secondRules mineOld theirsOld same
  · intro change member
    rcases List.mem_cons.mp member with rfl | member
    · exact ⟨token, rules, mintedNow, rfl⟩
    · exact (inv.named change member).older older
  · intro rule member
    rw [allRules] at member
    rcases List.mem_append.mp member with old | new
    · obtain ⟨row, rowMember, same⟩ := inv.owned rule old
      exact ⟨row, by simp [tokens, rowMember], same⟩
    · obtain ⟨added, -, rfl⟩ := List.mem_map.mp new
      exact ⟨token, by simp [tokens], rfl⟩

theorem Consistent.register (inv : Consistent settings s) {row : UpstreamCredential} {db : Database}
    (inserted : s.db.insertCredential settings.collation row = .ok db) : Consistent settings { s with db } := by
  unfold Database.insertCredential at inserted
  split at inserted
  · simp at inserted
  · obtain rfl := Except.ok.inj inserted
    refine ⟨inv.drawn, inv.ids, inv.lookups, fun token member => ?_, inv.known, inv.once, inv.named, inv.owned,
      inv.cached⟩
    obtain ⟨issued, status, minted⟩ := inv.rows token member
    exact ⟨issued, status, minted⟩

end CfProxy.TokenPlane
