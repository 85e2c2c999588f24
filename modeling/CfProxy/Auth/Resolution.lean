import CfProxy.Services.TokenInvariant

set_option autoImplicit false

namespace CfProxy.TokenPlane

open Scope Models Cache Crypto Machine

structure Verified (settings : Settings) (presented : Str) (history : List Change) (token : ScopedToken) : Prop where
  issued : ∃ generated, current token.id history = some generated ∧ token.lookupId = generated.lookupId ∧
    settings.hashToken presented = settings.hashToken (generated.full settings.brand)
  active : ¬Revoked history token.id
  minted : ∃ original rules, Minted history original rules ∧ original.id = token.id ∧
    original.upstreamCredentialId = token.upstreamCredentialId ∧ original.expiresAt = token.expiresAt

-- Hashes tell strings apart, and a brand does not look like a separator.
structure Settings.Exact (settings : Settings) : Prop where
  hash : Function.Injective settings.hashToken
  brand : '_' ∉ settings.brand

def NoExpiry (history : List Change) (tokenId : Str) : Prop :=
  ∀ token rules, Minted history token rules → token.id = tokenId → token.expiresAt = none

section Check

variable {settings : Settings} {s : Shared} {presented tokenId : Str} {now : Datetime} {token : ScopedToken}

theorem checkToken_some {db : Database} (checked : checkToken settings db presented now = .ok (some token)) :
    token ∈ db.tokens ∧ settings.hashToken presented = token.tokenHash ∧ token.status = .active := by
  unfold checkToken at checked
  split at checked
  · simp at checked
  · split at checked
    · simp at checked
    · next row found =>
      split at checked
      · simp at checked
      · next verified =>
        split at checked
        · simp at checked
        · next active =>
          obtain rfl : row = token := by
            cases expiry : row.expiresAt with
            | none => simpa [expiry] using checked
            | some expiresAt =>
              cases compared : expiresAt.before now with
              | error raised => simp [expiry, compared] at checked
              | ok expired => cases expired <;> simp_all
          exact ⟨List.mem_of_find?_eq_some found, by simpa [verifyToken] using verified, by simpa using active⟩

theorem checkToken_verified (inv : Consistent settings s)
    (checked : checkToken settings s.db presented now = .ok (some token)) :
    Verified settings presented s.history token := by
  obtain ⟨member, raw, active⟩ := checkToken_some checked
  obtain ⟨⟨generated, issued, lookup, hash⟩, status, original, minted, same⟩ := inv.rows token member
  refine ⟨⟨generated, issued, lookup, raw.trans hash⟩, ?_, original, _, minted, same⟩
  rw [← status, active]
  simp

theorem checkToken_complete (inv : Consistent settings s) (plainBrand : '_' ∉ settings.brand) {generated : Generated}
    (issued : current tokenId s.history = some generated) (active : ¬Revoked s.history tokenId)
    (noExpiry : NoExpiry s.history tokenId) (now : Datetime) :
    ∃ token, checkToken settings s.db (generated.full settings.brand) now = .ok (some token) ∧ token.id = tokenId := by
  obtain ⟨change, changeMember, issues⟩ := current_mem issued
  obtain ⟨original, rules, minted, originalId⟩ := inv.named change changeMember
  obtain ⟨row, member, rowId⟩ := inv.known original rules minted
  obtain rfl : row.id = tokenId := rowId.trans (originalId.trans (Change.issues_some issues).1)
  obtain ⟨⟨drawn, drew, lookup, hash⟩, status, creation, created, creationId, -, expiry⟩ := inv.rows row member
  obtain rfl : drawn = generated := by simpa [issued] using drew.symm
  have found : s.db.tokenByLookup drawn.lookupId = some row := by
    rw [← lookup, Database.tokenByLookup]
    exact find?_unique inv.lookups member
  have isActive : row.status = .active := by
    cases kind : row.status with
    | active => rfl
    | revoked => exact absurd (status.mp kind) active
  have unlimited : row.expiresAt = none := by
    rw [← expiry]
    exact noExpiry creation _ created creationId
  refine ⟨row, ?_, rfl⟩
  simp [checkToken, parseScopedToken_full settings.unicode plainBrand, found, verifyToken, hash, isActive, unlimited]

end Check

inductive Step (settings : Settings) : Action → Shared → Phase → Shared → Phase → Prop
  | stopped {action : Action} {s : Shared} {phase : Phase} (outcome : Except PyError Unit) :
      Step settings action s phase s (.finished outcome)
  | registered {row : UpstreamCredential} {s : Shared} {db : Database}
      (inserted : s.db.insertCredential settings.collation row = .ok db) :
      Step settings (.register row) s .idle { s with db } (.finished (.ok ()))
  | minting {zoneName : Str → Except PyError Str} {order : MintOrder} {s : Shared} :
      Step settings (.mint zoneName order) s .idle s (.minting order)
  | minted {tokenId : Str} {generated : Generated} {order : MintOrder} {s : Shared} {db : Database}
      (inserted : s.db.insertToken (order.token settings tokenId generated) (order.scopeRules.map RuleSpec.rule) = .ok db) :
      Step settings (.mintCommit tokenId generated) s (.minting order)
        { s with
          db
          history := .minted (order.token settings tokenId generated) (order.scopeRules.map RuleSpec.rule) generated ::
            s.history }
        (.finished (.ok ()))
  | rotating {userId tokenId : Str} {token : ScopedToken} {s : Shared} (found : s.db.ownedToken userId tokenId = some token) :
      Step settings (.rotate userId tokenId) s .idle s (.rotating token)
  | rotated {generated : Generated} {token : ScopedToken} {s : Shared} {db : Database}
      (updated : s.db.updateToken token.id (rotateRow settings token generated) = .ok db) :
      Step settings (.rotateCommit generated) s (.rotating token)
        { s with db, history := .rotated token.id generated :: s.history } (.uncaching (rulesKey token.lookupId token.version))
  | revoking {userId tokenId : Str} {token : ScopedToken} {s : Shared} (found : s.db.ownedToken userId tokenId = some token) :
      Step settings (.revoke userId tokenId) s .idle s (.revoking token)
  | revoked {now : Datetime} {token : ScopedToken} {s : Shared} {db : Database}
      (updated : s.db.updateToken token.id (revokeRow token now) = .ok db) :
      Step settings (.revokeCommit now) s (.revoking token)
        { s with db, history := .revoked token.id :: s.history } (.uncaching (rulesKey token.lookupId token.version))
  | uncached {works : Bool} {key : Str} {s : Shared} :
      Step settings (.uncache works) s (.uncaching key)
        (s.uncache works [key]) (.finished (.ok ()))
  | selecting {userId credentialId : Str} {s : Shared} :
      Step settings (.delete userId credentialId) s .idle s (.selecting credentialId)
  | selected {credentialId : Str} {s : Shared} :
      Step settings .selectTokens s (.selecting credentialId) s
        (.cascading credentialId (s.db.activeTokens credentialId)
          (cascadeKeys credentialId (s.db.activeTokens credentialId)))
  | cascaded {works : Bool} {credentialId : Str} {tokens : List ScopedToken} {keys : List Str} {later : List (List Str)}
      {s : Shared} :
      Step settings (.uncache works) s (.cascading credentialId tokens (keys :: later))
        (s.uncache works keys) (.cascading credentialId tokens later)
  | deleted {now : Datetime} {credentialId : Str} {tokens : List ScopedToken} {s : Shared} {db : Database}
      (cascade : cascadeDelete s.db credentialId tokens now = .ok db) :
      Step settings (.deleteCommit now) s (.cascading credentialId tokens [])
        { s with db, history := tokens.map (fun token => .revoked token.id) ++ s.history } (.finished (.ok ()))
  | presented {token : Str} {s : Shared} :
      Step settings (.present token) s .idle s (.presented ⟨token, s.history, s.history, []⟩)
  | checked {now : Datetime} {seen : Seen} {token : ScopedToken} {s : Shared}
      (passed : checkToken settings s.db seen.presented now = .ok (some token)) :
      Step settings (.readToken now) s (.presented seen) s (.verified { seen with atRead := s.history } token)
  | refused {now : Datetime} {seen : Seen} {s : Shared} {answer : Except PyError (Option ProxyAuthContext)}
      (failed : ∀ token, checkToken settings s.db seen.presented now ≠ .ok (some token))
      (empty : ∀ context, answer ≠ .ok (some context)) :
      Step settings (.readToken now) s (.presented seen) s (.resolved { seen with atRead := s.history } answer)
  | unbound {seen : Seen} {token : ScopedToken} {s : Shared}
      (missing : s.db.credential token.upstreamCredentialId = none) :
      Step settings .readCredential s (.verified seen token) s
        (.resolved { seen with credentials := s.db.credentials } (.ok none))
  | bound {seen : Seen} {token : ScopedToken} {credential : UpstreamCredential} {s : Shared}
      (found : s.db.credential token.upstreamCredentialId = some credential) :
      Step settings .readCredential s (.verified seen token) s
        (.authenticated { seen with credentials := s.db.credentials } token credential)
  | hit {works : Bool} {seen : Seen} {token : ScopedToken} {credential : UpstreamCredential} {cached : Json} {s : Shared}
      (entry : s.cache (rulesKey token.lookupId token.version) = some cached) :
      Step settings (.readCache works) s (.authenticated seen token credential) s
        (.resolved seen ((rulesFromCache cached).map fun rules => some ⟨token, rules, credential⟩))
  | missed {works : Bool} {seen : Seen} {token : ScopedToken} {credential : UpstreamCredential} {s : Shared} :
      Step settings (.readCache works) s (.authenticated seen token credential) s (.missed seen token credential)
  | loaded {rules : List ScopeRule} {seen : Seen} {token : ScopedToken} {credential : UpstreamCredential} {s : Shared}
      (selected : rules.Perm (s.db.rulesOf token.id)) :
      Step settings (.selectRules rules) s (.missed seen token credential) s (.loaded seen ⟨token, rules, credential⟩)
  | filled {works : Bool} {seen : Seen} {context : ProxyAuthContext} {s : Shared} :
      Step settings (.fillCache works) s (.loaded seen context)
        (s.fill works (rulesKey context.token.lookupId context.token.version) context.rules)
        (.resolved seen (.ok (some context)))

theorem act_step {settings : Settings} {action : Action} {s after : Shared} {phase next : Phase}
    (acted : act settings action s phase = some (after, next)) : Step settings action s phase after next := by
  unfold act at acted
  split at acted
  · split at acted <;> cases acted
    · exact .registered ‹_›
    · exact .stopped _
  · split at acted
    · cases acted
      exact .stopped _
    · split at acted <;> cases acted
      · exact .minting
      · exact .stopped _
  · dsimp only at acted
    split at acted <;> cases acted
    · exact .minted ‹_›
    · exact .stopped _
  · split at acted <;> cases acted
    · exact .stopped _
    · exact .rotating ‹_›
  · split at acted <;> cases acted
    · exact .rotated ‹_›
    · exact .stopped _
  · split at acted <;> cases acted
    · exact .stopped _
    · exact .revoking ‹_›
  · split at acted <;> cases acted
    · exact .revoked ‹_›
    · exact .stopped _
  · cases acted
    exact .uncached
  · split at acted <;> cases acted
    · exact .stopped _
    · exact .selecting
  · cases acted
    exact .selected
  · cases acted
    exact .cascaded
  · split at acted <;> cases acted
    · exact .deleted ‹_›
    · exact .stopped _
  · cases acted
    exact .presented
  · dsimp only at acted
    split at acted <;> cases acted
    · exact .checked ‹_›
    · exact .refused (by simp_all) (by simp)
    · exact .refused (by simp_all) (by simp)
  · split at acted <;> cases acted
    · exact .unbound ‹_›
    · exact .bound ‹_›
  · next works seen token credential =>
    cases works with
    | false =>
      cases acted
      exact .missed
    | true =>
      split at acted <;> cases acted
      · exact .missed
      · exact .hit ‹_›
  · split at acted
    · cases acted
      exact .loaded ‹_›
    · simp at acted
  · cases acted
    exact .filled
  · simp at acted

structure Bound (seen : Seen) (token : ScopedToken) (credential : UpstreamCredential) : Prop where
  read : credential ∈ seen.credentials
  id : credential.id = token.upstreamCredentialId

structure Valid (settings : Settings) (seen : Seen) (tokenId : Str) : Prop where
  raw : ∃ generated, current tokenId seen.atRead = some generated ∧ seen.presented = generated.full settings.brand
  active : ¬Revoked seen.atRead tokenId
  credential : ∃ token rules, Minted seen.atRead token rules ∧ token.id = tokenId ∧
    ∃ row ∈ seen.credentials, row.id = token.upstreamCredentialId

structure Answered (settings : Settings) (history : List Change) (seen : Seen)
    (answer : Except PyError (Option ProxyAuthContext)) : Prop where
  verified : ∀ context, answer = .ok (some context) → Verified settings seen.presented seen.atRead context.token
  bound : ∀ context, answer = .ok (some context) → Bound seen context.token context.credential
  rules : ∀ context, answer = .ok (some context) → MintedRules history context.token.id context.rules
  complete : settings.Exact → ∀ tokenId, Valid settings seen tokenId → NoExpiry seen.atRead tokenId →
    ∃ context, answer = .ok (some context) ∧ context.token.id = tokenId

structure Ordered (seen : Seen) (history : List Change) : Prop where
  started : seen.atStart <:+ seen.atRead
  read : seen.atRead <:+ history

def Known (settings : Settings) (history : List Change) : Phase → Prop
  | .rotating token | .revoking token => KnownToken history token.id
  | .cascading _ tokens _ => ∀ token ∈ tokens, KnownToken history token.id
  | .presented seen => seen.atStart <:+ history
  | .verified seen token => Ordered seen history ∧ Verified settings seen.presented seen.atRead token
  | .authenticated seen token credential | .missed seen token credential =>
    Ordered seen history ∧ Verified settings seen.presented seen.atRead token ∧ Bound seen token credential
  | .loaded seen context =>
    Ordered seen history ∧ Verified settings seen.presented seen.atRead context.token ∧
      Bound seen context.token context.credential ∧ MintedRules history context.token.id context.rules
  | .resolved seen answer => Ordered seen history ∧ Answered settings history seen answer
  | _ => True

theorem Known.older {settings : Settings} {history newer : List Change} {phase : Phase}
    (older : history <:+ newer) (known : Known settings history phase) : Known settings newer phase := by
  have ordered {seen : Seen} (before : Ordered seen history) : Ordered seen newer :=
    ⟨before.started, before.read.trans older⟩
  cases phase with
  | rotating token => exact KnownToken.older older known
  | revoking token => exact KnownToken.older older known
  | cascading credentialId tokens keys => exact fun token member => (known token member).older older
  | presented seen => exact List.IsSuffix.trans known older
  | verified seen token => exact ⟨ordered known.1, known.2⟩
  | authenticated seen token credential => exact ⟨ordered known.1, known.2⟩
  | missed seen token credential => exact ⟨ordered known.1, known.2⟩
  | loaded seen context => exact ⟨ordered known.1, known.2.1, known.2.2.1, known.2.2.2.older older⟩
  | resolved seen answer =>
    obtain ⟨before, verified, bound, rules, complete⟩ := known
    exact ⟨ordered before, verified, bound, fun context same => (rules context same).older older, complete⟩
  | _ => trivial

theorem Step.history {settings : Settings} {action : Action} {s after : Shared} {phase next : Phase}
    (step : Step settings action s phase after next) : s.history <:+ after.history := by
  cases step with
  | minted => exact List.suffix_cons _ _
  | rotated => exact List.suffix_cons _ _
  | revoked => exact List.suffix_cons _ _
  | deleted => exact List.suffix_append _ _
  | uncached => simp
  | cascaded => simp
  | filled => simp
  | _ => exact List.suffix_refl _

section Steps

variable {settings : Settings} {s after : Shared} {action : Action} {phase next : Phase}

theorem cascadeDelete_ok {db result : Database} {credentialId : Str} {loaded : List ScopedToken} {now : Datetime}
    (cascade : cascadeDelete db credentialId loaded now = .ok result) :
    result.tokens = db.tokens.map (cascadeRow loaded now) ∧ result.rules = db.rules ∧
      result.credentials = db.credentials.filter (·.id != credentialId) ∧
      (db.foreignKeys = true → ∀ row ∈ db.tokens, row.upstreamCredentialId ≠ credentialId) := by
  unfold cascadeDelete Database.deleteCredential at cascade
  split at cascade
  · simp at cascade
  · next unreferenced =>
    obtain rfl := Except.ok.inj cascade
    refine ⟨rfl, rfl, rfl, fun enforced row member same => unreferenced ?_⟩
    simp only [enforced, Bool.true_and, List.any_map, List.any_eq_true, Function.comp_apply, beq_iff_eq]
    exact ⟨row, member, by simpa using same⟩

theorem Consistent.uncache (inv : Consistent settings s) (works : Bool) (keys : List Str) :
    Consistent settings (s.uncache works keys) := by
  cases works with
  | false => exact inv
  | true => exact inv.withCache (inv.cached.del keys)

theorem Consistent.fill (inv : Consistent settings s) (works : Bool) {presented : Str} {atRead : List Change}
    {token : ScopedToken} {rules : List ScopeRule} (older : atRead <:+ s.history)
    (verified : Verified settings presented atRead token) (minted : MintedRules s.history token.id rules) :
    Consistent settings (s.fill works (rulesKey token.lookupId token.version) rules) := by
  cases works with
  | false => exact inv
  | true =>
    obtain ⟨generated, issued, lookup, -⟩ := verified.issued
    have owns : Owns s.history token.id generated.lookupId := (current_owns issued).older older
    rw [lookup]
    exact inv.withCache (inv.cached.fill token.version owns minted)

theorem Step.consistent (step : Step settings action s phase after next) (inv : Consistent settings s)
    (known : Known settings s.history phase) (fresh : action.Fresh s.history) : Consistent settings after := by
  cases step with
  | registered inserted => exact inv.register inserted
  | minted inserted => exact inv.mint rfl rfl rfl fresh inserted
  | rotated updated => exact inv.rotate known fresh updated
  | @revoked now token _ db updated =>
    obtain ⟨tokens, rules, -⟩ := updateToken_ok updated
    rw [revokeRow_cascade] at tokens
    exact inv.revoke (List.forall_mem_singleton.mpr known) tokens rules
  | uncached => exact inv.uncache _ _
  | cascaded => exact inv.uncache _ _
  | deleted cascade =>
    obtain ⟨tokens, rules, -⟩ := cascadeDelete_ok cascade
    exact inv.revoke known tokens rules
  | filled =>
    obtain ⟨ordered, verified, -, minted⟩ := known
    exact inv.fill _ ordered.read verified minted
  | _ => exact inv

theorem Consistent.knows (inv : Consistent settings s) {row : ScopedToken} (member : row ∈ s.db.tokens) :
    KnownToken s.history row.id := by
  obtain ⟨token, minted, id, -⟩ := (inv.rows row member).minted
  exact ⟨token, _, minted, id⟩

variable {seen : Seen} {history : List Change}

theorem Verified.unique {presented tokenId : Str} {token : ScopedToken}
    (verified : Verified settings presented history token) (exact : settings.Exact)
    (distinct : (drawn history).Nodup)
    (raw : ∃ generated, current tokenId history = some generated ∧ presented = generated.full settings.brand) :
    token.id = tokenId := by
  obtain ⟨mine, mineIssued, -, hash⟩ := verified.issued
  obtain ⟨theirs, theirsIssued, rfl⟩ := raw
  exact current_inj distinct mineIssued theirsIssued (full_lookupId exact.brand (exact.hash hash).symm)

theorem Answered.found (distinct : (drawn seen.atRead).Nodup)
    {context : ProxyAuthContext} (verified : Verified settings seen.presented seen.atRead context.token)
    (bound : Bound seen context.token context.credential)
    (rules : MintedRules history context.token.id context.rules) :
    Answered settings history seen (.ok (some context)) where
  verified _ same := by cases same; exact verified
  bound _ same := by cases same; exact bound
  rules _ same := by cases same; exact rules
  complete exact tokenId valid _ := ⟨context, rfl, verified.unique exact distinct valid.raw⟩

theorem Answered.nothing {answer : Except PyError (Option ProxyAuthContext)}
    (empty : ∀ context, answer ≠ .ok (some context))
    (invalid : settings.Exact → ∀ tokenId, Valid settings seen tokenId → ¬NoExpiry seen.atRead tokenId) :
    Answered settings history seen answer where
  verified context same := absurd same (empty context)
  bound context same := absurd same (empty context)
  rules context same := absurd same (empty context)
  complete exact tokenId valid noExpiry := absurd noExpiry (invalid exact tokenId valid)

theorem Step.known (step : Step settings action s phase after next) (inv : Consistent settings s)
    (known : Known settings s.history phase) : Known settings after.history next := by
  cases step with
  | rotating found => exact inv.knows (List.mem_of_find?_eq_some found)
  | revoking found => exact inv.knows (List.mem_of_find?_eq_some found)
  | selected => exact fun token member => inv.knows (List.mem_of_mem_filter member)
  | cascaded => simpa [Known] using known
  | presented => exact List.suffix_refl _
  | checked passed => exact ⟨⟨known, List.suffix_refl _⟩, checkToken_verified inv passed⟩
  | refused failed empty =>
    refine ⟨⟨known, List.suffix_refl _⟩, .nothing empty fun exact tokenId valid noExpiry => ?_⟩
    obtain ⟨generated, issued, raw⟩ := valid.raw
    obtain ⟨token, passed, -⟩ := checkToken_complete inv exact.brand issued valid.active noExpiry _
    exact failed token (raw ▸ passed)
  | unbound missing =>
    obtain ⟨ordered, verified⟩ := known
    refine ⟨⟨ordered.started, ordered.read⟩, .nothing (by simp) fun exact tokenId valid _ => ?_⟩
    have same := verified.unique exact (drawn_suffix ordered.read inv.drawn) valid.raw
    obtain ⟨token, rules, minted, id, row, member, bound⟩ := valid.credential
    obtain ⟨original, originalRules, wasMinted, originalId, credential, -⟩ := verified.minted
    obtain ⟨rfl, -⟩ := inv.once _ _ _ _ (wasMinted.older ordered.read) (minted.older ordered.read)
      (originalId.trans (same.trans id.symm))
    rw [Database.credential, List.find?_eq_none] at missing
    exact missing row member (by simpa using bound.trans credential)
  | bound found =>
    obtain ⟨ordered, verified⟩ := known
    have same := List.find?_some found
    exact ⟨⟨ordered.started, ordered.read⟩, verified, List.mem_of_find?_eq_some found, by simpa using same⟩
  | hit entry =>
    obtain ⟨ordered, verified, bound⟩ := known
    obtain ⟨generated, issued, lookup, -⟩ := verified.issued
    rw [lookup] at entry
    obtain ⟨owner, rules, owns, minted, rfl⟩ := inv.cached generated _ _ entry
    obtain rfl := owns.inj inv.drawn ((current_owns issued).older ordered.read)
    rw [rulesFromCache_restores]
    exact ⟨ordered, .found (drawn_suffix ordered.read inv.drawn) verified bound minted⟩
  | missed => exact known
  | loaded selected =>
    obtain ⟨ordered, verified, bound⟩ := known
    obtain ⟨original, rules, wasMinted, id, -⟩ := verified.minted
    obtain ⟨row, member, rowId⟩ := inv.known original rules (wasMinted.older ordered.read)
    obtain ⟨token, minted, tokenId, -⟩ := (inv.rows row member).minted
    rw [rowId.trans id] at minted tokenId
    exact ⟨ordered, verified, bound, token, _, minted, tokenId, selected⟩
  | filled =>
    obtain ⟨ordered, verified, bound, rules⟩ := known
    rw [Shared.fill_history]
    exact ⟨ordered, .found (drawn_suffix ordered.read inv.drawn) verified bound rules⟩
  | _ => trivial

end Steps

section Runs

variable {ι : Type} {settings : Settings}

theorem consistent_start {s : Shared} (start : (plane ι settings).start s) : Consistent settings s := by
  obtain ⟨⟨foreignKeys, db⟩, cache, history⟩ := start
  constructor <;>
    simp [db, cache, history, Database.empty, drawn, Minted, CacheCorrect]

variable [DecidableEq ι] {c : Config ι Shared Phase}

theorem reachable_known (reached : (plane ι settings).system.Reachable fresh c) :
    Interleaving.Holds (Consistent settings) (fun _ s phase => Known settings s.history phase) c := by
  refine Interleaving.interference_free (plane ι settings) fresh _ _ ?_ ?_ ?_ ?_ reached
  · exact fun s start => ⟨consistent_start start, fun _ => trivial⟩
  · intro c p action shared phase inv unused acted
    have step := act_step acted
    exact ⟨step.consistent inv.shared (inv.procs p) unused, step.known inv.shared (inv.procs p)⟩
  · intro c p action shared phase other inv unused acted apart
    exact (inv.procs other).older (act_step acted).history
  · intro c key shared inv unused lost
    obtain rfl := Option.some.inj lost
    exact ⟨inv.shared.uncache true [key], fun p => by simpa using inv.procs p⟩

end Runs

end CfProxy.TokenPlane
