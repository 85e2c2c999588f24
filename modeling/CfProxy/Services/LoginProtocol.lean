import Mathlib.Data.List.Perm.Subperm
import CfProxy.Services.LoginPlane

set_option autoImplicit false

namespace CfProxy.LoginPlane

open Machine Models Cache Crypto OauthCf OauthService

variable {ι : Type}

section Steps

variable (oauth : Oauth) (fernet : Fernet) (collation : Collation) (p : ι)

inductive Step : Action → Shared ι → Phase ι → Shared ι → Phase ι → Prop
  | started {drawn : Drawn} {s : Shared ι} :
      Step (.start drawn) s .idle { s with issues := ⟨p, drawn⟩ :: s.issues } (.starting drawn)
  | stored {stored : Bool} {drawn : Drawn} {s : Shared ι} :
      Step (.storeState stored) s (.starting drawn) (if stored then s.store p drawn else s)
        (.redirected (drawn.authorizeUrl oauth))
  | presented {code state : Str} {s : Shared ι} : Step (.callback code state) s .idle s (.presented code state)
  | consumed {code state : Str} {entry : Entry ι} {s : Shared ι} (found : s.states (oauthStateKey state) = some entry) :
      Step (.consume .answered) s (.presented code state) (s.take p code state entry) (.consumed code state entry)
  | dropped {code state : Str} {entry : Entry ι} {s : Shared ι} (found : s.states (oauthStateKey state) = some entry) :
      Step (.consume .lost) s (.presented code state) (s.take p code state entry) (.failed invalidState)
  | exchanged {code state : Str} {entry : Entry ι} {verifier : Json} {reply : Except PyError Response} {s : Shared ι}
      {next : Phase ι} (read : entry.value.item verifierKey = .ok verifier)
      (answered : (∃ raised, next = .failed raised) ∨ ∃ tokens,
        exchangeCode oauth (fun _ => reply) code verifier = .ok tokens ∧ next = .exchanged code state entry tokens) :
      Step (.exchange reply) s (.consumed code state entry)
        { s with exchanges := ⟨p, codeForm oauth code verifier, reply⟩ :: s.exchanges } next
  | identified {code state : Str} {entry : Entry ι} {tokens : Json} {now : Int} {jwks : Jwks} {identity : Identity}
      {s : Shared ι} (valid : identify oauth now jwks entry.value code tokens = .ok identity) :
      Step (.validate now jwks) s (.exchanged code state entry tokens) s
        (.identified { code, state, entry, tokens, now, jwks, identity })
  | selected {login : Login ι} {found : Option User} {s : Shared ι}
      (searched : OauthService.selectUser collation s.users login.identity.sub = .ok found) :
      Step .selectUser s (.identified login) s (.selected login found)
  | picked {newId : Str} {login : Login ι} {found : Option User} {user : UserWrite}
      {credential : Option UpstreamCredential} {s : Shared ι}
      (upserted : upsertUser found newId login.identity = .ok user) :
      Step (.selectCredential newId) s (.selected login found) s (.writing login user credential)
  | committed {drawn : Str × Str} {newId : Str} {now : Datetime} {login : Login ι} {user : UserWrite}
      {credential : Option UpstreamCredential} {users : List User} {db : Database} {s : Shared ι}
      (wrote : user.write collation s.users = .ok users) :
      Step (.commit drawn newId now) s (.writing login user credential) { s with users, db }
        (.committed login user.userId)
  | issued {now : Int} {login : Login ι} {user : User} {s : Shared ι} (member : user ∈ s.users) :
      Step (.issue now) s (.committed login user.id) s (.issued login (createJwt oauth now user.id))
  | failed {action : Action} {s : Shared ι} {phase : Phase ι} {raised : PyError}
      (unfinished : phase.finished = false) : Step action s phase s (.failed raised)

variable {oauth fernet collation p}

theorem act_step {action : Action} {s after : Shared ι} {phase next : Phase ι}
    (acted : act oauth fernet collation p action s phase = some (after, next)) :
    Step oauth collation p action s phase after next := by
  unfold act at acted
  split at acted
  · cases acted
    exact .started
  · cases acted
    exact .stored
  · cases acted
    exact .presented
  · split at acted <;> cases acted
    · exact .consumed ‹_›
    · exact .dropped ‹_›
    · exact .failed rfl
  · split at acted
    · cases acted
      exact .failed rfl
    · next verifier read =>
      dsimp only at acted
      split at acted <;> cases acted
      · exact .exchanged read (.inr ⟨_, ‹_›, rfl⟩)
      · exact .exchanged read (.inl ⟨_, rfl⟩)
  · split at acted <;> cases acted
    · exact .identified ‹_›
    · exact .failed rfl
  · split at acted <;> cases acted
    · exact .selected ‹_›
    · exact .failed rfl
  · split at acted <;> cases acted
    · next picked =>
      obtain ⟨user, upserted, picked⟩ := Except.bind_eq_ok.mp picked
      obtain ⟨credential, -, picked⟩ := Except.bind_eq_ok.mp picked
      cases picked
      exact .picked upserted
    · exact .failed rfl
  · split at acted <;> cases acted
    · next wrote =>
      obtain ⟨delivered, -, wrote⟩ := Except.bind_eq_ok.mp wrote
      obtain ⟨users, written, wrote⟩ := Except.bind_eq_ok.mp wrote
      obtain ⟨db, -, wrote⟩ := Except.bind_eq_ok.mp wrote
      cases wrote
      exact .committed written
    · exact .failed rfl
  · split at acted
    · next user found =>
      cases acted
      obtain rfl : user.id = _ := by simpa using List.find?_some found
      exact .issued (List.mem_of_find?_eq_some found)
    · cases acted
      exact .failed rfl
  · split at acted
    · simp at acted
    · next unfinished =>
      cases acted
      exact .failed (by simpa using unfinished)
  · simp at acted

end Steps

structure Shared.Grows (s after : Shared ι) : Prop where
  issues : s.issues ⊆ after.issues
  consumptions : s.consumptions ⊆ after.consumptions
  exchanges : s.exchanges ⊆ after.exchanges
  users : KeepsSubs s.users after.users

theorem Shared.Grows.refl (s : Shared ι) : s.Grows s := ⟨fun _ => id, fun _ => id, fun _ => id, .refl s.users⟩

section Subjects

variable (reading : Collation)

def Shared.HasSub (s : Shared ι) (userId sub : Str) : Prop :=
  ∃ user ∈ s.users, user.id = userId ∧ reading.holds user.cfSub sub = true

variable {reading}

theorem Shared.Grows.hasSub {s after : Shared ι} (grows : s.Grows after) {userId sub : Str}
    (holds : s.HasSub reading userId sub) : after.HasSub reading userId sub := by
  obtain ⟨user, member, rfl, held⟩ := holds
  obtain ⟨later, present, same, kept⟩ := grows.users user member
  exact ⟨later, present, same, kept ▸ held⟩

end Subjects

structure Ledger (collation : Collation) (s : Shared ι) : Prop where
  starts : (s.issues.map (·.start)).Nodup
  kept : ∀ key entry, s.states key = some entry → ∃ drawn, ⟨entry.start, drawn⟩ ∈ s.issues ∧
    key = oauthStateKey drawn.state ∧ entry.value = drawn.stored
  unspent : ∀ key entry, s.states key = some entry → ∀ spent ∈ s.consumptions, spent.entry.start ≠ entry.start
  once : (s.consumptions.map (·.entry.start)).Nodup
  spent : ∀ spent ∈ s.consumptions, ∃ drawn, ⟨spent.entry.start, drawn⟩ ∈ s.issues ∧
    spent.state = drawn.state ∧ spent.entry.value = drawn.stored
  users : DistinctUsers collation s.users

section Facts

variable (oauth : Oauth) (reading : Collation) (s : Shared ι) (p : ι)

structure Exchanged (code state : Str) (entry : Entry ι) (tokens : Json) : Prop where
  consumed : ⟨p, code, state, entry⟩ ∈ s.consumptions
  answered : ∃ verifier reply, entry.value.item verifierKey = .ok verifier ∧
    ⟨p, codeForm oauth code verifier, reply⟩ ∈ s.exchanges ∧ readTokens reply = .ok tokens

structure Identified (login : Login ι) : Prop where
  exchanged : Exchanged oauth s p login.code login.state login.entry login.tokens
  valid : identify oauth login.now login.jwks login.entry.value login.code login.tokens = .ok login.identity

def Names (sub : Str) : UserWrite → Prop
  | .insert row => row.cfSub = some sub
  | .keep userId _ => s.HasSub reading userId sub

def Past : Phase ι → Prop
  | .consumed code state entry => ⟨p, code, state, entry⟩ ∈ s.consumptions
  | .exchanged code state entry tokens => Exchanged oauth s p code state entry tokens
  | .identified login => Identified oauth s p login
  | .selected login found => Identified oauth s p login ∧ ∀ user ∈ found, s.HasSub reading user.id login.identity.sub
  | .writing login user _ => Identified oauth s p login ∧ Names reading s login.identity.sub user
  | .committed login userId => Identified oauth s p login ∧ s.HasSub reading userId login.identity.sub
  | .issued login session => Identified oauth s p login ∧ s.HasSub reading session.sub login.identity.sub
  | _ => True

def Unused : Phase ι → Prop
  | .idle => ∀ issue ∈ s.issues, issue.start ≠ p
  | .starting drawn => ⟨p, drawn⟩ ∈ s.issues ∧ (∀ key entry, s.states key = some entry → entry.start ≠ p) ∧
    ∀ spent ∈ s.consumptions, spent.entry.start ≠ p
  | _ => True

end Facts

section Preserved

variable {oauth : Oauth} {collation reading : Collation} {s after : Shared ι} {p q : ι} {action : Action}
  {phase next : Phase ι}

theorem Exchanged.grows {code state : Str} {entry : Entry ι} {tokens : Json} (grows : s.Grows after)
    (past : Exchanged oauth s p code state entry tokens) : Exchanged oauth after p code state entry tokens := by
  obtain ⟨verifier, reply, read, sent, tokens⟩ := past.answered
  exact ⟨grows.consumptions past.consumed, verifier, reply, read, grows.exchanges sent, tokens⟩

theorem Identified.grows {login : Login ι} (grows : s.Grows after) (past : Identified oauth s p login) :
    Identified oauth after p login :=
  ⟨past.exchanged.grows grows, past.valid⟩

theorem Names.grows {sub : Str} {write : UserWrite} (grows : s.Grows after) (names : Names reading s sub write) :
    Names reading after sub write := by
  cases write with
  | insert row => exact names
  | keep userId email => exact grows.hasSub names

theorem Past.grows (grows : s.Grows after) (past : Past oauth reading s p phase) : Past oauth reading after p phase := by
  cases phase with
  | consumed => exact grows.consumptions past
  | exchanged => exact @Exchanged.grows _ _ _ _ _ _ _ _ _ grows past
  | identified => exact @Identified.grows _ _ _ _ _ _ grows past
  | selected => exact ⟨past.1.grows grows, fun user found => grows.hasSub (past.2 user found)⟩
  | writing => exact ⟨past.1.grows grows, past.2.grows grows⟩
  | committed => exact ⟨past.1.grows grows, grows.hasSub past.2⟩
  | issued => exact ⟨past.1.grows grows, grows.hasSub past.2⟩
  | _ => trivial

theorem Step.grows (step : Step oauth collation p action s phase after next) : s.Grows after := by
  cases step with
  | started => exact ⟨List.subset_cons_self _ _, fun _ => id, fun _ => id, .refl _⟩
  | @stored stored =>
    cases stored
    · exact .refl s
    · exact ⟨fun _ => id, fun _ => id, fun _ => id, .refl _⟩
  | consumed => exact ⟨fun _ => id, List.subset_cons_self _ _, fun _ => id, .refl _⟩
  | dropped => exact ⟨fun _ => id, List.subset_cons_self _ _, fun _ => id, .refl _⟩
  | exchanged => exact ⟨fun _ => id, fun _ => id, List.subset_cons_self _ _, .refl _⟩
  | committed wrote => exact ⟨fun _ => id, fun _ => id, fun _ => id, UserWrite.keepsSubs wrote⟩
  | _ => exact .refl s

theorem selectUser_some {users : List User} {sub : Str} {user : User}
    (searched : OauthService.selectUser collation users sub = .ok (some user)) :
    user ∈ users ∧ collation.holds user.cfSub sub = true := by
  simpa using scalarOneOrNone_some searched

theorem upsertUser_names {found : Option User} {newId : Str} {identity : Identity} {write : UserWrite}
    (upserted : upsertUser found newId identity = .ok write)
    (holds : ∀ user ∈ found, s.HasSub reading user.id identity.sub) : Names reading s identity.sub write := by
  unfold upsertUser at upserted
  split at upserted
  · obtain ⟨email, -, upserted⟩ := Except.bind_eq_ok.mp upserted
    cases upserted
    rfl
  · next user =>
    have known := holds user rfl
    split at upserted
    · cases text : columnText identity.email <;> rw [text] at upserted <;> cases upserted
      exact known
    · cases upserted
      exact known

theorem Names.wrote {sub : Str} {write : UserWrite} {users : List User} {db : Database}
    (names : Names reading s sub write) (wrote : write.write collation s.users = .ok users) :
    Shared.HasSub reading { s with users, db } write.userId sub := by
  cases write with
  | insert row => exact ⟨row, by simp [insertUser_ok wrote], rfl, by simp [show row.cfSub = some sub from names]⟩
  | keep userId email =>
    have grows : s.Grows { s with users, db } := ⟨fun _ => id, fun _ => id, fun _ => id, UserWrite.keepsSubs wrote⟩
    exact grows.hasSub names

-- Where the account is looked for, what the database finds is what the subject is read as.
def Found (collation reading : Collation) (s : Shared ι) (phase : Phase ι) (action : Action) : Prop :=
  ∀ login, phase = .identified login → action = .selectUser → ∀ user ∈ s.users,
    collation.holds user.cfSub login.identity.sub = true → reading.holds user.cfSub login.identity.sub = true

theorem Step.past (step : Step oauth collation p action s phase after next) (finds : Found collation reading s phase action)
    (past : Past oauth reading s p phase) : Past oauth reading after p next := by
  have grows := step.grows
  cases step with
  | consumed => exact List.mem_cons_self
  | exchanged read answered =>
    obtain ⟨raised, rfl⟩ | ⟨tokens, exchanged, rfl⟩ := answered
    · trivial
    · exact ⟨past, _, _, read, List.mem_cons_self, exchanged⟩
  | identified valid => exact ⟨past, valid⟩
  | selected searched =>
    refine ⟨past, ?_⟩
    rintro user ⟨⟩
    obtain ⟨member, held⟩ := selectUser_some searched
    exact ⟨user, member, rfl, finds _ rfl rfl user member held⟩
  | picked upserted => exact ⟨past.1, upsertUser_names upserted past.2⟩
  | committed wrote => exact ⟨past.1.grows grows, past.2.wrote wrote⟩
  | issued => exact past
  | _ => trivial

theorem oauthStateKey_inj {first second : Str} (same : oauthStateKey first = oauthStateKey second) : first = second :=
  List.append_cancel_left same

theorem Ledger.drawn_unique (ledger : Ledger collation s) {start : ι} {first second : Drawn} (issued : ⟨start, first⟩ ∈ s.issues)
    (also : ⟨start, second⟩ ∈ s.issues) : first = second := by
  have same := List.inj_on_of_nodup_map ledger.starts issued also rfl
  exact congrArg Issue.drawn same

theorem forget_states {key other : Str} {entry : Entry ι} (stays : (s.forget key).states other = some entry) :
    s.states other = some entry ∧ other ≠ key := by
  by_cases gone : other = key
  · simp [Shared.forget, gone] at stays
  · exact ⟨by simpa [Shared.forget, gone] using stays, gone⟩

theorem Ledger.take (ledger : Ledger collation s) {code state : Str} {entry : Entry ι}
    (found : s.states (oauthStateKey state) = some entry) : Ledger collation (s.take p code state entry) := by
  obtain ⟨drawn, issued, key, value⟩ := ledger.kept _ entry found
  have same : state = drawn.state := oauthStateKey_inj key
  constructor
  · exact ledger.starts
  · intro key other stays
    exact ledger.kept key other (forget_states stays).1
  · intro key other stays spent member
    obtain ⟨stayed, elsewhere⟩ := forget_states stays
    rcases List.mem_cons.mp member with rfl | old
    · intro sameStart
      obtain ⟨otherDrawn, otherIssued, otherKey, -⟩ := ledger.kept key other stayed
      obtain rfl := ledger.drawn_unique (sameStart ▸ issued) otherIssued
      exact elsewhere (otherKey.trans (congrArg oauthStateKey same.symm))
    · exact ledger.unspent key other stayed spent old
  · refine List.nodup_cons.mpr ⟨?_, ledger.once⟩
    intro again
    obtain ⟨spent, member, sameStart⟩ := List.mem_map.mp again
    exact ledger.unspent _ entry found spent member sameStart
  · intro spent member
    rcases List.mem_cons.mp member with rfl | old
    · exact ⟨drawn, issued, same, value⟩
    · exact ledger.spent spent old
  · exact ledger.users

theorem Ledger.forget (ledger : Ledger collation s) (key : Str) : Ledger collation (s.forget key) where
  starts := ledger.starts
  kept other entry stays := ledger.kept other entry (forget_states stays).1
  unspent other entry stays := ledger.unspent other entry (forget_states stays).1
  once := ledger.once
  spent := ledger.spent
  users := ledger.users

theorem Ledger.store (ledger : Ledger collation s) {drawn : Drawn} (unused : Unused s p (.starting drawn)) :
    Ledger collation (s.store p drawn) := by
  obtain ⟨issued, unstored, unspent⟩ := unused
  constructor
  · exact ledger.starts
  · intro key entry held
    by_cases here : key = oauthStateKey drawn.state
    · obtain rfl : ⟨drawn.stored, p⟩ = entry := by simpa [Shared.store, here] using held
      exact ⟨drawn, issued, here, rfl⟩
    · exact ledger.kept key entry (by simpa [Shared.store, here] using held)
  · intro key entry held
    by_cases here : key = oauthStateKey drawn.state
    · obtain rfl : ⟨drawn.stored, p⟩ = entry := by simpa [Shared.store, here] using held
      exact unspent
    · exact ledger.unspent key entry (by simpa [Shared.store, here] using held)
  · exact ledger.once
  · exact ledger.spent
  · exact ledger.users

theorem Ledger.start (ledger : Ledger collation s) {drawn : Drawn} (unused : Unused s p .idle) :
    Ledger collation { s with issues := ⟨p, drawn⟩ :: s.issues } := by
  constructor
  · refine List.nodup_cons.mpr ⟨?_, ledger.starts⟩
    intro again
    obtain ⟨issue, member, mine⟩ := List.mem_map.mp again
    exact unused issue member mine
  · intro key entry held
    obtain ⟨other, issued, rest⟩ := ledger.kept key entry held
    exact ⟨other, List.mem_cons_of_mem _ issued, rest⟩
  · exact ledger.unspent
  · exact ledger.once
  · intro spent member
    obtain ⟨other, issued, rest⟩ := ledger.spent spent member
    exact ⟨other, List.mem_cons_of_mem _ issued, rest⟩
  · exact ledger.users

theorem Step.ledger (step : Step oauth collation p action s phase after next) (ledger : Ledger collation s)
    (unused : Unused s p phase) : Ledger collation after := by
  cases step with
  | started => exact ledger.start unused
  | @stored stored =>
    cases stored
    · exact ledger
    · exact ledger.store unused
  | consumed found => exact ledger.take found
  | dropped found => exact ledger.take found
  | committed wrote => exact { ledger with users := UserWrite.distinct ledger.users wrote }
  | exchanged => exact { ledger with }
  | _ => exact ledger

theorem Step.unused (step : Step oauth collation p action s phase after next) (ledger : Ledger collation s)
    (unused : Unused s p phase) : Unused after p next := by
  cases step with
  | started =>
    refine ⟨List.mem_cons_self, ?_, ?_⟩
    · intro key entry held mine
      obtain ⟨drawn, issued, -⟩ := ledger.kept key entry held
      exact unused _ issued mine
    · intro spent member mine
      obtain ⟨drawn, issued, -⟩ := ledger.spent spent member
      exact unused _ issued mine
  | exchanged read answered => obtain ⟨raised, rfl⟩ | ⟨tokens, -, rfl⟩ := answered <;> trivial
  | _ => trivial

structure Own (p : ι) (s after : Shared ι) : Prop where
  issues : ∀ issue ∈ after.issues, issue ∈ s.issues ∨ issue.start = p
  states : ∀ key entry, after.states key = some entry → s.states key = some entry ∨ entry.start = p
  consumptions : ∀ spent ∈ after.consumptions, spent ∈ s.consumptions ∨ ∃ key, s.states key = some spent.entry

theorem Own.refl (p : ι) (s : Shared ι) : Own p s s :=
  ⟨fun _ => .inl, fun _ _ => .inl, fun _ => .inl⟩

theorem Own.take {code state : Str} {entry : Entry ι} (found : s.states (oauthStateKey state) = some entry) :
    Own p s (s.take p code state entry) := by
  constructor
  · exact fun _ => .inl
  · exact fun key other held => .inl (forget_states held).1
  · intro spent member
    rcases List.mem_cons.mp member with rfl | old
    · exact .inr ⟨_, found⟩
    · exact .inl old

theorem Own.store (drawn : Drawn) : Own p s (s.store p drawn) := by
  constructor
  · exact fun _ => .inl
  · intro key other held
    by_cases here : key = oauthStateKey drawn.state
    · obtain rfl : ⟨drawn.stored, p⟩ = other := by simpa [Shared.store, here] using held
      exact .inr rfl
    · exact .inl (by simpa [Shared.store, here] using held)
  · exact fun _ => .inl

theorem Step.own (step : Step oauth collation p action s phase after next) : Own p s after := by
  cases step with
  | started =>
    refine ⟨?_, fun _ _ => .inl, fun _ => .inl⟩
    intro issue member
    rcases List.mem_cons.mp member with rfl | old
    · exact .inr rfl
    · exact .inl old
  | @stored stored =>
    cases stored
    · exact .refl p s
    · exact .store _
  | consumed found => exact .take found
  | dropped found => exact .take found
  | _ => exact ⟨fun _ => .inl, fun _ _ => .inl, fun _ => .inl⟩

theorem Unused.others (unused : Unused s q phase) (own : Own p s after) (grows : s.Grows after) (apart : q ≠ p) :
    Unused after q phase := by
  cases phase with
  | idle =>
    intro issue member
    rcases own.issues issue member with old | rfl
    · exact unused issue old
    · exact apart.symm
  | starting drawn =>
    obtain ⟨issued, unstored, unspent⟩ := unused
    refine ⟨grows.issues issued, ?_, ?_⟩
    · intro key entry held
      rcases own.states key entry held with old | rfl
      · exact unstored key entry old
      · exact apart.symm
    · intro spent member
      rcases own.consumptions spent member with old | ⟨key, held⟩
      · exact unspent spent old
      · exact unstored key spent.entry held
  | _ => trivial

theorem env_ledger {event : Event} (ledger : Ledger collation s) (changed : env collation event s = some after) :
    Ledger collation after := by
  unfold env at changed
  split at changed
  · cases changed
    exact ledger.forget _
  · split at changed <;> cases changed
    exact { ledger with users := ledger.users.insert ‹_› }
  · cases changed
    exact { ledger with }

theorem env_grows {event : Event} (changed : env collation event s = some after) : s.Grows after := by
  unfold env at changed
  split at changed
  · cases changed
    exact ⟨fun _ => id, fun _ => id, fun _ => id, .refl _⟩
  · split at changed <;> cases changed
    exact ⟨fun _ => id, fun _ => id, fun _ => id, insertUser_keepsSubs ‹_›⟩
  · cases changed
    exact ⟨fun _ => id, fun _ => id, fun _ => id, .refl _⟩

theorem Unused.forget (unused : Unused s p phase) (key : Str) : Unused (s.forget key) p phase := by
  cases phase with
  | idle => exact unused
  | starting => exact ⟨unused.1, fun other entry held => unused.2.1 other entry (forget_states held).1, unused.2.2⟩
  | _ => trivial

theorem env_unused {event : Event} (changed : env collation event s = some after) (unused : Unused s p phase) :
    Unused after p phase := by
  unfold env at changed
  split at changed
  · cases changed
    exact unused.forget _
  · split at changed <;> cases changed
    cases phase <;> exact unused
  · cases changed
    cases phase <;> exact unused

end Preserved

section Sessions

variable {oauth : Oauth} {collation reading : Collation}

structure SignedIn (oauth : Oauth) (s : Shared ι) (p : ι) (login : Login ι) (drawn : Drawn) : Prop where
  issued : ⟨login.entry.start, drawn⟩ ∈ s.issues
  consumed : ⟨p, login.code, drawn.state, login.entry⟩ ∈ s.consumptions
  exchanged : ∃ reply, ⟨p, [("grant_type".toList, .str "authorization_code".toList), ("code".toList, .str login.code),
    ("redirect_uri".toList, .str oauth.redirectUri), ("client_id".toList, .str oauth.clientId),
    ("client_secret".toList, .str oauth.clientSecret), ("code_verifier".toList, .str drawn.verifier)], reply⟩ ∈
      s.exchanges ∧ readTokens reply = .ok login.tokens
  validated : ∃ accessToken, login.tokens.getAttr idTokenKey = .ok login.identity.idToken ∧
    login.tokens.getAttr accessTokenKey = .ok accessToken ∧
    validateIdToken oauth login.now login.jwks login.identity.idToken (.str drawn.nonce) accessToken
      (.str login.code) = .ok login.identity.claims
  subject : login.identity.claims.lookup subKey = some (.str login.identity.sub)

theorem Identified.signedIn {s : Shared ι} {p : ι} {login : Login ι} (ledger : Ledger collation s)
    (identified : Identified oauth s p login) : ∃ drawn, SignedIn oauth s p login drawn := by
  have consumed := identified.exchanged.consumed
  obtain ⟨drawn, issued, state, value⟩ := ledger.spent _ consumed
  obtain ⟨verifier, reply, read, sent, answered⟩ := identified.exchanged.answered
  obtain ⟨nonce, accessToken, nonceRead, idToken, access, validated, subject⟩ := identify_validates identified.valid
  have stored : login.entry.value = drawn.stored := value
  rw [stored, drawn.stored_verifier] at read
  rw [stored, drawn.stored_nonce] at nonceRead
  cases read
  cases nonceRead
  have sameState : login.state = drawn.state := state
  exact ⟨drawn, issued, sameState ▸ consumed, ⟨reply, sent, answered⟩, ⟨accessToken, idToken, access, validated⟩,
    subject⟩

theorem Ledger.user_unique {s : Shared ι} (ledger : Ledger collation s)
    (finer : ∀ left right, reading.same left right = true → collation.same left right = true)
    {first second firstSub secondSub : Str} (holdsFirst : s.HasSub reading first firstSub)
    (holdsSecond : s.HasSub reading second secondSub) : reading.same firstSub secondSub = true ↔ first = second := by
  obtain ⟨user, member, rfl, held⟩ := holdsFirst
  obtain ⟨other, otherMember, rfl, otherHeld⟩ := holdsSecond
  obtain ⟨sub, column, alike⟩ := Collation.holds_iff.mp held
  obtain ⟨otherSub, otherColumn, otherAlike⟩ := Collation.holds_iff.mp otherHeld
  constructor
  · intro same
    have subs : reading.same sub otherSub = true :=
      Collation.same_trans (Collation.same_trans alike same) (Collation.same_symm otherAlike)
    refine ledger.users.subs user member other otherMember ?_
    rw [column, otherColumn]
    exact finer _ _ subs
  · intro same
    obtain rfl := List.inj_on_of_nodup_map ledger.users.ids member otherMember same
    rw [column] at otherColumn
    cases otherColumn
    exact Collation.same_trans (Collation.same_symm alike) otherAlike

theorem Ledger.consumed_le_issued {s : Shared ι} (ledger : Ledger collation s) (state : Str) :
    (s.consumptions.map (·.state)).count state ≤ (s.issues.map (·.drawn.state)).count state := by
  have starts : ((s.consumptions.filter (·.state == state)).map (·.entry.start)).Nodup :=
    ledger.once.sublist (List.filter_sublist.map _)
  have issued : (s.consumptions.filter (·.state == state)).map (·.entry.start) ⊆
      (s.issues.filter (·.drawn.state == state)).map (·.start) := by
    intro start member
    obtain ⟨spent, consumed, rfl⟩ := List.mem_map.mp member
    obtain ⟨consumed, same⟩ := List.mem_filter.mp consumed
    obtain ⟨drawn, issued, isState, -⟩ := ledger.spent spent consumed
    exact List.mem_map.mpr ⟨_, List.mem_filter.mpr ⟨issued, isState ▸ same⟩, rfl⟩
  have fewer := (starts.subperm issued).length_le
  simp only [List.count, List.countP_map]
  simpa [List.countP_eq_length_filter, Function.comp_def] using fewer

end Sessions

section Reachable

variable [DecidableEq ι] {oauth : Oauth} {fernet : Fernet} {collation reading : Collation} {foreignKeys : Bool}
  {ok : Config ι (Shared ι) (Phase ι) → Move ι Action Event → Prop} {c : Config ι (Shared ι) (Phase ι)}

theorem reachable_holds (finds : ∀ c p action, ok c (.own p action) → Found collation reading c.shared (c.procs p) action)
    (reached : (logins oauth fernet collation foreignKeys).system.Reachable ok c) :
    Interleaving.Holds (Ledger collation) (fun p s phase => Unused s p phase ∧ Past oauth reading s p phase) c := by
  apply Interleaving.interference_free _ _ _ _ ?_ ?_ ?_ ?_ reached
  · rintro shared rfl
    refine ⟨?_, fun p => ⟨?_, trivial⟩⟩
    · constructor <;> simp [DistinctUsers.nil]
    · intro issue member
      simp at member
  · intro c p action shared phase inv allowed acted
    have step := act_step acted
    have mine := inv.procs p
    exact ⟨step.ledger inv.shared mine.1, step.unused inv.shared mine.1, step.past (finds c p action allowed) mine.2⟩
  · intro c p action shared phase other inv _ acted apart
    have step := act_step acted
    have theirs := inv.procs other
    exact ⟨theirs.1.others step.own step.grows apart, theirs.2.grows step.grows⟩
  · intro c event shared inv _ changed
    refine ⟨env_ledger inv.shared changed, fun p => ?_⟩
    have theirs := inv.procs p
    exact ⟨env_unused changed theirs.1, theirs.2.grows (env_grows changed)⟩

omit [DecidableEq ι] in
theorem found_as_compared (c : Config ι (Shared ι) (Phase ι)) (p : ι) (action : Action)
    (_ : System.unrestricted c (.own p action : Move ι Action Event)) :
    Found collation collation c.shared (c.procs p) action :=
  fun _ _ _ _ _ held => held

omit [DecidableEq ι] in
theorem session_of {p : ι} {login : Login ι} {session : Session}
    (holds : Interleaving.Holds (Ledger collation) (fun p s phase => Unused s p phase ∧ Past oauth reading s p phase) c)
    (issued : c.procs p = .issued login session) :
    (∃ drawn, SignedIn oauth c.shared p login drawn) ∧ c.shared.HasSub reading session.sub login.identity.sub := by
  have past := (holds.procs p).2
  rw [issued] at past
  obtain ⟨identified, user⟩ := past
  exact ⟨identified.signedIn holds.shared, user⟩

-- Every account that the database takes for the subject's has that very subject.
def asGiven (collation : Collation) (s : Shared ι) : Phase ι → Action → Bool
  | .identified login, .selectUser =>
    s.users.all fun user => !collation.holds user.cfSub login.identity.sub || user.cfSub == some login.identity.sub
  | _, _ => true

omit [DecidableEq ι] in
theorem asGiven_found (c : Config ι (Shared ι) (Phase ι)) (p : ι) (action : Action)
    (given : Interleaving.acting (asGiven collation) c (.own p action : Move ι Action Event)) :
    Found collation .exact c.shared (c.procs p) action := by
  rintro login phase rfl user member held
  have all : asGiven collation c.shared (c.procs p) .selectUser = true := given
  simp only [phase, asGiven, List.all_eq_true, Bool.or_eq_true, Bool.not_eq_true', beq_iff_eq] at all
  rcases all user member with other | same
  · rw [other] at held
    cases held
  · rw [Collation.exact_holds, same]

theorem login_protocol (oauth : Oauth) (fernet : Fernet) (collation : Collation) (foreignKeys : Bool)
    {c : Config ι (Shared ι) (Phase ι)}
    (reached : (logins oauth fernet collation foreignKeys).system.Reachable
      (Interleaving.acting (asGiven collation)) c) :
    (c.shared.consumptions.map (·.entry.start)).Nodup ∧
      (∀ state, (c.shared.consumptions.map (·.state)).count state ≤
        (c.shared.issues.map (·.drawn.state)).count state) ∧
      (∀ p login session, c.procs p = .issued login session →
        (∃ drawn, SignedIn oauth c.shared p login drawn) ∧
          ∃ user ∈ c.shared.users, user.id = session.sub ∧ user.cfSub = some login.identity.sub) ∧
      ∀ p q login other session otherSession, c.procs p = .issued login session →
        c.procs q = .issued other otherSession →
        (login.identity.sub = other.identity.sub ↔ session.sub = otherSession.sub) := by
  have holds := reachable_holds asGiven_found reached
  refine ⟨holds.shared.once, holds.shared.consumed_le_issued, ?_, ?_⟩
  · intro p login session issued
    obtain ⟨signedIn, user, member, isUser, held⟩ := session_of holds issued
    exact ⟨signedIn, user, member, isUser, Collation.exact_holds.mp held⟩
  · intro p q login other session otherSession first second
    have unique := holds.shared.user_unique (by simp) (session_of holds first).2 (session_of holds second).2
    rwa [Collation.exact_same, beq_iff_eq] at unique

end Reachable

section Example

def aliceSub : Str := "alice".toList

-- An issuer whose id_tokens are a subject and a nonce, with a dot between them.
def letters : Json → Str
  | .str text => text
  | _ => []

def subjectOf (idToken : Json) : Str := (letters idToken).takeWhile (· != '.')

def nonceOf (idToken : Json) : Str := ((letters idToken).dropWhile (· != '.')).drop 1

def aliceOauth : Oauth where
  issuer := []
  clientId := []
  clientSecret := []
  redirectUri := []
  baseScopes := []
  dnsScope := []
  accessTokenSkew := 60
  jwtTtlSeconds := 3600
  sha256 := id
  jwt := {
    unverifiedHeader := fun _ => .ok [("alg".toList, .str rs256)]
    decode := fun _ _ idToken _ => .ok [(subKey, .str (subjectOf idToken)), (nonceKey, .str (nonceOf idToken))] }

def plainFernet : Fernet where
  encryptSecret _ plaintext := plaintext
  decryptSecret := .ok
  roundTrip _ _ := rfl

def keySet : Json := .obj [("keys".toList, .arr [.obj []])]

abbrev Request := Move (Fin 6) Action Event

def digit (p : Fin 6) : Char := Char.ofNat (p + 48)

def drawnBy (p : Fin 6) : Drawn := ⟨['v', digit p], ['s', digit p], ['n', digit p]⟩

def idTokenOf (sub nonce : Str) : Json := .str (sub ++ '.' :: nonce)

def begins (p : Fin 6) : List Request := [.own p (.start (drawnBy p)), .own p (.storeState true)]

def arrives (p start : Fin 6) (sub : Str) : List Request :=
  [.own p (.callback "code".toList (drawnBy start).state), .own p (.consume .answered),
    .own p (.exchange (.ok ⟨200, .ok (.obj [(idTokenKey, idTokenOf sub (drawnBy start).nonce)])⟩)),
    .own p (.validate 0 ⟨.ok keySet, .ok keySet⟩), .own p .selectUser]

def enters (p : Fin 6) : List Request :=
  [.own p (.selectCredential ['u', digit p]), .own p (.commit ([], []) ['c', digit p] (.utc 0)), .own p (.issue 0)]

def signedInAs {ι : Type} : Phase ι → Option (Str × Str)
  | .issued login session => some (login.identity.sub, session.sub)
  | _ => none

def nobody : Config (Fin 6) (Shared (Fin 6)) (Phase (Fin 6)) := ⟨{ db := .empty true }, fun _ => .idle⟩

theorem signedInAs_some {ι : Type} {phase : Phase ι} {sub userId : Str} (signed : signedInAs phase = some (sub, userId)) :
    ∃ login session, phase = .issued login session ∧ login.identity.sub = sub ∧ session.sub = userId := by
  cases phase with
  | issued login session =>
    cases signed
    exact ⟨login, session, rfl, rfl, rfl⟩
  | _ => simp [signedInAs] at signed

-- Two first logins interleave, and a third one comes after them.
def threeLogins : List Request :=
  begins 0 ++ begins 1 ++ begins 2 ++ arrives 3 0 aliceSub ++ arrives 4 1 aliceSub ++ enters 3 ++
    (enters 4).take 2 ++ arrives 5 2 aliceSub ++ enters 5

theorem same_subject_same_user : ∃ c : Config (Fin 6) (Shared (Fin 6)) (Phase (Fin 6)),
    ∃ login session other otherSession drawn, c.procs 3 = .issued login session ∧ c.procs 5 = .issued other otherSession ∧
      SignedIn aliceOauth c.shared 3 login drawn ∧ session.sub = otherSession.sub := by
  have ran : ((((logins aliceOauth plainFernet .ignoringCase true).system.checked
      (Interleaving.acting (asGiven .ignoringCase))).run nobody threeLogins).map
      fun c => [signedInAs (c.procs 3), signedInAs (c.procs 4), signedInAs (c.procs 5)]) =
        some [some (aliceSub, ['u', '3']), none, some (aliceSub, ['u', '3'])] := by
    decide +kernel
  have initial : (logins aliceOauth plainFernet .ignoringCase true).system.init nobody := ⟨rfl, fun _ => rfl⟩
  obtain ⟨c, reached, shown⟩ := System.Reachable.of_run initial ran
  obtain ⟨-, -, signedIn, unique⟩ := login_protocol aliceOauth plainFernet .ignoringCase true reached
  simp only [List.cons.injEq, and_true] at shown
  obtain ⟨login, session, issued, sub, -⟩ := signedInAs_some shown.1
  obtain ⟨other, otherSession, otherIssued, otherSub, -⟩ := signedInAs_some shown.2.2
  obtain ⟨⟨drawn, justified⟩, -⟩ := signedIn 3 login session issued
  exact ⟨c, login, session, other, otherSession, drawn, issued, otherIssued, justified,
    (unique 3 5 login other session otherSession issued otherIssued).mp (sub.trans otherSub.symm)⟩

def capitals : Str := "ALICE".toList

-- The issuer tells subjects apart that the database does not.
theorem capitals_enter : ∃ c : Config (Fin 6) (Shared (Fin 6)) (Phase (Fin 6)),
    (logins aliceOauth plainFernet .ignoringCase true).system.Reachable System.unrestricted c ∧
      ∃ login session other otherSession, c.procs 2 = .issued login session ∧ c.procs 3 = .issued other otherSession ∧
        login.identity.sub = aliceSub ∧ other.identity.sub = capitals ∧ session.sub = otherSession.sub ∧
        ¬ ∃ user ∈ c.shared.users, user.id = otherSession.sub ∧ user.cfSub = some other.identity.sub := by
  have ran : (((logins aliceOauth plainFernet .ignoringCase true).system.run nobody
      (begins 0 ++ begins 1 ++ arrives 2 0 aliceSub ++ enters 2 ++ arrives 3 1 capitals ++ enters 3)).map
      fun c => (signedInAs (c.procs 2), signedInAs (c.procs 3), c.shared.users.map (·.cfSub))) =
        some (some (aliceSub, ['u', '2']), some (capitals, ['u', '2']), [some aliceSub]) := by
    decide +kernel
  obtain ⟨c, ran, shown⟩ := Option.map_eq_some_iff.mp ran
  have initial : (logins aliceOauth plainFernet .ignoringCase true).system.init nobody := ⟨rfl, fun _ => rfl⟩
  obtain ⟨first, shown⟩ := Prod.mk.inj shown
  obtain ⟨second, subs⟩ := Prod.mk.inj shown
  obtain ⟨login, session, issued, sub, isUser⟩ := signedInAs_some first
  obtain ⟨other, otherSession, otherIssued, otherSub, alsoUser⟩ := signedInAs_some second
  refine ⟨c, .run (.start initial) (fun _ _ _ => trivial) ran, login, session, other, otherSession, issued, otherIssued,
    sub, otherSub, isUser.trans alsoUser.symm, ?_⟩
  rintro ⟨user, member, -, held⟩
  have listed := List.mem_map_of_mem (f := (·.cfSub)) member
  rw [subs, List.mem_singleton, held, otherSub] at listed
  exact absurd listed (by decide)

end Example

end CfProxy.LoginPlane
