import CfProxy.Auth.OauthCf
import CfProxy.Shared.Machine

set_option autoImplicit false

namespace CfProxy.SigningKeys

open Machine Client OauthCf

def jwksCacheTtlSeconds : Int := 3600

-- `raise_for_status` and `json`, as for the tokens.
def readJwks (reply : Except PyError Response) : Except PyError Json := readTokens reply

structure Served where
  moment : Int
  reply : Except PyError Response

-- One worker process: its cache, and what the issuer answers at present.
structure Shared where
  clock : Int
  published : Except PyError Response
  jwksCache : Json := .null
  jwksCacheFetchedAt : Int := 0
  served : List Served := []

structure Call where
  kid : Json
  began : Int

inductive Phase
  | idle
  | fetching (call : Call) (first : Option Json) (now : Int)
  | answered (call : Call) (first : Option Json) (now : Int) (reply : Except PyError Response)
  | found (call : Call) (key : Json)
  | unmatched (call : Call)
  | failed (call : Call) (raised : PyError)

inductive Action
  | resolve (kid : Json)
  | serve
  | lose (raised : PyError)
  | finish

inductive Event
  | tick (seconds : Nat)
  | publish (reply : Except PyError Response)

def Shared.clearJwksCache (s : Shared) : Shared := { s with jwksCache := .null, jwksCacheFetchedAt := 0 }

def Shared.store (s : Shared) (jwks : Json) (now : Int) : Shared :=
  { s with jwksCache := jwks, jwksCacheFetchedAt := now }

-- `fetch_jwks` up to its request: there is none where this comes to a document.
def Shared.cachedJwks (s : Shared) : Option Json :=
  if !s.jwksCache.isNull && s.clock - s.jwksCacheFetchedAt < jwksCacheTtlSeconds then some s.jwksCache else none

-- Behind the first `fetch_jwks`. Nothing runs between the clearing of the cache and the second one, which thus asks.
def matchFirst (call : Call) (jwks : Json) (s : Shared) : Shared × Phase :=
  match matchingKeys jwks call.kid with
  | .error raised => (s, .failed call raised)
  | .ok (key :: _) => (s, .found call key)
  | .ok [] => (s.clearJwksCache, .fetching call (some jwks) s.clock)

def matchSecond (call : Call) (jwks : Json) (s : Shared) : Shared × Phase :=
  match matchingKeys jwks call.kid with
  | .error raised => (s, .failed call raised)
  | .ok (key :: _) => (s, .found call key)
  | .ok [] => (s, .unmatched call)

def act (action : Action) (s : Shared) (phase : Phase) : Option (Shared × Phase) :=
  match action, phase with
  | .resolve kid, .idle =>
    match s.cachedJwks with
    | some jwks => some (matchFirst ⟨kid, s.clock⟩ jwks s)
    | none => some (s, .fetching ⟨kid, s.clock⟩ none s.clock)
  | .serve, .fetching call first now =>
    some ({ s with served := ⟨s.clock, s.published⟩ :: s.served }, .answered call first now s.published)
  | .lose raised, .fetching call _ _ | .lose raised, .answered call _ _ _ => some (s, .failed call raised)
  | .finish, .answered call first now reply =>
    match readJwks reply with
    | .error raised => some (s, .failed call raised)
    | .ok jwks =>
      match first with
      | none => some (matchFirst call jwks (s.store jwks now))
      | some _ => some (matchSecond call jwks (s.store jwks now))
  | _, _ => none

def signingKeys (ι : Type) : Interleaving ι Shared Phase Action Event where
  start s := s.jwksCache = .null ∧ s.served = []
  idle := .idle
  act _ := act
  env
    | .tick seconds, s => some { s with clock := s.clock + seconds }
    | .publish reply, s => some { s with published := reply }

section Invariant

def Serves (s : Shared) (jwks : Json) (since : Int) : Prop :=
  ∃ served ∈ s.served, readJwks served.reply = .ok jwks ∧ since ≤ served.moment

-- The document is from within the lifetime of the cache, counted back from the start of the call.
def Recent (s : Shared) (call : Call) (jwks : Json) : Prop :=
  ∃ served ∈ s.served, readJwks served.reply = .ok jwks ∧ call.began - served.moment < jwksCacheTtlSeconds

structure Cached (s : Shared) : Prop where
  source : s.jwksCache ≠ .null → Serves s s.jwksCache s.jwksCacheFetchedAt
  past : ∀ served ∈ s.served, served.moment ≤ s.clock

def Lacks (s : Shared) (call : Call) : Option Json → Prop
  | none => True
  | some jwks => Recent s call jwks ∧ matchingKeys jwks call.kid = .ok []

-- The documents that a call worked with, as those that `resolveSigningKey` is given.
structure Provided (s : Shared) (call : Call) (jwks : Jwks) : Prop where
  cached : ∃ document, jwks.cached = .ok document ∧ Recent s call document
  fetched : ∀ document, jwks.fetched = .ok document → Serves s document call.began

def Knows (s : Shared) : Phase → Prop
  | .idle => True
  | .fetching call first now => call.began ≤ now ∧ now ≤ s.clock ∧ Lacks s call first
  | .answered call first now reply =>
    call.began ≤ now ∧ Lacks s call first ∧ ∃ served ∈ s.served, served.reply = reply ∧ now ≤ served.moment
  | .found call key => ∃ jwks, Provided s call jwks ∧ resolveSigningKey jwks call.kid = .ok key
  | .unmatched call => ∃ jwks, Provided s call jwks ∧ resolveSigningKey jwks call.kid = .error invalidToken ∧
      ∃ document, Serves s document call.began ∧ matchingKeys document call.kid = .ok []
  | .failed _ _ => True

end Invariant

section Steps

variable {s after : Shared}

structure Grows (s after : Shared) : Prop where
  clock : s.clock ≤ after.clock
  served : s.served ⊆ after.served

theorem Grows.refl (s : Shared) : Grows s s := ⟨Int.le_refl _, List.Subset.refl _⟩

theorem Serves.grows {jwks : Json} {since : Int} (serves : Serves s jwks since) (grows : Grows s after) :
    Serves after jwks since := by
  obtain ⟨served, member, rest⟩ := serves
  exact ⟨served, grows.served member, rest⟩

theorem Serves.earlier {jwks : Json} {since earlier : Int} (serves : Serves s jwks since) (before : earlier ≤ since) :
    Serves s jwks earlier := by
  obtain ⟨served, member, read, from_⟩ := serves
  exact ⟨served, member, read, Int.le_trans before from_⟩

theorem Recent.grows {call : Call} {jwks : Json} (recent : Recent s call jwks) (grows : Grows s after) :
    Recent after call jwks := by
  obtain ⟨served, member, rest⟩ := recent
  exact ⟨served, grows.served member, rest⟩

theorem Serves.recent {call : Call} {jwks : Json} {since : Int} (serves : Serves s jwks since)
    (valid : call.began - since < jwksCacheTtlSeconds) : Recent s call jwks := by
  obtain ⟨served, member, read, from_⟩ := serves
  exact ⟨served, member, read, by omega⟩

theorem Lacks.grows {call : Call} {first : Option Json} (lacks : Lacks s call first) (grows : Grows s after) :
    Lacks after call first := by
  cases first with
  | none => trivial
  | some jwks => exact ⟨lacks.1.grows grows, lacks.2⟩

theorem Provided.grows {call : Call} {jwks : Jwks} (provided : Provided s call jwks) (grows : Grows s after) :
    Provided after call jwks where
  cached := by
    obtain ⟨document, same, recent⟩ := provided.cached
    exact ⟨document, same, recent.grows grows⟩
  fetched document same := (provided.fetched document same).grows grows

theorem Knows.grows {phase : Phase} (knows : Knows s phase) (grows : Grows s after) : Knows after phase := by
  cases phase with
  | fetching call first now => exact ⟨knows.1, Int.le_trans knows.2.1 grows.clock, knows.2.2.grows grows⟩
  | answered call first now reply =>
    obtain ⟨since, lacks, served, member, rest⟩ := knows
    exact ⟨since, lacks.grows grows, served, grows.served member, rest⟩
  | found call key =>
    obtain ⟨jwks, provided, resolved⟩ := knows
    exact ⟨jwks, provided.grows grows, resolved⟩
  | unmatched call =>
    obtain ⟨jwks, provided, resolved, document, serves, absent⟩ := knows
    exact ⟨jwks, provided.grows grows, resolved, document, serves.grows grows, absent⟩
  | _ => trivial

theorem cachedJwks_recent {kid jwks : Json} (cached : Cached s) (used : s.cachedJwks = some jwks) :
    Recent s ⟨kid, s.clock⟩ jwks := by
  unfold Shared.cachedJwks at used
  split at used
  · rename_i valid
    cases used
    simp only [Bool.and_eq_true, Bool.not_eq_true', decide_eq_true_eq] at valid
    have present : s.jwksCache ≠ .null := by
      intro absent
      simp [absent, Json.isNull] at valid
    exact (cached.source present).recent valid.2
  · cases used

-- What a step leaves: a cache with a source, and a phase that knows its documents.
structure Kept (s : Shared) (result : Shared × Phase) : Prop where
  cached : Cached result.1
  grows : Grows s result.1
  knows : Knows result.1 result.2

theorem Cached.clear (cached : Cached s) : Cached s.clearJwksCache := ⟨fun present => absurd rfl present, cached.past⟩

theorem Cached.store {jwks : Json} {now : Int} (cached : Cached s) (serves : Serves s jwks now) :
    Cached (s.store jwks now) := ⟨fun _ => serves, cached.past⟩

theorem matchFirst_kept {call : Call} {jwks : Json} (cached : Cached s) (recent : Recent s call jwks)
    (past : call.began ≤ s.clock) : Kept s (matchFirst call jwks s) := by
  unfold matchFirst
  split
  · exact ⟨cached, .refl s, trivial⟩
  · rename_i key rest matched
    refine ⟨cached, .refl s, ⟨.ok jwks, .error invalidToken⟩, ⟨⟨jwks, rfl, recent⟩, ?_⟩, ?_⟩
    · rintro document ⟨⟩
    · simp [resolveSigningKey, matched]
  · rename_i matched
    exact ⟨cached.clear, ⟨Int.le_refl _, List.Subset.refl _⟩, past, Int.le_refl _, recent, matched⟩

theorem matchSecond_kept {call : Call} {first jwks : Json} (cached : Cached s) (lacks : Lacks s call (some first))
    (serves : Serves s jwks call.began) : Kept s (matchSecond call jwks s) := by
  obtain ⟨recent, missing⟩ := lacks
  have provided : Provided s call ⟨.ok first, .ok jwks⟩ := by
    refine ⟨⟨first, rfl, recent⟩, ?_⟩
    rintro document ⟨⟩
    exact serves
  unfold matchSecond
  split
  · exact ⟨cached, .refl s, trivial⟩
  · rename_i key rest matched
    exact ⟨cached, .refl s, _, provided, by simp [resolveSigningKey, missing, matched]⟩
  · rename_i matched
    exact ⟨cached, .refl s, _, provided, by simp [resolveSigningKey, missing, matched], jwks, serves, matched⟩

theorem act_kept {action : Action} {phase : Phase} {result : Shared × Phase} (cached : Cached s) (knows : Knows s phase)
    (acted : act action s phase = some result) : Kept s result := by
  unfold act at acted
  split at acted
  · rename_i kid
    split at acted <;> cases acted
    · rename_i jwks used
      exact matchFirst_kept cached (cachedJwks_recent cached used) (Int.le_refl _)
    · exact ⟨cached, .refl s, Int.le_refl _, Int.le_refl _, trivial⟩
  · rename_i call first now
    cases acted
    obtain ⟨since, past, lacks⟩ := knows
    have grows : Grows s { s with served := ⟨s.clock, s.published⟩ :: s.served } :=
      ⟨Int.le_refl _, List.subset_cons_self _ _⟩
    refine ⟨⟨fun present => (cached.source present).grows grows, ?_⟩, grows, since, lacks.grows grows, _,
      List.mem_cons_self, rfl, past⟩
    intro served member
    rcases List.mem_cons.mp member with rfl | old
    · exact Int.le_refl _
    · exact cached.past served old
  · cases acted
    exact ⟨cached, .refl s, trivial⟩
  · cases acted
    exact ⟨cached, .refl s, trivial⟩
  · rename_i call first now reply
    obtain ⟨since, lacks, served, member, rfl, from_⟩ := knows
    split at acted
    · cases acted
      exact ⟨cached, .refl s, trivial⟩
    · rename_i jwks read
      have serves : Serves s jwks now := ⟨served, member, read, from_⟩
      have stored := cached.store serves
      have began : Serves (s.store jwks now) jwks call.began := serves.earlier since
      split at acted <;> cases acted
      · have past := Int.le_trans (Int.le_trans since from_) (cached.past served member)
        obtain ⟨kept, grows, phase⟩ := matchFirst_kept stored (began.recent (by simp [jwksCacheTtlSeconds])) past
        exact ⟨kept, ⟨grows.clock, grows.served⟩, phase⟩
      · obtain ⟨kept, grows, phase⟩ := matchSecond_kept stored lacks began
        exact ⟨kept, ⟨grows.clock, grows.served⟩, phase⟩
  · cases acted

end Steps

section Runs

variable {ι : Type} [DecidableEq ι] {c : Config ι Shared Phase}

theorem reachable_knows (reached : (signingKeys ι).system.Reachable System.unrestricted c) :
    Interleaving.Holds Cached (fun _ => Knows) c := by
  refine Interleaving.interference_free _ _ _ _ ?_ ?_ ?_ ?_ reached
  · rintro shared ⟨empty, fresh⟩
    exact ⟨⟨fun present => absurd empty present, by simp [fresh]⟩, fun _ => trivial⟩
  · intro c p action shared phase inv _ acted
    have kept := act_kept inv.shared (inv.procs p) acted
    exact ⟨kept.cached, kept.knows⟩
  · intro c p action shared phase other inv _ acted _
    exact (inv.procs other).grows (act_kept inv.shared (inv.procs p) acted).grows
  · rintro c (seconds | reply) shared inv - ⟨⟩
    · have later : c.shared.clock ≤ c.shared.clock + seconds := by omega
      exact ⟨⟨inv.shared.source, fun served member => Int.le_trans (inv.shared.past served member) later⟩,
        fun p => (inv.procs p).grows ⟨later, List.Subset.refl _⟩⟩
    · exact ⟨⟨inv.shared.source, inv.shared.past⟩, fun p => (inv.procs p).grows ⟨Int.le_refl _, List.Subset.refl _⟩⟩

theorem resolveSigningKey_found {jwks : Jwks} {kid key : Json} (found : resolveSigningKey jwks kid = .ok key) :
    ∃ document rest, matchingKeys document kid = .ok (key :: rest) ∧
      (jwks.cached = .ok document ∨ jwks.fetched = .ok document) := by
  obtain ⟨cached, hasCached, found⟩ := Except.bind_eq_ok.mp found
  obtain ⟨first, matched, found⟩ := Except.bind_eq_ok.mp found
  match first with
  | [] =>
    simp only [List.isEmpty_nil, if_true] at found
    obtain ⟨fetched, hasFetched, found⟩ := Except.bind_eq_ok.mp found
    obtain ⟨keys, again, found⟩ := Except.bind_eq_ok.mp found
    match keys, found with
    | key :: rest, .refl _ => exact ⟨fetched, rest, again, .inr hasFetched⟩
  | first :: rest =>
    cases found
    exact ⟨cached, rest, matched, .inl hasCached⟩

theorem resolved_key_recent (reached : (signingKeys ι).system.Reachable System.unrestricted c) {p : ι} {call : Call}
    {key : Json} (found : c.procs p = .found call key) :
    ∃ jwks, Provided c.shared call jwks ∧ resolveSigningKey jwks call.kid = .ok key ∧
      ∃ document rest, Recent c.shared call document ∧ matchingKeys document call.kid = .ok (key :: rest) := by
  have knows := (reachable_knows reached).procs p
  rw [found] at knows
  obtain ⟨jwks, provided, resolved⟩ := knows
  obtain ⟨document, rest, matched, isCached | isFetched⟩ := resolveSigningKey_found resolved
  · obtain ⟨cached, hasCached, recent⟩ := provided.cached
    rw [hasCached] at isCached
    cases isCached
    exact ⟨jwks, provided, resolved, document, rest, recent, matched⟩
  · have recent : Recent c.shared call document :=
      (provided.fetched document isFetched).recent (by simp [jwksCacheTtlSeconds])
    exact ⟨jwks, provided, resolved, document, rest, recent, matched⟩

theorem unmatched_key_absent (reached : (signingKeys ι).system.Reachable System.unrestricted c) {p : ι} {call : Call}
    (unmatched : c.procs p = .unmatched call) :
    ∃ jwks, Provided c.shared call jwks ∧ resolveSigningKey jwks call.kid = .error invalidToken ∧
      ∃ document, Serves c.shared document call.began ∧ matchingKeys document call.kid = .ok [] := by
  have knows := (reachable_knows reached).procs p
  rw [unmatched] at knows
  exact knows

end Runs

section Example

def keyNamed (kid : Str) : Json := .obj [("kid".toList, .str kid)]

def publishing (kid : Str) : Except PyError Response :=
  .ok { status := 200, json := .ok (.obj [("keys".toList, .arr [keyNamed kid])]) }

def oldKey : Str := "old".toList
def newKey : Str := "new".toList

def started : Config Nat Shared Phase := ⟨{ clock := 0, published := publishing oldKey }, fun _ => .idle⟩

theorem started_starts : (signingKeys Nat).system.init started := ⟨⟨rfl, rfl⟩, fun _ => rfl⟩

def resolves (p : Nat) (kid : Str) : Move Nat Action Event := .own p (.resolve (.str kid))

def asks (p : Nat) : List (Move Nat Action Event) := [.own p .serve, .own p .finish]

-- The second call starts with the old document in the cache, the third one with the new one, which lacks its key.
def rotation : List (Move Nat Action Event) :=
  resolves 0 oldKey :: asks 0 ++ [.env (.publish (publishing newKey)), .env (.tick 100), resolves 1 newKey] ++
    asks 1 ++ resolves 2 oldKey :: asks 2

def Phase.outcome : Phase → Option (Call × Option Json)
  | .found call key => some (call, some key)
  | .unmatched call => some (call, none)
  | _ => none

theorem rotated : ∃ c call key missed, (signingKeys Nat).system.Reachable System.unrestricted c ∧
    c.procs 1 = .found call key ∧ c.procs 2 = .unmatched missed := by
  have ran : ((signingKeys Nat).system.run started rotation).map
      (fun c => ((c.procs 1).outcome.map (·.2.isSome), (c.procs 2).outcome.map (·.2.isSome))) =
      some (some true, some false) := by
    decide +kernel
  obtain ⟨c, ran, shown⟩ := Option.map_eq_some_iff.mp ran
  have reached := System.Reachable.run (.start started_starts) (fun _ _ _ => trivial) ran
  obtain ⟨found, unmatched⟩ := Prod.mk.inj shown
  cases first : c.procs 1 <;> cases second : c.procs 2 <;> simp [first, second, Phase.outcome] at found unmatched
  exact ⟨c, _, _, _, reached, first, second⟩

theorem new_key_recent : ∃ (c : Config Nat Shared Phase) (call : Call) (key : Json) (jwks : Jwks),
    c.procs 1 = .found call key ∧ Provided c.shared call jwks ∧ resolveSigningKey jwks call.kid = .ok key := by
  obtain ⟨c, call, key, -, reached, found, -⟩ := rotated
  obtain ⟨jwks, provided, resolved, -⟩ := resolved_key_recent reached found
  exact ⟨c, call, key, jwks, found, provided, resolved⟩

theorem old_key_absent : ∃ (c : Config Nat Shared Phase) (call : Call) (document : Json),
    c.procs 2 = .unmatched call ∧ Serves c.shared document call.began ∧ matchingKeys document call.kid = .ok [] := by
  obtain ⟨c, -, -, call, reached, -, unmatched⟩ := rotated
  obtain ⟨-, -, -, document, serves, absent⟩ := unmatched_key_absent reached unmatched
  exact ⟨c, call, document, unmatched, serves, absent⟩

end Example

end CfProxy.SigningKeys
