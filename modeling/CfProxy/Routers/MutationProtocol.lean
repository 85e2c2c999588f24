import CfProxy.Shared.Machine
import CfProxy.Shared.Uri
import CfProxy.Routers.Audit

set_option autoImplicit false

namespace CfProxy.MutationProtocol

open Scope Authorizer Client Locks ProxyDns Machine

structure Mutation where
  context : ProxyAuthContext
  method : Method
  op : Need
  mutates : method.mutationOp = some op
  zoneId : Str
  recordId : Str
  body : Json

namespace Mutation

def exempt (m : Mutation) : Bool := isLockExempt m.context.rules m.zoneId (.str m.recordId) m.op

def lockName (sha256 : Str → Str) (m : Mutation) : Str := mutationLockName sha256 m.zoneId m.recordId

-- Which record the upstream takes the path for; two spellings of an id can address one record, and the lock is named by
-- the spelling.
def resource {ρ : Type} (address : Str → ρ) (m : Mutation) : ρ := address (recordPath m.zoneId m.recordId)

def decide (u : Text.Unicode) (m : Mutation) (found : Option Json.Dict) : Except PyError AuthDecision :=
  authorizeImage u m.context.rules m.method m.op (!m.exempt) m.zoneId (some m.recordId) m.body
    (found.elim .null .obj)

def permits (u : Text.Unicode) (m : Mutation) (found : Option Json.Dict) : Bool :=
  match m.decide u found with
  | .ok decision => decision.allowed
  | .error _ => false

end Mutation

inductive Phase
  | idle
  | waiting
  | entered
  | authorized (image : Json.Dict)
  | answered
  | done

-- From the lock to its release, whether or not the mutation needs one.
def Phase.inside : Phase → Bool
  | .entered | .authorized _ | .answered => true
  | _ => false

inductive Action
  | arrive
  | acquire
  | timeOut
  | fetch
  | forward (after : Option Json.Dict)
  | leave

structure Shared (ι ρ : Type) where
  records : ρ → Option Json.Dict
  holder : Str → Option ι

section

variable {ι ρ : Type} [DecidableEq ρ] (u : Text.Unicode) (sha256 : Str → Str) (address : Str → ρ)
variable (requests : ι → Mutation)

def act (p : ι) (action : Action) (s : Shared ι ρ) (phase : Phase) : Option (Shared ι ρ × Phase) :=
  let m := requests p
  match action, phase with
  | .arrive, .idle => some (s, if m.exempt then .entered else .waiting)
  | .acquire, .waiting =>
    if s.holder (m.lockName sha256) = none then
      some ({ s with holder := Function.update s.holder (m.lockName sha256) (some p) }, .entered)
    else none
  | .timeOut, .waiting => some (s, .done)
  | .fetch, .entered =>
    match s.records (m.resource address) with
    | none => some (s, .answered)
    | some image => some (s, if m.permits u (some image) then .authorized image else .answered)
  | .forward after, .authorized _ =>
    -- The upstream applies the mutation in its own way, or refuses it.
    some ({ s with records := Function.update s.records (m.resource address) after }, .answered)
  | .leave, phase =>
    if phase.inside then
      some (if m.exempt then s
        else { s with holder := Function.update s.holder (m.lockName sha256) none }, .done)
    else none
  | _, _ => none

def protocol : Interleaving ι (Shared ι ρ) Phase Action Empty where
  start s := s.holder = fun _ => none
  idle := .idle
  act := act u sha256 address requests
  env event := event.elim

def seen (found : Option Json.Dict) : Option (Json × Json × Json) :=
  found.map fun image => (Json.get image zoneIdKey, Json.get image nameKey, Json.get image typeKey)

def Serialized (m n : Mutation) : Prop :=
  m.exempt = false ∧ n.exempt = false ∧ m.lockName sha256 = n.lockName sha256

-- A mutation that changes what authorization reads overtakes no other one between its check and its use, unless the
-- lock keeps them apart.
def Overtakes (c : Config ι (Shared ι ρ) Phase) (p : ι) (after : Option Json.Dict) : Prop :=
  seen (c.shared.records ((requests p).resource address)) ≠ seen after ∧
    ∃ q image, q ≠ p ∧ c.procs q = .authorized image ∧ (requests q).resource address = (requests p).resource address ∧
      ¬Serialized sha256 (requests p) (requests q)

def orderly (c : Config ι (Shared ι ρ) Phase) : Move ι Action Empty → Prop
  | .own p (.forward after) => ¬Overtakes sha256 address requests c p after
  | _ => True

theorem seen_eq {left right : Json.Dict} (same : seen (some left) = seen (some right)) :
    Json.get left zoneIdKey = Json.get right zoneIdKey ∧ Json.get left nameKey = Json.get right nameKey ∧
      Json.get left typeKey = Json.get right typeKey := by
  simpa [seen] using same

structure Kept (p : ι) (s : Shared ι ρ) (phase : Phase) : Prop where
  locked : phase.inside = true → (requests p).exempt = false →
    s.holder ((requests p).lockName sha256) = some p
  checked : ∀ image, phase = .authorized image →
    seen (s.records ((requests p).resource address)) = seen (some image) ∧ (requests p).permits u (some image) = true

def UpToDate (c : Config ι (Shared ι ρ) Phase) : Prop :=
  ∀ p image, c.procs p = .authorized image →
    ∃ now, c.shared.records ((requests p).resource address) = some now ∧
      Json.get now nameKey = Json.get image nameKey ∧ Json.get now typeKey = Json.get image typeKey ∧
      (requests p).permits u (some now) = true

variable {u} {sha256} {address} {requests}

theorem permits_congr {left right : Json.Dict} (same : seen (some left) = seen (some right)) (m : Mutation) :
    m.permits u (some left) = m.permits u (some right) := by
  obtain ⟨zone, name, type⟩ := seen_eq same
  have inside : inZone left m.zoneId = inZone right m.zoneId := by
    rw [inZone, inZone, zone]
  have merged (fields : Json.Dict) : mergePatchImage left fields = mergePatchImage right fields := by
    rw [mergePatchImage, mergePatchImage, name, type]
  unfold Mutation.permits Mutation.decide authorizeImage
  simp only [Option.elim_some, inside, name, type, merged]
  -- The decisions differ in the pre-image they carry, so each branch is compared by itself.
  cases inZone right m.zoneId with
  | false => rfl
  | true =>
    cases matchRules u m.context.rules m.zoneId (Json.get right nameKey) (Json.get right typeKey)
        (Json.ofOption (some m.recordId)) m.op with
    | error raised => rfl
    | ok covered =>
      cases covered with
      | false => rfl
      | true =>
        cases m.method.renames with
        | false => rfl
        | true =>
          cases bodyFields m.body with
          | error raised => rfl
          | ok fields =>
            by_cases unchanged : Json.pyEq (mergePatchImage right fields).1 (Json.get right nameKey) = true ∧
                Json.pyEq (mergePatchImage right fields).2 (Json.get right typeKey) = true
            · simp [unchanged]
            · cases post : matchRules u m.context.rules m.zoneId (mergePatchImage right fields).1
                  (mergePatchImage right fields).2 (Json.ofOption (some m.recordId)) m.op with
              | error raised => simp [unchanged, post]
              | ok kept => cases kept <;> simp [unchanged, post]

omit [DecidableEq ρ] in
theorem kept_outside {p : ι} {s : Shared ι ρ} {phase : Phase} (outside : phase.inside = false) :
    Kept u sha256 address requests p s phase where
  locked inside := by simp [outside] at inside
  checked image authorized := by simp [authorized, Phase.inside] at outside

theorem act_cases {p : ι} {action : Action} {s after : Shared ι ρ} {phase next : Phase}
    (acted : act u sha256 address requests p action s phase = some (after, next)) :
    (action = .arrive ∧ phase = .idle ∧ after = s ∧
      next = if (requests p).exempt then .entered else .waiting) ∨
    (action = .acquire ∧ phase = .waiting ∧ next = .entered ∧
      s.holder ((requests p).lockName sha256) = none ∧
      after = { s with holder := Function.update s.holder ((requests p).lockName sha256) (some p) }) ∨
    (action = .timeOut ∧ phase = .waiting ∧ after = s ∧ next = .done) ∨
    (action = .fetch ∧ phase = .entered ∧ after = s ∧ (next = .answered ∨
      ∃ image, s.records ((requests p).resource address) = some image ∧ (requests p).permits u (some image) = true ∧
        next = .authorized image)) ∨
    (∃ stored image, action = .forward stored ∧ phase = .authorized image ∧ next = .answered ∧
      after = { s with records := Function.update s.records ((requests p).resource address) stored }) ∨
    (action = .leave ∧ phase.inside = true ∧ next = .done ∧
      after = if (requests p).exempt then s
        else { s with holder := Function.update s.holder ((requests p).lockName sha256) none }) := by
  unfold act at acted
  split at acted <;> dsimp only at acted
  · simp_all
  · split at acted <;> simp_all
  · simp_all
  · split at acted
    · simp_all
    · split at acted <;> simp_all
  · simp_all
  · split at acted
    · simp_all
    · simp at acted
  · simp at acted

theorem act_kept {p : ι} {action : Action} {s after : Shared ι ρ} {phase next : Phase}
    (kept : Kept u sha256 address requests p s phase)
    (acted : act u sha256 address requests p action s phase = some (after, next)) :
    Kept u sha256 address requests p after next := by
  obtain ⟨rfl, rfl, rfl, rfl⟩ | ⟨rfl, rfl, rfl, free, rfl⟩ | ⟨rfl, rfl, rfl, rfl⟩ | ⟨rfl, rfl, rfl, answer⟩ |
    ⟨stored, image, rfl, rfl, rfl, rfl⟩ | ⟨rfl, inside, rfl, rfl⟩ := act_cases acted
  · refine ⟨fun inside locking => ?_, fun image authorized => ?_⟩
    · simp [locking, Phase.inside] at inside
    · split at authorized <;> cases authorized
  · exact ⟨fun _ _ => by simp, fun image authorized => by cases authorized⟩
  · exact kept_outside rfl
  · obtain rfl | ⟨image, found, permitted, rfl⟩ := answer
    · exact ⟨fun _ => kept.locked rfl, fun image authorized => by cases authorized⟩
    · refine ⟨fun _ => kept.locked rfl, ?_⟩
      rintro _ ⟨rfl⟩
      exact ⟨by rw [found], permitted⟩
  · exact ⟨fun _ => kept.locked rfl, fun image authorized => by cases authorized⟩
  · exact kept_outside rfl

theorem act_locked {p q : ι} {action : Action} {s after : Shared ι ρ} {phase next : Phase} {name : Str}
    (other : q ≠ p) (kept : Kept u sha256 address requests p s phase)
    (acted : act u sha256 address requests p action s phase = some (after, next)) (holds : s.holder name = some q) :
    after.holder name = some q := by
  obtain ⟨rfl, rfl, rfl, rfl⟩ | ⟨rfl, rfl, rfl, free, rfl⟩ | ⟨rfl, rfl, rfl, rfl⟩ | ⟨rfl, rfl, rfl, answer⟩ |
    ⟨stored, image, rfl, rfl, rfl, rfl⟩ | ⟨rfl, inside, rfl, rfl⟩ := act_cases acted
  · exact holds
  · have different : name ≠ (requests p).lockName sha256 := by
      rintro rfl
      simp [free] at holds
    simpa [Function.update_of_ne different] using holds
  · exact holds
  · exact holds
  · exact holds
  · cases exempt : (requests p).exempt with
    | true => simpa [exempt] using holds
    | false =>
      have different : name ≠ (requests p).lockName sha256 := by
        rintro rfl
        have mine := kept.locked inside exempt
        rw [holds] at mine
        exact other (by simpa using mine)
      simpa [exempt, Function.update_of_ne different] using holds

theorem act_records {p : ι} {action : Action} {s after : Shared ι ρ} {phase next : Phase}
    (acted : act u sha256 address requests p action s phase = some (after, next)) :
    after.records = s.records ∨ ∃ stored image, action = .forward stored ∧ phase = .authorized image ∧
      after.records = Function.update s.records ((requests p).resource address) stored := by
  obtain ⟨rfl, rfl, rfl, rfl⟩ | ⟨rfl, rfl, rfl, free, rfl⟩ | ⟨rfl, rfl, rfl, rfl⟩ | ⟨rfl, rfl, rfl, answer⟩ |
    ⟨stored, image, rfl, rfl, rfl, rfl⟩ | ⟨rfl, inside, rfl, rfl⟩ := act_cases acted
  · exact .inl rfl
  · exact .inl rfl
  · exact .inl rfl
  · exact .inl rfl
  · exact .inr ⟨stored, image, rfl, rfl, rfl⟩
  · cases (requests p).exempt <;> exact .inl rfl

theorem act_kept_other {c : Config ι (Shared ι ρ) Phase} {p q : ι} {action : Action} {after : Shared ι ρ}
    {next : Phase} (other : q ≠ p)
    (kept : ∀ r, Kept u sha256 address requests r c.shared (c.procs r))
    (orders : orderly sha256 address requests c (.own p action))
    (acted : act u sha256 address requests p action c.shared (c.procs p) = some (after, next)) :
    Kept u sha256 address requests q after (c.procs q) where
  locked inside locking := act_locked other (kept p) acted ((kept q).locked inside locking)
  checked image authorized := by
    obtain ⟨current, permitted⟩ := (kept q).checked image authorized
    refine ⟨?_, permitted⟩
    obtain same | ⟨stored, mine, rfl, working, changed⟩ := act_records acted
    · rw [same, current]
    · rw [changed]
      by_cases apart : (requests q).resource address = (requests p).resource address
      · rw [apart, Function.update_self, ← current, apart]
        by_contra differs
        refine orders ⟨fun unchanged => differs unchanged.symm, q, image, other, authorized, apart, ?_⟩
        -- One lock would have two holders.
        rintro ⟨pLocks, qLocks, sameLock⟩
        have pHolds := (kept p).locked (by rw [working]; rfl) pLocks
        have qHolds := (kept q).locked (by rw [authorized]; rfl) qLocks
        rw [sameLock, qHolds] at pHolds
        exact other (by simpa using pHolds)
      · rw [Function.update_of_ne apart, current]

variable [DecidableEq ι]

theorem forwarded_up_to_date {c : Config ι (Shared ι ρ) Phase}
    (reached : (protocol u sha256 address requests).system.Reachable (orderly sha256 address requests) c) :
    UpToDate u address requests c := by
  have holds := Interleaving.interference_free (protocol u sha256 address requests) (orderly sha256 address requests)
    (fun _ => True) (Kept u sha256 address requests)
    (fun shared _ => ⟨trivial, fun p => kept_outside rfl⟩)
    (fun c p action shared phase kept _ acted => ⟨trivial, act_kept (kept.procs p) acted⟩)
    (fun c p action shared phase q kept orders acted other => act_kept_other other kept.procs orders acted)
    (fun c event => event.elim) reached
  intro p image authorized
  obtain ⟨current, permitted⟩ := (holds.procs p).checked image authorized
  cases found : c.shared.records ((requests p).resource address) with
  | none => simp [found, seen] at current
  | some now =>
    rw [found] at current
    obtain ⟨-, name, type⟩ := seen_eq current
    exact ⟨now, rfl, name, type, by rw [permits_congr current, permitted]⟩

end

section Served

-- What a handler does that the protocol speaks of.
def marks : Event → Bool
  | .sent _ | .locked _ | .released _ => true
  | _ => false

def Mutation.does (m : Mutation) (w : World) (content : Option Bytes) (authHeaders : Headers) : Action → List Event
  | .acquire => [.locked (m.lockName w.sha256)]
  | .fetch => [.sent (fetchRequest w m.zoneId m.recordId authHeaders)]
  | .forward _ => [.sent (mutationRequest w m.method.name m.zoneId m.recordId content authHeaders)]
  | .leave => if m.exempt then [] else [.released (m.lockName w.sha256)]
  | .arrive | .timeOut => []

def Mutation.course (u : Text.Unicode) (m : Mutation) (found after : Option Json.Dict) : List Action :=
  [.arrive] ++ (if m.exempt then [] else [.acquire]) ++ [.fetch] ++
    (if m.permits u found then [.forward after] else []) ++ [.leave]

theorem course_runs {ι ρ : Type} [DecidableEq ρ] (u : Text.Unicode) (sha256 : Str → Str) (address : Str → ρ)
    (requests : ι → Mutation) (p : ι) (s : Shared ι ρ) (free : s.holder ((requests p).lockName sha256) = none) (after : Option Json.Dict) :
    ∃ final, ((requests p).course u (s.records ((requests p).resource address)) after).foldlM
      (fun state action => act u sha256 address requests p action state.1 state.2) (s, .idle) = some (final, .done) := by
  have missing : (requests p).permits u none = false := rfl
  unfold Mutation.course
  cases exempt : (requests p).exempt <;> cases found : s.records ((requests p).resource address) with
  | none => simp [act, exempt, free, found, missing, Phase.inside]
  | some image =>
    cases permitted : (requests p).permits u (some image) <;>
      simp [act, exempt, free, found, permitted, Phase.inside]

theorem mutationOp_name (u : Text.Unicode) (m : Mutation) : mutationOp u m.method.name = m.op := by
  have mutates := m.mutates
  have patch : Method.patch.name ≠ Method.delete.name := by decide
  have put : Method.put.name ≠ Method.delete.name := by decide
  cases method : m.method <;> rw [method] at mutates <;>
    simp_all [Method.mutationOp, mutationOp]

theorem byIdOp_mutation (m : Mutation) : m.method.byIdOp = some m.op := by
  have mutates := m.mutates
  cases method : m.method <;> rw [method] at mutates <;> simp_all [Method.byIdOp, Method.mutationOp]

variable {w : World} {m : Mutation} {authHeaders : Headers} {response : Response} {found : Option Json.Dict}

theorem forwardRequest_marks (w : World) (m : Mutation) (content : Option Bytes) (authHeaders : Headers) :
    (forwardRequest w m.method.name (recordPath m.zoneId m.recordId) none none content authHeaders).events.filter
        marks =
      [.sent (mutationRequest w m.method.name m.zoneId m.recordId content authHeaders)] := by
  cases replied : w.reply (mutationRequest w m.method.name m.zoneId m.recordId content authHeaders) with
  | error raised =>
    rw [show forwardRequest w _ _ none none content authHeaders = _ from exchange_lost replied]
    rfl
  | ok response =>
    rw [show forwardRequest w _ _ none none content authHeaders = _ from exchange_replied replied]
    rfl

theorem authorizeAndForward_marks (content : Option Bytes)
    (replied : w.reply (fetchRequest w m.zoneId m.recordId authHeaders) = .ok response)
    (reply : FetchReply response found) (after : Option Json.Dict) :
    (authorizeAndForward w m.context m.method.name m.zoneId m.recordId m.body content authHeaders).events.filter
        marks =
      (Action.fetch :: if m.permits w.unicode found then [.forward after] else []).flatMap
        (m.does w content authHeaders) := by
  have locks : (m.method.mutationOp.isSome && !isLockExempt m.context.rules m.zoneId (.str m.recordId) m.op) =
      !m.exempt := by
    simp [m.mutates, Mutation.exempt]
  have forwarded := forwardRequest_marks w m content authHeaders
  unfold authorizeAndForward Mutation.permits Mutation.decide
  rw [authorizeByIdLive_shows (byIdOp_mutation m) replied reply, locks]
  cases authorizeImage w.unicode m.context.rules m.method m.op (!m.exempt) m.zoneId (some m.recordId) m.body
      (found.elim .null .obj) with
  | error raised => simp [List.filter_cons, marks, Mutation.does]
  | ok decision =>
    cases allowed : decision.allowed with
    | false => simp [allowed, Traced.emit, List.filter_cons, marks, Mutation.does]
    | true =>
      rcases sent : forwardRequest w m.method.name (recordPath m.zoneId m.recordId) none none content authHeaders
        with ⟨events, raised | upstream⟩ <;> rw [sent] at forwarded <;>
        simp_all [Traced.emit, List.filter_cons, marks, Mutation.does]

theorem attemptMutation_course (content : Option Bytes)
    (replied : w.reply (fetchRequest w m.zoneId m.recordId authHeaders) = .ok response)
    (reply : FetchReply response found)
    (works : m.exempt = true ∨ w.connect = .ok () ∧ w.getLock (m.lockName w.sha256) = .ok true ∧
      w.releaseLock (m.lockName w.sha256) = .ok ()) (after : Option Json.Dict) :
    (attemptMutation w m.context m.method.name m.zoneId m.recordId m.body content authHeaders).events.filter
        marks =
      (m.course w.unicode found after).flatMap (m.does w content authHeaders) := by
  have inner := authorizeAndForward_marks content replied reply after
  unfold attemptMutation
  rw [mutationOp_name]
  cases exempt : m.exempt with
  | true =>
    have skips : isLockExempt m.context.rules m.zoneId (.str m.recordId) m.op = true := exempt
    rw [if_pos skips, (Traced.map_some _).1, inner]
    simp [Mutation.course, exempt, Mutation.does]
  | false =>
    have locks : isLockExempt m.context.rules m.zoneId (.str m.recordId) m.op = false := exempt
    obtain ⟨connected, acquired, released⟩ := works.resolve_left (by simp [exempt])
    rw [Mutation.lockName] at acquired released
    rw [if_neg (by simp [locks]), (Traced.catching_none _ _).1, (Traced.map_some _).1]
    unfold lockedAuthorizeAndForward advisoryLock
    simp [Mutation.course, exempt, Mutation.does, connected, acquired, released, Traced.emit, Traced.ensuring,
      Traced.lift, List.filter_cons, inner, marks, Mutation.lockName]

end Served

section Overtaking

def ownName : Str := "a.example.com".toList
def otherName : Str := "b.example.com".toList

def record (name : Str) : Json.Dict := [(idKey, .str ['r']), (nameKey, .str name), (typeKey, .str ['A'])]

-- A PATCH of one record under a rule for its name, and one that renames it under a rule for its id.
def patches (pinned : Bool) : Mutation where
  context := .ofRules [if pinned then .pin ['z'] ['r'] else .named ['z'] ownName exact ['A']]
  method := .patch
  op := .write
  mutates := rfl
  zoneId := ['z']
  recordId := ['r']
  body := if pinned then .obj [(nameKey, .str otherName)] else .obj []

def oneRecord : Config Bool (Shared Bool (List Str)) Phase where
  shared := { records := fun _ => some (record ownName), holder := fun _ => none }
  procs _ := .idle

abbrev patching : Interleaving Bool (Shared Bool (List Str)) Phase Action Empty :=
  protocol .asciiOnly id Uri.resolve patches

def checked : List (Move Bool Action Empty) := [.own false .arrive, .own false .acquire, .own false .fetch]

def bothChecked : List (Move Bool Action Empty) := checked ++ [.own true .arrive, .own true .fetch]

def forwards (name : Str) : Move Bool Action Empty := .own true (.forward (some (record name)))

def imageOf : Phase → Option Json.Dict
  | .authorized image => some image
  | _ => none

theorem imageOf_some {phase : Phase} {image : Json.Dict} (shown : imageOf phase = some image) :
    phase = .authorized image := by
  unfold imageOf at shown
  split at shown
  · rw [Option.some.inj shown]
  · cases shown

theorem oneRecord_reached (ok : Config Bool (Shared Bool (List Str)) Phase → Move Bool Action Empty → Prop) :
    patching.system.Reachable ok oneRecord :=
  .start ⟨rfl, fun _ => rfl⟩

-- The second PATCH, which skips the lock, leaves the name: the first one may still do what it was allowed to.
theorem checked_up_to_date :
    ∃ c image, patching.system.run oneRecord (bothChecked ++ [forwards ownName]) = some c ∧
      c.procs false = .authorized image ∧
      (patches false).permits .asciiOnly (c.shared.records ((patches false).resource Uri.resolve)) = true := by
  have early : (patching.system.run oneRecord bothChecked).map (fun c =>
      seen (c.shared.records ((patches true).resource Uri.resolve))) = some (seen (some (record ownName))) := by
    rfl
  have whole : (patching.system.run oneRecord (bothChecked ++ [forwards ownName])).map (fun c =>
      imageOf (c.procs false)) = some (some (record ownName)) := by
    rfl
  obtain ⟨before, ranEarly, current⟩ := Option.map_eq_some_iff.mp early
  obtain ⟨c, ran, shown⟩ := Option.map_eq_some_iff.mp whole
  have working := imageOf_some shown
  have last := ran
  rw [System.run_append, ranEarly, Option.bind_some, System.run_cons] at last
  obtain ⟨after, stepped, ended⟩ := Option.bind_eq_some_iff.mp last
  obtain rfl : after = c := by simpa using ended
  have beforeReached : patching.system.Reachable (orderly id Uri.resolve patches) before := by
    refine (oneRecord_reached _).run ?_ ranEarly
    intro move member c
    simp only [bothChecked, checked, List.cons_append, List.nil_append, List.mem_cons, List.not_mem_nil, or_false] at member
    rcases member with rfl | rfl | rfl | rfl | rfl <;> trivial
  have orders : orderly id Uri.resolve patches before (forwards ownName) := fun overtakes => overtakes.1 current
  have reached : patching.system.Reachable (orderly id Uri.resolve patches) after := .next beforeReached orders stepped
  obtain ⟨now, found, -, -, permitted⟩ := forwarded_up_to_date reached false _ working
  exact ⟨after, _, ran, working, by rw [found]; exact permitted⟩

-- Where it gives the record another name, the lock of the first PATCH does not stop it.
theorem overtaken_by_exempt :
    ¬∀ c, patching.system.Reachable System.unrestricted c → UpToDate .asciiOnly Uri.resolve patches c := by
  intro always
  have stale : (patching.system.run oneRecord (bothChecked ++ [forwards otherName])).map (fun c =>
      match c.procs false with
      | .authorized _ => !(patches false).permits .asciiOnly (c.shared.records ((patches false).resource Uri.resolve))
      | _ => false) = some true := by
    decide +kernel
  obtain ⟨c, ran, stands⟩ := Option.map_eq_some_iff.mp stale
  have upToDate := always c ((oneRecord_reached _).run (fun _ _ _ => trivial) ran)
  cases working : c.procs false with
  | authorized image =>
    obtain ⟨now, found, -, -, permitted⟩ := upToDate false image working
    simp [working, found, permitted] at stands
  | _ => simp [working] at stands

end Overtaking

end CfProxy.MutationProtocol
