import CfProxy.Routers.Audit
import CfProxy.Shared.Borrowing

set_option autoImplicit false

namespace CfProxy.ConnectionPool

open Scope Authorizer Client Locks ProxyDns Machine

-- Where a mutation stands that needs the lock. A session that has been committed holds no connection until its
-- next statement.
inductive Phase
  | idle
  | resolving
  | waiting
  | connected
  | locked
  | authorized (allowed : Bool)
  | forwarded
  | released
  | audited
  | closing
  | done
  deriving DecidableEq

inductive Action
  | resolve
  | prepare
  | connect
  | lock
  | authorize (allowed : Bool)
  | forward
  | release
  | audit
  | refresh
  -- A refusal, or an exception on its way out of the handler.
  | quit
  | close
  -- Waiting for a connection for longer than the pool lets it.
  | timeOut
  deriving DecidableEq

def Action.Proceeds (action : Action) : Prop := action ≠ .timeOut

def Phase.inside : Phase → Bool
  | .locked | .authorized _ | .forwarded => true
  | _ => false

def Phase.next : Phase → Action → Option Phase
  | .idle, .resolve => some .resolving
  | .idle, .timeOut => some .done
  | .resolving, .prepare => some .waiting
  | .waiting, .connect => some .connected
  | .waiting, .timeOut => some .closing
  | .connected, .lock => some .locked
  | .locked, .authorize allowed => some (.authorized allowed)
  | .authorized true, .forward => some .forwarded
  | .released, .audit => some .audited
  | .audited, .refresh => some .closing
  | .audited, .timeOut => some .done
  | .closing, .close => some .done
  | phase, .release => if phase.inside then some .released else none
  | phase, .quit => if phase.inside ∨ phase ∈ [.resolving, .connected, .released] then some .closing else none
  | _, _ => none

-- The session's connection, and from `connected` on the one that the lock is taken on.
def Phase.holds : Phase → Nat
  | .idle | .audited | .done => 0
  | .resolving | .waiting | .released | .closing => 1
  | .connected | .locked | .authorized _ | .forwarded => 2

def mutation : Borrowing Phase Action where
  idle := .idle
  next := Phase.next
  holds := Phase.holds
  idle_holds := rfl

section Course

def Action.shown : Action → Option Action
  | .lock => some .lock
  | .authorize allowed => some (.authorize allowed)
  | .forward => some .forward
  | .release => some .release
  | .audit => some .audit
  | _ => none

def shows (method : Str) : Event → Option Action
  | .locked _ => some .lock
  | .decided allowed => some (.authorize allowed)
  | .sent request => if request.method = method then some .forward else none
  | .received _ _ => none
  | .released _ => some .release
  | .audited _ => some .audit

def Follows (method : Str) (first last : Phase) (events : List Event) : Prop :=
  ∃ actions, mutation.course.run first actions = some last ∧
    actions.filterMap Action.shown = events.filterMap (shows method)

variable {methodName : Str} {first middle last : Phase} {events rest : List Event}

theorem Follows.append (before : Follows methodName first middle events)
    (after : Follows methodName middle last rest) : Follows methodName first last (events ++ rest) := by
  obtain ⟨actions, ran, shown⟩ := before
  obtain ⟨later, ranLater, shownLater⟩ := after
  refine ⟨actions ++ later, ?_, ?_⟩
  · rw [System.run_append, ran, Option.bind_some, ranLater]
  · rw [List.filterMap_append, List.filterMap_append, shown, shownLater]

theorem Follows.of_silent (silent : events.filterMap (shows methodName) = []) (phase : Phase) :
    Follows methodName phase phase events :=
  ⟨[], rfl, silent.symm⟩

variable {w : World} {context : ProxyAuthContext} {method : Method} {zoneId recordId : Str} {body : Json}
variable {content : Option Bytes} {authHeaders : Headers}

theorem authorizeByIdLive_silent (mutates : method.mutationOp.isSome) :
    (authorizeByIdLive w context method.name zoneId recordId body authHeaders).events.filterMap
      (shows method.name) = [] := by
  have fetches : Traced.Every FetchEvent
      (authorizeByIdLive w context method.name zoneId recordId body authHeaders) :=
    authorizeDnsRequest_every fetchCfRecord_fetches
  have different : Method.get.name ≠ method.name := by
    cases method <;> first | decide | simp [Method.mutationOp] at mutates
  rw [List.filterMap_eq_nil_iff]
  intro event member
  have fetch := fetches event member
  cases event <;> simp_all [FetchEvent, shows]

theorem authorizeAndForward_follows (mutates : method.mutationOp.isSome) :
    ∃ phase : Phase, phase.inside = true ∧ Follows method.name .locked phase
      (authorizeAndForward w context method.name zoneId recordId body content authHeaders).events := by
  have silent := @authorizeByIdLive_silent w context method zoneId recordId body authHeaders mutates
  rcases decided : authorizeByIdLive w context method.name zoneId recordId body authHeaders with
    ⟨events, raised | decision⟩ <;> rw [decided] at silent
  · refine ⟨.locked, rfl, ?_⟩
    simpa [authorizeAndForward, decided] using Follows.of_silent silent .locked
  have asked := Follows.of_silent silent .locked
  cases allowed : decision.allowed with
  | false =>
    have denied : Follows method.name .locked (.authorized false) [.decided false] := ⟨[.authorize false], rfl, rfl⟩
    refine ⟨.authorized false, rfl, ?_⟩
    simpa [authorizeAndForward, decided, allowed, Traced.emit] using asked.append denied
  | true =>
    let request := mutationRequest w method.name zoneId recordId content authHeaders
    have exchanged : forwardRequest w method.name (recordPath zoneId recordId) none none content authHeaders =
        exchange w request := rfl
    have sent : Follows method.name .locked .forwarded [.decided true, .sent request] :=
      ⟨[.authorize true, .forward], rfl, by simp [Action.shown, shows, request, mutationRequest]⟩
    refine ⟨.forwarded, rfl, ?_⟩
    rcases replied : w.reply request with raised | response
    · simpa [authorizeAndForward, decided, allowed, Traced.emit, exchanged, exchange_lost replied] using
        asked.append sent
    · have received : Follows method.name .forwarded .forwarded [.received request response.status] :=
        .of_silent rfl .forwarded
      simpa [authorizeAndForward, decided, allowed, Traced.emit, exchanged, exchange_replied replied] using
        asked.append (sent.append received)

theorem lockedAuthorizeAndForward_follows (mutates : method.mutationOp.isSome) :
    let locked := lockedAuthorizeAndForward w context method.name zoneId recordId body content authHeaders
    Follows method.name .waiting .released locked.events ∨
      Follows method.name .waiting .closing locked.events ∧ ∀ outcome, locked.result ≠ .ok outcome := by
  obtain ⟨phase, inside, within⟩ :=
    @authorizeAndForward_follows w context method zoneId recordId body content authHeaders mutates
  unfold lockedAuthorizeAndForward advisoryLock
  generalize authorizeAndForward w context method.name zoneId recordId body content authHeaders = inner at within
  cases connected : w.connect with
  | error raised => exact .inr ⟨⟨[.timeOut], rfl, rfl⟩, by simp [Traced.lift]⟩
  | ok =>
    have refused : Follows method.name .waiting .closing [] := ⟨[.connect, .quit], rfl, rfl⟩
    cases acquired : w.getLock (mutationLockName w.sha256 zoneId recordId) with
    | error raised => exact .inr ⟨refused, by simp [Traced.lift]⟩
    | ok granted =>
      cases granted with
      | false => exact .inr ⟨refused, by simp [Traced.lift, Traced.raise]⟩
      | true =>
        have entered : Follows method.name .waiting .locked [.locked (mutationLockName w.sha256 zoneId recordId)] :=
          ⟨[.connect, .lock], rfl, rfl⟩
        cases freed : w.releaseLock (mutationLockName w.sha256 zoneId recordId) with
        | ok =>
          have left : Follows method.name phase .released [.released (mutationLockName w.sha256 zoneId recordId)] :=
            ⟨[.release], by simp [Borrowing.course, mutation, Phase.next, inside], rfl⟩
          left
          simpa [Traced.lift, Traced.emit, Traced.ensuring] using entered.append (within.append left)
        | error raised =>
          have left : Follows method.name phase .closing [] :=
            ⟨[.quit], by simp [Borrowing.course, mutation, Phase.next, inside], rfl⟩
          right
          simpa [Traced.lift, Traced.emit, Traced.ensuring] using entered.append (within.append left)

theorem attemptMutation_follows (mutates : method.mutationOp.isSome)
    (locks : isLockExempt context.rules zoneId (.str recordId) (mutationOp w.unicode method.name) = false) :
    let attempt := attemptMutation w context method.name zoneId recordId body content authHeaders
    Follows method.name .waiting .released attempt.events ∨
      Follows method.name .waiting .closing attempt.events ∧ ∀ outcome, attempt.result ≠ .ok (some outcome) := by
  let locked := lockedAuthorizeAndForward w context method.name zoneId recordId body content authHeaders
  obtain ⟨mapped, outcomes⟩ := Traced.map_some locked
  obtain ⟨caught, kept⟩ := Traced.catching_none (some <$> locked) lockUnavailable
  unfold attemptMutation
  rw [if_neg (by simp [locks])]
  dsimp only
  rw [caught, mapped]
  rcases @lockedAuthorizeAndForward_follows w context method zoneId recordId body content authHeaders mutates with
    released | ⟨closing, failed⟩
  · exact .inl released
  · refine .inr ⟨closing, fun outcome returned => failed outcome ?_⟩
    rwa [kept, outcomes] at returned

theorem answerMutation_follows (request : Request) (decision : AuthDecision) (upstream : Option Response) :
    Follows methodName .released .done
      (answerMutation context request methodName zoneId recordId decision upstream).events := by
  have raised : Follows methodName .released .done [] := ⟨[.quit, .close], rfl, rfl⟩
  have recorded (row : AuditRow) : Follows methodName .released .done [.audited row] :=
    ⟨[.audit, .refresh, .close], rfl, rfl⟩
  unfold answerMutation
  cases allowed : decision.allowed with
  | false =>
    cases explained : decision.error with
    | none => simpa [deniedWith, explained, Traced.lift] using raised
    | some error =>
      simpa [deniedWith, explained, Traced.lift, recordAudit, Traced.emit] using
        recorded (denyRow context request methodName zoneId recordId decision.preImage error)
  | true =>
    rcases upstream with _ | ⟨status, failed | json⟩
    · simpa [Traced.raise] using raised
    · simpa [Traced.lift] using raised
    · simpa [Traced.lift, recordAudit, Traced.emit] using recorded _

theorem mutateDnsRecordById_follows (mutates : method.mutationOp.isSome) (request : Request)
    (locks : isLockExempt context.rules zoneId (.str recordId) (mutationOp w.unicode method.name) = false) :
    Follows method.name .resolving .done
      (mutateDnsRecordById w context request method.name zoneId recordId body content).events := by
  cases resolved : w.upstreamAuth with
  | error raised =>
    have failed : Follows method.name .resolving .done [] := ⟨[.quit, .close], rfl, rfl⟩
    simpa [mutateDnsRecordById, resolved, Traced.lift] using failed
  | ok authHeaders =>
    have prepared : Follows method.name .resolving .waiting [] := ⟨[.prepare], rfl, rfl⟩
    obtain ⟨answered, unanswered⟩ :=
      mutateDnsRecordById_events context request method zoneId recordId body content resolved
    rw [← List.nil_append (mutateDnsRecordById w context request method.name zoneId recordId body content).events]
    refine prepared.append ?_
    rcases @attemptMutation_follows w context method zoneId recordId body content authHeaders mutates locks with
      released | ⟨closing, failed⟩
    · by_cases returned : ∃ outcome, (attemptMutation w context method.name zoneId recordId body content
          authHeaders).result = .ok (some outcome)
      · obtain ⟨⟨decision, upstream⟩, returned⟩ := returned
        rw [answered decision upstream returned]
        exact released.append (answerMutation_follows request decision upstream)
      · have ended : Follows method.name .released .done [] := ⟨[.quit, .close], rfl, rfl⟩
        rw [unanswered (by simpa using returned), ← List.append_nil (attemptMutation _ _ _ _ _ _ _ _).events]
        exact released.append ended
    · have ended : Follows method.name .closing .done [] := ⟨[.close], rfl, rfl⟩
      rw [unanswered failed, ← List.append_nil (attemptMutation _ _ _ _ _ _ _ _).events]
      exact closing.append ended

end Course

section Pool

variable {ι : Type} [DecidableEq ι] [Fintype ι] {capacity : Nat} {c after : Config ι Nat Phase} {p : ι}

def pool (ι : Type) [DecidableEq ι] (capacity : Nat) : System (Config ι Nat Phase) (Move ι Action Empty) :=
  (mutation.pool ι capacity).system

-- Of the connections held, those whose holder needs another one.
def Phase.stalls (phase : Phase) : Nat := if phase = .waiting then 1 else 0

def waiting (procs : ι → Phase) : Nat := (Finset.univ.filter fun p => procs p = .waiting).card

omit [DecidableEq ι] in
theorem waiting_eq (procs : ι → Phase) : waiting procs = Borrowing.total Phase.stalls procs :=
  Finset.card_filter _ _

def Progresses (capacity : Nat) (c : Config ι Nat Phase) : Prop :=
  (∃ p, c.procs p ≠ .done) →
    ∃ p action after, action.Proceeds ∧ (pool ι capacity).step c (.own p action) = some after

def HeldUp (c : Config ι Nat Phase) : Prop :=
  (∃ p, c.procs p ≠ .done) ∧ c.shared = 0 ∧ ∀ p, c.procs p ≠ .done → c.procs p = .waiting

-- A request goes to the pool for its second connection only while the requests that wait there, it included, are fewer
-- than the connections.
def Spares (capacity : Nat) (c : Config ι Nat Phase) : Move ι Action Empty → Prop
  | .own _ action => action = .prepare → waiting c.procs + 1 < capacity
  | .env _ => True

instance (capacity : Nat) (c : Config ι Nat Phase) (move : Move ι Action Empty) : Decidable (Spares capacity c move) :=
  match move with
  | .own _ action => inferInstanceAs (Decidable (action = .prepare → waiting c.procs + 1 < capacity))
  | .env _ => .isTrue trivial

theorem next_noMore {phase : Phase} (holding : phase.stalls < phase.holds) :
    ∃ action after, action.Proceeds ∧ phase.next action = some after ∧ after.holds ≤ phase.holds := by
  cases phase with
  | idle | waiting | audited | done => exact absurd holding (by decide)
  | resolving => exact ⟨.prepare, .waiting, Action.noConfusion, rfl, by decide⟩
  | connected => exact ⟨.lock, .locked, Action.noConfusion, rfl, by decide⟩
  | locked => exact ⟨.authorize true, .authorized true, Action.noConfusion, rfl, by decide⟩
  | authorized allowed =>
    have released : (Phase.authorized allowed).next .release = some .released := by cases allowed <;> rfl
    exact ⟨.release, .released, Action.noConfusion, released, by decide +revert⟩
  | forwarded => exact ⟨.release, .released, Action.noConfusion, rfl, by decide⟩
  | released => exact ⟨.audit, .audited, Action.noConfusion, rfl, by decide⟩
  | closing => exact ⟨.close, .done, Action.noConfusion, rfl, by decide⟩

theorem next_oneMore {phase : Phase} (unfinished : phase ≠ .done) : ∃ action after, action.Proceeds ∧
    phase.next action = some after ∧ after.holds ≤ phase.holds + 1 := by
  by_cases holding : phase.stalls < phase.holds
  · obtain ⟨action, after, goes, stepped, enough⟩ := next_noMore holding
    exact ⟨action, after, goes, stepped, by omega⟩
  cases phase with
  | idle => exact ⟨.resolve, .resolving, Action.noConfusion, rfl, by decide⟩
  | waiting => exact ⟨.connect, .connected, Action.noConfusion, rfl, by decide⟩
  | audited => exact ⟨.refresh, .closing, Action.noConfusion, rfl, by decide⟩
  | done => exact absurd rfl unfinished
  | _ => exact absurd (by decide +revert) holding

theorem stalls_le (phase : Phase) : phase.stalls ≤ phase.holds := by
  cases phase <;> decide +revert

-- Where nothing is held, or only what stalls, the pool is asked.
theorem next_needs {phase after : Phase} {action : Action} (stalled : phase.stalls = phase.holds)
    (goes : action.Proceeds) (stepped : phase.next action = some after) : phase.holds < after.holds := by
  cases phase with
  | idle | waiting | audited | done =>
    cases action with
    | timeOut => exact absurd rfl goes
    | _ => cases stepped <;> decide
  | authorized allowed => cases allowed <;> exact absurd stalled (by decide)
  | _ => exact absurd stalled (by decide)

theorem next_waiting {phase : Phase} {action : Action} (stepped : phase.next action = some .waiting) :
    action = .prepare := by
  cases phase with
  | authorized allowed => cases allowed <;> cases action <;> cases stepped
  | _ => cases action <;> first | rfl | cases stepped

theorem reachable_progresses {ok : Config ι Nat Phase → Move ι Action Empty → Prop}
    (reached : (pool ι capacity).Reachable ok c) (slack : waiting c.procs < capacity) : Progresses capacity c := by
  rintro ⟨p, unfinished⟩
  rw [waiting_eq] at slack
  exact Borrowing.can_step (fun _ => next_oneMore) (fun _ => next_noMore) (Borrowing.reachable_balanced reached) slack
    unfinished

theorem reachable_stuck {ok : Config ι Nat Phase → Move ι Action Empty → Prop}
    (reached : (pool ι capacity).Reachable ok c) (stocked : 0 < capacity) (exhausted : capacity ≤ waiting c.procs) :
    ¬Progresses capacity c := by
  intro progresses
  obtain ⟨p, stalled⟩ := Finset.card_pos.mp (Nat.lt_of_lt_of_le stocked exhausted)
  have unfinished : c.procs p ≠ .done := by
    rw [(Finset.mem_filter.mp stalled).2]
    decide
  obtain ⟨q, action, after, goes, stepped⟩ := progresses ⟨p, unfinished⟩
  rw [waiting_eq] at exhausted
  have refused := Borrowing.cannot_step stalls_le (fun _ _ _ => next_needs) (Borrowing.reachable_balanced reached)
    exhausted goes q
  rw [pool, refused] at stepped
  cases stepped

theorem step_waiting {action : Action} (stepped : (pool ι capacity).step c (.own p action) = some after) :
    waiting after.procs ≤ waiting c.procs + if action = .prepare then 1 else 0 := by
  obtain ⟨phase, moved, -, rfl⟩ := Borrowing.pool_step.mp stepped
  have counted := Borrowing.total_update Phase.stalls c.procs p phase
  have stalls : phase.stalls ≤ if action = .prepare then 1 else 0 := by
    by_cases waits : phase = .waiting
    · subst waits
      simp [next_waiting moved, Phase.stalls]
    · simp [Phase.stalls, waits]
  rw [waiting_eq, waiting_eq]
  dsimp only
  omega

theorem step_prepare (stepped : (pool ι capacity).step c (.own p .prepare) = some after) :
    waiting after.procs = waiting c.procs + 1 := by
  obtain ⟨phase, moved, -, rfl⟩ := Borrowing.pool_step.mp stepped
  have counted := Borrowing.total_update Phase.stalls c.procs p phase
  have before : c.procs p = .resolving ∧ phase = .waiting := by
    cases standing : c.procs p with
    | authorized allowed => cases allowed <;> simp [standing, mutation, Phase.next] at moved
    | _ => simp_all [mutation, Phase.next]
  rw [waiting_eq, waiting_eq]
  simp only [before.1, before.2, Phase.stalls] at counted ⊢
  simpa using counted

def Slack (capacity : Nat) (c : Config ι Nat Phase) : Prop := waiting c.procs < capacity

theorem spares_slack (stocked : 0 < capacity) (reached : (pool ι capacity).Reachable (Spares capacity) c) :
    Slack capacity c := by
  refine reached.invariant ?_ ?_
  · rintro state ⟨-, idle⟩
    have nobody : waiting state.procs = 0 := by
      refine Finset.card_eq_zero.mpr (Finset.filter_eq_empty_iff.mpr fun p _ => ?_)
      rw [idle p]
      exact (by decide : Phase.idle ≠ .waiting)
    rwa [Slack, nobody]
  · rintro state (⟨p, action⟩ | ⟨event⟩) later slack spares stepped
    · have counted := step_waiting stepped
      unfold Slack at slack ⊢
      by_cases prepares : action = .prepare
      · subst prepares
        have room : waiting state.procs + 1 < capacity := spares rfl
        have one := step_prepare stepped
        omega
      · rw [if_neg prepares] at counted
        omega
    · exact event.elim

omit [Fintype ι] in
theorem not_heldUp (progresses : Progresses capacity c) : ¬HeldUp c := by
  rintro ⟨unfinished, empty, all⟩
  obtain ⟨p, action, after, goes, stepped⟩ := progresses unfinished
  obtain ⟨phase, moved, enough, -⟩ := Borrowing.pool_step.mp stepped
  have stalled : (c.procs p).stalls = (c.procs p).holds := by
    by_cases finished : c.procs p = .done
    · rw [finished]
      decide
    · rw [all p finished]
      decide
  have more := next_needs stalled goes moved
  have enough : phase.holds ≤ (c.procs p).holds + c.shared := enough
  omega

end Pool

theorem pool_progress {ι : Type} [DecidableEq ι] [Fintype ι] {capacity : Nat} (two : 2 ≤ capacity) :
    (∀ c, (pool ι capacity).Reachable (Spares capacity) c → Progresses capacity c ∧ ¬HeldUp c) ∧
    ∀ c p after, (pool ι capacity).Reachable System.unrestricted c →
      (pool ι capacity).step c (.own p .prepare) = some after → ¬Spares capacity c (.own p .prepare) →
      ¬Progresses capacity after := by
  have stocked : 0 < capacity := by omega
  constructor
  · intro c reached
    have progresses := reachable_progresses reached (spares_slack stocked reached)
    exact ⟨progresses, not_heldUp progresses⟩
  · intro c p after reached stepped spent
    have exhausted : ¬waiting c.procs + 1 < capacity := fun room => spent fun _ => room
    have one := step_prepare stepped
    exact reachable_stuck (reached.next trivial stepped) stocked (by omega)

section Example

def unserved : Config Bool Nat Phase := ⟨2, fun _ => .idle⟩

theorem unserved_starts : (pool Bool 2).init unserved := ⟨rfl, fun _ => rfl⟩

def arrives (p : Bool) : List (Move Bool Action Empty) := [.own p .resolve, .own p .prepare]

-- The second request comes to the pool when the first one has given one connection back, and to its second one when
-- that one has given back both.
theorem both_served : ∃ c, (pool Bool 2).Reachable (Spares 2) c ∧
    (c.procs false, c.procs true) = (.audited, .connected) ∧ Progresses 2 c ∧ ¬HeldUp c := by
  have ran : (((pool Bool 2).checked (Spares 2)).run unserved (arrives false ++ [
      .own false .connect, .own false .lock, .own false (.authorize true), .own false .forward, .own false .release] ++
      arrives true ++ [.own false .audit, .own true .connect])).map
      (fun c => (c.procs false, c.procs true)) = some (.audited, .connected) := by decide
  obtain ⟨c, reached, shown⟩ := System.Reachable.of_run unserved_starts ran
  exact ⟨c, reached, shown, (pool_progress (le_refl 2)).1 c reached⟩

theorem two_held_up : ∃ c, (pool Bool 2).Reachable System.unrestricted c ∧ HeldUp c ∧ ¬Progresses 2 c := by
  have ran : ((pool Bool 2).run unserved (arrives false ++ arrives true)).map
      (fun c => (c.shared, c.procs false, c.procs true)) = some (0, .waiting, .waiting) := by decide
  obtain ⟨c, ran, shown⟩ := Option.map_eq_some_iff.mp ran
  have reached := System.Reachable.run (.start unserved_starts) (fun _ _ _ => trivial) ran
  simp only [Prod.mk.injEq] at shown
  obtain ⟨empty, first, second⟩ := shown
  have heldUp : HeldUp c := by
    refine ⟨⟨false, ?_⟩, empty, ?_⟩
    · rw [first]
      decide
    · intro p _
      cases p
      · exact first
      · exact second
  exact ⟨c, reached, heldUp, fun progresses => not_heldUp progresses heldUp⟩

end Example

end CfProxy.ConnectionPool
