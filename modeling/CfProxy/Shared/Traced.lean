import CfProxy.Shared.Python

set_option autoImplicit false

universe u v w

structure Traced (ε : Type u) (α : Type v) where
  events : List ε
  result : Except PyError α

namespace Traced

variable {ε : Type u} {α β : Type v}

def pure (value : α) : Traced ε α := ⟨[], .ok value⟩

def bind (first : Traced ε α) (next : α → Traced ε β) : Traced ε β :=
  match first.result with
  | .ok value => ⟨first.events ++ (next value).events, (next value).result⟩
  | .error raised => ⟨first.events, .error raised⟩

instance : Monad (Traced ε) where
  pure := Traced.pure
  bind := Traced.bind

def emit (event : ε) : Traced ε Unit := ⟨[event], .ok ()⟩

def lift (result : Except PyError α) : Traced ε α := ⟨[], result⟩

def raise (raised : PyError) : Traced ε α := ⟨[], .error raised⟩

-- `try: body finally: cleanup`; what the cleanup raises replaces the outcome.
def ensuring (body : Traced ε α) (cleanup : Traced ε PUnit.{v + 1}) : Traced ε α where
  events := body.events ++ cleanup.events
  result := match cleanup.result with
    | .ok _ => body.result
    | .error raised => .error raised

-- `try: body except caught: handler`.
def catching (body : Traced ε α) (caught : PyError) (handler : Traced ε α) : Traced ε α :=
  match body.result with
  | .ok _ => body
  | .error raised =>
    if raised = caught then ⟨body.events ++ handler.events, handler.result⟩ else body

@[simp] theorem pure_eq (value : α) : (Pure.pure value : Traced ε α) = ⟨[], .ok value⟩ := rfl

@[simp] theorem bind_eq (first : Traced ε α) (next : α → Traced ε β) : first >>= next = first.bind next := rfl

@[simp] theorem bind_ok (events : List ε) (value : α) (next : α → Traced ε β) :
    Traced.bind ⟨events, .ok value⟩ next =
      ⟨events ++ (next value).events, (next value).result⟩ := rfl

@[simp] theorem bind_error (events : List ε) (raised : PyError) (next : α → Traced ε β) :
    Traced.bind ⟨events, .error raised⟩ next = ⟨events, .error raised⟩ := rfl

@[simp] theorem lift_result (result : Except PyError α) : (lift result : Traced ε α).result = result := rfl

theorem map_some (body : Traced ε α) :
    (some <$> body).events = body.events ∧
      ∀ value, (some <$> body).result = .ok (some value) ↔ body.result = .ok value := by
  have mapped : some <$> body = body.bind fun value => Pure.pure (some value) := rfl
  rw [mapped]
  rcases body with ⟨events, raised | returned⟩ <;> simp

theorem catching_none (body : Traced ε (Option α)) (caught : PyError) :
    (body.catching caught (Pure.pure none)).events = body.events ∧
      ∀ value, (body.catching caught (Pure.pure none)).result = .ok (some value) ↔
        body.result = .ok (some value) := by
  rcases body with ⟨events, raised | returned⟩
  · by_cases same : raised = caught <;> simp [catching, same]
  · simp [catching]

theorem mem_bind_first {first : Traced ε α} {next : α → Traced ε β} {event : ε} (member : event ∈ first.events) :
    event ∈ (first >>= next).events := by
  rcases first with ⟨events, _ | value⟩
  · exact member
  · exact List.mem_append_left _ member

theorem mem_bind_next {first : Traced ε α} {next : α → Traced ε β} {value : α} {event : ε}
    (returned : first.result = .ok value) (member : event ∈ (next value).events) :
    event ∈ (first >>= next).events := by
  rcases first with ⟨events, _ | other⟩
  · simp at returned
  · obtain rfl : other = value := by simpa using returned
    exact List.mem_append_right _ member

theorem mem_catching {body handler : Traced ε α} {caught : PyError} {event : ε} (member : event ∈ body.events) :
    event ∈ (body.catching caught handler).events := by
  unfold Traced.catching
  split
  · exact member
  · split
    · exact List.mem_append_left _ member
    · exact member

section Result

variable {α β : Type} {P : β → Prop}

theorem returns_bind {first : Traced ε α} {next : α → Traced ε β}
    (after : ∀ value, first.result = .ok value → Returns P (next value).result) :
    Returns P (first >>= next).result := by
  rcases first with ⟨events, raised | value⟩
  · exact .error raised
  · exact after value rfl

theorem returns_catching {body handler : Traced ε β} {caught : PyError} (main : Returns P body.result)
    (handled : Returns P handler.result) : Returns P (body.catching caught handler).result := by
  unfold Traced.catching
  split
  · exact main
  · split
    · exact handled
    · exact main

end Result

def Every (P : ε → Prop) (computation : Traced ε α) : Prop := ∀ event ∈ computation.events, P event

theorem Every.pure {P : ε → Prop} (value : α) : Every P (Pure.pure value : Traced ε α) := by
  simp [Every]

theorem Every.lift {P : ε → Prop} (result : Except PyError α) : Every P (lift result : Traced ε α) := by
  simp [Every, Traced.lift]

theorem Every.emit {P : ε → Prop} {event : ε} (holds : P event) : Every P (emit event) := by
  simpa [Every, Traced.emit] using holds

theorem Every.bind {P : ε → Prop} {first : Traced ε α} {next : α → Traced ε β} (before : Every P first)
    (after : ∀ value, first.result = .ok value → Every P (next value)) : Every P (first >>= next) := by
  rcases first with ⟨events, _ | value⟩
  · exact before
  · intro event member
    rcases List.mem_append.mp member with early | late
    · exact before event early
    · exact after value rfl event late

theorem Every.map {P : ε → Prop} {first : Traced ε α} {f : α → β} (before : Every P first) :
    Every P (f <$> first) :=
  before.bind fun value _ => .pure (f value)

theorem Every.ensuring {P : ε → Prop} {body : Traced ε α} {cleanup : Traced ε PUnit} (main : Every P body)
    (released : Every P cleanup) : Every P (body.ensuring cleanup) := by
  intro event member
  rcases List.mem_append.mp member with early | late
  · exact main event early
  · exact released event late

theorem Every.catching {P : ε → Prop} {body handler : Traced ε α} {caught : PyError} (main : Every P body)
    (handled : Every P handler) : Every P (body.catching caught handler) := by
  unfold Traced.catching
  split
  · exact main
  · split
    · intro event member
      rcases List.mem_append.mp member with early | late
      · exact main event early
      · exact handled event late
    · exact main

def only (p : ε → Bool) (computation : Traced ε α) : Traced ε α :=
  ⟨computation.events.filter p, computation.result⟩

section Only

variable {p : ε → Bool}

theorem only_emit_kept {event : ε} (kept : p event = true) : (emit event).only p = emit event := by
  simp [only, emit, kept]

@[simp] theorem only_bind (first : Traced ε α) (next : α → Traced ε β) :
    (first.bind next).only p = (first.only p).bind fun value => (next value).only p := by
  rcases first with ⟨events, _ | value⟩ <;> simp [only]

theorem only_eq_self {computation : Traced ε α} (all : Every (fun event => p event = true) computation) :
    computation.only p = computation := by
  have whole : computation.events.filter p = computation.events := List.filter_eq_self.mpr all
  rw [only, whole]

theorem only_eq_lift {computation : Traced ε α} (none : Every (fun event => p event = false) computation) :
    computation.only p = lift computation.result := by
  have empty : computation.events.filter p = [] := by
    simpa [Every, List.filter_eq_nil_iff] using none
  rw [only, empty, lift]

end Only

-- Once an event is marked, only events of `Q` follow.
def Settled (marked : ε → Bool) (Q : ε → Prop) (computation : Traced ε α) : Prop :=
  computation.events.Pairwise fun first later => marked first = true → Q later

section Settled

variable {marked : ε → Bool} {Q : ε → Prop}

theorem Every.settled {computation : Traced ε α} (none : Every (marked · = false) computation) :
    Settled marked Q computation := by
  refine List.pairwise_of_forall_mem_list fun first member _ _ marks => ?_
  rw [none first member] at marks
  cases marks

theorem settled_append {early late : List ε} :
    (early ++ late).Pairwise (fun first later => marked first = true → Q later) ↔
      early.Pairwise (fun first later => marked first = true → Q later) ∧
        late.Pairwise (fun first later => marked first = true → Q later) ∧
          ∀ first ∈ early, ∀ later ∈ late, marked first = true → Q later :=
  List.pairwise_append

theorem Settled.emit (event : ε) : Settled marked Q (emit event) :=
  List.pairwise_singleton _ event

theorem Settled.after {first : Traced ε α} {next : α → Traced ε β} (none : Every (marked · = false) first)
    (settled : ∀ value, first.result = .ok value → Settled marked Q (next value)) : Settled marked Q (first >>= next) := by
  have before : Settled marked Q first := none.settled
  rcases first with ⟨events, raised | value⟩
  · exact before
  · refine settled_append.mpr ⟨before, settled value rfl, fun first member _ _ marks => ?_⟩
    rw [none first member] at marks
    cases marks

section Quiet

variable (quiet : ∀ event, Q event → marked event = false)

include quiet

theorem Every.unmarked {computation : Traced ε α} (all : Every Q computation) : Every (marked · = false) computation :=
  fun event member => quiet event (all event member)

theorem Settled.bind {first : Traced ε α} {next : α → Traced ε β} (settled : Settled marked Q first)
    (all : ∀ value, first.result = .ok value → Every Q (next value)) : Settled marked Q (first >>= next) := by
  rcases first with ⟨events, raised | value⟩
  · exact settled
  · have after : Every Q (next value) := all value rfl
    exact settled_append.mpr ⟨settled, (Every.unmarked quiet after).settled, fun _ _ later member _ => after later member⟩

theorem Settled.ensuring {body : Traced ε α} {cleanup : Traced ε PUnit} (settled : Settled marked Q body)
    (all : Every Q cleanup) : Settled marked Q (body.ensuring cleanup) :=
  settled_append.mpr ⟨settled, (Every.unmarked quiet all).settled, fun _ _ later member _ => all later member⟩

theorem Settled.catching {body handler : Traced ε α} {caught : PyError} (settled : Settled marked Q body)
    (all : Every Q handler) : Settled marked Q (body.catching caught handler) := by
  unfold Traced.catching
  split
  · exact settled
  · split
    · exact settled_append.mpr ⟨settled, (Every.unmarked quiet all).settled, fun _ _ later member _ => all later member⟩
    · exact settled

theorem Settled.marked_once {events : List ε}
    (settled : events.Pairwise fun first later => marked first = true → Q later) : events.countP marked ≤ 1 := by
  induction settled with
  | nil => exact Nat.zero_le 1
  | @cons event later after settled ih =>
    cases marks : marked event with
    | false => simpa [marks] using ih
    | true =>
      have none : later.countP marked = 0 := by
        rw [List.countP_eq_zero]
        intro other member
        simp [quiet other (after other member marks)]
      simp [marks, none]

end Quiet

end Settled

end Traced
