import Mathlib.Algebra.BigOperators.Group.Finset.Piecewise
import Mathlib.Algebra.Order.BigOperators.Group.Finset
import CfProxy.Shared.Machine

set_option autoImplicit false

namespace Machine

universe u v w

structure Borrowing (L : Type u) (α : Type v) where
  idle : L
  next : L → α → Option L
  holds : L → Nat
  idle_holds : holds idle = 0

namespace Borrowing

variable {ι : Type w} {L : Type u} {α : Type v} [DecidableEq ι]

def course (b : Borrowing L α) : System L α where
  init phase := phase = b.idle
  step := b.next

-- The shared state is the number of free units. A step that needs more than these waits.
def pool (ι : Type w) (b : Borrowing L α) (capacity : Nat) : Interleaving ι Nat L α Empty where
  start free := free = capacity
  idle := b.idle
  act _ action free phase := (b.next phase action).bind fun after =>
    if b.holds after ≤ b.holds phase + free then some (b.holds phase + free - b.holds after, after) else none
  env event := event.elim

variable {b : Borrowing L α} {capacity : Nat} {c after : Config ι Nat L} {p : ι} {action : α}

theorem pool_step : (b.pool ι capacity).system.step c (.own p action) = some after ↔
    ∃ phase, b.next (c.procs p) action = some phase ∧ b.holds phase ≤ b.holds (c.procs p) + c.shared ∧
      after = ⟨b.holds (c.procs p) + c.shared - b.holds phase, Function.update c.procs p phase⟩ := by
  rw [Interleaving.step_own]
  simp only [pool, Option.bind_eq_some_iff, Option.ite_none_right_eq_some, Option.some.injEq, Prod.mk.injEq]
  constructor
  · rintro ⟨free, phase, ⟨_, stepped, enough, rfl, rfl⟩, rfl⟩
    exact ⟨_, stepped, enough, rfl⟩
  · rintro ⟨phase, stepped, enough, rfl⟩
    exact ⟨_, phase, ⟨phase, stepped, enough, rfl, rfl⟩, rfl⟩

theorem pool_enabled (capacity : Nat) {phase : L} (stepped : b.next (c.procs p) action = some phase)
    (enough : b.holds phase ≤ b.holds (c.procs p) + c.shared) :
    ∃ after, (b.pool ι capacity).system.step c (.own p action) = some after :=
  ⟨_, pool_step.mpr ⟨phase, stepped, enough, rfl⟩⟩

variable [Fintype ι]

def total (f : L → Nat) (procs : ι → L) : Nat := ∑ p, f (procs p)

theorem total_update (f : L → Nat) (procs : ι → L) (p : ι) (phase : L) :
    total f (Function.update procs p phase) + f (procs p) = total f procs + f phase := by
  have updated : (fun q => f (Function.update procs p phase q)) = Function.update (fun q => f (procs q)) p (f phase) :=
    Function.comp_update f procs p phase
  have mine := Finset.add_sum_erase Finset.univ (fun q => f (procs q)) (Finset.mem_univ p)
  unfold total
  rw [updated, Finset.sum_update_of_mem (Finset.mem_univ p), Finset.sdiff_singleton_eq_erase]
  omega

-- Units are neither made nor lost.
def Balanced (b : Borrowing L α) (capacity : Nat) (c : Config ι Nat L) : Prop :=
  c.shared + total b.holds c.procs = capacity

theorem reachable_balanced {ok : Config ι Nat L → Move ι α Empty → Prop}
    (reached : (b.pool ι capacity).system.Reachable ok c) : b.Balanced capacity c := by
  refine reached.invariant ?_ ?_
  · rintro state ⟨full, idle⟩
    have full : state.shared = capacity := full
    have nothing : total b.holds state.procs = 0 := Finset.sum_eq_zero fun p _ => by rw [idle p, pool, b.idle_holds]
    rw [Balanced, full, nothing, Nat.add_zero]
  · rintro state (⟨p, action⟩ | ⟨event⟩) later balanced - stepped
    · obtain ⟨phase, -, enough, rfl⟩ := pool_step.mp stepped
      have moved := total_update b.holds state.procs p phase
      unfold Balanced at balanced ⊢
      dsimp only
      omega
    · exact event.elim

theorem can_step {blocked : L → Nat} {proceeds : α → Prop} {finished : L → Prop}
    (oneMore : ∀ phase, ¬finished phase → ∃ action after, proceeds action ∧ b.next phase action = some after ∧
      b.holds after ≤ b.holds phase + 1)
    (noMore : ∀ phase, blocked phase < b.holds phase → ∃ action after, proceeds action ∧
      b.next phase action = some after ∧ b.holds after ≤ b.holds phase)
    (balanced : b.Balanced capacity c) (slack : total blocked c.procs < capacity)
    (unfinished : ¬finished (c.procs p)) :
    ∃ q action after, proceeds action ∧ (b.pool ι capacity).system.step c (.own q action) = some after := by
  unfold Balanced at balanced
  rcases Nat.eq_zero_or_pos c.shared with empty | available
  · have fewer : total blocked c.procs < total b.holds c.procs := by omega
    obtain ⟨q, -, holding⟩ := Finset.exists_lt_of_sum_lt fewer
    obtain ⟨action, phase, goes, stepped, enough⟩ := noMore _ holding
    obtain ⟨after, stepped⟩ := pool_enabled capacity stepped (by omega)
    exact ⟨q, action, after, goes, stepped⟩
  · obtain ⟨action, phase, goes, stepped, enough⟩ := oneMore _ unfinished
    obtain ⟨after, stepped⟩ := pool_enabled capacity stepped (by omega)
    exact ⟨p, action, after, goes, stepped⟩

theorem cannot_step {blocked : L → Nat} {proceeds : α → Prop} (atMost : ∀ phase, blocked phase ≤ b.holds phase)
    (needs : ∀ phase action after, blocked phase = b.holds phase → proceeds action →
      b.next phase action = some after → b.holds phase < b.holds after)
    (balanced : b.Balanced capacity c) (exhausted : capacity ≤ total blocked c.procs)
    (goes : proceeds action) (p : ι) : (b.pool ι capacity).system.step c (.own p action) = none := by
  unfold Balanced at balanced
  have bounded : total blocked c.procs ≤ total b.holds c.procs := Finset.sum_le_sum fun q _ => atMost _
  have same : ∀ q ∈ Finset.univ, blocked (c.procs q) = b.holds (c.procs q) :=
    (Finset.sum_eq_sum_iff_of_le fun q _ => atMost _).mp (show total blocked c.procs = total b.holds c.procs by omega)
  rw [Option.eq_none_iff_forall_ne_some]
  intro after stepped
  obtain ⟨phase, stepped, enough, -⟩ := pool_step.mp stepped
  have more := needs _ _ _ (same p (Finset.mem_univ p)) goes stepped
  omega

end Borrowing

end Machine
