import Mathlib.Logic.Function.Basic
import Mathlib.Data.List.Basic
import Mathlib.Data.List.Induction

set_option autoImplicit false

namespace Machine

universe u v w x y

structure System (σ : Type u) (α : Type v) where
  init : σ → Prop
  step : σ → α → Option σ

namespace System

variable {σ : Type u} {α : Type v}

inductive Reachable (sys : System σ α) (ok : σ → α → Prop) : σ → Prop
  | start {state : σ} (initial : sys.init state) : Reachable sys ok state
  | next {state after : σ} {label : α} (before : Reachable sys ok state)
      (allowed : ok state label) (stepped : sys.step state label = some after) :
      Reachable sys ok after

def unrestricted : σ → α → Prop := fun _ _ => True

theorem Reachable.mono {sys : System σ α} {ok weaker : σ → α → Prop}
    (weaken : ∀ state label, ok state label → weaker state label) {state : σ}
    (reached : sys.Reachable ok state) : sys.Reachable weaker state := by
  induction reached with
  | start initial => exact .start initial
  | next _ allowed stepped ih => exact .next ih (weaken _ _ allowed) stepped

theorem Reachable.invariant {sys : System σ α} {ok : σ → α → Prop} {inv : σ → Prop}
    (initially : ∀ state, sys.init state → inv state)
    (preserved : ∀ state label after, inv state → ok state label →
      sys.step state label = some after → inv after)
    {state : σ} (reached : sys.Reachable ok state) : inv state := by
  induction reached with
  | start initial => exact initially _ initial
  | next _ allowed stepped ih => exact preserved _ _ _ ih allowed stepped

theorem Reachable.assuming {sys : System σ α} {ok : σ → α → Prop} {inv : σ → Prop}
    (known : ∀ state, sys.Reachable ok state → inv state) {state : σ} (reached : sys.Reachable ok state) :
    sys.Reachable (fun state label => ok state label ∧ inv state) state := by
  induction reached with
  | start initial => exact .start initial
  | next before allowed stepped ih => exact .next ih ⟨allowed, known _ before⟩ stepped

inductive Leads (sys : System σ α) (ok : σ → α → Prop) (first : σ) : σ → Prop
  | refl : Leads sys ok first first
  | next {state after : σ} {label : α} (before : Leads sys ok first state) (allowed : ok state label)
      (stepped : sys.step state label = some after) : Leads sys ok first after

theorem Reachable.leads {sys : System σ α} {ok : σ → α → Prop} {first state : σ} (reached : sys.Reachable ok first)
    (leads : sys.Leads ok first state) : sys.Reachable ok state := by
  induction leads with
  | refl => exact reached
  | next _ allowed stepped ih => exact .next ih allowed stepped

theorem Leads.mono {sys : System σ α} {ok weaker : σ → α → Prop}
    (weaken : ∀ state label, ok state label → weaker state label) {first state : σ}
    (leads : sys.Leads ok first state) : sys.Leads weaker first state := by
  induction leads with
  | refl => exact .refl
  | next _ allowed stepped ih => exact .next ih (weaken _ _ allowed) stepped

theorem Leads.invariant {sys : System σ α} {ok : σ → α → Prop} {first state : σ} (leads : sys.Leads ok first state)
    (known inv : σ → Prop) (knows : ∀ state, sys.Leads ok first state → known state) (initially : inv first)
    (preserved : ∀ state label after, known state → inv state → ok state label →
      sys.step state label = some after → inv after) : inv state := by
  induction leads with
  | refl => exact initially
  | next before allowed stepped ih => exact preserved _ _ _ (knows _ before) ih allowed stepped

def run (sys : System σ α) : σ → List α → Option σ
  | state, [] => some state
  | state, label :: rest => (sys.step state label).bind (sys.run · rest)

@[simp] theorem run_nil (sys : System σ α) (state : σ) : sys.run state [] = some state := rfl

@[simp] theorem run_cons (sys : System σ α) (state : σ) (label : α) (rest : List α) :
    sys.run state (label :: rest) = (sys.step state label).bind (sys.run · rest) := rfl

theorem run_append (sys : System σ α) (state : σ) (first second : List α) :
    sys.run state (first ++ second) = (sys.run state first).bind (sys.run · second) := by
  induction first generalizing state with
  | nil => rfl
  | cons label rest ih =>
    cases stepped : sys.step state label <;> simp [stepped, ih]

theorem Reachable.run {sys : System σ α} {ok : σ → α → Prop} {state after : σ} {labels : List α}
    (before : sys.Reachable ok state) (allowed : ∀ label ∈ labels, ∀ state, ok state label)
    (ran : sys.run state labels = some after) : sys.Reachable ok after := by
  induction labels generalizing state with
  | nil =>
    obtain rfl : state = after := by simpa using ran
    exact before
  | cons label rest ih =>
    obtain ⟨middle, stepped, ran⟩ := Option.bind_eq_some_iff.mp ran
    exact ih (.next before (allowed label (by simp) state) stepped)
      (fun other member => allowed other (List.mem_cons_of_mem _ member)) ran

theorem run_changes {β : Type w} {sys : System σ α} (shows : σ → β) {state after : σ} {labels : List α}
    (ran : sys.run state labels = some after) (differs : shows after ≠ shows state) :
    ∃ past label rest before next, labels = past ++ label :: rest ∧ sys.run state past = some before ∧
      sys.step before label = some next ∧ shows before = shows state ∧ shows next ≠ shows state := by
  induction labels generalizing state with
  | nil =>
    obtain rfl : state = after := by simpa using ran
    exact absurd rfl differs
  | cons label rest ih =>
    obtain ⟨middle, stepped, ran⟩ := Option.bind_eq_some_iff.mp ran
    by_cases same : shows middle = shows state
    · obtain ⟨past, later, beyond, before, next, rfl, reached, steps, keeps, changes⟩ := ih ran (same ▸ differs)
      exact ⟨label :: past, later, beyond, before, next, rfl, by simpa [stepped] using reached, steps, keeps.trans same,
        same ▸ changes⟩
    · exact ⟨[], label, rest, state, middle, rfl, rfl, stepped, rfl, same⟩

theorem run_history {sys : System σ α} {first : σ} (inv : List α → σ → Prop) (initially : inv [] first)
    (preserved : ∀ past state label after, sys.run first past = some state → inv past state →
      sys.step state label = some after → inv (past ++ [label]) after)
    {labels : List α} {after : σ} (ran : sys.run first labels = some after) : inv labels after := by
  induction labels using List.reverseRecOn generalizing after with
  | nil =>
    obtain rfl : first = after := by simpa using ran
    exact initially
  | append_singleton past label ih =>
    rw [run_append] at ran
    obtain ⟨state, before, ran⟩ := Option.bind_eq_some_iff.mp ran
    exact preserved past state label after before (ih before) (by simpa using ran)

theorem run_bounded {sys : System σ α} (weight : σ → Nat)
    (falls : ∀ state label after, sys.step state label = some after → weight after < weight state)
    {state after : σ} {labels : List α} (ran : sys.run state labels = some after) :
    labels.length + weight after ≤ weight state := by
  induction labels generalizing state with
  | nil =>
    obtain rfl : state = after := by simpa using ran
    simp
  | cons label rest ih =>
    obtain ⟨middle, stepped, ran⟩ := Option.bind_eq_some_iff.mp ran
    have lower := falls _ _ _ stepped
    have later := ih ran
    rw [List.length_cons]
    omega

def checked (sys : System σ α) (ok : σ → α → Prop) [∀ state label, Decidable (ok state label)] : System σ α where
  init := sys.init
  step state label := if ok state label then sys.step state label else none

theorem Reachable.of_checked {sys : System σ α} {ok : σ → α → Prop} [∀ state label, Decidable (ok state label)]
    {state : σ} (reached : (sys.checked ok).Reachable unrestricted state) : sys.Reachable ok state := by
  induction reached with
  | start initial => exact .start initial
  | next before _ stepped ih =>
    simp only [checked, Option.ite_none_right_eq_some] at stepped
    exact .next ih stepped.1 stepped.2

theorem Reachable.of_run {β : Type w} {sys : System σ α} {ok : σ → α → Prop}
    [∀ state label, Decidable (ok state label)] {state : σ} {labels : List α} {shows : σ → β} {value : β}
    (initial : sys.init state) (ran : ((sys.checked ok).run state labels).map shows = some value) :
    ∃ after, sys.Reachable ok after ∧ shows after = value := by
  obtain ⟨after, ran, shown⟩ := Option.map_eq_some_iff.mp ran
  exact ⟨after, .of_checked (.run (.start initial) (fun _ _ _ => trivial) ran), shown⟩

theorem Reachable.of_step {β : Type w} {sys : System σ α} {ok : σ → α → Prop}
    [∀ state label, Decidable (ok state label)] {state : σ} {labels : List α} {label : α} {shows : σ → σ → β} {value : β}
    (initial : sys.init state)
    (ran : ((sys.checked ok).run state labels).bind
      (fun before => (sys.step before label).map (shows before)) = some value) :
    ∃ before after, sys.Reachable ok before ∧ sys.step before label = some after ∧ shows before after = value := by
  obtain ⟨before, ran, stepped⟩ := Option.bind_eq_some_iff.mp ran
  obtain ⟨after, stepped, shown⟩ := Option.map_eq_some_iff.mp stepped
  exact ⟨before, after, .of_checked (.run (.start initial) (fun _ _ _ => trivial) ran), stepped, shown⟩

theorem Leads.of_checked {sys : System σ α} {ok : σ → α → Prop} [∀ state label, Decidable (ok state label)]
    {first state : σ} (leads : (sys.checked ok).Leads unrestricted first state) : sys.Leads ok first state := by
  induction leads with
  | refl => exact .refl
  | next before _ stepped ih =>
    simp only [checked, Option.ite_none_right_eq_some] at stepped
    exact .next ih stepped.1 stepped.2

theorem Leads.run {sys : System σ α} {first state after : σ} {labels : List α}
    (before : sys.Leads unrestricted first state) (ran : sys.run state labels = some after) :
    sys.Leads unrestricted first after := by
  induction labels generalizing state with
  | nil =>
    obtain rfl : state = after := by simpa using ran
    exact before
  | cons label rest ih =>
    obtain ⟨middle, stepped, ran⟩ := Option.bind_eq_some_iff.mp ran
    exact ih (.next before trivial stepped) ran

theorem Leads.of_run {β : Type w} {sys : System σ α} {ok later : σ → α → Prop}
    [∀ state label, Decidable (ok state label)] [∀ state label, Decidable (later state label)] {state : σ}
    {labels rest : List α} {shows : σ → σ → β} {value : β} (initial : sys.init state)
    (ran : ((sys.checked ok).run state labels).bind
      (fun before => ((sys.checked later).run before rest).map (shows before)) = some value) :
    ∃ before after, sys.Reachable ok before ∧ sys.Leads later before after ∧ shows before after = value := by
  obtain ⟨before, ran, ranLater⟩ := Option.bind_eq_some_iff.mp ran
  obtain ⟨after, ranLater, shown⟩ := Option.map_eq_some_iff.mp ranLater
  exact ⟨before, after, .of_checked (.run (.start initial) (fun _ _ _ => trivial) ran),
    .of_checked (.run .refl ranLater), shown⟩

end System

structure Config (ι : Type u) (S : Type v) (L : Type w) where
  shared : S
  procs : ι → L

inductive Move (ι : Type u) (α : Type v) (ε : Type w)
  | own (proc : ι) (action : α)
  | env (event : ε)

-- Processes that interleave atomic actions on a shared state.
structure Interleaving (ι : Type u) (S : Type v) (L : Type w) (α : Type x) (ε : Type y) where
  start : S → Prop
  idle : L
  act : ι → α → S → L → Option (S × L)
  env : ε → S → Option S

namespace Interleaving

variable {ι : Type u} {S : Type v} {L : Type w} {α : Type x} {ε : Type y} [DecidableEq ι]

def system (m : Interleaving ι S L α ε) : System (Config ι S L) (Move ι α ε) where
  init c := m.start c.shared ∧ ∀ proc, c.procs proc = m.idle
  step c
    | .own proc action => (m.act proc action c.shared (c.procs proc)).map fun result =>
        ⟨result.1, Function.update c.procs proc result.2⟩
    | .env event => (m.env event c.shared).map fun shared => ⟨shared, c.procs⟩

theorem step_own {m : Interleaving ι S L α ε} {c after : Config ι S L} {proc : ι} {action : α} :
    m.system.step c (.own proc action) = some after ↔
      ∃ shared phase, m.act proc action c.shared (c.procs proc) = some (shared, phase) ∧
        after = ⟨shared, Function.update c.procs proc phase⟩ := by
  simp only [system, Option.map_eq_some_iff, Prod.exists]
  constructor <;> rintro ⟨shared, phase, acted, rfl⟩ <;> exact ⟨shared, phase, acted, rfl⟩

theorem step_env {m : Interleaving ι S L α ε} {c after : Config ι S L} {event : ε} :
    m.system.step c (.env event) = some after ↔
      ∃ shared, m.env event c.shared = some shared ∧ after = ⟨shared, c.procs⟩ := by
  simp only [system, Option.map_eq_some_iff]
  constructor <;> rintro ⟨shared, changed, rfl⟩ <;> exact ⟨shared, changed, rfl⟩

def alone (m : Interleaving ι S L α ε) (proc : ι) : System (S × L) α where
  init state := m.start state.1 ∧ state.2 = m.idle
  step state action := m.act proc action state.1 state.2

theorem run_alone {m : Interleaving ι S L α ε} {proc : ι} {actions : List α} {shared : S} {phase : L}
    {c : Config ι S L} (ran : (m.alone proc).run (c.shared, c.procs proc) actions = some (shared, phase)) :
    m.system.run c (actions.map (.own proc)) = some ⟨shared, Function.update c.procs proc phase⟩ := by
  induction actions generalizing c with
  | nil =>
    obtain ⟨rfl, rfl⟩ : c.shared = shared ∧ c.procs proc = phase := by simpa using ran
    simp
  | cons action rest ih =>
    obtain ⟨⟨between, middle⟩, acted, ran⟩ := Option.bind_eq_some_iff.mp ran
    have stepped : m.system.step c (.own proc action) = some ⟨between, Function.update c.procs proc middle⟩ :=
      step_own.mpr ⟨between, middle, acted, rfl⟩
    rw [List.map_cons, System.run_cons, stepped, Option.bind_some, ih (by simpa using ran), Function.update_idem]

def acting (rule : S → L → α → Bool) (c : Config ι S L) : Move ι α ε → Prop
  | .own proc action => rule c.shared (c.procs proc) action = true
  | .env _ => True

instance (rule : S → L → α → Bool) (c : Config ι S L) (move : Move ι α ε) : Decidable (acting rule c move) :=
  match move with
  | .own proc action => inferInstanceAs (Decidable (rule c.shared (c.procs proc) action = true))
  | .env _ => .isTrue trivial

structure Holds (G : S → Prop) (P : ι → S → L → Prop) (c : Config ι S L) : Prop where
  shared : G c.shared
  procs : ∀ proc, P proc c.shared (c.procs proc)

theorem interference_free (m : Interleaving ι S L α ε)
    (ok : Config ι S L → Move ι α ε → Prop) (G : S → Prop) (P : ι → S → L → Prop)
    (initially : ∀ shared, m.start shared → G shared ∧ ∀ proc, P proc shared m.idle)
    (own : ∀ c proc action shared phase, Holds G P c → ok c (.own proc action) →
      m.act proc action c.shared (c.procs proc) = some (shared, phase) →
      G shared ∧ P proc shared phase)
    (others : ∀ c proc action shared phase other, Holds G P c → ok c (.own proc action) →
      m.act proc action c.shared (c.procs proc) = some (shared, phase) → other ≠ proc →
      P other shared (c.procs other))
    (env : ∀ c event shared, Holds G P c → ok c (.env event) →
      m.env event c.shared = some shared → G shared ∧ ∀ proc, P proc shared (c.procs proc))
    {c : Config ι S L} (reached : m.system.Reachable ok c) : Holds G P c := by
  refine reached.invariant ?_ ?_
  · rintro state ⟨start, idle⟩
    obtain ⟨shared, procs⟩ := initially _ start
    exact ⟨shared, fun proc => by rw [idle proc]; exact procs proc⟩
  · rintro state (⟨proc, action⟩ | ⟨event⟩) after inv allowed stepped
    · obtain ⟨shared, phase, acted, rfl⟩ := step_own.mp stepped
      obtain ⟨kept, mine⟩ := own _ _ _ _ _ inv allowed acted
      refine ⟨kept, fun other => ?_⟩
      by_cases same : other = proc
      · subst same
        simpa using mine
      · simpa [Function.update_of_ne same] using others _ _ _ _ _ other inv allowed acted same
    · obtain ⟨shared, changed, rfl⟩ := step_env.mp stepped
      obtain ⟨kept, procs⟩ := env _ _ _ inv allowed changed
      exact ⟨kept, procs⟩

end Interleaving

end Machine
