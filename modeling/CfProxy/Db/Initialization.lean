import CfProxy.Db.Session
import CfProxy.Shared.Borrowing

set_option autoImplicit false

namespace CfProxy.Session

open Machine

-- Between `GET_LOCK` and `RELEASE_LOCK`.
def Phase.inside : Phase → Bool
  | .locked | .creating _ => true
  | _ => false

def Phase.created : Phase → Bool
  | .released | .absent | .inserted | .done => true
  | _ => false

-- Between looking up the version, which was not there, and committing it.
def Phase.pending : Phase → Bool
  | .absent | .inserted => true
  | _ => false

def Phase.finished : Phase → Bool
  | .done | .failed _ => true
  | _ => false

-- The steps that a run can still take, at most.
def Phase.left : Phase → Nat
  | .idle => metadata.length + 6
  | .locked => metadata.length + 5
  | .creating missing => missing.length + 4
  | .released => 3
  | .absent => 2
  | .inserted => 1
  | .done | .failed _ => 0

section Steps

variable {ι : Type} {p q : ι} {action : Action} {s after : Server ι} {phase next other : Phase}

structure Sound (s : Server ι) : Prop where
  once : s.versions.Nodup
  uncommitted : s.writer ≠ none → currentSchemaVersion ∉ s.versions

structure Kept (p : ι) (s : Server ι) (phase : Phase) : Prop where
  inside : phase.inside = true ↔ s.holder = some p
  writes : phase = .inserted ↔ s.writer = some p
  planned : ∀ missing, phase = .creating missing → missing.Nodup ∧ ∀ table, table ∈ missing ↔ table ∉ s.tables
  created : phase.created = true → ∀ table, table ∈ s.tables
  recorded : phase = .done → currentSchemaVersion ∈ s.versions

theorem Kept.absent (kept : Kept p s phase) (pending : phase.pending = true) (elsewhere : s.writer ≠ some p) :
    phase = .absent := by
  have unwritten := mt kept.writes.mp elsewhere
  cases phase with
  | absent => rfl
  | inserted => exact absurd rfl unwritten
  | _ => cases pending

theorem Step.shorter (step : Step p action s phase after next) : next.left < phase.left := by
  cases step with
  | inspected =>
    have fewer := List.length_filter_le (fun table => decide (table ∉ s.tables)) metadata
    simp only [Phase.left, Server.missing]
    omega
  | _ => simp [Phase.left]

theorem Step.sound (step : Step p action s phase after next) (sound : Sound s) (kept : Kept p s phase) :
    Sound after := by
  obtain ⟨once, lacking⟩ := sound
  cases step with
  | inserted missing free => exact ⟨once, fun _ => missing⟩
  | committed =>
    have missing : currentSchemaVersion ∉ s.versions := lacking (by simp [kept.writes.mp rfl])
    refine ⟨?_, fun writing => absurd rfl writing⟩
    exact List.Nodup.append once (List.nodup_singleton _) (by simpa using missing)
  | _ => exact ⟨once, lacking⟩

theorem mem_missing {table : Table} : table ∈ s.missing ↔ table ∉ s.tables := by
  simp [Server.missing, metadata_complete]

theorem Step.kept (step : Step p action s phase after next) (kept : Kept p s phase) : Kept p after next := by
  obtain ⟨inside, writes, planned, created, recorded⟩ := kept
  cases step with
  | inspected =>
    refine ⟨by simp_all [Phase.inside], by simp_all, ?_, by simp [Phase.created], by simp⟩
    rintro _ ⟨⟩
    exact ⟨metadata_nodup.filter _, fun table => mem_missing⟩
  | @created _ table rest lacking =>
    obtain ⟨distinct, planned⟩ := planned _ rfl
    obtain ⟨new, distinct⟩ := List.nodup_cons.mp distinct
    refine ⟨by simp_all [Phase.inside], by simp_all, ?_, by simp [Phase.created], by simp⟩
    rintro _ ⟨⟩
    refine ⟨distinct, fun other => ?_⟩
    have listed := planned other
    by_cases same : other = table
    · subst same
      simp [new]
    · simpa [same] using listed
  | released =>
    obtain ⟨-, planned⟩ := planned _ rfl
    have whole (table : Table) : table ∈ s.tables := by simpa using planned table
    exact ⟨by simp [Phase.inside, Server.releaseLock], by simpa [Server.releaseLock] using writes, by simp, fun _ => whole,
      by simp⟩
  | _ => constructor <;> simp_all [Phase.inside, Phase.created, Server.releaseLock, Server.commitVersion]

structure Effect (p : ι) (s after : Server ι) : Prop where
  holder : ∀ q, q ≠ p → (s.holder = some q ↔ after.holder = some q)
  writer : ∀ q, q ≠ p → (s.writer = some q ↔ after.writer = some q)
  locked : s.holder = some p ∨ after.tables = s.tables
  tables : s.tables ⊆ after.tables
  versions : s.versions ⊆ after.versions

theorem Effect.refl (p : ι) (s : Server ι) : Effect p s s :=
  ⟨fun _ _ => Iff.rfl, fun _ _ => Iff.rfl, .inr rfl, List.Subset.refl _, List.Subset.refl _⟩

theorem Step.effect (step : Step p action s phase after next) (kept : Kept p s phase) : Effect p s after := by
  have held := kept.inside
  have writes := kept.writes
  have nothing := Effect.refl p s
  cases step with
  | acquired free => exact { nothing with holder := fun q different => by simp [free, different.symm] }
  | created => exact { nothing with locked := .inl (held.mp rfl), tables := List.subset_append_left _ _ }
  | collided | released =>
    exact { nothing with holder := fun q different => by simp [Server.releaseLock, held.mp rfl, different.symm] }
  | inserted lacking free => exact { nothing with writer := fun q different => by simp [free, different.symm] }
  | committed =>
    exact { nothing with
      writer := fun q different => by simp [Server.commitVersion, writes.mp rfl, different.symm]
      versions := List.subset_append_left _ _ }
  | _ => exact nothing

theorem Kept.others (kept : Kept q s other) (effect : Effect p s after) (different : q ≠ p) : Kept q after other where
  inside := kept.inside.trans (effect.holder q different)
  writes := kept.writes.trans (effect.writer q different)
  planned missing creating := by
    subst creating
    have mine : s.holder = some q := kept.inside.mp rfl
    have same := effect.locked.resolve_left (by simp [mine, different])
    rw [same]
    exact kept.planned missing rfl
  created through table := effect.tables (kept.created through table)
  recorded done := effect.versions (kept.recorded done)

theorem Step.pending (step : Step p action s phase after next) (pending : next.pending = true) :
    phase.pending = true ∨ action = .lookUp ∧ currentSchemaVersion ∉ s.versions := by
  cases step with
  | lacked lacking => exact .inr ⟨rfl, lacking⟩
  | inserted => exact .inl rfl
  | _ => cases pending

theorem Step.versions (step : Step p action s phase after next) :
    after.versions = s.versions ∨ phase.pending = true ∧ next = .done := by
  cases step with
  | committed => exact .inr ⟨rfl, rfl⟩
  | _ => exact .inl rfl

theorem Step.unfailed (step : Step p action s phase after next) (kept : Kept p s phase)
    (lacking : phase.pending = true → currentSchemaVersion ∉ s.versions) (raised : PyError) : next ≠ .failed raised := by
  cases step with
  | collided present =>
    obtain ⟨-, planned⟩ := kept.planned _ rfl
    exact absurd present ((planned _).mp List.mem_cons_self)
  | unreadable missing => exact absurd (kept.created rfl _) missing
  | duplicate present => exact absurd present (lacking rfl)
  | _ => exact Phase.noConfusion

theorem act_inside (p : ι) (s : Server ι) (inside : phase.inside = true) :
    ∃ action result, action ≠ .lookUp ∧ act p action s phase = some result := by
  cases phase with
  | locked => exact ⟨.inspect, _, Action.noConfusion, rfl⟩
  | creating missing =>
    cases missing with
    | nil => exact ⟨.release, _, Action.noConfusion, rfl⟩
    | cons table rest =>
      rcases wrote : s.createTable table with raised | after
      · exact ⟨.create, (s.releaseLock, .failed raised), Action.noConfusion, by simp [act, wrote]⟩
      · exact ⟨.create, (after, .creating rest), Action.noConfusion, by simp [act, wrote]⟩
  | _ => cases inside

theorem act_insert (p : ι) (free : s.writer = none) : ∃ result, act p .insert s .absent = some result := by
  rcases wrote : s.insertVersion p with raised | after
  · exact ⟨(s, .failed raised), by simp [act, free, wrote]⟩
  · exact ⟨(after, .inserted), by simp [act, free, wrote]⟩

theorem act_lookUp (p : ι) (s : Server ι) : ∃ result, act p .lookUp s .released = some result := by
  rcases read : s.getVersion with raised | existing
  · exact ⟨(s, .failed raised), by simp [act, read]⟩
  · exact ⟨(s, if existing.isNone then .absent else .done), by simp [act, read]⟩

end Steps

section Runs

variable {ι : Type} [DecidableEq ι] {c after : Config ι (Server ι) Phase} {p : ι} {action : Action}

def Alone (c : Config ι (Server ι) Phase) : Move ι Action Empty → Prop
  | .own p action => action = .lookUp → ∀ q, q ≠ p → (c.procs q).pending = false
  | .env _ => True

instance [Fintype ι] (c : Config ι (Server ι) Phase) (move : Move ι Action Empty) : Decidable (Alone c move) :=
  match move with
  | .own p action => inferInstanceAs (Decidable (action = .lookUp → ∀ q, q ≠ p → (c.procs q).pending = false))
  | .env _ => .isTrue trivial

theorem reachable_kept {ok : Config ι (Server ι) Phase → Move ι Action Empty → Prop}
    (reached : (initialization ι).system.Reachable ok c) : Interleaving.Holds Sound Kept c := by
  refine Interleaving.interference_free (initialization ι) ok _ _ ?_ ?_ ?_ ?_ reached
  · rintro s ⟨unlocked, free, once⟩
    refine ⟨⟨once, fun writing => absurd free writing⟩, fun p => ?_⟩
    constructor <;> simp [initialization, Phase.inside, Phase.created, unlocked, free]
  · intro c p action s phase inv _ acted
    have step := act_step acted
    exact ⟨step.sound inv.shared (inv.procs p), step.kept (inv.procs p)⟩
  · intro c p action s phase other inv _ acted different
    exact (inv.procs other).others ((act_step acted).effect (inv.procs p)) different
  · intro c event
    exact event.elim

theorem step_of_act {result : Server ι × Phase} (acted : act p action c.shared (c.procs p) = some result) :
    ∃ after, (initialization ι).system.step c (.own p action) = some after :=
  ⟨_, Interleaving.step_own.mpr ⟨_, _, acted, rfl⟩⟩

theorem goes_on (kept : Interleaving.Holds Sound Kept c) (unfinished : (c.procs p).finished = false) :
    ∃ q action after, Alone c (.own q action) ∧ (initialization ι).system.step c (.own q action) = some after := by
  by_cases waiting : ∃ q, (c.procs q).pending = true
  · obtain ⟨q, pending⟩ := waiting
    rcases writing : c.shared.writer with _ | r
    · have absent : c.procs q = .absent := (kept.procs q).absent pending (by simp [writing])
      obtain ⟨result, acted⟩ := act_insert q writing
      obtain ⟨after, stepped⟩ := step_of_act (absent ▸ acted)
      exact ⟨q, .insert, after, Action.noConfusion, stepped⟩
    · have inserted : c.procs r = .inserted := (kept.procs r).writes.mpr writing
      have acted : act r .commit c.shared (c.procs r) = some (c.shared.commitVersion, .done) := by
        rw [inserted]
        rfl
      obtain ⟨after, stepped⟩ := step_of_act acted
      exact ⟨r, .commit, after, Action.noConfusion, stepped⟩
  rcases held : c.shared.holder with _ | r
  · have outside := mt (kept.procs p).inside.mp (by simp [held])
    cases standing : c.procs p with
    | idle =>
      have acted : act p .acquire c.shared (c.procs p) = some ({ c.shared with holder := some p }, .locked) := by
        simp [standing, act, held]
      obtain ⟨after, stepped⟩ := step_of_act acted
      exact ⟨p, .acquire, after, Action.noConfusion, stepped⟩
    | released =>
      obtain ⟨result, acted⟩ := act_lookUp p c.shared
      obtain ⟨after, stepped⟩ := step_of_act (standing ▸ acted)
      exact ⟨p, .lookUp, after, fun _ q _ => by simpa using not_exists.mp waiting q, stepped⟩
    | locked | creating => simp [standing, Phase.inside] at outside
    | absent | inserted => exact absurd ⟨p, by simp [standing, Phase.pending]⟩ waiting
    | done | failed => simp [standing, Phase.finished] at unfinished
  · obtain ⟨action, result, other, acted⟩ := act_inside r c.shared ((kept.procs r).inside.mpr held)
    obtain ⟨after, stepped⟩ := step_of_act acted
    exact ⟨r, action, after, fun same => absurd same other, stepped⟩

structure Exclusive (c : Config ι (Server ι) Phase) : Prop where
  single : ∀ p q, (c.procs p).pending = true → (c.procs q).pending = true → p = q
  lacking : ∀ p, (c.procs p).pending = true → currentSchemaVersion ∉ c.shared.versions
  unfailed : ∀ p raised, c.procs p ≠ .failed raised

theorem Exclusive.next (exclusive : Exclusive c) (kept : Interleaving.Holds Sound Kept c)
    (alone : Alone c (.own p action)) (stepped : (initialization ι).system.step c (.own p action) = some after) :
    Exclusive after := by
  obtain ⟨single, lacking, unfailed⟩ := exclusive
  obtain ⟨s, next, acted, rfl⟩ := Interleaving.step_own.mp stepped
  have step := act_step acted
  have mine (pending : next.pending = true) :
      (∀ q, q ≠ p → (c.procs q).pending = false) ∧ currentSchemaVersion ∉ c.shared.versions := by
    rcases step.pending pending with before | ⟨looks, missing⟩
    · refine ⟨fun q different => ?_, lacking p before⟩
      by_contra other
      exact different (single q p (by simpa using other) before)
    · exact ⟨alone looks, missing⟩
  constructor
  · intro q r first second
    by_cases isFirst : q = p <;> by_cases isSecond : r = p
    · rw [isFirst, isSecond]
    · subst isFirst
      simp only [Function.update_self, Function.update_of_ne isSecond] at first second
      exact absurd second (by simp [(mine first).1 r isSecond])
    · subst isSecond
      simp only [Function.update_self, Function.update_of_ne isFirst] at first second
      exact absurd first (by simp [(mine second).1 q isFirst])
    · simp only [Function.update_of_ne isFirst, Function.update_of_ne isSecond] at first second
      exact single q r first second
  · intro q pending
    by_cases same : q = p
    · subst same
      simp only [Function.update_self] at pending
      rcases step.versions with kept | ⟨-, rfl⟩
      · rw [kept]
        exact (mine pending).2
      · cases pending
    · simp only [Function.update_of_ne same] at pending
      rcases step.versions with kept | ⟨before, -⟩
      · rw [kept]
        exact lacking q pending
      · exact absurd (single q p pending before) same
  · intro q raised
    dsimp only
    by_cases same : q = p
    · subst same
      simpa using step.unfailed (kept.procs q) (lacking q) raised
    · simpa [same] using unfailed q raised

theorem alone_exclusive (reached : (initialization ι).system.Reachable Alone c) : Exclusive c := by
  refine (reached.assuming fun _ => reachable_kept).invariant ?_ ?_
  · rintro state ⟨-, idle⟩
    constructor <;> simp [idle, initialization, Phase.pending]
  · rintro state (⟨p, action⟩ | ⟨event⟩) later exclusive ⟨alone, kept⟩ stepped
    · exact exclusive.next kept alone stepped
    · exact event.elim

-- Some run has failed, or cannot but fail: it is about to insert a row that is there, or that another one is about to
-- insert, too.
inductive Doomed (c : Config ι (Server ι) Phase) : Prop
  | failed {p : ι} {raised : PyError} (ended : c.procs p = .failed raised)
  | late {p : ι} (absent : c.procs p = .absent) (present : currentSchemaVersion ∈ c.shared.versions)
  | twice {p q : ι} (different : p ≠ q) (first : (c.procs p).pending = true) (second : (c.procs q).pending = true)

-- One of two runs that are about to insert the row takes a step.
theorem Doomed.of_pending {q : ι} (kept : Interleaving.Holds Sound Kept c) (different : q ≠ p)
    (mine : (c.procs p).pending = true) (other : (c.procs q).pending = true)
    (stepped : (initialization ι).system.step c (.own p action) = some after) : Doomed after := by
  obtain ⟨s, next, acted, rfl⟩ := Interleaving.step_own.mp stepped
  have step := act_step acted
  have writes := (kept.procs p).writes
  generalize c.procs p = phase at step mine writes
  cases step with
  | duplicate => exact .failed (p := p) (Function.update_self ..)
  | inserted => exact .twice different (by simpa [different] using other) (by simp [Phase.pending])
  | committed =>
    have absent : c.procs q = .absent := (kept.procs q).absent other (by simp [writes.mp rfl, different.symm])
    exact .late (p := q) (by simpa [different] using absent) (by simp [Server.commitVersion])
  | _ => cases mine

theorem Doomed.next (doomed : Doomed c) (kept : Interleaving.Holds Sound Kept c)
    (stepped : (initialization ι).system.step c (.own p action) = some after) : Doomed after := by
  cases doomed with
  | twice different first second =>
    rename_i q r
    by_cases isFirst : q = p
    · subst isFirst
      exact .of_pending kept different.symm first second stepped
    by_cases isSecond : r = p
    · subst isSecond
      exact .of_pending kept isFirst second first stepped
    obtain ⟨s, next, -, rfl⟩ := Interleaving.step_own.mp stepped
    exact .twice different (by simpa [isFirst] using first) (by simpa [isSecond] using second)
  | @failed q raised ended =>
    obtain ⟨s, next, acted, rfl⟩ := Interleaving.step_own.mp stepped
    by_cases same : q = p
    · subst same
      rw [ended] at acted
      cases act_step acted
    · exact .failed (p := q) (by simpa [same] using ended)
  | @late q absent present =>
    obtain ⟨s, next, acted, rfl⟩ := Interleaving.step_own.mp stepped
    have effect := (act_step acted).effect (kept.procs p)
    by_cases same : q = p
    · subst same
      rw [absent] at acted
      cases act_step acted with
      | duplicate => exact .failed (p := q) (Function.update_self ..)
      | inserted lacking => exact absurd present lacking
    · exact .late (p := q) (by simpa [same] using absent) (effect.versions present)

theorem lookUp_doomed (kept : Interleaving.Holds Sound Kept c) (overlaps : ¬Alone c (.own p .lookUp))
    (stepped : (initialization ι).system.step c (.own p .lookUp) = some after) : Doomed after := by
  obtain ⟨q, different, pending⟩ : ∃ q, q ≠ p ∧ (c.procs q).pending = true := by
    simpa [Alone] using overlaps
  obtain ⟨s, next, acted, rfl⟩ := Interleaving.step_own.mp stepped
  generalize c.procs p = phase at acted
  cases act_step acted with
  | unreadable => exact .failed (p := p) (Function.update_self ..)
  | lacked => exact .twice different (by simpa [different] using pending) (by simp [Phase.pending])
  | found present =>
    have nobody : c.shared.writer = none := by
      by_contra writing
      exact kept.shared.uncommitted writing present
    have absent : c.procs q = .absent := (kept.procs q).absent pending (by simp [nobody])
    exact .late (p := q) (by simpa [different] using absent) present

structure Initializes (c : Config ι (Server ι) Phase) : Prop where
  unfailed : ∀ p raised, c.procs p ≠ .failed raised
  goesOn : (∃ p, c.procs p ≠ .done) →
    ∃ p action after, Alone c (.own p action) ∧ (initialization ι).system.step c (.own p action) = some after
  recorded : ∀ p, c.procs p = .done → c.shared.versions.count currentSchemaVersion = 1

theorem alone_initializes (reached : (initialization ι).system.Reachable Alone c) : Initializes c := by
  have kept := reachable_kept reached
  have unfailed := (alone_exclusive reached).unfailed
  refine ⟨unfailed, ?_, fun p done => ?_⟩
  · rintro ⟨p, undone⟩
    apply goes_on (p := p) kept
    cases standing : c.procs p with
    | done => exact absurd standing undone
    | failed raised => exact absurd standing (unfailed p raised)
    | _ => rfl
  · exact List.count_eq_one_of_mem kept.shared.once ((kept.procs p).recorded done)

theorem doomed_fails (kept : Interleaving.Holds Sound Kept c) (doomed : Doomed c)
    (ended : ∀ move, (initialization ι).system.step c move = none) : ∃ p raised, c.procs p = .failed raised := by
  have finished (p : ι) : (c.procs p).finished = true := by
    by_contra unfinished
    obtain ⟨q, action, after, -, stepped⟩ := goes_on kept (by simpa using unfinished)
    rw [ended] at stepped
    cases stepped
  cases doomed with
  | @failed p raised failure => exact ⟨p, raised, failure⟩
  | @late p absent =>
    have complete := finished p
    simp [absent, Phase.finished] at complete
  | @twice p q _ first =>
    have complete := finished p
    cases standing : c.procs p <;> simp_all [Phase.finished, Phase.pending]

theorem run_length [Fintype ι] {labels : List (Move ι Action Empty)} (starts : (initialization ι).system.init c)
    (ran : (initialization ι).system.run c labels = some after) :
    labels.length ≤ Fintype.card ι * (metadata.length + 6) := by
  have bounded := System.run_bounded (fun c => Borrowing.total Phase.left c.procs) ?_ ran
  · have idle : c.procs = fun _ => Phase.idle := funext starts.2
    have full : Borrowing.total Phase.left c.procs = Fintype.card ι * (metadata.length + 6) := by
      simp [idle, Borrowing.total, Phase.left]
    omega
  · rintro state (⟨p, action⟩ | ⟨event⟩) later stepped
    · obtain ⟨s, next, acted, rfl⟩ := Interleaving.step_own.mp stepped
      have shorter := (act_step acted).shorter
      have moved := Borrowing.total_update Phase.left state.procs p next
      dsimp only
      omega
    · exact event.elim

end Runs

theorem initDb_concurrent (ι : Type) [DecidableEq ι] [Fintype ι] :
    (∀ c, (initialization ι).system.Reachable Alone c → Initializes c) ∧
    (∀ c labels after, (initialization ι).system.init c → (initialization ι).system.run c labels = some after →
      labels.length ≤ Fintype.card ι * (metadata.length + 6)) ∧
    ∀ c p after final, (initialization ι).system.Reachable System.unrestricted c →
      (initialization ι).system.step c (.own p .lookUp) = some after → ¬Alone c (.own p .lookUp) →
      (initialization ι).system.Leads System.unrestricted after final →
      (∀ move, (initialization ι).system.step final move = none) → ∃ q raised, final.procs q = .failed raised := by
  refine ⟨fun c reached => alone_initializes reached, fun c labels after starts ran => run_length starts ran, ?_⟩
  intro c p after final reached stepped overlaps leads ended
  have later := reached.next trivial stepped
  have kept state (between : (initialization ι).system.Leads System.unrestricted after state) :
      Interleaving.Holds Sound Kept state := reachable_kept (later.leads between)
  have doomed : Doomed final := by
    refine leads.invariant (Interleaving.Holds Sound Kept) Doomed kept
      (lookUp_doomed (reachable_kept reached) overlaps stepped) ?_
    rintro state (⟨q, action⟩ | ⟨event⟩) next known doomed - stepped
    · exact doomed.next known stepped
    · exact event.elim
  exact doomed_fails (kept final leads) doomed ended

section Example

def blank : Config Bool (Server Bool) Phase := ⟨⟨none, [], [], none⟩, fun _ => .idle⟩

theorem blank_starts : (initialization Bool).system.init blank := by
  exact ⟨⟨rfl, rfl, List.nodup_nil⟩, fun _ => rfl⟩

-- The first run finds no table, the second one all of them.
def looksUp (p : Bool) (missing : List Table) : List (Move Bool Action Empty) :=
  [.own p .acquire, .own p .inspect] ++ missing.map (fun _ => .own p .create) ++ [.own p .release, .own p .lookUp]

theorem second_insert_fails : ∃ c, (initialization Bool).system.Reachable System.unrestricted c ∧
    c.procs true = .failed Models.integrityError ∧ ¬Initializes c := by
  have ran : ((initialization Bool).system.run blank (looksUp false metadata ++ looksUp true [] ++
      [.own false .insert, .own false .commit, .own true .insert])).map (fun c => (c.procs false, c.procs true)) =
      some (.done, .failed Models.integrityError) := by
    decide +kernel
  obtain ⟨c, ran, shown⟩ := Option.map_eq_some_iff.mp ran
  obtain ⟨-, failure⟩ := Prod.mk.inj shown
  have reached := System.Reachable.run (.start blank_starts) (fun _ _ _ => trivial) ran
  exact ⟨c, reached, failure, fun initializes => initializes.unfailed true _ failure⟩

theorem both_initialize : ∃ c, (initialization Bool).system.Reachable Alone c ∧
    (c.procs false, c.procs true) = (.done, .done) ∧ Initializes c := by
  have ran : (((initialization Bool).system.checked Alone).run blank (looksUp false metadata ++
      [.own false .insert, .own false .commit] ++ looksUp true [])).map (fun c => (c.procs false, c.procs true)) =
      some (.done, .done) := by
    decide +kernel
  obtain ⟨c, reached, shown⟩ := System.Reachable.of_run blank_starts ran
  exact ⟨c, reached, shown, (initDb_concurrent Bool).1 c reached⟩

end Example

end CfProxy.Session
