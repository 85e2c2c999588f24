import CfProxy.Db.Locks
import CfProxy.Db.Models
import CfProxy.Shared.Machine
import CfProxy.Shared.Stateful

set_option autoImplicit false

namespace CfProxy.Session

open Locks Machine Models

-- The tables of `Base.metadata`, each behind those that it refers to.
inductive Table
  | users
  | upstreamCredentials
  | scopedTokens
  | scopeRules
  | auditLogs
  | schemaVersion
  deriving DecidableEq

def metadata : List Table :=
  [.users, .upstreamCredentials, .scopedTokens, .scopeRules, .auditLogs, .schemaVersion]

theorem metadata_complete (table : Table) : table ∈ metadata := by
  cases table <;> decide

theorem metadata_nodup : metadata.Nodup := by decide

def currentSchemaVersion : Nat := 1

def operationalError : PyError := .named "OperationalError".toList

def programmingError : PyError := .named "ProgrammingError".toList

-- What the sessions of a database server share: which of them holds the lock `cfproxy_init_db`, the tables, the
-- committed rows of `schema_version`, and which of them has inserted the current one in an open transaction.
structure Server (ι : Type) where
  holder : Option ι
  tables : List Table
  versions : List Nat
  writer : Option ι

namespace Server

variable {ι : Type}

def missing (s : Server ι) : List Table := metadata.filter (· ∉ s.tables)

-- `CREATE TABLE`, which commits by itself.
def createTable (table : Table) (s : Server ι) : Except PyError (Server ι) :=
  if table ∈ s.tables then .error operationalError else .ok { s with tables := s.tables ++ [table] }

def releaseLock (s : Server ι) : Server ι := { s with holder := none }

def getVersion (s : Server ι) : Except PyError (Option Nat) :=
  if .schemaVersion ∈ s.tables then .ok (s.versions.find? (· == currentSchemaVersion)) else .error programmingError

-- The primary key is checked against what is committed, whatever the session has read before.
def insertVersion (p : ι) (s : Server ι) : Except PyError (Server ι) :=
  if currentSchemaVersion ∈ s.versions then .error integrityError else .ok { s with writer := some p }

def commitVersion (s : Server ι) : Server ι :=
  { s with versions := s.versions ++ [currentSchemaVersion], writer := none }

end Server

section Program

variable {ι : Type}

-- `GET_LOCK`, which gives up in the end where another session holds the lock.
def getLock (p : ι) : Stateful (Server ι) Bool := fun s =>
  if s.holder.isNone then (.ok true, { s with holder := some p }) else (.ok false, s)

def advisoryLock (p : ι) (body : Stateful (Server ι) Unit) : Stateful (Server ι) Unit := do
  let acquired ← getLock p
  if !acquired then Stateful.raise lockUnavailable
  else body.ensuring Server.releaseLock

def createTables (missing : List Table) : Stateful (Server ι) Unit :=
  Stateful.forEach missing fun table => Stateful.commit (Server.createTable table)

-- The tables that are missing are looked for first, and then created.
def createAll : Stateful (Server ι) Unit := do
  let missing ← Stateful.reads Server.missing
  createTables missing

-- The block under `async with Sessionmaker()`.
def recordVersion (p : ι) : Stateful (Server ι) Unit := do
  match ← Stateful.query Server.getVersion with
  | some _ => return
  | none =>
    Stateful.commit (Server.insertVersion p)
    Stateful.modify Server.commitVersion

inductive Dialect
  | mysql
  | sqlite

def initDb (dialect : Dialect) (p : ι) : Stateful (Server ι) Unit := do
  match dialect with
  | .mysql => advisoryLock p createAll
  | .sqlite => createAll
  recordVersion p

end Program

inductive Phase
  | idle
  | locked
  | creating (missing : List Table)
  | released
  | absent
  | inserted
  | done
  | failed (raised : PyError)
  deriving DecidableEq

-- An exception ends the run.
def Phase.after (next : Phase) : Except PyError Unit → Phase
  | .ok _ => next
  | .error raised => .failed raised

inductive Action
  | acquire
  | inspect
  | create
  | release
  | lookUp
  | insert
  | commit
  deriving DecidableEq

section Steps

variable {ι : Type}

def act (p : ι) (action : Action) (s : Server ι) (phase : Phase) : Option (Server ι × Phase) :=
  match action, phase with
  | .acquire, .idle => if s.holder.isNone then some ({ s with holder := some p }, .locked) else none
  | .inspect, .locked => some (s, .creating s.missing)
  | .create, .creating (table :: rest) =>
    match s.createTable table with
    | .ok after => some (after, .creating rest)
    | .error raised => some (s.releaseLock, .failed raised)
  | .release, .creating [] => some (s.releaseLock, .released)
  | .lookUp, .released =>
    match s.getVersion with
    | .ok existing => some (s, if existing.isNone then .absent else .done)
    | .error raised => some (s, .failed raised)
  | .insert, .absent =>
    -- Behind a row that another transaction has inserted, the insertion waits for its end.
    if s.writer.isNone then
      match s.insertVersion p with
      | .ok after => some (after, .inserted)
      | .error raised => some (s, .failed raised)
    else none
  | .commit, .inserted => some (s.commitVersion, .done)
  | _, _ => none

-- Any number of `init_db` runs on one MySQL server, where no wait for a lock times out.
def initialization (ι : Type) : Interleaving ι (Server ι) Phase Action Empty where
  start s := s.holder = none ∧ s.writer = none ∧ s.versions.Nodup
  idle := .idle
  act := act
  env event := event.elim

inductive Step (p : ι) : Action → Server ι → Phase → Server ι → Phase → Prop
  | acquired {s : Server ι} (free : s.holder = none) : Step p .acquire s .idle { s with holder := some p } .locked
  | inspected {s : Server ι} : Step p .inspect s .locked s (.creating s.missing)
  | created {s : Server ι} {table : Table} {rest : List Table} (lacking : table ∉ s.tables) :
      Step p .create s (.creating (table :: rest)) { s with tables := s.tables ++ [table] } (.creating rest)
  | collided {s : Server ι} {table : Table} {rest : List Table} (present : table ∈ s.tables) :
      Step p .create s (.creating (table :: rest)) s.releaseLock (.failed operationalError)
  | released {s : Server ι} : Step p .release s (.creating []) s.releaseLock .released
  | unreadable {s : Server ι} (lacking : .schemaVersion ∉ s.tables) :
      Step p .lookUp s .released s (.failed programmingError)
  | found {s : Server ι} (present : currentSchemaVersion ∈ s.versions) : Step p .lookUp s .released s .done
  | lacked {s : Server ι} (lacking : currentSchemaVersion ∉ s.versions) : Step p .lookUp s .released s .absent
  | duplicate {s : Server ι} (present : currentSchemaVersion ∈ s.versions) :
      Step p .insert s .absent s (.failed integrityError)
  | inserted {s : Server ι} (lacking : currentSchemaVersion ∉ s.versions) (free : s.writer = none) :
      Step p .insert s .absent { s with writer := some p } .inserted
  | committed {s : Server ι} : Step p .commit s .inserted s.commitVersion .done

theorem getVersion_isNone (s : Server ι) :
    (s.versions.find? (· == currentSchemaVersion)).isNone = true ↔ currentSchemaVersion ∉ s.versions := by
  rw [Option.isNone_iff_eq_none, List.find?_eq_none]
  constructor
  · intro unlike member
    exact unlike _ member (beq_self_eq_true _)
  · intro lacking version member same
    exact lacking (by rwa [beq_iff_eq.mp same] at member)

variable {p : ι} {action : Action} {s after : Server ι} {phase next : Phase}

theorem act_step (acted : act p action s phase = some (after, next)) : Step p action s phase after next := by
  unfold act at acted
  split at acted
  · split at acted <;> cases acted
    exact .acquired (Option.isNone_iff_eq_none.mp ‹_›)
  · cases acted
    exact .inspected
  · unfold Server.createTable at acted
    by_cases present : ‹Table› ∈ s.tables
    · rw [if_pos present] at acted
      cases acted
      exact .collided present
    · rw [if_neg present] at acted
      cases acted
      exact .created present
  · cases acted
    exact .released
  · unfold Server.getVersion at acted
    by_cases readable : .schemaVersion ∈ s.tables
    · rw [if_pos readable] at acted
      by_cases lacking : currentSchemaVersion ∉ s.versions
      · simp only [(getVersion_isNone s).mpr lacking, if_true] at acted
        cases acted
        exact .lacked lacking
      · simp only [mt (getVersion_isNone s).mp lacking] at acted
        cases acted
        exact .found (not_not.mp lacking)
    · rw [if_neg readable] at acted
      cases acted
      exact .unreadable readable
  · split at acted
    · next free =>
      unfold Server.insertVersion at acted
      by_cases present : currentSchemaVersion ∈ s.versions
      · rw [if_pos present] at acted
        cases acted
        exact .duplicate present
      · rw [if_neg present] at acted
        cases acted
        exact .inserted present (Option.isNone_iff_eq_none.mp free)
    · cases acted
  · cases acted
    exact .committed
  · cases acted

end Steps

section Alone

variable {ι : Type} {p : ι} {s : Server ι}

def SameWriter (before after : Server ι) : Prop := after.writer = before.writer

instance : Std.Refl (SameWriter (ι := ι)) where
  refl _ := rfl

instance : IsTrans (Server ι) SameWriter where
  trans _ _ _ first second := second.trans first

theorem createTables_writer (missing : List Table) : Stateful.Within SameWriter (createTables (ι := ι) missing) := by
  refine .forEach fun table => .commit fun s after created => ?_
  unfold Server.createTable at created
  split at created <;> cases created
  rfl

theorem createTables_runs [DecidableEq ι] (missing : List Table) (s : Server ι) :
    ∃ actions, ((initialization ι).alone p).run (s, .creating missing) actions =
      some ((createTables missing s).2.releaseLock, Phase.after .released (createTables missing s).1) := by
  induction missing generalizing s with
  | nil => exact ⟨[.release], rfl⟩
  | cons table rest ih =>
    rcases wrote : s.createTable table with raised | between
    · have failed : Stateful.commit (Server.createTable table) s = (.error raised, s) := by
        simp [Stateful.commit, wrote]
      have acted : act p .create s (.creating (table :: rest)) = some (s.releaseLock, .failed raised) := by
        simp [act, wrote]
      refine ⟨[.create], ?_⟩
      rw [createTables, Stateful.forEach, Stateful.bind_error failed]
      exact congrArg (Option.bind · some) acted
    · have created : Stateful.commit (Server.createTable table) s = (.ok (), between) := by
        simp [Stateful.commit, wrote]
      have acted : act p .create s (.creating (table :: rest)) = some (between, .creating rest) := by
        simp [act, wrote]
      obtain ⟨actions, ran⟩ := ih between
      refine ⟨.create :: actions, ?_⟩
      rw [createTables, Stateful.forEach, Stateful.bind_ok created, System.run_cons]
      have stepped : ((initialization ι).alone p).step (s, .creating (table :: rest)) .create =
          some (between, .creating rest) := acted
      rw [stepped, Option.bind_some, ran]
      rfl

theorem recordVersion_runs [DecidableEq ι] (free : s.writer = none) :
    ∃ actions, ((initialization ι).alone p).run (s, .released) actions =
      some ((recordVersion p s).2, Phase.after .done (recordVersion p s).1) := by
  rcases read : s.getVersion with raised | existing
  · have failed : Stateful.query Server.getVersion s = (.error raised, s) := by simp [Stateful.query, read]
    refine ⟨[.lookUp], ?_⟩
    rw [recordVersion, Stateful.bind_error failed]
    simp [Interleaving.alone, initialization, act, read, Phase.after]
  have found : Stateful.query Server.getVersion s = (.ok existing, s) := by simp [Stateful.query, read]
  cases existing with
  | some version =>
    have returned : recordVersion p s = (.ok (), s) := Stateful.bind_ok found
    refine ⟨[.lookUp], ?_⟩
    simp [Interleaving.alone, initialization, act, read, returned, Phase.after]
  | none =>
    rcases wrote : s.insertVersion p with raised | between
    · have failed : Stateful.commit (Server.insertVersion p) s = (.error raised, s) := by
        simp [Stateful.commit, wrote]
      have raises : recordVersion p s = (.error raised, s) := (Stateful.bind_ok found).trans (Stateful.bind_error failed)
      refine ⟨[.lookUp, .insert], ?_⟩
      simp [Interleaving.alone, initialization, act, read, free, wrote, raises, Phase.after]
    · have inserted : Stateful.commit (Server.insertVersion p) s = (.ok (), between) := by
        simp [Stateful.commit, wrote]
      have recorded : recordVersion p s = (.ok (), between.commitVersion) :=
        (Stateful.bind_ok found).trans (Stateful.bind_ok inserted)
      refine ⟨[.lookUp, .insert, .commit], ?_⟩
      simp [Interleaving.alone, initialization, act, read, free, wrote, recorded, Phase.after]

theorem initDb_runs [DecidableEq ι] {c : Config ι (Server ι) Phase} (idle : c.procs p = .idle)
    (unlocked : c.shared.holder = none) (free : c.shared.writer = none) :
    ∃ actions : List Action, (initialization ι).system.run c (actions.map (.own p)) =
      some ⟨(initDb .mysql p c.shared).2,
        Function.update c.procs p (Phase.after .done (initDb .mysql p c.shared).1)⟩ := by
  let held : Server ι := { c.shared with holder := some p }
  have writes : (createTables held.missing held).2.writer = none :=
    ((createTables_writer held.missing).run held).trans free
  obtain ⟨creates, created⟩ := createTables_runs (p := p) held.missing held
  have entered : ((initialization ι).alone p).run (c.shared, c.procs p) (.acquire :: .inspect :: creates) =
      some ((createTables held.missing held).2.releaseLock, Phase.after .released (createTables held.missing held).1) := by
    rw [← created]
    simp [Interleaving.alone, initialization, act, idle, unlocked, held]
  have acquired : getLock p c.shared = (.ok true, held) := by simp [getLock, unlocked, held]
  have locks : advisoryLock p createAll c.shared =
      ((createTables held.missing held).1, (createTables held.missing held).2.releaseLock) :=
    Stateful.bind_ok acquired
  rcases outcome : createTables held.missing held with ⟨raised | ⟨⟩, after⟩ <;> rw [outcome] at entered locks writes
  · have raises : initDb .mysql p c.shared = (.error raised, after.releaseLock) := Stateful.bind_error locks
    rw [raises]
    exact ⟨_, Interleaving.run_alone entered⟩
  · have records : initDb .mysql p c.shared = recordVersion p after.releaseLock := Stateful.bind_ok locks
    obtain ⟨actions, recorded⟩ := recordVersion_runs (p := p) (s := after.releaseLock) writes
    rw [records]
    refine ⟨.acquire :: .inspect :: creates ++ actions, Interleaving.run_alone ?_⟩
    rw [System.run_append, entered]
    exact recorded

end Alone

end CfProxy.Session
