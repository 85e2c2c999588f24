import CfProxy.Shared.Python

set_option autoImplicit false

-- A computation on a store; an exception leaves the store as it is by then.
def Stateful (σ α : Type) := σ → Except PyError α × σ

namespace Stateful

variable {σ α β : Type}

def pure (value : α) : Stateful σ α := fun s => (.ok value, s)

def bind (first : Stateful σ α) (next : α → Stateful σ β) : Stateful σ β := fun s =>
  match first s with
  | (.ok value, after) => next value after
  | (.error raised, after) => (.error raised, after)

instance : Monad (Stateful σ) where
  pure := Stateful.pure
  bind := Stateful.bind

def query (read : σ → Except PyError α) : Stateful σ α := fun s => (read s, s)

def lift (result : Except PyError α) : Stateful σ α := query fun _ => result

def raise (raised : PyError) : Stateful σ α := lift (.error raised)

def reads (read : σ → α) : Stateful σ α := query fun s => .ok (read s)

def commit (write : σ → Except PyError σ) : Stateful σ Unit := fun s =>
  match write s with
  | .ok after => (.ok (), after)
  | .error raised => (.error raised, s)

def modify (change : σ → σ) : Stateful σ Unit := commit fun s => .ok (change s)

def forEach (items : List α) (body : α → Stateful σ Unit) : Stateful σ Unit :=
  match items with
  | [] => Pure.pure ()
  | item :: rest => body item >>= fun _ => forEach rest body

-- What is made of the outcome, an exception included.
def concluding (body : Stateful σ α) (conclude : Except PyError α → Except PyError β) : Stateful σ β := fun s =>
  (conclude (body s).1, (body s).2)

-- `try: body finally: cleanup`.
def ensuring (body : Stateful σ α) (cleanup : σ → σ) : Stateful σ α := fun s => ((body s).1, cleanup (body s).2)

theorem bind_run (first : Stateful σ α) (next : α → Stateful σ β) (s : σ) :
    (first >>= next) s = match first s with
      | (.ok value, after) => next value after
      | (.error raised, after) => (.error raised, after) := rfl

theorem bind_ok {first : Stateful σ α} {next : α → Stateful σ β} {s after : σ} {value : α}
    (returned : first s = (.ok value, after)) : (first >>= next) s = next value after := by
  rw [bind_run, returned]

theorem bind_error {first : Stateful σ α} {next : α → Stateful σ β} {s after : σ} {raised : PyError}
    (failed : first s = (.error raised, after)) : (first >>= next) s = (.error raised, after) := by
  rw [bind_run, failed]

theorem bind_returns {first : Stateful σ α} {next : α → Stateful σ β} {s : σ} {value : β}
    (returned : ((first >>= next) s).1 = .ok value) :
    ∃ passed between, first s = (.ok passed, between) ∧ (next passed between).1 = .ok value := by
  match ran : first s with
  | (.ok passed, between) =>
    rw [bind_ok ran] at returned
    exact ⟨passed, between, rfl, returned⟩
  | (.error raised, between) =>
    rw [bind_error ran] at returned
    cases returned

theorem returns_bind {P : β → Prop} {first : Stateful σ α} {next : α → Stateful σ β} {s : σ}
    (later : ∀ value after, Returns P (next value after).1) : Returns P ((first >>= next) s).1 := by
  intro value returned
  obtain ⟨passed, between, -, rest⟩ := bind_returns returned
  exact later passed between value rest

theorem lift_returns {result : Except PyError α} {next : α → Stateful σ β} {s : σ} {value : β}
    (returned : ((lift result >>= next) s).1 = .ok value) :
    ∃ passed, result = .ok passed ∧ (next passed s).1 = .ok value := by
  obtain ⟨passed, between, ran, rest⟩ := bind_returns returned
  obtain ⟨rfl, rfl⟩ := Prod.mk.inj ran
  exact ⟨passed, rfl, rest⟩

-- Where a sequence stops at its first part, that part has raised.

theorem query_cases (read : σ → Except PyError α) (next : α → Stateful σ β) (s : σ) :
    (∃ raised, (query read >>= next) s = (.error raised, s)) ∨
      ∃ value, read s = .ok value ∧ (query read >>= next) s = next value s := by
  cases found : read s with
  | ok value =>
    right
    refine ⟨value, rfl, bind_ok ?_⟩
    simp only [query, found]
  | error raised =>
    left
    refine ⟨raised, bind_error ?_⟩
    simp only [query, found]

theorem lift_cases (result : Except PyError α) (next : α → Stateful σ β) (s : σ) :
    (∃ raised, (lift result >>= next) s = (.error raised, s)) ∨
      ∃ value, result = .ok value ∧ (lift result >>= next) s = next value s :=
  query_cases (fun _ => result) next s

theorem commit_cases (write : σ → Except PyError σ) (next : Unit → Stateful σ β) (s : σ) :
    (∃ raised, (commit write >>= next) s = (.error raised, s)) ∨
      ∃ after, write s = .ok after ∧ (commit write >>= next) s = next () after := by
  cases wrote : write s with
  | ok after =>
    right
    refine ⟨after, rfl, bind_ok ?_⟩
    simp only [commit, wrote]
  | error raised =>
    left
    refine ⟨raised, bind_error ?_⟩
    simp only [commit, wrote]

structure Within (rel : σ → σ → Prop) (x : Stateful σ α) : Prop where
  run : ∀ s, rel s (x s).2

namespace Within

variable {rel : σ → σ → Prop}

section

variable [Std.Refl rel]

theorem query (read : σ → Except PyError α) : Within rel (Stateful.query read) := ⟨fun s => refl_of rel s⟩

theorem lift (result : Except PyError α) : Within rel (Stateful.lift result) := query fun _ => result

theorem raise (raised : PyError) : Within rel (Stateful.raise raised : Stateful σ α) := lift (.error raised)

theorem pure (value : α) : Within rel (Pure.pure value : Stateful σ α) := lift (.ok value)

theorem commit {write : σ → Except PyError σ} (each : ∀ s after, write s = .ok after → rel s after) :
    Within rel (Stateful.commit write) := by
  constructor
  intro s
  unfold Stateful.commit
  split
  next after wrote => exact each s after wrote
  next => exact refl_of rel s

theorem modify {change : σ → σ} (each : ∀ s, rel s (change s)) : Within rel (Stateful.modify change) := by
  apply commit
  rintro s _ ⟨⟩
  exact each s

end

theorem bind [IsTrans σ rel] {first : Stateful σ α} {next : α → Stateful σ β} (before : Within rel first)
    (after : ∀ value, Within rel (next value)) : Within rel (first >>= next) := by
  constructor
  intro s
  have started := before.run s
  match ran : first s with
  | (.ok value, between) =>
    rw [ran] at started
    rw [bind_ok ran]
    exact trans_of rel started ((after value).run between)
  | (.error raised, between) =>
    rw [ran] at started
    rw [bind_error ran]
    exact started

theorem forEach [Std.Refl rel] [IsTrans σ rel] {items : List α} {body : α → Stateful σ Unit}
    (each : ∀ item, Within rel (body item)) : Within rel (Stateful.forEach items body) := by
  induction items with
  | nil => exact pure ()
  | cons item rest ih => exact bind (each item) fun _ => ih

end Within

end Stateful

-- What one principal's computations keep: an invariant, what that principal sees, and the rest.
structure Boundary (σ : Type) where
  inv : σ → Prop
  agree : σ → σ → Prop
  frame : σ → σ → Prop
  refl : ∀ s, frame s s
  trans : ∀ {first second third}, frame first second → frame second third → frame first third

-- `same` compares two runs, of which neither may depend on what the principal does not see.
structure Isolated {σ α : Type} (b : Boundary σ) (pre : σ → Prop) (x : Stateful σ α) (post : α → σ → Prop) :
    Prop where
  keeps : ∀ s, b.inv s → pre s → b.inv (x s).2 ∧ b.frame s (x s).2
  ensures : ∀ s value, b.inv s → pre s → (x s).1 = .ok value → post value (x s).2
  same : ∀ s t, b.inv s → b.inv t → b.agree s t → pre s → pre t → (x s).1 = (x t).1 ∧ b.agree (x s).2 (x t).2

namespace Isolated

variable {σ α β : Type} {b : Boundary σ} {pre other : σ → Prop} {post : α → σ → Prop}

theorem query {read : σ → Except PyError α} (ensures : ∀ s value, b.inv s → pre s → read s = .ok value → post value s)
    (same : ∀ s t, b.inv s → b.inv t → b.agree s t → pre s → pre t → read s = read t) :
    Isolated b pre (Stateful.query read) post where
  keeps s inv _ := ⟨inv, b.refl s⟩
  ensures := ensures
  same s t invS invT agree preS preT := ⟨same s t invS invT agree preS preT, agree⟩

theorem lift {result : Except PyError α} (ensures : ∀ s value, pre s → result = .ok value → post value s) :
    Isolated b pre (Stateful.lift result) post :=
  .query (fun s value _ before returned => ensures s value before returned) fun _ _ _ _ _ _ _ => rfl

theorem raise (raised : PyError) : Isolated b pre (Stateful.raise raised) post :=
  .lift fun _ _ _ returned => by cases returned

theorem pure {value : α} (ensures : ∀ s, pre s → post value s) : Isolated b pre (Pure.pure value) post := by
  have lifted : Isolated b pre (Stateful.lift (.ok value)) post := by
    apply lift
    rintro s _ before ⟨⟩
    exact ensures s before
  exact lifted

theorem commit {write : σ → Except PyError σ} {post : Unit → σ → Prop}
    (keeps : ∀ s after, b.inv s → pre s → write s = .ok after → b.inv after ∧ b.frame s after ∧ post () after)
    (same : ∀ s t, b.inv s → b.inv t → b.agree s t → pre s → pre t →
      (∃ raised, write s = .error raised ∧ write t = .error raised) ∨
        ∃ afterS afterT, write s = .ok afterS ∧ write t = .ok afterT ∧ b.agree afterS afterT) :
    Isolated b pre (Stateful.commit write) post := by
  constructor
  · intro s inv before
    unfold Stateful.commit
    split
    · next after wrote => exact ⟨(keeps s after inv before wrote).1, (keeps s after inv before wrote).2.1⟩
    · exact ⟨inv, b.refl s⟩
  · intro s value inv before returned
    unfold Stateful.commit at returned ⊢
    split at returned
    · next after wrote => simpa [wrote] using (keeps s after inv before wrote).2.2
    · cases returned
  · intro s t invS invT agree preS preT
    obtain ⟨raised, failedS, failedT⟩ | ⟨afterS, afterT, wroteS, wroteT, agreed⟩ := same s t invS invT agree preS preT
    · simpa [Stateful.commit, failedS, failedT] using agree
    · simpa [Stateful.commit, wroteS, wroteT] using agreed

theorem modify {change : σ → σ} {post : Unit → σ → Prop}
    (keeps : ∀ s, b.inv s → pre s → b.inv (change s) ∧ b.frame s (change s) ∧ post () (change s))
    (same : ∀ s t, b.inv s → b.inv t → b.agree s t → pre s → pre t → b.agree (change s) (change t)) :
    Isolated b pre (Stateful.modify change) post := by
  apply commit
  · rintro s _ inv before ⟨⟩
    exact keeps s inv before
  · intro s t invS invT agree preS preT
    exact .inr ⟨_, _, rfl, rfl, same s t invS invT agree preS preT⟩

theorem bind {first : Stateful σ α} {next : α → Stateful σ β} {middle : α → σ → Prop} {post : β → σ → Prop}
    (before : Isolated b pre first middle) (after : ∀ value, Isolated b (middle value) (next value) post) :
    Isolated b pre (first >>= next) post := by
  constructor
  · intro s inv holds
    obtain ⟨kept, framed⟩ := before.keeps s inv holds
    match ran : first s with
    | (.ok value, between) =>
      have known := before.ensures s value inv holds (by rw [ran])
      rw [ran] at kept framed known
      rw [Stateful.bind_ok ran]
      obtain ⟨keptLater, framedLater⟩ := (after value).keeps between kept known
      exact ⟨keptLater, b.trans framed framedLater⟩
    | (.error raised, between) =>
      rw [ran] at kept framed
      rw [Stateful.bind_error ran]
      exact ⟨kept, framed⟩
  · intro s value inv holds returned
    obtain ⟨kept, -⟩ := before.keeps s inv holds
    match ran : first s with
    | (.ok passed, between) =>
      have known := before.ensures s passed inv holds (by rw [ran])
      rw [ran] at kept known
      rw [Stateful.bind_ok ran] at returned ⊢
      exact (after passed).ensures between value kept known returned
    | (.error raised, between) =>
      rw [Stateful.bind_error ran] at returned
      cases returned
  · intro s t invS invT agree holdsS holdsT
    obtain ⟨equal, agreed⟩ := before.same s t invS invT agree holdsS holdsT
    have keptS := (before.keeps s invS holdsS).1
    have keptT := (before.keeps t invT holdsT).1
    match ranS : first s, ranT : first t with
    | (.ok value, betweenS), (.ok other, betweenT) =>
      rw [ranS, ranT] at equal agreed
      cases equal
      have knownS := before.ensures s value invS holdsS (by rw [ranS])
      have knownT := before.ensures t value invT holdsT (by rw [ranT])
      rw [ranS] at keptS knownS
      rw [ranT] at keptT knownT
      rw [Stateful.bind_ok ranS, Stateful.bind_ok ranT]
      exact (after value).same betweenS betweenT keptS keptT agreed knownS knownT
    | (.error raised, betweenS), (.error other, betweenT) =>
      rw [ranS, ranT] at equal agreed
      rw [Stateful.bind_error ranS, Stateful.bind_error ranT]
      cases equal
      exact ⟨rfl, agreed⟩
    | (.ok value, betweenS), (.error raised, betweenT) => simp [ranS, ranT] at equal
    | (.error raised, betweenS), (.ok value, betweenT) => simp [ranS, ranT] at equal

theorem weaken {stronger : σ → Prop} {weaker : α → σ → Prop} {x : Stateful σ α} (isolated : Isolated b pre x post)
    (before : ∀ s, stronger s → pre s) (after : ∀ value s, post value s → weaker value s) :
    Isolated b stronger x weaker where
  keeps s inv holds := isolated.keeps s inv (before s holds)
  ensures s value inv holds returned := after value _ (isolated.ensures s value inv (before s holds) returned)
  same s t invS invT agree holdsS holdsT := isolated.same s t invS invT agree (before s holdsS) (before t holdsT)

theorem congr {x y : Stateful σ α} (isolated : Isolated b pre y post) (equal : ∀ s, b.inv s → pre s → x s = y s) :
    Isolated b pre x post where
  keeps s inv holds := by
    rw [equal s inv holds]
    exact isolated.keeps s inv holds
  ensures s value inv holds returned := by
    rw [equal s inv holds] at returned ⊢
    exact isolated.ensures s value inv holds returned
  same s t invS invT agree holdsS holdsT := by
    rw [equal s invS holdsS, equal t invT holdsT]
    exact isolated.same s t invS invT agree holdsS holdsT

theorem assuming {fact : Prop} {x : Stateful σ α} (isolated : fact → Isolated b pre x post) :
    Isolated b (fun s => fact ∧ pre s) x post where
  keeps s inv holds := (isolated holds.1).keeps s inv holds.2
  ensures s value inv holds := (isolated holds.1).ensures s value inv holds.2
  same s t invS invT agree holdsS holdsT := (isolated holdsS.1).same s t invS invT agree holdsS.2 holdsT.2

theorem forEach {items : List α} {body : α → Stateful σ Unit}
    (each : ∀ item ∈ items, Isolated b pre (body item) fun _ => pre) :
    Isolated b pre (Stateful.forEach items body) fun _ => pre := by
  induction items with
  | nil => exact .pure fun _ holds => holds
  | cons item rest ih =>
    apply bind (each item List.mem_cons_self)
    intro _
    exact ih fun later member => each later (List.mem_cons_of_mem _ member)

end Isolated
