import Mathlib.Data.List.Forall2
import CfProxy.Shared.Stateful
import CfProxy.Shared.Traced

set_option autoImplicit false

universe u v w

-- Both return, and what is related, or both raise the same.
inductive Related {α : Type u} {β : Type v} (V : α → β → Prop) : Except PyError α → Except PyError β → Prop
  | ok {left : α} {right : β} (same : V left right) : Related V (.ok left) (.ok right)
  | error (raised : PyError) : Related V (.error raised) (.error raised)

namespace Related

variable {α α' : Type u} {β β' : Type v} {V : α → β → Prop} {U : α' → β' → Prop}

theorem reflexive {α : Type u} {V : α → α → Prop} (each : ∀ value, V value value) (result : Except PyError α) :
    Related V result result := by
  cases result with
  | ok value => exact .ok (each value)
  | error raised => exact .error raised

theorem refl {α : Type u} (result : Except PyError α) : Related Eq result result := reflexive (fun _ => rfl) result

theorem of_eq {α : Type u} {left right : Except PyError α} (same : left = right) : Related Eq left right :=
  same ▸ refl left

theorem eq {α : Type u} {left right : Except PyError α} (related : Related Eq left right) : left = right := by
  cases related with
  | ok same => rw [same]
  | error => rfl

theorem mono {W : α → β → Prop} {left : Except PyError α} {right : Except PyError β} (related : Related V left right)
    (weaker : ∀ a b, V a b → W a b) : Related W left right := by
  cases related with
  | ok same => exact .ok (weaker _ _ same)
  | error raised => exact .error raised

theorem bind {left : Except PyError α'} {right : Except PyError β'} {f : α' → Except PyError α}
    {g : β' → Except PyError β} (first : Related U left right) (next : ∀ a b, U a b → Related V (f a) (g b)) :
    Related V (left >>= f) (right >>= g) := by
  cases first with
  | ok same => exact next _ _ same
  | error raised => exact .error raised

theorem map {left : Except PyError α'} {right : Except PyError β'} {f : α' → α} {g : β' → β}
    (first : Related U left right) (next : ∀ a b, U a b → V (f a) (g b)) : Related V (left.map f) (right.map g) := by
  cases first with
  | ok same => exact .ok (next _ _ same)
  | error raised => exact .error raised

end Related

namespace Traced

structure Alike {ε : Type u} {α β : Type v} (E : ε → ε → Prop) (V : α → β → Prop) (x : Traced ε α) (y : Traced ε β) :
    Prop where
  events : List.Forall₂ E x.events y.events
  result : Related V x.result y.result

namespace Alike

variable {ε : Type u} {E : ε → ε → Prop} {α α' β β' : Type v} {V : α → β → Prop} {U : α' → β' → Prop}

theorem pure {left : α} {right : β} (same : V left right) :
    Alike E V (Pure.pure left : Traced ε α) (Pure.pure right) :=
  ⟨.nil, .ok same⟩

theorem lift {left : Except PyError α} {right : Except PyError β} (related : Related V left right) :
    Alike E V (Traced.lift left) (Traced.lift right) :=
  ⟨.nil, related⟩

theorem raise (raised : PyError) : Alike E V (Traced.raise raised) (Traced.raise raised) := ⟨.nil, .error raised⟩

theorem emit {first second : ε} (same : E first second) : Alike E Eq (Traced.emit first) (Traced.emit second) :=
  ⟨.cons same .nil, .ok rfl⟩

theorem bind {x : Traced ε α'} {y : Traced ε β'} {f : α' → Traced ε α} {g : β' → Traced ε β} (first : Alike E U x y)
    (next : ∀ a b, U a b → Alike E V (f a) (g b)) : Alike E V (x >>= f) (y >>= g) := by
  rcases x with ⟨xs, left⟩
  rcases y with ⟨ys, right⟩
  obtain ⟨events, result⟩ := first
  cases result with
  | ok same =>
    obtain ⟨more, last⟩ := next _ _ same
    exact ⟨List.rel_append events more, last⟩
  | error raised => exact ⟨events, .error raised⟩

theorem bind_eq {x y : Traced ε α'} {f : α' → Traced ε α} {g : α' → Traced ε β} (first : Alike E Eq x y)
    (next : ∀ value, Alike E V (f value) (g value)) : Alike E V (x >>= f) (y >>= g) :=
  first.bind fun _ _ same => same ▸ next _

theorem lift_bind {result : Except PyError α'} {f : α' → Traced ε α} {g : α' → Traced ε β}
    (next : ∀ value, Alike E V (f value) (g value)) : Alike E V (Traced.lift result >>= f) (Traced.lift result >>= g) :=
  (lift (Related.refl result)).bind_eq next

theorem map {x : Traced ε α'} {y : Traced ε β'} {f : α' → α} {g : β' → β} (first : Alike E U x y)
    (next : ∀ a b, U a b → V (f a) (g b)) : Alike E V (f <$> x) (g <$> y) :=
  first.bind fun a b same => .pure (next a b same)

theorem ensuring {x : Traced ε α} {y : Traced ε β} {cleanup other : Traced ε PUnit} (main : Alike E V x y)
    (released : Alike E Eq cleanup other) : Alike E V (x.ensuring cleanup) (y.ensuring other) := by
  rcases cleanup with ⟨cs, left⟩
  rcases other with ⟨os, right⟩
  obtain ⟨events, result⟩ := released
  refine ⟨List.rel_append main.events events, ?_⟩
  dsimp only at result
  cases result with
  | ok => exact main.result
  | error raised => exact .error raised

theorem catching {x handler : Traced ε α} {y other : Traced ε β} {caught : PyError} (main : Alike E V x y)
    (handled : Alike E V handler other) : Alike E V (x.catching caught handler) (y.catching caught other) := by
  rcases x with ⟨xs, left⟩
  rcases y with ⟨ys, right⟩
  obtain ⟨events, result⟩ := main
  dsimp only at events result
  cases result with
  | ok same => exact ⟨events, .ok same⟩
  | error raised =>
    unfold Traced.catching
    dsimp only
    split
    · exact ⟨List.rel_append events handled.events, handled.result⟩
    · exact ⟨events, .error raised⟩

end Alike

end Traced

namespace Stateful

variable {σ α α' β β' : Type}

def Alike (R : σ → σ → Prop) (V : α → β → Prop) (x : Stateful σ α) (y : Stateful σ β) : Prop :=
  ∀ s t, R s t → Related V (x s).1 (y t).1 ∧ R (x s).2 (y t).2

namespace Alike

variable {R : σ → σ → Prop} {V : α → β → Prop} {U : α' → β' → Prop}

theorem query {read : σ → Except PyError α} {other : σ → Except PyError β}
    (same : ∀ s t, R s t → Related V (read s) (other t)) : Alike R V (Stateful.query read) (Stateful.query other) :=
  fun s t related => ⟨same s t related, related⟩

theorem lift {left : Except PyError α} {right : Except PyError β} (same : Related V left right) :
    Alike R V (Stateful.lift left) (Stateful.lift right) :=
  query fun _ _ _ => same

theorem raise (raised : PyError) :
    Alike R V (Stateful.raise raised : Stateful σ α) (Stateful.raise raised : Stateful σ β) :=
  lift (.error raised)

theorem pure {left : α} {right : β} (same : V left right) :
    Alike R V (Pure.pure left : Stateful σ α) (Pure.pure right : Stateful σ β) :=
  fun _ _ related => ⟨.ok same, related⟩

theorem reads {read : σ → α} {other : σ → β} (same : ∀ s t, R s t → V (read s) (other t)) :
    Alike R V (Stateful.reads read) (Stateful.reads other) :=
  query fun s t related => .ok (same s t related)

theorem commit {write other : σ → Except PyError σ} (same : ∀ s t, R s t → Related R (write s) (other t)) :
    Alike R Eq (Stateful.commit write) (Stateful.commit other) := by
  intro s t related
  have outcome := same s t related
  unfold Stateful.commit
  generalize write s = left, other t = right at outcome
  cases outcome with
  | ok after => exact ⟨.ok rfl, after⟩
  | error raised => exact ⟨.error raised, related⟩

theorem modify {change other : σ → σ} (same : ∀ s t, R s t → R (change s) (other t)) :
    Alike R Eq (Stateful.modify change) (Stateful.modify other) :=
  commit fun s t related => .ok (same s t related)

theorem bind {x : Stateful σ α'} {y : Stateful σ β'} {f : α' → Stateful σ α} {g : β' → Stateful σ β}
    (first : Alike R U x y) (next : ∀ a b, U a b → Alike R V (f a) (g b)) : Alike R V (x >>= f) (y >>= g) := by
  intro s t related
  obtain ⟨outcome, after⟩ := first s t related
  rw [bind_run, bind_run]
  rcases left : x s with ⟨result, s'⟩
  rcases right : y t with ⟨result', t'⟩
  rw [left, right] at outcome after
  cases outcome with
  | ok same => exact next _ _ same s' t' after
  | error raised => exact ⟨.error raised, after⟩

theorem bind_eq {x y : Stateful σ α'} {f : α' → Stateful σ α} {g : α' → Stateful σ β} (first : Alike R Eq x y)
    (next : ∀ value, Alike R V (f value) (g value)) : Alike R V (x >>= f) (y >>= g) :=
  first.bind fun _ _ same => same ▸ next _

theorem forEach {items : List α} {body other : α → Stateful σ Unit} (each : ∀ item ∈ items, Alike R Eq (body item) (other item)) :
    Alike R Eq (Stateful.forEach items body) (Stateful.forEach items other) := by
  induction items with
  | nil => exact pure rfl
  | cons item rest ih =>
    exact (each item (by simp)).bind_eq fun _ => ih fun later member => each later (by simp [member])

end Alike

end Stateful

namespace List.Forall₂

variable {α : Type u} {β : Type v} {R : α → β → Prop} {rows : List α} {others : List β} {p : α → Bool} {q : β → Bool}

theorem find?_rel (related : List.Forall₂ R rows others) (same : ∀ a b, R a b → p a = q b) :
    Option.Rel R (rows.find? p) (others.find? q) := by
  induction related with
  | nil => exact .none
  | @cons a b rows others head _ ih =>
    rw [List.find?_cons, List.find?_cons, same a b head]
    cases q b with
    | true => exact .some head
    | false => exact ih

theorem any_eq (related : List.Forall₂ R rows others) (same : ∀ a b, R a b → p a = q b) : rows.any p = others.any q := by
  induction related with
  | nil => rfl
  | cons head _ ih => simp [same _ _ head, ih]

theorem filter_rel (related : List.Forall₂ R rows others) (same : ∀ a b, R a b → p a = q b) :
    List.Forall₂ R (rows.filter p) (others.filter q) :=
  List.rel_filter (fun a b head => by simp [same a b head]) related

theorem map_rel {α' : Type u} {β' : Type v} {S : α' → β' → Prop} {f : α → α'} {g : β → β'}
    (related : List.Forall₂ R rows others) (same : ∀ a b, R a b → S (f a) (g b)) :
    List.Forall₂ S (rows.map f) (others.map g) :=
  List.rel_map (fun a b head => same a b head) related

theorem map_eq {γ : Type w} {f : α → γ} {g : β → γ} (related : List.Forall₂ R rows others)
    (same : ∀ a b, R a b → f a = g b) : rows.map f = others.map g := by
  induction related with
  | nil => rfl
  | cons head _ ih => simp [same _ _ head, ih]

end List.Forall₂
