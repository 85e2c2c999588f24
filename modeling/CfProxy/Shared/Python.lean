import Mathlib.Data.Rat.Defs

set_option autoImplicit false

abbrev Str := List Char

instance : LawfulBEq Str := List.instLawfulBEq

-- Decided by going through the text, and not through all of `Char`.
instance decidableChars (text : Str) (p : Char → Prop) [DecidablePred p] : Decidable (∀ c ∈ text, p c) :=
  List.decidableBAll p text

-- Python's own exceptions by constructor, classes defined elsewhere by name. Only the text of a `ValueError` is shown
-- to anyone; what other libraries derive from it counts as one.
inductive PyError
  | attributeError
  | keyError
  | typeError
  | unicodeError (text : Str)
  | valueError (text : Str)
  | named (className : Str)
  deriving DecidableEq

-- The class of an exception, without its text.
def PyError.untold : PyError → PyError
  | .unicodeError _ => .unicodeError []
  | .valueError _ => .valueError []
  | other => other

section Except

universe u

variable {ε α β : Type u}

@[simp] theorem Except.pure_eq (value : α) : (pure value : Except ε α) = .ok value := rfl

@[simp] theorem Except.throw_eq (raised : ε) : (throw raised : Except ε α) = .error raised := rfl

@[simp] theorem Except.ok_bind (value : α) (next : α → Except ε β) : (Except.ok value >>= next) = next value := rfl

@[simp] theorem Except.error_bind (raised : ε) (next : α → Except ε β) :
    (Except.error raised >>= next) = .error raised := rfl

theorem Except.bind_eq_ok {first : Except ε α} {next : α → Except ε β} {value : β} :
    (first >>= next) = .ok value ↔ ∃ middle, first = .ok middle ∧ next middle = .ok value := by
  cases first <;> simp

@[simp] theorem Except.ok_map (f : α → β) (value : α) : (Except.ok value : Except ε α).map f = .ok (f value) := rfl

@[simp] theorem Except.error_map (f : α → β) (raised : ε) :
    (Except.error raised : Except ε α).map f = .error raised := rfl

end Except

def Returns {α : Type} (P : α → Prop) (result : Except PyError α) : Prop := ∀ value, result = .ok value → P value

theorem Returns.ok {α : Type} {P : α → Prop} {value : α} (holds : P value) : Returns P (.ok value) := by
  rintro _ ⟨⟩
  exact holds

theorem Returns.error {α : Type} {P : α → Prop} (raised : PyError) : Returns P (.error raised) := by
  rintro _ ⟨⟩

theorem Returns.bind {α β : Type} {P : β → Prop} {first : Except PyError α} {next : α → Except PyError β}
    (after : ∀ value, first = .ok value → Returns P (next value)) : Returns P (first >>= next) := by
  cases first with
  | error raised => exact .error raised
  | ok value => exact after value rfl

def Decides (result : Except PyError Bool) (p : Prop) : Prop :=
  ∃ verdict, result = .ok verdict ∧ (verdict = true ↔ p)

theorem Decides.of_ok {verdict : Bool} {p : Prop} (correct : verdict = true ↔ p) :
    Decides (.ok verdict) p :=
  ⟨verdict, rfl, correct⟩

theorem Decides.congr {result : Except PyError Bool} {p q : Prop} (decides : Decides result p)
    (same : p ↔ q) : Decides result q := by
  obtain ⟨verdict, computed, correct⟩ := decides
  exact ⟨verdict, computed, correct.trans same⟩

theorem Decides.cases {result : Except PyError Bool} {p : Prop} (decides : Decides result p) :
    (p ∧ result = .ok true) ∨ (¬p ∧ result = .ok false) := by
  obtain ⟨_ | _, rfl, correct⟩ := decides
  · exact .inr ⟨by simpa using correct, rfl⟩
  · exact .inl ⟨by simpa using correct, rfl⟩

theorem Decides.ok_true {result : Except PyError Bool} {p : Prop} (decides : Decides result p) :
    result = .ok true ↔ p := by
  obtain ⟨verdict, rfl, correct⟩ := decides
  simpa using correct

theorem Decides.ok_false {result : Except PyError Bool} {p : Prop} (decides : Decides result p) :
    result = .ok false ↔ ¬p := by
  obtain ⟨verdict, rfl, correct⟩ := decides
  rw [← correct]
  simp

-- `mapping[key] = value`: a new key comes last.
def setItem {β : Type} (mapping : List (Str × β)) (key : Str) (value : β) : List (Str × β) :=
  if mapping.any (·.1 == key) then mapping.map fun entry => if entry.1 == key then (key, value) else entry
  else mapping ++ [(key, value)]

-- `mapping.setdefault(key, value)`.
def setDefault {β : Type} (mapping : List (Str × β)) (key : Str) (value : β) : List (Str × β) :=
  if mapping.any (·.1 == key) then mapping else mapping ++ [(key, value)]

-- An index of a slice: counted from the end if negative, and cut to the list.
def sliceIndex (length : Nat) (index : Int) : Nat :=
  if index < 0 then (index + length).toNat else min index.toNat length

-- `items[start:stop]`.
def slice {β : Type} (items : List β) (start stop : Int) : List β :=
  (items.take (sliceIndex items.length stop)).drop (sliceIndex items.length start)

inductive Json
  | null
  | bool (value : Bool)
  | num (value : Rat)
  | str (value : Str)
  | arr (items : List Json)
  | obj (fields : List (Str × Json))

namespace Json

abbrev Dict := List (Str × Json)

def truthy : Json → Bool
  | .null => false
  | .bool value => value
  | .num value => value != 0
  | .str value => !value.isEmpty
  | .arr items => !items.isEmpty
  | .obj fields => !fields.isEmpty

def isNull : Json → Bool
  | .null => true
  | _ => false

-- `fields.get(key)`: an absent key reads as `None`.
def get (fields : Dict) (key : Str) : Json := (fields.lookup key).getD .null

-- `fields.get(key, default)`.
def getD (fields : Dict) (key : Str) (default : Json) : Json := (fields.lookup key).getD default

-- `value.get(key)`; only dicts have it.
def getAttr (value : Json) (key : Str) : Except PyError Json :=
  match value with
  | .obj fields => .ok (get fields key)
  | _ => .error .attributeError

-- `value[key]` for a string key.
def item (value : Json) (key : Str) : Except PyError Json :=
  match value with
  | .obj fields => match fields.lookup key with
    | some found => .ok found
    | none => .error .keyError
  | _ => .error .typeError

-- What iterating over `value or []` yields.
def iterate (value : Json) : Except PyError (List Json) :=
  if value.truthy then
    match value with
    | .arr items => .ok items
    | .obj fields => .ok (fields.map fun field => .str field.1)
    | .str text => .ok (text.map fun c => .str [c])
    | _ => .error .typeError
  else .ok []

-- What `for item in value` goes through.
def elements (value : Json) : Except PyError (List Json) :=
  match value with
  | .arr items => .ok items
  | .obj fields => .ok (fields.map fun field => .str field.1)
  | .str text => .ok (text.map fun c => .str [c])
  | _ => .error .typeError

def number (value : Json) : Except PyError Rat :=
  match value with
  | .num value => .ok value
  | .bool value => .ok (if value then 1 else 0)
  | _ => .error .typeError

-- `value in strings` for a list of strings.
def isIn (value : Json) (strings : List Str) : Bool :=
  match value with
  | .str text => strings.contains text
  | _ => false

def ofOption : Option Str → Json
  | none => .null
  | some text => .str text

-- Python's `==`: `True == 1`, and dicts compare without regard to order.
mutual

def pyEq : Json → Json → Bool
  | .null, .null => true
  | .bool left, .bool right => left == right
  | .bool left, .num right => (if left then 1 else 0) == right
  | .num left, .bool right => left == (if right then 1 else 0)
  | .num left, .num right => left == right
  | .str left, .str right => left == right
  | .arr left, .arr right => pyEqItems left right
  | .obj left, .obj right => left.length == right.length && pyEqFields left right
  | _, _ => false

def pyEqItems : List Json → List Json → Bool
  | [], [] => true
  | left :: lefts, right :: rights => pyEq left right && pyEqItems lefts rights
  | _, _ => false

def pyEqFields : Dict → Dict → Bool
  | [], _ => true
  | (key, value) :: rest, other =>
    (match other.lookup key with
    | some found => pyEq value found
    | none => false) && pyEqFields rest other

end

theorem pyEq_str {value : Json} {text : Str} (same : pyEq value (.str text) = true) :
    value = .str text := by
  cases value <;> simp_all [pyEq]

theorem str_pyEq {value : Json} {text : Str} (same : pyEq (.str text) value = true) :
    value = .str text := by
  cases value <;> simp_all [pyEq]

theorem pyEq_null {value : Json} (same : pyEq value .null = true) : value = .null := by
  cases value <;> simp_all [pyEq]

theorem truthy_congr {left right : Json} (same : pyEq left right = true) : left.truthy = right.truthy := by
  cases left <;> cases right <;> simp only [pyEq, Bool.false_eq_true, beq_iff_eq, Bool.and_eq_true] at same
  case null.null => rfl
  case bool.bool left right => rw [same]
  case bool.num left right =>
    subst same
    cases left <;> simp [truthy]
  case num.bool left right =>
    subst same
    cases right <;> simp [truthy]
  case num.num left right => rw [same]
  case str.str left right => rw [same]
  case arr.arr left right => cases left <;> cases right <;> simp_all [pyEqItems, truthy]
  case obj.obj left right => cases left <;> cases right <;> simp_all [truthy]

theorem isIn_congr {left right : Json} (same : pyEq left right = true) (strings : List Str) :
    isIn left strings = isIn right strings := by
  cases left with
  | str text => rw [str_pyEq same]
  | _ => cases right <;> simp_all [pyEq, isIn]

theorem isIn_iff {value : Json} {strings : List Str} :
    isIn value strings = true ↔ ∃ text ∈ strings, value = .str text := by
  cases value <;> simp [isIn]

@[simp] theorem truthy_obj (fields : Dict) : truthy (.obj fields) = !fields.isEmpty := rfl

end Json

structure Datetime where
  wall : Int
  offset : Option Int
  deriving DecidableEq

namespace Datetime

def utc (instant : Int) : Datetime := ⟨instant, some 0⟩

-- `left < right`, which raises between a naive and an aware one.
def before (left right : Datetime) : Except PyError Bool :=
  match left.offset, right.offset with
  | none, none => .ok (left.wall < right.wall)
  | some leftOffset, some rightOffset => .ok (left.wall - leftOffset < right.wall - rightOffset)
  | _, _ => .error .typeError

def roundHalfEven (value : Rat) : Int :=
  let low := value.floor
  let rest := value - low
  if rest < 1 / 2 ∨ (rest = 1 / 2 ∧ low % 2 = 0) then low else low + 1

-- Microseconds are what `timedelta(seconds=...)` rounds to.
def addSeconds (moment : Datetime) (seconds : Rat) : Datetime :=
  { moment with wall := moment.wall + roundHalfEven (seconds * 1000000) }

end Datetime
