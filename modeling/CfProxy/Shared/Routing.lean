import Mathlib.Data.List.DropRight
import CfProxy.Shared.Python

set_option autoImplicit false

namespace Routing

inductive Part
  | literal (text : Str)
  | parameter
  | remainder
  deriving DecidableEq

def compileSegment (segment : Str) : Part :=
  if ['{'].isPrefixOf segment then
    if ":path\x7d".toList.isSuffixOf segment then .remainder else .parameter
  else .literal segment

def compilePath (template : Str) : List Part := (template.splitOn '/').map compileSegment

-- `{name}` is `[^/]+`, which takes a segment with its newlines, and `{name:path}` is `.*`, which stops at a newline.
-- The `$` at the end also matches before a newline that ends the path.
def bindParts : List Part → List Str → Option (List Str)
  | [], [] => some []
  | .literal text :: parts, segment :: rest =>
    if segment = text ∨ segment = text ++ ['\n'] ∧ parts = [] then bindParts parts rest else none
  | .parameter :: parts, segment :: rest =>
    if segment = [] then none else (bindParts parts rest).map (segment :: ·)
  | [.remainder], segment :: rest =>
    if '\n' ∈ (['/'].intercalate (segment :: rest)).dropLast then none else some []
  | _, _ => none

structure Route (Endpoint : Type) where
  methods : List Str
  parts : List Part
  endpoint : Endpoint
  deriving DecidableEq

inductive Dispatch (Endpoint : Type)
  | handled (endpoint : Endpoint) (arguments : List Str)
  | methodNotAllowed
  | redirected (path : Str)
  | notFound

variable {Endpoint : Type}

def Route.arguments (route : Route Endpoint) (path : Str) : Option (List Str) :=
  bindParts route.parts (path.splitOn '/')

def Route.handles (route : Route Endpoint) (method path : Str) : Option (Endpoint × List Str) :=
  if method ∈ route.methods then (route.arguments path).map (route.endpoint, ·) else none

def hasPath (routes : List (Route Endpoint)) (path : Str) : Bool :=
  routes.any fun route => (route.arguments path).isSome

-- The path that `redirect_slashes` tries in place of one that matches nothing.
def otherSlash (path : Str) : Str :=
  if path.getLast? = some '/' then path.rdropWhile (· == '/') else path ++ ['/']

-- The first full match handles the request; a match of the path alone is reported as such.
def dispatch (routes : List (Route Endpoint)) (method path : Str) : Dispatch Endpoint :=
  match routes.findSome? (·.handles method path) with
  | some (endpoint, arguments) => .handled endpoint arguments
  | none =>
    if hasPath routes path then .methodNotAllowed
    else if path ≠ ['/'] ∧ hasPath routes (otherSlash path) then .redirected (otherSlash path)
    else .notFound

def Routed (routes : List (Route Endpoint)) (method path : Str) : Prop :=
  ∃ route ∈ routes, method ∈ route.methods ∧ (route.arguments path).isSome = true

instance (routes : List (Route Endpoint)) (method path : Str) : Decidable (Routed routes method path) :=
  List.decidableBEx _ _

variable {routes : List (Route Endpoint)} {method path : Str}

theorem handles_isSome (route : Route Endpoint) :
    (route.handles method path).isSome = true ↔ method ∈ route.methods ∧ (route.arguments path).isSome = true := by
  unfold Route.handles
  split <;> simp_all

theorem handles_endpoint {route : Route Endpoint} {endpoint : Endpoint} {arguments : List Str}
    (handles : route.handles method path = some (endpoint, arguments)) :
    route.endpoint = endpoint ∧ method ∈ route.methods ∧ route.arguments path = some arguments := by
  unfold Route.handles at handles
  split at handles
  · next accepted =>
    obtain ⟨_, bound, ⟨⟩⟩ := Option.map_eq_some_iff.mp handles
    exact ⟨rfl, accepted, bound⟩
  · cases handles

theorem findSome?_handles {segments : List Str} (split : path.splitOn '/' = segments) :
    routes.findSome? (·.handles method path) = routes.findSome? fun route =>
      if method ∈ route.methods then (bindParts route.parts segments).map (route.endpoint, ·) else none := by
  simp only [Route.handles, Route.arguments, split]

theorem routed_iff :
    Routed routes method path ↔ (routes.findSome? (·.handles method path)).isSome = true := by
  simp [Routed, List.findSome?_isSome_iff, handles_isSome]

theorem dispatch_cases :
    (∃ endpoint arguments, Routed routes method path ∧
      routes.findSome? (·.handles method path) = some (endpoint, arguments) ∧
      dispatch routes method path = .handled endpoint arguments) ∨
    (¬Routed routes method path ∧ (dispatch routes method path = .methodNotAllowed ∨
      dispatch routes method path = .redirected (otherSlash path) ∨ dispatch routes method path = .notFound)) := by
  unfold dispatch
  rw [routed_iff]
  split
  next endpoint arguments search => exact .inl ⟨endpoint, arguments, by simp [search], search, rfl⟩
  next search =>
    refine .inr ⟨by simp [search], ?_⟩
    split
    · exact .inl rfl
    · split
      · exact .inr (.inl rfl)
      · exact .inr (.inr rfl)

theorem bindParts_literal {text : Str} {part : Part} {parts : List Part} {segments : List Str}
    (bound : (bindParts (.literal text :: part :: parts) segments).isSome = true) :
    ∃ rest, segments = text :: rest ∧ (bindParts (part :: parts) rest).isSome = true := by
  cases segments with
  | nil => cases bound
  | cons segment rest =>
    unfold bindParts at bound
    split at bound
    next same => exact ⟨rest, by simpa using same, bound⟩
    next => cases bound

theorem bindParts_last {text : Str} {segments : List Str} (bound : (bindParts [.literal text] segments).isSome = true) :
    segments = [text] ∨ segments = [text ++ ['\n']] := by
  cases segments with
  | nil => cases bound
  | cons segment rest =>
    unfold bindParts at bound
    split at bound
    next same =>
      cases rest with
      | nil => simpa using same
      | cons => cases bound
    next => cases bound

theorem bindParts_nonempty {part : Part} {parts : List Part} {segments : List Str}
    (bound : (bindParts (part :: parts) segments).isSome = true) : segments ≠ [] := by
  rintro rfl
  cases part <;> cases parts <;> cases bound

theorem bindParts_subset {parts : List Part} {segments arguments : List Str}
    (bound : bindParts parts segments = some arguments) : arguments ⊆ segments := by
  fun_induction bindParts parts segments generalizing arguments with
  | case1 | case7 =>
    cases bound
    exact List.nil_subset _
  | case2 text parts segment rest _ ih => exact List.subset_cons_of_subset _ (ih bound)
  | case3 | case4 | case6 | case8 => cases bound
  | case5 parts segment rest _ ih =>
    obtain ⟨others, boundRest, rfl⟩ := Option.map_eq_some_iff.mp bound
    exact List.cons_subset_cons _ (ih boundRest)

end Routing
