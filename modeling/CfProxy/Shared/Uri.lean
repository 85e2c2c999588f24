import Mathlib.Data.List.TakeWhile
import CfProxy.Shared.Python

set_option autoImplicit false

namespace Uri

-- `/` before each segment.
def render (segments : List Str) : Str := segments.flatMap ('/' :: ·)

def endsPath (c : Char) : Bool := c == '?' || c == '#'

def pathText (reference : Str) : Str := reference.takeWhile (!endsPath ·)

def queryText (reference : Str) : Option Str :=
  match reference.dropWhile (!endsPath ·) with
  | '?' :: rest => some (rest.takeWhile (· != '#'))
  | _ => none

def dot : Str := ['.']
def dotDot : Str := ['.', '.']

def removeDots : List Str → List Str → List Str
  | kept, [] => kept
  | kept, segment :: rest =>
    if segment = dot then removeDots kept rest
    else if segment = dotDot then removeDots kept.dropLast rest
    else removeDots (kept ++ [segment]) rest

def resolve (reference : Str) : List Str := removeDots [] ((pathText reference).splitOn '/').tail

structure PlainSegment (segment : Str) : Prop where
  notDot : segment ≠ dot
  notDotDot : segment ≠ dotDot
  stays : ∀ c ∈ segment, endsPath c = false

instance (segment : Str) : Decidable (PlainSegment segment) :=
  decidable_of_iff (segment ≠ dot ∧ segment ≠ dotDot ∧ ∀ c ∈ segment, endsPath c = false)
    ⟨fun ⟨notDot, notDotDot, stays⟩ => ⟨notDot, notDotDot, stays⟩,
      fun ⟨notDot, notDotDot, stays⟩ => ⟨notDot, notDotDot, stays⟩⟩

@[simp] theorem render_nil : render [] = [] := rfl

@[simp] theorem render_append (first second : List Str) :
    render (first ++ second) = render first ++ render second := by
  simp [render]

theorem render_cons (segment : Str) (rest : List Str) :
    render (segment :: rest) = '/' :: (segment ++ render rest) := by
  simp [render]

theorem splitOn_render (segments : List Str) (slashFree : ∀ segment ∈ segments, '/' ∉ segment) :
    (render segments).splitOn '/' = [] :: segments := by
  have joined : render segments = ['/'].intercalate ([] :: segments) := by
    induction segments with
    | nil => rfl
    | cons segment rest ih =>
      have before := ih fun other member => slashFree other (List.mem_cons_of_mem _ member)
      cases rest with
      | nil => simp [render, List.intercalate]
      | cons next rest => simp_all [render, List.intercalate]
  rw [joined]
  refine List.splitOn_intercalate '/' (fun segment member => ?_) (by simp)
  rcases List.mem_cons.mp member with rfl | member
  · simp
  · exact slashFree segment member

theorem length_splitOn (text : Str) (sep : Char) : (text.splitOn sep).length = text.count sep + 1 := by
  induction text with
  | nil => simp
  | cons c rest ih =>
    by_cases same : c = sep <;> simp [List.splitOn_cons_eq_if_modifyHead, same, ih]

theorem removeDots_plain (kept segments : List Str)
    (plain : ∀ segment ∈ segments, segment ≠ dot ∧ segment ≠ dotDot) :
    removeDots kept segments = kept ++ segments := by
  induction segments generalizing kept with
  | nil => simp [removeDots]
  | cons segment rest ih =>
    have here := plain segment (by simp)
    have later := ih (kept ++ [segment]) fun other member => plain other (List.mem_cons_of_mem _ member)
    simp [removeDots, here, later]

theorem removeDots_length (kept segments : List Str) :
    (removeDots kept segments).length ≤ kept.length + segments.length := by
  induction segments generalizing kept with
  | nil => simp [removeDots]
  | cons segment rest ih =>
    unfold removeDots
    split
    · have later := ih kept
      simp only [List.length_cons]
      omega
    · split
      · have later := ih kept.dropLast
        simp only [List.length_cons, List.length_dropLast] at later ⊢
        omega
      · have later := ih (kept ++ [segment])
        simp only [List.length_append, List.length_cons, List.length_nil] at later ⊢
        omega

theorem removeDots_shorter (kept segments : List Str)
    (dotted : ∃ segment ∈ segments, segment = dot ∨ segment = dotDot) :
    (removeDots kept segments).length < kept.length + segments.length := by
  induction segments generalizing kept with
  | nil => simp at dotted
  | cons segment rest ih =>
    unfold removeDots
    split
    · have bound := removeDots_length kept rest
      simp only [List.length_cons]
      omega
    · split
      · have bound := removeDots_length kept.dropLast rest
        simp only [List.length_cons, List.length_dropLast] at bound ⊢
        omega
      · have later := ih (kept ++ [segment]) (by simp_all)
        simp only [List.length_append, List.length_cons, List.length_nil] at later ⊢
        omega

theorem pathText_eq_self {reference : Str} (stays : ∀ c ∈ reference, endsPath c = false) :
    pathText reference = reference := by
  rw [pathText, List.takeWhile_eq_self_iff]
  simpa using stays

theorem queryText_eq_none {reference : Str} (stays : ∀ c ∈ reference, endsPath c = false) :
    queryText reference = none := by
  have nothing : reference.dropWhile (!endsPath ·) = [] := by
    rw [List.dropWhile_eq_nil_iff]
    simpa using stays
  rw [queryText, nothing]

theorem pathText_rooted (segments : List Str) :
    (pathText (render segments)).splitOn '/' = [] :: ((pathText (render segments)).splitOn '/').tail := by
  cases segments with
  | nil => rfl
  | cons segment rest =>
    have rooted : pathText (render (segment :: rest)) = '/' :: pathText (segment ++ render rest) := by
      simp [render, pathText, endsPath]
    rw [rooted, List.splitOn_cons_eq_if_modifyHead]
    simp

theorem mem_render {segments : List Str} {c : Char} (member : c ∈ render segments) :
    c = '/' ∨ ∃ segment ∈ segments, c ∈ segment := by
  simp only [render, List.mem_flatMap, List.mem_cons] at member
  obtain ⟨segment, inside, rfl | here⟩ := member
  · exact .inl rfl
  · exact .inr ⟨segment, inside, here⟩

theorem resolve_render {segments : List Str} (slashFree : ∀ segment ∈ segments, '/' ∉ segment) :
    (resolve (render segments) = segments ∧ queryText (render segments) = none) ↔
      ∀ segment ∈ segments, PlainSegment segment := by
  constructor
  · rintro ⟨resolved, -⟩
    have split := splitOn_render segments slashFree
    have shorter : (pathText (render segments)).count '/' ≤ (render segments).count '/' :=
      (List.takeWhile_prefix _).sublist.count_le '/'
    have whole := length_splitOn (render segments) '/'
    have part := length_splitOn (pathText (render segments)) '/'
    rw [split, List.length_cons] at whole
    have undotted : ∀ segment ∈ ((pathText (render segments)).splitOn '/').tail,
        segment ≠ dot ∧ segment ≠ dotDot := by
      by_contra some
      push Not at some
      obtain ⟨segment, member, dotted⟩ := some
      have fewer := removeDots_shorter [] _ ⟨segment, member, by tauto⟩
      rw [← resolve, resolved, List.length_tail] at fewer
      simp only [List.length_nil] at fewer
      omega
    have parts : ((pathText (render segments)).splitOn '/').tail = segments := by
      rw [resolve, removeDots_plain _ _ undotted, List.nil_append] at resolved
      exact resolved
    have untouched : pathText (render segments) = render segments := by
      have same : (pathText (render segments)).splitOn '/' = (render segments).splitOn '/' := by
        rw [pathText_rooted, parts, split]
      have joined := congrArg ['/'].intercalate same
      rwa [List.intercalate_splitOn, List.intercalate_splitOn] at joined
    have stays := List.takeWhile_eq_self_iff.mp untouched
    intro segment member
    refine ⟨(undotted segment (by rwa [parts])).1, (undotted segment (by rwa [parts])).2, fun c here => ?_⟩
    have inside : c ∈ render segments := List.mem_flatMap.mpr ⟨segment, member, List.mem_cons_of_mem _ here⟩
    simpa using stays c inside
  · intro plain
    have stays : ∀ c ∈ render segments, endsPath c = false := by
      intro c member
      rcases mem_render member with rfl | ⟨segment, inside, here⟩
      · rfl
      · exact (plain segment inside).stays c here
    refine ⟨?_, queryText_eq_none stays⟩
    rw [resolve, pathText_eq_self stays, splitOn_render segments slashFree, List.tail_cons,
      removeDots_plain _ _ fun segment member => ⟨(plain segment member).notDot, (plain segment member).notDotDot⟩,
      List.nil_append]

end Uri
