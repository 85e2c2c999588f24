import CfProxy.Shared.Traced

set_option autoImplicit false

namespace PageLoop

variable {ε α : Type}

-- A loop over numbered pages. A page gives its items and says whether it is the last one, or nothing: then what was
-- found before it is the answer.
def collect (exhausted : PyError) (fetch : Nat → Traced ε (Option (List α × Bool))) :
    Nat → Nat → List α → Traced ε (List α)
  | 0, _, _ => Traced.raise exhausted
  | fuel + 1, page, found => do
    match ← fetch page with
    | none => return found
    | some (items, isLast) =>
      if isLast then return found ++ items
      collect exhausted fetch fuel (page + 1) (found ++ items)

section

variable {exhausted : PyError} {fetch : Nat → Traced ε (Option (List α × Bool))} {page : Nat} {events : List ε}
variable {items : List α} (fuel : Nat) (found : List α)

theorem collect_last (fetched : fetch page = ⟨events, .ok (some (items, true))⟩) :
    collect exhausted fetch (fuel + 1) page found = ⟨events, .ok (found ++ items)⟩ := by
  simp [collect, fetched]

theorem collect_more (fetched : fetch page = ⟨events, .ok (some (items, false))⟩) :
    collect exhausted fetch (fuel + 1) page found =
      ⟨events ++ (collect exhausted fetch fuel (page + 1) (found ++ items)).events,
        (collect exhausted fetch fuel (page + 1) (found ++ items)).result⟩ := by
  simp [collect, fetched]

theorem collect_stops (fetched : fetch page = ⟨events, .ok none⟩) :
    collect exhausted fetch (fuel + 1) page found = ⟨events, .ok found⟩ := by
  simp [collect, fetched]

theorem collect_raises {raised : PyError} (fetched : fetch page = ⟨events, .error raised⟩) :
    collect exhausted fetch (fuel + 1) page found = ⟨events, .error raised⟩ := by
  simp [collect, fetched]

end

variable {exhausted : PyError} {fetch : Nat → Traced ε (Option (List α × Bool))} {events : Nat → List ε}

theorem collect_after {pages : List (List α)} {page : Nat}
    (further : ∀ index, ∀ inside : index < pages.length,
      fetch (page + index) = ⟨events (page + index), .ok (some (pages[index], false))⟩)
    (fuel : Nat) (found : List α) :
    collect exhausted fetch (fuel + pages.length) page found =
      ⟨(List.range' page pages.length).flatMap events ++
          (collect exhausted fetch fuel (page + pages.length) (found ++ pages.flatten)).events,
        (collect exhausted fetch fuel (page + pages.length) (found ++ pages.flatten)).result⟩ := by
  induction pages generalizing page found with
  | nil => simp
  | cons items rest ih =>
    have first : fetch page = ⟨events page, .ok (some (items, false))⟩ := further 0 (by simp)
    have later : ∀ index, ∀ inside : index < rest.length,
        fetch (page + 1 + index) = ⟨events (page + 1 + index), .ok (some (rest[index], false))⟩ := by
      intro index inside
      have shifted := further (index + 1) (by simpa using inside)
      rw [← Nat.add_assoc, Nat.add_right_comm] at shifted
      exact shifted
    rw [List.length_cons, ← Nat.add_assoc, collect_more _ found first, ih later]
    simp [List.range'_succ, Nat.add_assoc, Nat.add_comm 1]

end PageLoop
