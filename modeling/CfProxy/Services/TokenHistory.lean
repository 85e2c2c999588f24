import Mathlib.Data.List.Nodup
import CfProxy.Services.TokenPlane

set_option autoImplicit false

namespace CfProxy.TokenPlane

open Scope Models Cache Crypto

def Change.tokenId : Change → Str
  | .minted token _ _ => token.id
  | .rotated tokenId _ | .revoked tokenId => tokenId

def Change.generated : Change → Option Generated
  | .minted _ _ generated | .rotated _ generated => some generated
  | .revoked _ => none

def Change.issues (tokenId : Str) (change : Change) : Option Generated :=
  if change.tokenId = tokenId then change.generated else none

def current (tokenId : Str) (history : List Change) : Option Generated := history.findSome? (·.issues tokenId)

def Minted (history : List Change) (token : ScopedToken) (rules : List ScopeRule) : Prop :=
  ∃ generated, .minted token rules generated ∈ history

def Revoked (history : List Change) (tokenId : Str) : Prop := .revoked tokenId ∈ history

def drawn (history : List Change) : List Str := history.filterMap fun change => change.generated.map (·.lookupId)

variable {history newer : List Change} {change : Change} {tokenId other : Str} {generated drawnOther : Generated}

theorem current_cons : current tokenId (change :: history) =
    (change.issues tokenId).or (current tokenId history) := by
  cases issued : change.issues tokenId <;> simp [current, issued]

theorem current_mem (found : current tokenId history = some generated) :
    ∃ change ∈ history, change.issues tokenId = some generated :=
  List.exists_of_findSome?_eq_some found

theorem Change.issues_some (issued : change.issues tokenId = some generated) :
    change.tokenId = tokenId ∧ change.generated = some generated := by
  unfold Change.issues at issued
  split at issued
  · exact ⟨‹_›, issued⟩
  · simp at issued

theorem mem_drawn (member : change ∈ history) (draws : change.generated = some generated) :
    generated.lookupId ∈ drawn history :=
  List.mem_filterMap.mpr ⟨change, member, by simp [draws]⟩

theorem filterMap_inj {α β : Type} {f : α → Option β} {values : List α} (distinct : (values.filterMap f).Nodup)
    {first second : α} {image : β} (firstMember : first ∈ values) (secondMember : second ∈ values)
    (firstImage : f first = some image) (secondImage : f second = some image) : first = second := by
  induction values with
  | nil => simp at firstMember
  | cons value rest ih =>
    have later : (rest.filterMap f).Nodup := by
      cases mapped : f value <;> simp_all
    -- The image of the head occurs nowhere in the rest.
    have apart : ∀ other ∈ rest, f value = some image → f other ≠ some image := by
      intro other member here there
      rw [List.filterMap_cons_some here, List.nodup_cons] at distinct
      exact distinct.1 (List.mem_filterMap.mpr ⟨other, member, there⟩)
    rcases List.mem_cons.mp firstMember with rfl | firstLater
    · rcases List.mem_cons.mp secondMember with rfl | secondLater
      · rfl
      · exact absurd secondImage (apart second secondLater firstImage)
    · rcases List.mem_cons.mp secondMember with rfl | secondLater
      · exact absurd firstImage (apart first firstLater secondImage)
      · exact ih later firstLater secondLater

theorem drawn_inj (fresh : (drawn history).Nodup) {first second : Change} (firstMember : first ∈ history)
    (secondMember : second ∈ history) (firstDraws : first.generated = some generated)
    (secondDraws : second.generated = some drawnOther) (same : generated.lookupId = drawnOther.lookupId) :
    first = second := by
  have firstImage : first.generated.map (·.lookupId) = some generated.lookupId := by simp [firstDraws]
  have secondImage : second.generated.map (·.lookupId) = some generated.lookupId := by simp [secondDraws, same]
  exact filterMap_inj fresh firstMember secondMember firstImage secondImage

theorem current_inj (fresh : (drawn history).Nodup) (mine : current tokenId history = some generated)
    (theirs : current other history = some drawnOther) (same : generated.lookupId = drawnOther.lookupId) :
    tokenId = other := by
  obtain ⟨first, firstMember, firstIssues⟩ := current_mem mine
  obtain ⟨second, secondMember, secondIssues⟩ := current_mem theirs
  obtain ⟨firstId, firstDraws⟩ := Change.issues_some firstIssues
  obtain ⟨secondId, secondDraws⟩ := Change.issues_some secondIssues
  rw [← firstId, ← secondId, drawn_inj fresh firstMember secondMember firstDraws secondDraws same]

theorem current_after_rotation {older : List Change}
    (fresh : (drawn (newer ++ .rotated tokenId drawnOther :: older)).Nodup)
    (found : current tokenId (newer ++ .rotated tokenId drawnOther :: older) = some generated)
    (member : change ∈ older) {before : Generated} (draws : change.generated = some before) :
    generated.lookupId ≠ before.lookupId := by
  have issues : Change.issues tokenId (.rotated tokenId drawnOther) = some drawnOther := by
    simp [Change.issues, Change.tokenId, Change.generated]
  have recent : generated.lookupId ∈ drawn (newer ++ [.rotated tokenId drawnOther]) := by
    rw [current, List.findSome?_append, List.findSome?_cons, issues] at found
    cases late : newer.findSome? (·.issues tokenId) with
    | some latest =>
      obtain rfl : latest = generated := by simpa [late] using found
      obtain ⟨newest, inside, drew⟩ := current_mem late
      exact mem_drawn (List.mem_append_left _ inside) (Change.issues_some drew).2
    | none =>
      obtain rfl : drawnOther = generated := by simpa [late] using found
      have rotation : Change.rotated tokenId drawnOther ∈ newer ++ [.rotated tokenId drawnOther] := by simp
      exact mem_drawn rotation rfl
  have split : drawn (newer ++ .rotated tokenId drawnOther :: older) =
      drawn (newer ++ [.rotated tokenId drawnOther]) ++ drawn older := by
    rw [List.append_cons, drawn, List.filterMap_append]
    rfl
  rw [split, List.nodup_append] at fresh
  exact fresh.2.2 _ recent _ (mem_drawn member draws)

theorem drawn_suffix (older : history <:+ newer) (fresh : (drawn newer).Nodup) : (drawn history).Nodup :=
  (older.sublist.filterMap _).nodup fresh

theorem full_lookupId {brand : Str} (plainBrand : '_' ∉ brand)
    (same : generated.full brand = drawnOther.full brand) : generated.lookupId = drawnOther.lookupId := by
  have first := parseScopedToken_full .asciiOnly plainBrand generated
  rw [same, parseScopedToken_full .asciiOnly plainBrand drawnOther] at first
  simpa using (congrArg (·.map Prod.fst) first).symm

end CfProxy.TokenPlane
