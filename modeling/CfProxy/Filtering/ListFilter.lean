import CfProxy.Authz.Scope

set_option autoImplicit false

namespace CfProxy.ListFilter

open Text Scope

def readable (u : Unicode) (rules : List ScopeRule) (zoneId : Str) (record : Json) : Except PyError Bool := do
  matchRules u rules zoneId (← record.getAttr nameKey) (← record.getAttr typeKey) (← record.getAttr idKey) .read

def filterRecords (u : Unicode) (rules : List ScopeRule) (zoneId : Str) : List Json → Except PyError (List Json)
  | [] => .ok []
  | record :: rest => do
    let keep ← readable u rules zoneId record
    let others ← filterRecords u rules zoneId rest
    return if keep then record :: others else others

theorem filterRecords_filter {u : Unicode} {rules : List ScopeRule} {zoneId : Str} {records : List Json.Dict}
    {keeps : Json.Dict → Bool}
    (decided : ∀ record ∈ records, readable u rules zoneId (.obj record) = .ok (keeps record)) :
    filterRecords u rules zoneId (records.map .obj) = .ok ((records.filter keeps).map .obj) := by
  induction records with
  | nil => rfl
  | cons record rest ih =>
    have later := ih fun other member => decided other (List.mem_cons_of_mem _ member)
    rw [List.map_cons, filterRecords, decided record (by simp), later]
    cases keep : keeps record <;> simp [keep]

def paginateAndResultInfo (records : List Json) (page perPage : Int) : List Json × Json :=
  let totalCount : Int := records.length
  let totalPages : Int := if 0 < perPage then -((-totalCount).fdiv perPage) else 0
  let start := (page - 1) * perPage
  let pageRecords := slice records start (start + perPage)
  (pageRecords, .obj [("page".toList, .num page), ("per_page".toList, .num perPage),
    ("count".toList, .num pageRecords.length), ("total_count".toList, .num totalCount),
    ("total_pages".toList, .num totalPages)])

end CfProxy.ListFilter
