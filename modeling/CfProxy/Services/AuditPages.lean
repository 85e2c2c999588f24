import CfProxy.Services.AuditService
import CfProxy.Shared.Ordering

set_option autoImplicit false

namespace CfProxy.AuditService

open Paging

-- A row with its primary key, by which rows of equal content stay apart.
structure AuditEntry where
  id : Str
  log : AuditLog

def AuditEntry.time (entry : AuditEntry) : Int := entry.log.ts.wall

def matching (userId : Str) (query : LogQuery) (table : List AuditEntry) : List AuditEntry :=
  table.filter fun entry => entry.log.row.userId == userId && query.admits entry.log

-- One query of a page, answered in an order that `ORDER BY ts DESC` allows.
def LogQuery.pageIn (query : LogQuery) (order : List AuditEntry) : List AuditEntry :=
  (order.drop ((query.page - 1) * query.perPage)).take query.perPage

def pageCount (total perPage : Nat) : Nat := (total + perPage - 1) / perPage

def allPages (query : LogQuery) (orders : Nat → List AuditEntry) (total : Nat) : List AuditEntry :=
  (List.range (pageCount total query.perPage)).flatMap fun index => { query with page := index + 1 }.pageIn (orders index)

theorem allPages_collected (query : LogQuery) (orders : Nat → List AuditEntry) (total : Nat) :
    allPages query orders total = collected query.perPage orders (pageCount total query.perPage) := rfl

theorem pageCount_enough {perPage : Nat} (positive : 0 < perPage) (total : Nat) :
    total ≤ pageCount total perPage * perPage := by
  have rounded := Nat.lt_div_mul_add (a := total + perPage - 1) positive
  unfold pageCount
  omega

def PagesComplete (table : List AuditEntry) (userId : Str) (query : LogQuery) : Prop :=
  ∀ orders : Nat → List AuditEntry,
    (∀ index, Ordered AuditEntry.time (matching userId query table) (orders index)) →
      (allPages query orders (matching userId query table).length).Perm (matching userId query table) ∧
      (allPages query orders (matching userId query table).length).Pairwise fun first second => second.time ≤ first.time

-- The timestamps of the matching entries, newest first.
def timestamps (table : List AuditEntry) (userId : Str) (query : LogQuery) : List Int :=
  sortedKeys AuditEntry.time (matching userId query table)

theorem pages_complete_iff {table : List AuditEntry} (primaryKey : (table.map (·.id)).Nodup) (userId : Str)
    (query : LogQuery) (positive : 0 < query.perPage) :
    PagesComplete table userId query ↔ ∀ page, ¬TieAcross (timestamps table userId query) (page * query.perPage) := by
  have distinct : (matching userId query table).Nodup := (List.Nodup.of_map _ primaryKey).filter _
  rw [timestamps, ← collected_perm_iff distinct (pageCount_enough positive _)]
  simp only [PagesComplete, allPages_collected]
  constructor
  · exact fun complete orders ordered => (complete orders ordered).1
  · exact fun complete orders ordered => ⟨complete orders ordered, collected_sorted ordered _⟩

theorem listAuditLogs_page {s : Store} {table : List AuditEntry} (stored : s.auditLogs = table.map (·.log))
    (userId : Str) (query : LogQuery) :
    ∃ order, Ordered AuditEntry.time (matching userId query table) order ∧
      listAuditLogs userId query s =
        (.ok ⟨(query.pageIn order).map (·.log), query.page, query.perPage, (matching userId query table).length⟩, s) := by
  have selected : (s.auditLogs.filter fun log => log.row.userId == userId && query.admits log) =
      (matching userId query table).map (·.log) := by
    rw [stored, List.filter_map]
    rfl
  have sorted : newestFirst ((matching userId query table).map (·.log)) =
      ((matching userId query table).mergeSort fun first second => second.time ≤ first.time).map (·.log) :=
    (List.map_mergeSort (f := AuditEntry.log) fun _ _ _ _ => rfl).symm
  refine ⟨_, ordered_mergeSort AuditEntry.time _, ?_⟩
  simp only [listAuditLogs, Stateful.reads, Stateful.query, selected, pageOf, sorted, LogQuery.pageIn, List.map_drop,
    List.map_take, List.length_map]

section Example

-- Two requests within one timestamp unit.
def tiedRow (tokenId : Str) : AuditRow where
  userId := ['u']
  scopedTokenId := tokenId
  tokenPrefix := []
  method := "GET".toList
  path := []
  allow := true
  zoneId := ['z']
  recordId := none
  recordName := .null
  recordType := .null
  preImage := .null
  postImage := .null
  denyReason := none
  upstreamStatus := none
  clientIp := none

def tiedEntries : List AuditEntry := [⟨['1'], .utc 0, tiedRow ['s']⟩, ⟨['2'], .utc 0, tiedRow ['t']⟩]

def everything (perPage : Nat) : LogQuery := ⟨none, none, none, 1, perPage⟩

theorem pages_incomplete : ¬PagesComplete tiedEntries ['u'] (everything 1) := by
  intro complete
  have ordered (index : Nat) : Ordered AuditEntry.time (matching ['u'] (everything 1) tiedEntries)
      (if index = 0 then tiedEntries else tiedEntries.reverse) := by
    split
    · exact ⟨.refl _, by decide⟩
    · exact ⟨List.reverse_perm tiedEntries, by decide⟩
  obtain ⟨whole, -⟩ := complete _ ordered
  have ids := whole.map (·.id)
  revert ids
  decide

def spacedEntries : List AuditEntry := tiedEntries ++ [⟨['3'], .utc 1, tiedRow ['s']⟩, ⟨['4'], .utc 2, tiedRow ['t']⟩]

def entriesOf (tokenId : Str) (perPage : Nat) : LogQuery := { everything perPage with tokenId := some tokenId }

-- One token's entries have different timestamps: a page of one entry for each of them.
theorem pages_complete_of_two : (matching ['u'] (entriesOf ['t'] 1) spacedEntries).length = 2 ∧
    PagesComplete spacedEntries ['u'] (entriesOf ['t'] 1) := by
  have distinct : ((matching ['u'] (entriesOf ['t'] 1) spacedEntries).map AuditEntry.time).Nodup := by decide
  refine ⟨by decide, ?_⟩
  exact (pages_complete_iff (by decide) ['u'] (entriesOf ['t'] 1) (by decide)).mpr fun page => untied_of_nodup distinct _

end Example

end CfProxy.AuditService
