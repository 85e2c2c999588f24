import CfProxy.Services.Store

set_option autoImplicit false

namespace CfProxy.AuditService

structure LogQuery where
  tokenId : Option Str
  zoneId : Option Str
  since : Option Datetime
  page : Nat
  perPage : Nat

structure LogPage where
  entries : List AuditLog
  page : Nat
  perPage : Nat
  totalCount : Nat

def LogPage.count (logs : LogPage) : Nat := logs.entries.length

-- The columns are naive: what is compared is the wall clock.
def LogQuery.admits (query : LogQuery) (log : AuditLog) : Bool :=
  query.tokenId.all (log.row.scopedTokenId == ·) && query.zoneId.all (log.row.zoneId == ·) &&
    query.since.all (·.wall ≤ log.ts.wall)

def newestFirst (logs : List AuditLog) : List AuditLog := logs.mergeSort fun first second => second.ts.wall ≤ first.ts.wall

def pageOf (query : LogQuery) (logs : List AuditLog) : LogPage where
  entries := ((newestFirst logs).drop ((query.page - 1) * query.perPage)).take query.perPage
  page := query.page
  perPage := query.perPage
  totalCount := logs.length

def listAuditLogs (userId : Str) (query : LogQuery) : Operation LogPage :=
  .reads fun s => pageOf query (s.auditLogs.filter fun log => log.row.userId == userId && query.admits log)

def writeAudit (log : AuditLog) : Operation Unit :=
  .modify fun s => { s with auditLogs := s.auditLogs ++ [log] }

end CfProxy.AuditService
