import Mathlib.Algebra.Order.Ring.Rat
import Mathlib.Data.Nat.Cast.Order.Ring
import CfProxy.Upstream.Client

set_option autoImplicit false

namespace CfProxy.Client

def fetchRequest (w : World) (zoneId recordId : Str) (authHeaders : Headers) : UpstreamRequest where
  method := getMethod
  path := recordPath zoneId recordId
  headers := forwardedHeaders w.unicode none authHeaders
  params := none
  content := none

structure FetchReply (response : Response) (found : Option Json.Dict) : Prop where
  missing : found = none → response.status = 404
  present : ∀ image, found = some image → 200 ≤ response.status ∧ response.status ≤ 299 ∧
    ∃ fields, response.json = .ok (.obj fields) ∧ fields.lookup resultKey = some (.obj image)

theorem fetchCfRecord_shows {w : World} {zoneId recordId : Str} {authHeaders : Headers} {response : Response}
    {found : Option Json.Dict} (replied : w.reply (fetchRequest w zoneId recordId authHeaders) = .ok response)
    (reply : FetchReply response found) :
    fetchCfRecord w zoneId recordId authHeaders =
      ⟨[.sent (fetchRequest w zoneId recordId authHeaders),
          .received (fetchRequest w zoneId recordId authHeaders) response.status],
        .ok (found.elim .null .obj)⟩ := by
  have exchanged : forwardRequest w getMethod (recordPath zoneId recordId) none none none authHeaders =
      ⟨[.sent (fetchRequest w zoneId recordId authHeaders),
        .received (fetchRequest w zoneId recordId authHeaders) response.status], .ok response⟩ :=
    exchange_replied replied
  cases found with
  | none =>
    have missing := reply.missing rfl
    simp [fetchCfRecord, exchanged, missing]
  | some image =>
    obtain ⟨low, high, fields, parsed, result⟩ := reply.present image rfl
    have present : response.status ≠ 404 := by omega
    simp [fetchCfRecord, exchanged, present, raiseForStatus, low, high, parsed, Json.item, result, Traced.lift]

def pageRequest (w : World) (zoneId : Str) (params : List (Str × Json)) (authHeaders : Headers) (page : Nat) :
    UpstreamRequest where
  method := getMethod
  path := collectionPath zoneId
  headers := forwardedHeaders w.unicode none authHeaders
  params := some (pageParams params page)
  content := none

structure ListReply (response : Response) (items : List Json) (totalPages : Nat) : Prop where
  success : 200 ≤ response.status ∧ response.status ≤ 299
  body : ∃ fields info, response.json = .ok (.obj fields) ∧
    Json.get fields resultKey = .arr items ∧ Json.get fields resultInfoKey = .obj info ∧
    info.lookup totalPagesKey = some (.num totalPages)

inductive PagesFrom (w : World) (zoneId : Str) (params : List (Str × Json)) (authHeaders : Headers)
    (totalPages : Nat) : Nat → List (List Json) → Prop
  | last {page : Nat} {items : List Json} {response : Response}
      (replied : w.reply (pageRequest w zoneId params authHeaders page) = .ok response)
      (listed : ListReply response items totalPages) (done : totalPages ≤ page) :
      PagesFrom w zoneId params authHeaders totalPages page [items]
  | more {page : Nat} {items : List Json} {response : Response} {rest : List (List Json)}
      (replied : w.reply (pageRequest w zoneId params authHeaders page) = .ok response)
      (listed : ListReply response items totalPages) (further : page < totalPages)
      (later : PagesFrom w zoneId params authHeaders totalPages (page + 1) rest) :
      PagesFrom w zoneId params authHeaders totalPages page (items :: rest)

theorem iterate_arr (items : List Json) : Json.iterate (.arr items) = .ok items := by
  cases items <;> simp [Json.iterate, Json.truthy]

theorem readPage_list {response : Response} {items : List Json} {totalPages : Nat}
    (listed : ListReply response items totalPages) (page : Nat) :
    ∃ body, response.json = .ok body ∧ readPage body page = .ok (items, decide (totalPages ≤ page)) := by
  obtain ⟨fields, info, parsed, result, resultInfo, total⟩ := listed.body
  refine ⟨.obj fields, parsed, ?_⟩
  have nonempty : info ≠ [] := by
    intro empty
    simp [empty] at total
  simp [readPage, Json.getAttr, result, resultInfo, iterate_arr, nonempty, Json.getD, total, Json.number, Nat.cast_le]

variable {w : World} {zoneId : Str} {params : List (Str × Json)} {authHeaders : Headers} {totalPages page : Nat}

theorem listPages_round {items : List Json} {response : Response}
    (replied : w.reply (pageRequest w zoneId params authHeaders page) = .ok response)
    (listed : ListReply response items totalPages) (fuel : Nat) (records : List Json) :
    (listPages w zoneId params authHeaders (fuel + 1) page records).result =
      if totalPages ≤ page then .ok (records ++ items)
      else (listPages w zoneId params authHeaders fuel (page + 1) (records ++ items)).result := by
  obtain ⟨body, parsed, read⟩ := readPage_list listed page
  have exchanged : forwardRequest w getMethod (collectionPath zoneId) none (some (pageParams params page)) none
      authHeaders = ⟨[.sent _, .received _ response.status], .ok response⟩ := exchange_replied replied
  have success : raiseForStatus response = .ok () := by
    simp [raiseForStatus, listed.success]
  by_cases done : totalPages ≤ page <;>
    simp [listPages, exchanged, success, parsed, read, done, Traced.lift]

theorem listPages_collects {pages : List (List Json)}
    (split : PagesFrom w zoneId params authHeaders totalPages page pages) (fuel : Nat)
    (enough : pages.length ≤ fuel) (records : List Json) :
    (listPages w zoneId params authHeaders fuel page records).result = .ok (records ++ pages.flatten) := by
  induction split generalizing fuel records with
  | @last page items response replied listed done =>
    obtain ⟨fuel, rfl⟩ := Nat.exists_eq_add_of_le' enough
    simp [listPages_round replied listed, done]
  | @more page items response rest replied listed further later ih =>
    obtain ⟨fuel, rfl⟩ := Nat.exists_eq_add_of_le' enough
    have tail := ih (fuel + rest.length) (by omega) (records ++ items)
    have round := listPages_round replied listed (fuel + rest.length) records
    rw [if_neg (by omega), tail] at round
    simpa [Nat.add_assoc] using round

end CfProxy.Client
